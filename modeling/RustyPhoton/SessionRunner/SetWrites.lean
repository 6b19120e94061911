import RustyPhoton.Lib.DeepEq
import RustyPhoton.SessionRunner.Blackboard
import RustyPhoton.SessionRunner.Document.SetKeys

/-!
# The writes of one `set`

`set_path` walks the session in place and creates the objects that are missing on its way. Two
writes whose paths do not overlap part at some object, below which they touch different members, so
they may be swapped; and an object that a write created cannot make it fail further down, so a
failing write has changed nothing.
-/

namespace RustyPhoton.SessionRunner

open Lib Assoc

/-- The walk of `set_path` as it changes what is below `current`, also where it fails. -/
def setInPlace (key : String) (value : Value) : List String → String → Value →
    Value × Except SetPathError Unit
  | [], _, current => (current, .error .emptyPath)
  | [last], walked, current =>
      let current := if current.isNull then .object [] else current
      match current with
      | .object members => (.object (insert last value members), .ok ())
      | current => (current, .error (.notAnObject key walked))
  | seg :: rest, walked, current =>
      let current := if current.isNull then .object [] else current
      match current with
      | .object members =>
          let (inner, result) := setInPlace key value rest (walked ++ "." ++ seg)
            ((members.lookup seg).getD (.object []))
          (.object (insert seg inner members), result)
      | current => (current, .error (.notAnObject key walked))

/-- `Blackboard::set_path` on the session it holds. -/
def setPathInPlace (segments : List String) (value : Value) (session : Value) :
    Value × Except SetPathError Unit :=
  if segments.head?.any fun seg => seg.toList.head? = some '_' then
    (session, .error (.reserved (documentKey segments)))
  else setInPlace (documentKey segments) value segments "session" session

/-- What a write leaves: the written value, or the value as it was. -/
def leaves (before : Value) : Except SetPathError Value → Value × Except SetPathError Unit
  | .ok after => (after, .ok ())
  | .error e => (before, .error e)

/-- Below a created object nothing fails. -/
theorem setIn_empty (key : String) (value : Value) (seg : String) (rest : List String)
    (walked : String) : ∃ after, setIn key value (seg :: rest) walked (.object []) = .ok after := by
  induction rest generalizing seg walked with
  | nil => exact ⟨_, rfl⟩
  | cons next rest ih =>
    obtain ⟨after, hafter⟩ := ih next (walked ++ "." ++ seg)
    refine ⟨.object (insert seg after []), ?_⟩
    simp only [setIn, membersFor, List.lookup_nil, Option.getD_none, hafter]

/-- The walk in place changes what the written value says, and nothing where it fails. -/
theorem setInPlace_eq (key : String) (value : Value) (segments : List String) (walked : String)
    (current : Value) : setInPlace key value segments walked current =
      leaves current (setIn key value segments walked current) := by
  induction segments generalizing walked current with
  | nil => rfl
  | cons seg rest ih =>
    cases rest with
    | nil => cases current <;> rfl
    | cons next rest =>
      cases current with
      | null =>
        obtain ⟨after, hafter⟩ := setIn_empty key value next rest (walked ++ "." ++ seg)
        have hih := ih (walked ++ "." ++ seg) (.object [])
        rw [hafter] at hih
        simp [setInPlace, setIn, membersFor, Value.isNull, hih, hafter, leaves]
      | object members =>
        have hih := ih (walked ++ "." ++ seg) ((members.lookup seg).getD (.object []))
        cases hset : setIn key value (next :: rest) (walked ++ "." ++ seg)
            ((members.lookup seg).getD (.object [])) with
        | ok after =>
          rw [hset] at hih
          simp [setInPlace, setIn, membersFor, Value.isNull, hih, hset, leaves]
        | error e =>
          rw [hset] at hih
          -- the member was there: below a created one the write would have succeeded
          have hmember : ∃ old, members.lookup seg = some old := by
            cases hl : members.lookup seg with
            | some old => exact ⟨old, rfl⟩
            | none =>
              obtain ⟨after, hafter⟩ :=
                setIn_empty key value next rest (walked ++ "." ++ seg)
              rw [hl, Option.getD_none, hafter] at hset
              cases hset
          obtain ⟨old, hold⟩ := hmember
          rw [hold, Option.getD_some] at hih hset
          simp [setInPlace, setIn, membersFor, Value.isNull, hold, hih, hset, leaves,
            insert_of_lookup hold]
      | _ => rfl

theorem setPathInPlace_eq (segments : List String) (value session : Value) :
    setPathInPlace segments value session = leaves session (setPath segments value session) := by
  unfold setPathInPlace setPath
  split
  · rfl
  · exact setInPlace_eq _ _ _ _ _

/-! ## Writes as partial functions -/

/-- A write below a value; with no path left the value itself is replaced. -/
def place (value : Value) : List String → Value → Option Value
  | [], _ => some value
  | seg :: rest, current => do
      let members ← membersFor current
      let inner ← place value rest ((members.lookup seg).getD (.object []))
      pure (.object (insert seg inner members))

/-- Whether `set_path` refuses a path whatever the session holds. -/
def refused (segments : List String) : Bool :=
  segments.isEmpty || segments.head?.any fun seg => seg.toList.head? = some '_'

theorem setIn_toOption (key : String) (value : Value) (seg : String) (rest : List String)
    (walked : String) (current : Value) :
    (setIn key value (seg :: rest) walked current).toOption = place value (seg :: rest) current := by
  induction rest generalizing seg walked current with
  | nil =>
    cases hm : membersFor current <;> simp [setIn, place, hm, Except.toOption]
  | cons next rest ih =>
    cases hm : membersFor current with
    | none => simp [setIn, place, hm, Except.toOption]
    | some members =>
      have hih := ih next (walked ++ "." ++ seg) ((members.lookup seg).getD (.object []))
      rw [place]
      simp only [setIn, hm, Option.bind_eq_bind, Option.bind_some, Option.pure_def, ← hih]
      cases setIn key value (next :: rest) (walked ++ "." ++ seg)
        ((members.lookup seg).getD (.object [])) <;> simp [Except.toOption]

theorem setPath_toOption (segments : List String) (value session : Value) :
    (setPath segments value session).toOption =
      if refused segments then none else place value segments session := by
  cases segments with
  | nil => rfl
  | cons seg rest =>
    unfold setPath refused
    rw [List.isEmpty_cons, Bool.false_or]
    split
    · rfl
    · exact setIn_toOption _ value seg rest "session" session

variable {value after : Value}

theorem setPath_ok {segments : List String} {session : Value} :
    setPath segments value session = .ok after ↔
      refused segments = false ∧ place value segments session = some after := by
  have hok : setPath segments value session = .ok after ↔
      (setPath segments value session).toOption = some after := by
    cases setPath segments value session <;> simp [Except.toOption]
  rw [hok, setPath_toOption]
  cases refused segments <;> simp

/-! ## Two writes -/

/-- The session objects that the runner cannot tell apart. -/
abbrev SameValue : Value → Value → Prop := Value.DeepEq Eq

theorem sameValue_self (v : Value) : SameValue v v := .refl (fun _ => rfl) v

variable {members : List (String × Value)}

theorem mem_keys_insert {key other : String} :
    other ∈ keys (insert key value members) ↔
      other = key ∨ other ∈ keys members := by
  by_cases h : other = key
  · subst h
    rw [← lookup_isSome_iff, lookup_insert_self]
    simp
  · rw [← lookup_isSome_iff, lookup_insert_of_ne _ _ h, lookup_isSome_iff]
    simp [h]

/-- One member written on either side. -/
theorem sameValue_insert {l r : List (String × Value)} {v w : Value} (key : String)
    (h : SameValue (.object l) (.object r)) (hvalue : SameValue v w) :
    SameValue (.object (insert key v l)) (.object (insert key w r)) := by
  cases h with
  | object keys members =>
    refine .object (fun other => ?_) ?_
    · rw [mem_keys_insert, mem_keys_insert, keys]
    · intro other x y hx hy
      by_cases heq : other = key
      · subst heq
        rw [lookup_insert_self] at hx hy
        obtain rfl := Option.some.inj hx
        obtain rfl := Option.some.inj hy
        exact hvalue
      · rw [lookup_insert_of_ne _ _ heq] at hx hy
        exact members other x y hx hy

/-- Two members written in either order. -/
theorem sameValue_insert_comm {a b : String} (hne : a ≠ b) (x y : Value)
    (members : List (String × Value)) :
    SameValue (.object (insert b y (insert a x members)))
      (.object (insert a x (insert b y members))) := by
  have hlookup : ∀ key, (insert b y (insert a x members)).lookup key =
      (insert a x (insert b y members)).lookup key := by
    intro key
    by_cases hb : key = b
    · subst hb
      rw [lookup_insert_self, lookup_insert_of_ne _ _ (Ne.symm hne),
        lookup_insert_self]
    · by_cases ha : key = a
      · subst ha
        rw [lookup_insert_of_ne _ _ hb, lookup_insert_self, lookup_insert_self]
      · rw [lookup_insert_of_ne _ _ hb, lookup_insert_of_ne _ _ ha,
          lookup_insert_of_ne _ _ ha, lookup_insert_of_ne _ _ hb]
  refine .object (fun key => ?_) ?_
  · rw [← lookup_isSome_iff, hlookup, lookup_isSome_iff]
  · intro key v w hv hw
    rw [hlookup, hw] at hv
    exact Option.some.inj hv ▸ sameValue_self w

variable {s s' : Value}

theorem sameValue_membersFor (h : SameValue s s') (hm : membersFor s = some members) :
    ∃ members', membersFor s' = some members' ∧ SameValue (.object members) (.object members') := by
  cases h with
  | null =>
    obtain rfl := Option.some.inj hm
    exact ⟨[], rfl, sameValue_self _⟩
  | object keys h =>
    obtain rfl := Option.some.inj hm
    exact ⟨_, rfl, .object keys h⟩
  | _ => cases hm

/-- The member a write descends into, or the object it creates. -/
theorem sameValue_lookup {l r : List (String × Value)} (h : SameValue (.object l) (.object r))
    (key : String) :
    SameValue ((l.lookup key).getD (.object [])) ((r.lookup key).getD (.object [])) := by
  cases h with
  | object keys members =>
    cases hl : l.lookup key with
    | none =>
      have hr : r.lookup key = none := by
        refine lookup_eq_none ?_
        rw [← keys]
        exact not_mem_keys_of_lookup hl
      rw [hr]
      exact sameValue_self _
    | some v =>
      obtain ⟨w, hw⟩ := exists_lookup ((keys key).mp
        (lookup_isSome_iff.mp (by rw [hl]; rfl)))
      rw [hw]
      exact members key v w hl hw

/-- A write with a path succeeds where it can descend and the write below succeeds. -/
theorem place_cons {current : Value} {seg : String} {rest : List String} :
    place value (seg :: rest) current = some after ↔ ∃ members inner,
      membersFor current = some members ∧
      place value rest ((members.lookup seg).getD (.object [])) = some inner ∧
      after = .object (insert seg inner members) := by
  rw [place]
  simp only [Option.bind_eq_bind, Option.pure_def, Option.bind_eq_some_iff, Option.some.injEq]
  constructor
  · rintro ⟨members, hmembers, inner, hinner, rfl⟩
    exact ⟨members, inner, hmembers, hinner, rfl⟩
  · rintro ⟨members, inner, hmembers, hinner, rfl⟩
    exact ⟨members, hmembers, inner, hinner, rfl⟩

variable {path : List String}

/-- A write of the same value into the same session. -/
theorem place_congr (h : SameValue s s') (hplace : place value path s = some after) :
    ∃ after', place value path s' = some after' ∧ SameValue after after' := by
  induction path generalizing s s' after with
  | nil => exact ⟨value, rfl, Option.some.inj hplace ▸ sameValue_self _⟩
  | cons seg rest ih =>
    obtain ⟨members, inner, hmembers, hinner, rfl⟩ := place_cons.mp hplace
    obtain ⟨members', hmembers', hsame⟩ := sameValue_membersFor h hmembers
    obtain ⟨inner', hinner', hbelow⟩ := ih (sameValue_lookup hsame seg) hinner
    exact ⟨_, place_cons.mpr ⟨members', inner', hmembers', hinner', rfl⟩,
      sameValue_insert seg hsame hbelow⟩

/-- Two writes whose paths do not overlap may be swapped. -/
theorem place_swap {p q : List String} (hpq : ¬ p <+: q) (hqp : ¬ q <+: p)
    {v w middle : Value} (hfirst : place v p s = some middle)
    (hsecond : place w q middle = some after) :
    ∃ middle' after', place w q s = some middle' ∧ place v p middle' = some after' ∧
      SameValue after after' := by
  induction p generalizing q s middle after with
  | nil => exact absurd List.nil_prefix hpq
  | cons a p ih =>
    cases q with
    | nil => exact absurd List.nil_prefix hqp
    | cons b q =>
      obtain ⟨members, x, hmembers, hx, rfl⟩ := place_cons.mp hfirst
      obtain ⟨_, y, hmiddle, hy, rfl⟩ := place_cons.mp hsecond
      obtain rfl := Option.some.inj hmiddle
      by_cases hab : a = b
      · -- the paths part further down
        subst hab
        rw [lookup_insert_self, Option.getD_some] at hy
        have hpq' : ¬ p <+: q := fun h => hpq (List.cons_prefix_cons.mpr ⟨rfl, h⟩)
        have hqp' : ¬ q <+: p := fun h => hqp (List.cons_prefix_cons.mpr ⟨rfl, h⟩)
        obtain ⟨y', x', hy', hx', hsame⟩ := ih hpq' hqp' hx hy
        refine ⟨_, _, place_cons.mpr ⟨members, y', hmembers, hy', rfl⟩,
          place_cons.mpr ⟨_, x', rfl, ?_, rfl⟩, ?_⟩
        · rw [lookup_insert_self]
          exact hx'
        · rw [insert_insert_self, insert_insert_self]
          exact sameValue_insert a (sameValue_self _) hsame
      · -- they part here
        rw [lookup_insert_of_ne _ _ (Ne.symm hab)] at hy
        refine ⟨_, _, place_cons.mpr ⟨members, y, hmembers, hy, rfl⟩,
          place_cons.mpr ⟨_, x, rfl, ?_, rfl⟩, sameValue_insert_comm hab x y members⟩
        rw [lookup_insert_of_ne _ _ hab]
        exact hx

/-! ## All the writes of a `set` -/

theorem writeAll_cons {session : Value} {rest : List (List String × Value)} :
    writeAll ((path, value) :: rest) session = (after, none) ↔
      ∃ middle, refused path = false ∧ place value path session = some middle ∧
        writeAll rest middle = (after, none) := by
  rw [writeAll]
  constructor
  · intro h
    split at h
    · next middle hset =>
        obtain ⟨hrefused, hplace⟩ := setPath_ok.mp hset
        exact ⟨middle, hrefused, hplace, h⟩
    · cases h
  · rintro ⟨middle, hrefused, hplace, hrest⟩
    rw [setPath_ok.mpr ⟨hrefused, hplace⟩]
    exact hrest

variable {writes : List (List String × Value)}

/-- The same writes into the same session. -/
theorem writeAll_congr (hsame : SameValue s s') (h : writeAll writes s = (after, none)) :
    ∃ after', writeAll writes s' = (after', none) ∧ SameValue after after' := by
  induction writes generalizing s s' after with
  | nil =>
    obtain rfl := (Prod.mk.inj h).1
    exact ⟨s', rfl, hsame⟩
  | cons write rest ih =>
    obtain ⟨path, value⟩ := write
    obtain ⟨middle, hrefused, hplace, hrest⟩ := writeAll_cons.mp h
    obtain ⟨middle', hplace', hmiddle⟩ := place_congr hsame hplace
    obtain ⟨after', hrest', hafter⟩ := ih hmiddle hrest
    exact ⟨after', writeAll_cons.mpr ⟨middle', hrefused, hplace', hrest'⟩, hafter⟩

/-- Neither path is a prefix of the other. -/
def Apart (a b : List String × Value) : Prop := ¬ a.1 <+: b.1 ∧ ¬ b.1 <+: a.1

/-- Writes that all succeed do so in any other order, and leave the same session. -/
theorem writeAll_of_perm {others : List (List String × Value)} (hperm : writes.Perm others)
    (hapart : writes.Pairwise Apart) (hsame : SameValue s s')
    (h : writeAll writes s = (after, none)) :
    ∃ after', writeAll others s' = (after', none) ∧ SameValue after after' := by
  induction hperm generalizing s s' after with
  | nil =>
    obtain rfl := (Prod.mk.inj h).1
    exact ⟨s', rfl, hsame⟩
  | cons write _ ih =>
    obtain ⟨path, value⟩ := write
    obtain ⟨middle, hrefused, hplace, hrest⟩ := writeAll_cons.mp h
    obtain ⟨middle', hplace', hmiddle⟩ := place_congr hsame hplace
    obtain ⟨after', hrest', hafter⟩ := ih (List.pairwise_cons.mp hapart).2 hmiddle hrest
    exact ⟨after', writeAll_cons.mpr ⟨middle', hrefused, hplace', hrest'⟩, hafter⟩
  | swap first second rest =>
    obtain ⟨q, w⟩ := first
    obtain ⟨p, v⟩ := second
    obtain ⟨one, hrefused, hone, hmore⟩ := writeAll_cons.mp h
    obtain ⟨two, hrefused', htwo, hrest⟩ := writeAll_cons.mp hmore
    obtain ⟨hpq, hqp⟩ := (List.pairwise_cons.mp hapart).1 (q, w) List.mem_cons_self
    obtain ⟨one', hone', hsame'⟩ := place_congr hsame hone
    obtain ⟨two', htwo', hafter⟩ := place_congr hsame' htwo
    obtain ⟨other, last, hother, hlast, hswap⟩ := place_swap hpq hqp hone' htwo'
    -- the remaining writes start from sessions that are the same
    have hstart : SameValue two last := hafter.trans (fun _ _ _ => Eq.trans) hswap
    obtain ⟨after', hdone, hfinal⟩ := writeAll_congr hstart hrest
    exact ⟨after', writeAll_cons.mpr ⟨other, hrefused', hother,
      writeAll_cons.mpr ⟨last, hrefused, hlast, hdone⟩⟩, hfinal⟩
  | trans hfirst _ ih ih' =>
    obtain ⟨middle, hmiddle, hsame'⟩ := ih hapart hsame h
    have hapart' := (hfirst.pairwise_iff fun hab => ⟨hab.2, hab.1⟩).mp hapart
    obtain ⟨after', hafter, hlast⟩ := ih' hapart' (sameValue_self s') hmiddle
    exact ⟨after', hafter, hsame'.trans (fun _ _ _ => Eq.trans) hlast⟩

/-- The entries of an accepted `set` do not overlap. -/
theorem overlaps_of_setKind {obj : List (String × Value)} {ptr : String} {scope : Scope}
    {builder : Builder} {entries : List SetEntry}
    (h : (setKind obj ptr scope builder).1 = some (.set entries)) : overlaps entries = [] := by
  unfold setKind at h
  dsimp only at h
  cases hset : obj.lookup "set" with
  | none =>
    rw [hset] at h
    cases h
  | some v =>
    rw [hset] at h
    cases v with
    | object members =>
      dsimp only at h
      split at h
      · cases h
      · obtain ⟨hclean, hentries⟩ := Option.ite_none_right_eq_some.mp h
        rw [Bool.and_eq_true, List.isEmpty_iff] at hclean
        obtain rfl := InstructionKind.set.inj (Option.some.inj hentries)
        exact hclean.2
    | _ => cases h

/-- The writes of an accepted `set`, with whatever values they were given, succeed in every order or
in none, and leave the same session in every order; and a write that fails leaves the session as it
was. -/
theorem writes_commute {obj : List (String × Value)} {ptr : String} {scope : Scope}
    {builder : Builder} {entries : List SetEntry}
    (haccepted : (setKind obj ptr scope builder).1 = some (.set entries))
    {writes first second : List (List String × Value)}
    (hpaths : writes.map Prod.fst = entries.map SetEntry.path) (hfirst : writes.Perm first)
    (hsecond : writes.Perm second) (session : Value) :
    ((writeAll first session).2 = none ↔ (writeAll second session).2 = none) ∧
      ((writeAll first session).2 = none →
        SameValue (writeAll first session).1 (writeAll second session).1) ∧
      ∀ segments value error, (setPathInPlace segments value session).2 = .error error →
        (setPathInPlace segments value session).1 = session := by
  have hapart : writes.Pairwise Apart := by
    have h := pairwise_of_overlaps_nil (overlaps_of_setKind haccepted)
    have hpath : (entries.map SetEntry.path).Pairwise fun a b => ¬ a <+: b ∧ ¬ b <+: a :=
      List.pairwise_map.mpr h
    rw [← hpaths, List.pairwise_map] at hpath
    exact hpath
  have hsymm : ∀ {a b : List String × Value}, Apart a b → Apart b a := fun h => ⟨h.2, h.1⟩
  have hreorder : ∀ {a b : List (List String × Value)}, writes.Perm a → writes.Perm b →
      (writeAll a session).2 = none → (writeAll b session).2 = none ∧
        SameValue (writeAll a session).1 (writeAll b session).1 := by
    intro a b ha hb hnone
    obtain ⟨after, hafter, hsame⟩ := writeAll_of_perm (ha.symm.trans hb)
      ((ha.pairwise_iff hsymm).mp hapart) (sameValue_self session) (Prod.ext rfl hnone)
    rw [hafter]
    exact ⟨rfl, hsame⟩
  refine ⟨⟨?_, ?_⟩, ?_, ?_⟩
  · exact fun h => (hreorder hfirst hsecond h).1
  · exact fun h => (hreorder hsecond hfirst h).1
  · exact fun h => (hreorder hfirst hsecond h).2
  · intro segments value error h
    rw [setPathInPlace_eq] at h ⊢
    cases hset : setPath segments value session with
    | ok after =>
      rw [hset] at h
      cases h
    | error e => rfl

/-- Two writes below one member. -/
def twoWrites : List (String × Value) :=
  [("set", .object [("session.a.b", .string "null"), ("session.a.c", .string "null")])]

theorem writes_commute_twoWrites :
    SameValue
      (writeAll [(["a", "b"], .null), (["a", "c"], .bool true)] emptySession).1
      (writeAll [(["a", "c"], .bool true), (["a", "b"], .null)] emptySession).1 := by
  have haccepted : (setKind twoWrites "" treeScope ⟨[], [], []⟩).1 = some (.set
      [⟨["a", "b"], ⟨"null", .null ⟨0, 4⟩⟩⟩, ⟨["a", "c"], ⟨"null", .null ⟨0, 4⟩⟩⟩]) := rfl
  have hswap : [(["a", "b"], Value.null), (["a", "c"], Value.bool true)].Perm
      [(["a", "c"], Value.bool true), (["a", "b"], Value.null)] := .swap _ _ _
  exact (writes_commute haccepted rfl (.refl _) hswap emptySession).2.1 rfl

end RustyPhoton.SessionRunner
