import Mathlib.Computability.RegularExpressions
import Mathlib.Order.Filter.AtTopBot.Basic
import RustyPhoton.Lib.Json

/-!
# JSON Schema

The assertion keywords of draft 2020-12 that a closed, non-remote schema needs. An object schema
with several keywords is the `allOf` of its keywords. A reference is resolved by name with fuel:
the answer is three-valued, and `none` says that the fuel ran out. A decided answer never changes
with more fuel, so validity is what some fuel decides.
-/

namespace RustyPhoton.Lib

open Filter

/-! ## Three-valued answers -/

namespace Kleene

/-- Every answer is true. -/
def all (answers : List (Option Bool)) : Option Bool :=
  if some false ∈ answers then some false
  else if none ∈ answers then none else some true

/-- Some answer is true. -/
def any (answers : List (Option Bool)) : Option Bool :=
  if some true ∈ answers then some true
  else if none ∈ answers then none else some false

/-- Exactly one answer is true. -/
def one (answers : List (Option Bool)) : Option Bool :=
  if none ∈ answers then none else some (answers.count (some true) == 1)

/-- The second answer, wherever the first is true. -/
def implies (condition consequence : Option Bool) : Option Bool :=
  match condition with
  | some true => consequence
  | some false => some true
  | none => none

/-- The information order: more fuel may decide an answer, never change it. -/
def Le (a b : Option Bool) : Prop := ∀ x, a = some x → b = some x

section

-- the equations the proofs below unfold, computed once
attribute [local simp] all any one implies

end

variable {answers : List (Option Bool)}

theorem all_eq_true (h : ∀ a ∈ answers, a = some true) :
    all answers = some true := by
  have hfalse : some false ∉ answers := fun hm => by simpa using h _ hm
  have hnone : none ∉ answers := fun hm => by simpa using h _ hm
  simp [all, hfalse, hnone]

theorem all_eq_false (h : some false ∈ answers) :
    all answers = some false := by
  simp [all, h]

theorem any_eq_false (h : ∀ a ∈ answers, a = some false) :
    any answers = some false := by
  have htrue : some true ∉ answers := fun hm => by simpa using h _ hm
  have hnone : none ∉ answers := fun hm => by simpa using h _ hm
  simp [any, htrue, hnone]

theorem one_eq_true {before after : List (Option Bool)}
    (hbefore : ∀ a ∈ before, a = some false) (hafter : ∀ a ∈ after, a = some false) :
    one (before ++ some true :: after) = some true := by
  have hcount : ∀ l : List (Option Bool), (∀ a ∈ l, a = some false) →
      none ∉ l ∧ l.count (some true) = 0 := fun l h =>
    ⟨fun hm => by simpa using h _ hm,
      List.count_eq_zero.mpr fun hm => by simpa using h _ hm⟩
  obtain ⟨hb, hbc⟩ := hcount before hbefore
  obtain ⟨ha, hac⟩ := hcount after hafter
  simp [one, hb, ha, hbc, hac]

variable {l m : List (Option Bool)}

/-- Pointwise more decided answers. -/
theorem mem_of_le (h : List.Forall₂ Le l m) {x : Bool} (hx : some x ∈ l) : some x ∈ m := by
  induction h with
  | nil => simp at hx
  | cons hab _ ih =>
    rcases List.mem_cons.mp hx with hx | hx
    · exact List.mem_cons.mpr (.inl (hab x hx.symm).symm)
    · exact List.mem_cons_of_mem _ (ih hx)

theorem eq_of_le (h : List.Forall₂ Le l m) (hl : none ∉ l) :
    l = m := by
  induction h with
  | nil => rfl
  | @cons a b l m hab _ ih =>
    simp only [List.mem_cons, not_or] at hl
    obtain ⟨x, hx⟩ := Option.ne_none_iff_exists'.mp (Ne.symm hl.1)
    rw [hx, hab x hx, ih hl.2]

theorem all_mono (h : List.Forall₂ Le l m) : Le (all l) (all m) := by
  intro x hx
  by_cases hfalse : some false ∈ l
  · rw [all_eq_false hfalse] at hx
    rw [all_eq_false (mem_of_le h hfalse), hx]
  · by_cases hnone : none ∈ l
    · simp [all, hfalse, hnone] at hx
    · rw [← eq_of_le h hnone, hx]

theorem any_mono (h : List.Forall₂ Le l m) : Le (any l) (any m) := by
  intro x hx
  by_cases htrue : some true ∈ l
  · have hm := mem_of_le h htrue
    simp only [any, htrue, if_true] at hx
    simp [any, hm, ← hx]
  · by_cases hnone : none ∈ l
    · simp [any, htrue, hnone] at hx
    · rw [← eq_of_le h hnone, hx]

theorem one_mono (h : List.Forall₂ Le l m) : Le (one l) (one m) := by
  intro x hx
  by_cases hnone : none ∈ l
  · simp [one, hnone] at hx
  · rw [← eq_of_le h hnone, hx]

theorem implies_mono {a b c d : Option Bool} (hac : Le a c) (hbd : Le b d) :
    Le (implies a b) (implies c d) := by
  intro x hx
  match a with
  | none => simp [implies] at hx
  | some true =>
    rw [hac true rfl]
    exact hbd x hx
  | some false =>
    rw [hac false rfl]
    exact hx

theorem map_not_mono {a b : Option Bool} (h : Le a b) : Le (a.map not) (b.map not) := by
  intro x hx
  obtain ⟨y, hy, rfl⟩ := Option.map_eq_some_iff.mp hx
  rw [h y hy]
  rfl

end Kleene

/-! ## Instances -/

/-- The value of a number. -/
def Number.toRat : Number → ℚ
  | posInt n _ => n
  | negInt n _ => n
  | float x _ => x.toRat

namespace Value

mutual
/-- The equality of instances: numbers by their value, objects without regard to order. -/
def sameAs : Value → Value → Bool
  | null, null => true
  | bool a, bool b => a == b
  | number a, number b => a.toRat == b.toRat
  | string a, string b => a == b
  | array a, array b => sameItems a b
  | object a, object b => a.length == b.length && sameMembers a b
  | _, _ => false

def sameItems : List Value → List Value → Bool
  | [], [] => true
  | x :: a, y :: b => sameAs x y && sameItems a b
  | _, _ => false

def sameMembers : List (String × Value) → List (String × Value) → Bool
  | [], _ => true
  | (k, x) :: a, b =>
      (match b.lookup k with
        | some y => sameAs x y
        | none => false) && sameMembers a b
end

/-- A keyword about strings holds of every other instance. -/
def onString (v : Value) (test : String → Option Bool) : Option Bool :=
  match v with
  | string s => test s
  | _ => some true

def onNumber (v : Value) (test : Number → Option Bool) : Option Bool :=
  match v with
  | number n => test n
  | _ => some true

def onArray (v : Value) (test : List Value → Option Bool) : Option Bool :=
  match v with
  | array items => test items
  | _ => some true

def onObject (v : Value) (test : List (String × Value) → Option Bool) : Option Bool :=
  match v with
  | object members => test members
  | _ => some true

end Value

/-- The types an instance can have; an integral number is an integer however it is written. -/
inductive InstanceType where
  | object | array | string | number | integer | boolean | null

def InstanceType.admits (t : InstanceType) (v : Value) : Bool :=
  match t, v with
  | object, .object _ => true
  | array, .array _ => true
  | string, .string _ => true
  | number, .number _ => true
  | integer, .number n => n.toRat.den == 1
  | boolean, .bool _ => true
  | null, .null => true
  | _, _ => false

/-! ## Schemas -/

/-- A schema. A pattern is anchored at both ends, and `properties` carries the sibling
`additionalProperties`. -/
inductive Schema where
  | always (answer : Bool)
  | ref (name : String)
  | type (t : InstanceType)
  | const (value : Value)
  | enum (values : List Value)
  | minLength (n : Nat)
  | pattern (p : RegularExpression Char)
  | minimum (n : Int)
  | minItems (n : Nat)
  | items (s : Schema)
  | minProperties (n : Nat)
  | propertyNames (s : Schema)
  | required (keys : List String)
  | properties (members : List (String × Schema)) (additional : Schema)
  | allOf (schemas : List Schema)
  | anyOf (schemas : List Schema)
  | oneOf (schemas : List Schema)
  | not_ (s : Schema)
  | ifThen (condition consequence : Schema)

namespace Schema

mutual
/-- The answer of a schema on an instance, given the answers of the references. -/
def eval (refs : String → Value → Option Bool) : Schema → Value → Option Bool
  | always answer, _ => some answer
  | ref name, v => refs name v
  | type t, v => some (t.admits v)
  | const c, v => some (c.sameAs v)
  | enum cs, v => some (cs.any fun c => c.sameAs v)
  | minLength n, v => v.onString fun s => some (n ≤ s.length)
  | pattern p, v => v.onString fun s => some (p.rmatch s.toList)
  | minimum n, v => v.onNumber fun x => some (n ≤ x.toRat)
  | minItems n, v => v.onArray fun items => some (n ≤ items.length)
  | items s, v => v.onArray fun items => Kleene.all (items.map fun item => s.eval refs item)
  | minProperties n, v => v.onObject fun members => some (n ≤ members.length)
  | propertyNames s, v => v.onObject fun members =>
      Kleene.all (members.map fun m => s.eval refs (.string m.1))
  | required keys, v => v.onObject fun members =>
      some (keys.all fun key => Assoc.contains key members)
  | properties named additional, v => v.onObject fun members =>
      Kleene.all (evalMembers refs named members ++
        (members.filter fun m => !(named.map Prod.fst).contains m.1).map fun m =>
          additional.eval refs m.2)
  | allOf schemas, v => Kleene.all (evalEach refs schemas v)
  | anyOf schemas, v => Kleene.any (evalEach refs schemas v)
  | oneOf schemas, v => Kleene.one (evalEach refs schemas v)
  | not_ s, v => (s.eval refs v).map not
  | ifThen condition consequence, v =>
      Kleene.implies (condition.eval refs v) (consequence.eval refs v)

def evalEach (refs : String → Value → Option Bool) : List Schema → Value → List (Option Bool)
  | [], _ => []
  | s :: rest, v => s.eval refs v :: evalEach refs rest v

def evalMembers (refs : String → Value → Option Bool) :
    List (String × Schema) → List (String × Value) → List (Option Bool)
  | [], _ => []
  | (name, s) :: rest, members =>
      (match members.lookup name with
        | some v => s.eval refs v
        | none => some true) :: evalMembers refs rest members
end

section Equations

variable (refs : String → Value → Option Bool) (v : Value)

theorem eval_ref (name : String) : (ref name).eval refs v = refs name v := rfl

theorem eval_required (keys : List String) : (required keys).eval refs v =
    v.onObject fun members => some (keys.all fun key => Assoc.contains key members) := rfl

theorem eval_allOf (schemas : List Schema) :
    (allOf schemas).eval refs v = Kleene.all (evalEach refs schemas v) := rfl

theorem eval_anyOf (schemas : List Schema) :
    (anyOf schemas).eval refs v = Kleene.any (evalEach refs schemas v) := rfl

theorem eval_oneOf (schemas : List Schema) :
    (oneOf schemas).eval refs v = Kleene.one (evalEach refs schemas v) := rfl

theorem eval_not (s : Schema) : (not_ s).eval refs v = (s.eval refs v).map not := rfl

theorem eval_ifThen (s t : Schema) :
    (ifThen s t).eval refs v = Kleene.implies (s.eval refs v) (t.eval refs v) := rfl

theorem evalEach_eq_map (schemas : List Schema) :
    evalEach refs schemas v = schemas.map fun s => s.eval refs v := by
  induction schemas with
  | nil => rfl
  | cons s rest ih =>
    show s.eval refs v :: evalEach refs rest v = _
    rw [ih, List.map_cons]

theorem evalMembers_eq_map (named : List (String × Schema)) (members : List (String × Value)) :
    evalMembers refs named members = named.map fun entry =>
      match members.lookup entry.1 with
      | some v => entry.2.eval refs v
      | none => some true := by
  induction named with
  | nil => rfl
  | cons entry rest ih =>
    show _ :: evalMembers refs rest members = _
    rw [ih, List.map_cons]

end Equations

/-- The references resolved `fuel` deep. -/
def resolve (defs : List (String × Schema)) : Nat → String → Value → Option Bool
  | 0, _, _ => none
  | fuel + 1, name, v =>
      match defs.lookup name with
      | some s => s.eval (resolve defs fuel) v
      | none => none

/-- Some fuel decides this answer. -/
def Decides (defs : List (String × Schema)) (s : Schema) (v : Value) (answer : Bool) : Prop :=
  ∃ fuel, s.eval (resolve defs fuel) v = some answer

/-- The schema accepts the instance. -/
abbrev Valid (defs : List (String × Schema)) (s : Schema) (v : Value) : Prop :=
  Decides defs s v true

/-- The schema rejects the instance. -/
abbrev Invalid (defs : List (String × Schema)) (s : Schema) (v : Value) : Prop :=
  Decides defs s v false

/-! ## More fuel -/

section Monotone

variable {refs refs' : String → Value → Option Bool}

theorem forall₂_le_map {α : Type} (f g : α → Option Bool) (xs : List α)
    (h : ∀ x ∈ xs, Kleene.Le (f x) (g x)) : List.Forall₂ Kleene.Le (xs.map f) (xs.map g) := by
  induction xs with
  | nil => exact .nil
  | cons x xs ih =>
    exact .cons (h x (by simp)) (ih fun y hy => h y (List.mem_cons_of_mem _ hy))

mutual
/-- Answers with more decided references are more decided. -/
theorem eval_mono (href : ∀ name v, Kleene.Le (refs name v) (refs' name v)) :
    ∀ (s : Schema) (v : Value), Kleene.Le (s.eval refs v) (s.eval refs' v)
  | always _, _ | type _, _ | const _, _ | enum _, _ | minLength _, _ | pattern _, _
  | minimum _, _ | minItems _, _ | minProperties _, _ | required _, _ => fun _ hx => hx
  | ref name, v => href name v
  | items s, v => by
    cases v with
    | array items =>
      exact Kleene.all_mono (forall₂_le_map _ _ _ fun item _ => eval_mono href s item)
    | _ => exact fun _ hx => hx
  | propertyNames s, v => by
    cases v with
    | object members =>
      exact Kleene.all_mono
        (forall₂_le_map _ _ _ fun m _ => eval_mono href s (.string m.1))
    | _ => exact fun _ hx => hx
  | properties named additional, v => by
    cases v with
    | object members =>
      exact Kleene.all_mono (List.rel_append (evalMembers_mono href named members)
        (forall₂_le_map _ _ _ fun m _ => eval_mono href additional m.2))
    | _ => exact fun _ hx => hx
  | allOf schemas, v => Kleene.all_mono (evalEach_mono href schemas v)
  | anyOf schemas, v => Kleene.any_mono (evalEach_mono href schemas v)
  | oneOf schemas, v => Kleene.one_mono (evalEach_mono href schemas v)
  | not_ s, v => Kleene.map_not_mono (eval_mono href s v)
  | ifThen condition consequence, v =>
    Kleene.implies_mono (eval_mono href condition v) (eval_mono href consequence v)

theorem evalEach_mono (href : ∀ name v, Kleene.Le (refs name v) (refs' name v)) :
    ∀ (schemas : List Schema) (v : Value),
      List.Forall₂ Kleene.Le (evalEach refs schemas v) (evalEach refs' schemas v)
  | [], _ => .nil
  | s :: rest, v => .cons (eval_mono href s v) (evalEach_mono href rest v)

theorem evalMembers_mono (href : ∀ name v, Kleene.Le (refs name v) (refs' name v)) :
    ∀ (named : List (String × Schema)) (members : List (String × Value)),
      List.Forall₂ Kleene.Le (evalMembers refs named members) (evalMembers refs' named members)
  | [], _ => .nil
  | (name, s) :: rest, members => by
    refine .cons ?_ (evalMembers_mono href rest members)
    cases members.lookup name with
    | some v => exact eval_mono href s v
    | none => exact fun _ hx => hx
end

theorem resolve_succ (defs : List (String × Schema)) (fuel : Nat) (name : String) (v : Value) :
    Kleene.Le (resolve defs fuel name v) (resolve defs (fuel + 1) name v) := by
  induction fuel generalizing name v with
  | zero => intro x hx; simp [resolve] at hx
  | succ fuel ih =>
    rw [resolve, resolve]
    cases defs.lookup name with
    | none => exact fun _ hx => hx
    | some s => exact eval_mono ih s v

theorem resolve_mono (defs : List (String × Schema)) {fuel more : Nat} (h : fuel ≤ more)
    (name : String) (v : Value) :
    Kleene.Le (resolve defs fuel name v) (resolve defs more name v) := by
  induction h with
  | refl => exact fun _ hx => hx
  | step _ ih => exact fun x hx => resolve_succ defs _ name v x (ih x hx)

end Monotone

section Rules

variable {defs : List (String × Schema)} {s : Schema} {v : Value} {answer : Bool}

/-- A decided answer is the answer of all greater fuel. -/
theorem Decides.eventually (h : Decides defs s v answer) :
    ∀ᶠ fuel in atTop, s.eval (resolve defs fuel) v = some answer := by
  obtain ⟨fuel, h⟩ := h
  exact eventually_atTop.mpr
    ⟨fuel, fun more hle => eval_mono (resolve_mono defs hle) s v answer h⟩

theorem decides_of_eventually (h : ∀ᶠ fuel in atTop, s.eval (resolve defs fuel) v = some answer) :
    Decides defs s v answer :=
  h.exists

/-- No instance is both accepted and rejected. -/
theorem not_valid_and_invalid (hvalid : Valid defs s v) (hinvalid : Invalid defs s v) : False := by
  obtain ⟨fuel, ht, hf⟩ := (hvalid.eventually.and hinvalid.eventually).exists
  simp [ht] at hf

theorem eventually_forall_mem {α : Type} {p : Nat → α → Prop} {xs : List α}
    (h : ∀ x ∈ xs, ∀ᶠ n in atTop, p n x) : ∀ᶠ n in atTop, ∀ x ∈ xs, p n x := by
  induction xs with
  | nil => simp
  | cons x xs ih =>
    filter_upwards [h x (by simp), ih fun y hy => h y (List.mem_cons_of_mem _ hy)]
      with n hx hxs
    simpa using ⟨hx, hxs⟩

theorem decides_ref {name : String} (hdef : defs.lookup name = some s)
    (h : Decides defs s v answer) : Decides defs (ref name) v answer := by
  obtain ⟨fuel, h⟩ := h
  exact ⟨fuel + 1, by simpa [eval_ref, resolve, hdef] using h⟩

theorem valid_items {items : List Value} (h : ∀ item ∈ items, Valid defs s item) :
    Valid defs (.items s) (.array items) := by
  refine decides_of_eventually ?_
  filter_upwards [eventually_forall_mem fun item hi => (h item hi).eventually] with fuel hfuel
  refine Kleene.all_eq_true fun a ha => ?_
  obtain ⟨item, hi, rfl⟩ := List.mem_map.mp ha
  exact hfuel item hi

variable {members : List (String × Value)}

theorem valid_propertyNames (h : ∀ m ∈ members, Valid defs s (.string m.1)) :
    Valid defs (propertyNames s) (.object members) := by
  refine decides_of_eventually ?_
  filter_upwards [eventually_forall_mem fun m hm => (h m hm).eventually] with fuel hfuel
  refine Kleene.all_eq_true fun a ha => ?_
  obtain ⟨m, hm, rfl⟩ := List.mem_map.mp ha
  exact hfuel m hm

/-- Every named member is valid where it is present, and every other member under
`additional`. -/
theorem valid_properties {named : List (String × Schema)} {additional : Schema}
    (hnamed : ∀ entry ∈ named, ∀ x, members.lookup entry.1 = some x → Valid defs entry.2 x)
    (hother : ∀ m ∈ members, m.1 ∉ named.map Prod.fst → Valid defs additional m.2) :
    Valid defs (properties named additional) (.object members) := by
  refine decides_of_eventually ?_
  have hn : ∀ᶠ fuel in atTop, ∀ entry ∈ named, ∀ x, members.lookup entry.1 = some x →
      entry.2.eval (resolve defs fuel) x = some true := by
    refine eventually_forall_mem fun entry he => ?_
    cases hx : members.lookup entry.1 with
    | none => simp
    | some x => simpa using (hnamed entry he x hx).eventually
  have ho : ∀ᶠ fuel in atTop, ∀ m ∈ members, m.1 ∉ named.map Prod.fst →
      additional.eval (resolve defs fuel) m.2 = some true := by
    refine eventually_forall_mem fun m hm => ?_
    by_cases hk : m.1 ∈ named.map Prod.fst
    · simp only [hk, not_true, false_imp_iff, eventually_true]
    · simpa only [hk, not_false_iff, true_imp_iff] using (hother m hm hk).eventually
  filter_upwards [hn, ho] with fuel hn ho
  refine Kleene.all_eq_true fun a ha => ?_
  rw [evalMembers_eq_map] at ha
  rcases List.mem_append.mp ha with ha | ha
  · obtain ⟨entry, he, rfl⟩ := List.mem_map.mp ha
    cases hx : members.lookup entry.1 with
    | none => rfl
    | some x => exact hn entry he x hx
  · obtain ⟨m, hm, rfl⟩ := List.mem_map.mp ha
    obtain ⟨hm, hk⟩ := List.mem_filter.mp hm
    exact ho m hm (by simpa using hk)

variable {schemas : List Schema}

theorem valid_allOf (h : ∀ s ∈ schemas, Valid defs s v) :
    Valid defs (allOf schemas) v := by
  refine decides_of_eventually ?_
  filter_upwards [eventually_forall_mem fun s hs => (h s hs).eventually] with fuel hfuel
  rw [eval_allOf, evalEach_eq_map]
  refine Kleene.all_eq_true fun a ha => ?_
  obtain ⟨s, hs, rfl⟩ := List.mem_map.mp ha
  exact hfuel s hs

theorem invalid_allOf (hs : s ∈ schemas) (h : Invalid defs s v) :
    Invalid defs (allOf schemas) v := by
  obtain ⟨fuel, h⟩ := h
  refine ⟨fuel, ?_⟩
  rw [eval_allOf, evalEach_eq_map]
  exact Kleene.all_eq_false (List.mem_map.mpr ⟨s, hs, h⟩)

theorem invalid_anyOf (h : ∀ s ∈ schemas, Invalid defs s v) :
    Invalid defs (anyOf schemas) v := by
  refine decides_of_eventually ?_
  filter_upwards [eventually_forall_mem fun s hs => (h s hs).eventually] with fuel hfuel
  rw [eval_anyOf, evalEach_eq_map]
  refine Kleene.any_eq_false fun a ha => ?_
  obtain ⟨s, hs, rfl⟩ := List.mem_map.mp ha
  exact hfuel s hs

/-- One alternative accepts the instance and every other one rejects it. -/
theorem valid_oneOf (before after : List Schema) (h : Valid defs s v)
    (hother : ∀ t ∈ before ++ after, Invalid defs t v) :
    Valid defs (oneOf (before ++ s :: after)) v := by
  refine decides_of_eventually ?_
  filter_upwards [h.eventually, eventually_forall_mem fun t ht => (hother t ht).eventually]
    with fuel hs hfuel
  rw [eval_oneOf, evalEach_eq_map, List.map_append, List.map_cons, hs]
  refine Kleene.one_eq_true (fun a ha => ?_) fun a ha => ?_
  · obtain ⟨t, ht, rfl⟩ := List.mem_map.mp ha
    exact hfuel t (List.mem_append_left _ ht)
  · obtain ⟨t, ht, rfl⟩ := List.mem_map.mp ha
    exact hfuel t (List.mem_append_right _ ht)

theorem valid_not (h : Invalid defs s v) : Valid defs (not_ s) v := by
  obtain ⟨fuel, h⟩ := h
  exact ⟨fuel, by simp [eval_not, h]⟩

variable {t : Schema}

/-- A conditional whose condition is false holds. -/
theorem valid_ifThen_of_invalid (h : Invalid defs s v) :
    Valid defs (ifThen s t) v := by
  obtain ⟨fuel, h⟩ := h
  exact ⟨fuel, by simp [eval_ifThen, h, Kleene.implies]⟩

/-- A conditional whose consequence is true holds, whatever its decided condition. -/
theorem valid_ifThen (hs : Decides defs s v answer) (ht : Valid defs t v) :
    Valid defs (ifThen s t) v := by
  refine decides_of_eventually ?_
  filter_upwards [hs.eventually, ht.eventually] with fuel hs ht
  cases answer <;> simp [eval_ifThen, hs, ht, Kleene.implies]

variable {keys : List String}

theorem valid_required (h : ∀ key ∈ keys, Assoc.contains key members = true) :
    Valid defs (required keys) (.object members) :=
  ⟨0, by simpa [eval_required, Value.onObject] using h⟩

theorem invalid_required {key : String}
    (hkey : key ∈ keys) (h : Assoc.contains key members = false) :
    Invalid defs (required keys) (.object members) :=
  ⟨0, by simpa [eval_required, Value.onObject] using ⟨key, hkey, h⟩⟩

end Rules

end Schema

end RustyPhoton.Lib
