import Mathlib.Data.List.TakeWhile
import RustyPhoton.Lib.Checks
import RustyPhoton.SessionRunner.Document.Schema
import RustyPhoton.SessionRunner.Document.Validate

/-!
# What a clean walk says of a field

The scans of the walk (duration surface, names, `set` keys) match the schema's patterns, and each
field walker that leaves the builder clean leaves it unchanged and has seen a value its schema
accepts.
-/

namespace RustyPhoton.SessionRunner

open Lib Expr Pattern

/-- The schema of the document language accepts this value here. -/
abbrev Meets (s : Schema) (v : Value) : Prop := Schema.Valid WorkflowSchema.defs s v

/-! ## Patterns -/

variable {c : Char}

theorem mem_digits (h : c.isDigit = true) : c ∈ WorkflowSchema.digits := by
  simp only [Char.isDigit, Bool.and_eq_true, decide_eq_true_eq, UInt32.le_iff_toNat_le] at h
  exact mem_range h.1 h.2

theorem mem_letters (h : c.isAlpha = true) : c ∈ WorkflowSchema.letters := by
  delta Char.isAlpha Char.isUpper Char.isLower at h
  simp only [Bool.or_eq_true, Bool.and_eq_true, decide_eq_true_eq, UInt32.le_iff_toNat_le] at h
  rcases h with h | h
  · exact List.mem_append_left _ (mem_range h.1 h.2)
  · exact List.mem_append_right _ (mem_range h.1 h.2)

/-- A name matches the schema's identifier pattern. -/
theorem isName_match {chars : List Char} (h : isName chars = true) :
    chars ∈ WorkflowSchema.namePattern.matches' := by
  cases chars with
  | nil => simp [isName] at h
  | cons c rest =>
    simp only [isName, Bool.and_eq_true, List.all_eq_true] at h
    obtain ⟨hc, hrest⟩ := h
    refine mul_match (a := [c]) (chars_match (mem_letters hc))
      (star_chars_match fun d hd => ?_)
    have hd := hrest d hd
    simp only [Char.isAlphanum, Bool.or_eq_true, decide_eq_true_eq] at hd
    rcases hd with (hd | hd) | hd
    · exact List.mem_append_left _ (List.mem_append_left _ (mem_letters hd))
    · exact List.mem_append_left _ (List.mem_append_right _ (mem_digits hd))
    · exact List.mem_append_right _ (List.mem_singleton.mpr hd)

variable {l : List Char}

/-- What `dropWhile` drops is nonempty when the list got shorter. -/
theorem takeWhile_ne_nil {p : Char → Bool}
    (h : (l.dropWhile p).length ≠ l.length) : l.takeWhile p ≠ [] := by
  intro hnil
  have happ := List.takeWhile_append_dropWhile (p := p) (l := l)
  rw [hnil, List.nil_append] at happ
  exact h (congrArg List.length happ)

theorem digits_match (h : (l.dropWhile Char.isDigit).length ≠ l.length) :
    l.takeWhile Char.isDigit ∈
      (plus (chars WorkflowSchema.digits)).matches' :=
  plus_chars_match (takeWhile_ne_nil h) fun _ hc =>
    mem_digits (List.mem_takeWhile_imp hc)

variable {rest after : List Char}

/-- The optional fraction of a component. -/
theorem fraction_match (h : fraction rest = some after) :
    ∃ part, rest = part ++ after ∧ part ∈
      (opt (literal ['.'] *
        plus (chars WorkflowSchema.digits))).matches' := by
  fun_cases fraction rest with
  | case1 afterDot hlen => simp [fraction, hlen] at h
  | case2 afterDot hlen =>
    obtain rfl : afterDot.dropWhile Char.isDigit = after := by
      simpa [fraction, hlen] using h
    refine ⟨'.' :: afterDot.takeWhile Char.isDigit, ?_,
      opt_match (mul_match (a := ['.']) literal_match
        (digits_match hlen))⟩
    simp [List.takeWhile_append_dropWhile]
  | case3 hdot =>
    obtain rfl : rest = after := by simpa [fraction] using h
    exact ⟨[], rfl, opt_match_nil⟩

theorem stripUnit_match (h : stripUnit rest = some after) :
    ∃ unit ∈ units, rest = unit ++ after := by
  obtain ⟨unit, hu, hp⟩ := List.exists_of_findSome?_eq_some h
  exact ⟨unit, hu, (List.isPrefixOf?_eq_some_iff_append_eq.mp hp).symm⟩

/-- One accepted component is a match of the schema's component. -/
theorem component_match (h : component rest = some after) :
    ∃ part, rest = part ++ after ∧ part ∈ WorkflowSchema.componentPattern.matches' := by
  unfold component at h
  by_cases hlen : (rest.dropWhile Char.isDigit).length = rest.length
  · simp [hlen] at h
  · simp only [hlen, if_false, Option.bind_eq_bind, Option.pure_def] at h
    obtain ⟨afterNumber, hnumber, h⟩ := Option.bind_eq_some_iff.mp h
    obtain ⟨afterUnit, hunit, hafter⟩ := Option.bind_eq_some_iff.mp h
    obtain rfl := Option.some.inj hafter
    obtain ⟨fraction, hfraction, hfractionMatch⟩ := fraction_match hnumber
    obtain ⟨unit, hmem, hrest⟩ := stripUnit_match hunit
    refine ⟨rest.takeWhile Char.isDigit ++
        (fraction ++ (unit ++ afterUnit.takeWhile isWhiteSpace)), ?_, ?_⟩
    · have hspace := List.takeWhile_append_dropWhile (p := isWhiteSpace) (l := afterUnit)
      have hdigits := List.takeWhile_append_dropWhile (p := Char.isDigit) (l := rest)
      simp only [List.append_assoc, hspace]
      rw [← hrest, ← hfraction, hdigits]
    · refine mul_match (digits_match hlen) (mul_match hfractionMatch
        (mul_match (oneOf_match hmem)
          (star_chars_match fun c hc => ?_)))
      simpa [isWhiteSpace] using List.mem_takeWhile_imp hc

theorem components_match {fuel : Nat} (h : components fuel rest = true) :
    ∃ pieces : List (List Char), rest = pieces.flatten ∧
      ∀ piece ∈ pieces, piece ∈ WorkflowSchema.componentPattern.matches' := by
  induction fuel generalizing rest with
  | zero =>
    cases rest with
    | nil => exact ⟨[], rfl, by simp⟩
    | cons c rest => simp [components] at h
  | succ fuel ih =>
    cases rest with
    | nil => exact ⟨[], rfl, by simp⟩
    | cons c rest =>
      rw [components] at h
      cases hc : component (c :: rest) with
      | none => simp [hc] at h
      | some after =>
        obtain ⟨part, hrest, hpart⟩ := component_match hc
        obtain ⟨pieces, hafter, hpieces⟩ := ih (by simpa [hc] using h)
        refine ⟨part :: pieces, by rw [hrest, hafter, List.flatten_cons], ?_⟩
        simpa using ⟨hpart, hpieces⟩

variable {s : String}

/-- The surface form of a duration matches the schema's pattern. -/
theorem surfaceOk_match (h : surfaceOk s = true) :
    s.toList ∈ (plus WorkflowSchema.componentPattern).matches' := by
  simp only [surfaceOk, Bool.and_eq_true, decide_eq_true_eq] at h
  obtain ⟨pieces, hflat, hpieces⟩ := components_match h.2
  have hne : pieces ≠ [] := by
    intro hnil
    rw [hnil, List.flatten_nil] at hflat
    exact h.1 hflat
  rw [hflat]
  exact plus_match hne hpieces

/-! ## Schema shapes -/

theorem meets_nonEmptyString (h : s ≠ "") :
    Meets WorkflowSchema.nonEmptyString (.string s) :=
  ⟨0, by
    have hlen : 1 ≤ s.length := Nat.one_le_iff_ne_zero.mpr fun h0 =>
      h (String.length_eq_zero_iff.mp h0)
    simp [WorkflowSchema.nonEmptyString, Schema.eval, Schema.evalEach, InstanceType.admits,
      Value.onString, hlen, Kleene.all]⟩

theorem meets_pattern {r : RegularExpression Char} (h : s.toList ∈ r.matches') :
    Meets (.pattern r) (.string s) :=
  ⟨0, by simpa [Schema.eval, Value.onString] using (RegularExpression.rmatch_iff_matches' r _).mpr h⟩

variable {v : Value}

theorem meets_type {t : InstanceType} (h : t.admits v = true) : Meets (.type t) v :=
  ⟨0, by simp [Schema.eval, h]⟩

variable {obj : List (String × Value)}

/-- An object whose keys are all named, with the required ones present and each named member
accepted. -/
theorem meets_closedObject {named : List (String × Schema)} {keys : List String}
    (hkeys : ∀ m ∈ obj, m.1 ∈ named.map Prod.fst)
    (hrequired : ∀ key ∈ keys, Assoc.contains key obj = true)
    (hnamed : ∀ entry ∈ named, ∀ x, obj.lookup entry.1 = some x → Meets entry.2 x) :
    ∀ s ∈ WorkflowSchema.closedObject named keys, Meets s (.object obj) := by
  simp only [WorkflowSchema.closedObject, List.forall_mem_cons, List.not_mem_nil,
    false_imp_iff, implies_true, and_true]
  exact ⟨meets_type rfl,
    Schema.valid_properties hnamed fun m hm hnot => absurd (hkeys m hm) hnot,
    Schema.valid_required hrequired⟩

variable {key : String}

theorem contains_of_lookup {α : Type} {obj : List (String × α)} {x : α}
    (h : obj.lookup key = some x) : Assoc.contains key obj = true := by
  simp [Assoc.contains, h]

/-! ## Field walkers -/

/-- The builder has recorded no finding. -/
def Builder.Clean (b : Builder) : Prop := b.issues = []

/-- What a clean run of a walker says. -/
abbrev Spec {α : Type} (w : Walk α) (post : Builder → α → Builder → Prop) : Prop :=
  Checks Builder.Clean w post

section Generic

variable {α : Type} {post : Builder → α → Builder → Prop}

theorem pushIssue_spec {i : ValidationIssue} {post : Builder → Unit → Builder → Prop} :
    Spec (pushIssue i) post :=
  Checks.of_dirty fun s => by simp [pushIssue, Builder.Clean, modify, modifyGet,
    MonadStateOf.modifyGet, StateT.modifyGet, Pure.pure]

variable {ptr : String}

theorem issue_spec {message : String} {post : Builder → Unit → Builder → Prop} :
    Spec (issue ptr message) post :=
  pushIssue_spec

theorem reject_spec {message : String} {post : Builder → Option α → Builder → Prop} :
    Spec (reject ptr message) post :=
  Checks.dirty_bind issue_spec fun _ => Checks.trivial

theorem unknownKeys_spec {allowed : List String} {message : String → String}
    {obj : List (String × Value)} :
    Spec (unknownKeys allowed ptr message obj) fun b _ b' => b' = b ∧ ∀ m ∈ obj, m.1 ∈ allowed := by
  induction obj with
  | nil => exact Checks.pure fun _ _ => ⟨rfl, by simp⟩
  | cons m rest ih =>
    obtain ⟨k, v⟩ := m
    rw [unknownKeys]
    split
    · next hk =>
        refine ih.mono fun _ _ _ _ h => ⟨h.1, List.forall_mem_cons.mpr ⟨?_, h.2⟩⟩
        simpa using hk
    · exact Checks.dirty_bind issue_spec fun _ => ih.mono fun _ _ _ _ _ => trivial

variable {validate : Value → Walk (Option α)} {P : Value → Builder → Option α → Builder → Prop}

variable {value : Option Value}

theorem optional_spec (h : ∀ v, Spec (validate v) (P v)) :
    Spec (optional value validate) fun b r b' =>
      (value = none ∧ r = some none ∧ b' = b) ∨
        ∃ v r', value = some v ∧ r = r'.map some ∧ P v b r' b' := by
  cases value with
  | none => exact Checks.pure fun _ _ => .inl ⟨rfl, rfl, rfl⟩
  | some v => exact Checks.map ((h v).mono fun _ r _ _ hr => .inr ⟨v, r, rfl, rfl, hr⟩)

theorem andThen_spec (h : ∀ v, Spec (validate v) (P v)) :
    Spec (andThen value validate) fun b r b' =>
      (value = none ∧ r = none ∧ b' = b) ∨ ∃ v, value = some v ∧ P v b r b' := by
  cases value with
  | none => exact Checks.pure fun _ _ => .inl ⟨rfl, rfl, rfl⟩
  | some v => exact (h v).mono fun _ _ _ _ hr => .inr ⟨v, rfl, hr⟩

theorem required_spec {absent : Walk Unit}
    (habsent : Spec absent fun _ _ _ => False) (h : ∀ v, Spec (validate v) (P v)) :
    Spec (required value absent validate) fun b r b' => ∃ v, value = some v ∧ P v b r b' := by
  cases value with
  | none => exact Checks.dirty_bind habsent fun _ => Checks.trivial
  | some v => exact (h v).mono fun _ _ _ _ hr => ⟨v, rfl, hr⟩

section Leaf

variable {G : Value → Prop}

variable {value : Option Value}

theorem optional_leaf_spec (h : ∀ v, Spec (validate v) fun b _ b' => b' = b ∧ G v) :
    Spec (optional value validate) fun b r b' =>
      b' = b ∧ (∀ x, value = some x → G x) ∧ (r.any Option.isSome → value.isSome) := by
  refine (optional_spec h).mono fun b r b' _ hr => ?_
  rcases hr with ⟨rfl, rfl, rfl⟩ | ⟨v, r, rfl, rfl, rfl, hG⟩
  · exact ⟨rfl, by simp⟩
  · exact ⟨rfl, by simpa using hG⟩

theorem andThen_leaf_spec (h : ∀ v, Spec (validate v) fun b _ b' => b' = b ∧ G v) :
    Spec (andThen value validate) fun b r b' =>
      b' = b ∧ (∀ x, value = some x → G x) ∧ (r.isSome → value.isSome) := by
  refine (andThen_spec h).mono fun b r b' _ hr => ?_
  rcases hr with ⟨rfl, rfl, rfl⟩ | ⟨v, rfl, rfl, hG⟩
  · exact ⟨rfl, by simp⟩
  · exact ⟨rfl, by simpa using hG⟩

end Leaf

/-- The relation of a list walk: each item's relation, chained through the builders. -/
inductive Items (P : Value → Builder → Option α → Builder → Prop) :
    List Value → Builder → List α → Builder → Prop
  | nil (b) : Items P [] b [] b
  | cons {v vs b a mid as b'} (head : P v b (some a) mid) (tail : Items P vs mid as b') :
      Items P (v :: vs) b (a :: as) b'

theorem walkItems_spec {validate : Value → String → Walk (Option α)} {i : Nat}
    {items : List Value} (h : ∀ v ptr, Spec (validate v ptr) (P v)) :
    Spec (walkItems validate ptr i items) fun b r b' =>
      ∀ as, r = some as → Items P items b as b' := by
  induction items generalizing i with
  | nil =>
    refine Checks.pure fun b _ as has => ?_
    obtain rfl := Option.some.inj has
    exact .nil b
  | cons v vs ih =>
    refine Checks.bind (h v _) fun head => Checks.bind ih fun tail =>
      Checks.pure fun u _ t htail s hhead as has => ?_
    cases head with
    | none => simp at has
    | some a =>
      cases tail with
      | none => simp at has
      | some as' =>
        obtain rfl : a :: as' = as := by simpa using has
        exact .cons hhead (htail as' rfl)

/-- A walk over members by field walkers that leave a clean builder unchanged. -/
theorem walkMembers_spec {validate : String → Value → Walk (Option α)} {G : String → Value → Prop}
    (h : ∀ k v, Spec (validate k v) fun b r b' => b' = b ∧ (r.isSome → G k v))
    {members : List (String × Value)} {out : List (String × α)} :
    Spec (walkMembers validate members out) fun b r b' =>
      b' = b ∧ (r.isSome → ∀ m ∈ members, G m.1 m.2) := by
  induction members generalizing out with
  | nil => exact Checks.pure fun _ _ => ⟨rfl, by simp⟩
  | cons m rest ih =>
    obtain ⟨k, v⟩ := m
    refine Checks.bind (h k v) fun head => ?_
    cases head with
    | none =>
      refine Checks.bind ih fun _ => Checks.pure fun u _ t ht s hs => ?_
      exact ⟨ht.1.trans hs.1, by simp⟩
    | some a =>
      refine ih.mono fun t r u _ ht s hs => ⟨ht.1.trans hs.1, fun hr => ?_⟩
      exact List.forall_mem_cons.mpr ⟨hs.2 rfl, ht.2 hr⟩

end Generic

theorem meets_ref {name : String} {s : Schema}
    (hdef : WorkflowSchema.defs.lookup name = some s) (h : Meets s v) : Meets (.ref name) v :=
  Schema.decides_ref hdef h

variable {ptr what : String}

theorem stringField_spec :
    Spec (stringField v ptr what) fun b r b' =>
      b' = b ∧ r.isSome ∧ Meets WorkflowSchema.nonEmptyString v := by
  unfold stringField
  split
  · split
    · next hne => exact Checks.pure fun _ _ => ⟨rfl, rfl, meets_nonEmptyString hne⟩
    · exact reject_spec
  · exact reject_spec

theorem outOfScope_spec {inScope : Bool} {roots : List (String × Span)} {root message : String} :
    Spec (outOfScope inScope roots root ptr message) fun b _ b' => b' = b := by
  unfold outOfScope
  split
  · split
    · exact Checks.pure fun _ _ => rfl
    · exact Checks.dirty_bind pushIssue_spec fun _ => Checks.trivial
  · exact Checks.pure fun _ _ => rfl

theorem ne_empty_of_parse {src : String} {e : Expression} (h : Expression.parse src = .ok e) :
    src ≠ "" := by
  rintro rfl
  obtain ⟨err, herr⟩ := Expression.parse_empty
  rw [herr] at h
  cases h

/-- An object of one member that has this key has only this key. -/
theorem keys_of_length_one
    (hlen : obj.length = 1) (h : obj.lookup key = some v) : ∀ m ∈ obj, m.1 = key := by
  obtain ⟨⟨k, x⟩, rfl⟩ := List.length_eq_one_iff.mp hlen
  by_cases hk : key = k
  · simp [hk]
  · simp [hk] at h

variable {min : Nat}

/-- An unsigned integer of at least `min` is an integer the schema accepts. -/
theorem meets_integer {n : Nat} (hv : v.asU64 = some n) (hmin : min ≤ n) :
    Meets (.allOf [.type .integer, .minimum min]) v := by
  obtain ⟨fits, rfl⟩ : ∃ fits, v = .number (.posInt n fits) := by
    cases v with
    | number x =>
      cases x with
      | posInt m fits =>
        obtain rfl : m = n := by simpa [Value.asU64, Number.asU64] using hv
        exact ⟨fits, rfl⟩
      | _ => simp [Value.asU64, Number.asU64] at hv
    | _ => simp [Value.asU64] at hv
  refine Schema.valid_allOf fun t ht => ?_
  rcases List.mem_pair.mp ht with rfl | rfl
  · exact meets_type (by simp [InstanceType.admits, Number.toRat])
  · exact ⟨0, by simpa [Schema.eval, Value.onNumber, Number.toRat] using hmin⟩

theorem integerField_spec {message : String} :
    Spec (integerField v ptr min message) fun b _ b' =>
      b' = b ∧ Meets (.allOf [.type .integer, .minimum min]) v := by
  unfold integerField
  split
  · next n hn =>
      split
      · next hmin => exact Checks.pure fun _ _ => ⟨rfl, meets_integer hn hmin⟩
      · exact reject_spec
  · exact reject_spec

theorem invalid_integer_object {min : Int} :
    Schema.Invalid WorkflowSchema.defs (.allOf [.type .integer, .minimum min]) (.object obj) :=
  Schema.invalid_allOf (s := .type .integer) (by simp) ⟨0, rfl⟩

theorem invalid_exprWrapper (h : ∀ obj, v ≠ .object obj) :
    Schema.Invalid WorkflowSchema.defs (.ref "exprWrapper") v := by
  refine Schema.decides_ref (s := WorkflowSchema.exprWrapper) (by simp [WorkflowSchema.defs]) ?_
  refine Schema.invalid_allOf (s := .type .object) (by simp [WorkflowSchema.closedObject]) ?_
  cases v with
  | object obj => exact absurd rfl (h obj)
  | _ => exact ⟨0, rfl⟩

theorem meets_humantime (h : surfaceOk s = true) :
    Meets (.ref "humantime") (.string s) := by
  refine meets_ref (s := WorkflowSchema.humantime) (by simp [WorkflowSchema.defs]) ?_
  refine Schema.valid_allOf fun t ht => ?_
  rcases List.mem_pair.mp ht with rfl | rfl
  · exact meets_type rfl
  · exact meets_pattern (surfaceOk_match h)

variable {scope : Scope}

theorem expression_spec :
    Spec (expression v ptr scope) fun b _ b' => b' = b ∧ Meets (.ref "expression") v := by
  unfold expression
  split
  · next src =>
      cases hp : Expression.parse src with
      | error e =>
        exact Checks.dirty_bind pushIssue_spec fun _ => Checks.trivial
      | ok e =>
        refine Checks.bind outOfScope_spec fun _ => Checks.bind outOfScope_spec fun _ =>
          Checks.pure fun _ _ _ hmid _ hinit => ⟨hmid.trans hinit, ?_⟩
        exact meets_ref (s := WorkflowSchema.expression) (by simp [WorkflowSchema.defs])
          (meets_nonEmptyString (ne_empty_of_parse hp))
  · exact reject_spec

theorem exprWrapper_spec :
    Spec (exprWrapper obj ptr scope what) fun b _ b' =>
      b' = b ∧ Meets (.ref "exprWrapper") (.object obj) := by
  unfold exprWrapper
  split
  · next inner hinner =>
      split
      · next hlen =>
          refine expression_spec.mono fun _ _ _ _ h => ⟨h.1, ?_⟩
          refine meets_ref (s := WorkflowSchema.exprWrapper) (by simp [WorkflowSchema.defs]) ?_
          refine Schema.valid_allOf (meets_closedObject ?_ ?_ ?_)
          · simpa using keys_of_length_one hlen hinner
          · simpa using contains_of_lookup hinner
          · simpa [hinner] using h.2
      · exact reject_spec
  · exact reject_spec

theorem bound_spec :
    Spec (bound v ptr scope min what) fun b _ b' =>
      b' = b ∧ Meets (.oneOf [.allOf [.type .integer, .minimum min], .ref "exprWrapper"]) v := by
  unfold bound
  split
  · next obj =>
      refine Checks.map (exprWrapper_spec.mono fun _ _ _ _ h => ⟨h.1, ?_⟩)
      exact Schema.valid_oneOf [_] [] h.2 (by simpa using invalid_integer_object)
  · next hobj =>
      refine Checks.map (integerField_spec.mono fun _ _ _ _ h => ⟨h.1, ?_⟩)
      exact Schema.valid_oneOf [] [_] h.2 (by simpa using invalid_exprWrapper hobj)

mutual
/-- The scan for nested `$expr` keys leaves a clean builder unchanged. -/
theorem rejectNestedExpr_spec : ∀ (v : Value) (ptr : String),
    Spec (rejectNestedExpr v ptr) fun b _ b' => b' = b
  | .object obj, ptr => by
    rw [rejectNestedExpr]
    split
    · exact Checks.dirty_bind issue_spec fun _ =>
        Checks.bind (rejectNestedMembers_spec obj ptr) fun _ =>
          Checks.pure fun _ _ _ _ => trivial
    · exact rejectNestedMembers_spec obj ptr
  | .array items, ptr => by
    rw [rejectNestedExpr]
    exact rejectNestedItems_spec items ptr 0
  | .null, _ | .bool _, _ | .number _, _ | .string _, _ => Checks.pure fun _ _ => rfl

theorem rejectNestedMembers_spec : ∀ (obj : List (String × Value)) (ptr : String),
    Spec (rejectNestedMembers obj ptr) fun b _ b' => b' = b
  | [], _ => Checks.pure fun _ _ => rfl
  | (k, inner) :: rest, ptr => by
    rw [rejectNestedMembers]
    split
    · exact rejectNestedMembers_spec rest ptr
    · exact Checks.bind (rejectNestedExpr_spec inner _) fun _ =>
        Checks.bind (rejectNestedMembers_spec rest ptr) fun _ =>
          Checks.pure fun _ _ _ hmid _ hinit => hmid.trans hinit

theorem rejectNestedItems_spec : ∀ (items : List Value) (ptr : String) (i : Nat),
    Spec (rejectNestedItems items ptr i) fun b _ b' => b' = b
  | [], _, _ => Checks.pure fun _ _ => rfl
  | inner :: rest, ptr, i => by
    rw [rejectNestedItems]
    exact Checks.bind (rejectNestedExpr_spec inner _) fun _ =>
      Checks.bind (rejectNestedItems_spec rest ptr (i + 1)) fun _ =>
        Checks.pure fun _ _ _ hmid _ hinit => hmid.trans hinit
end

theorem literalArg_spec :
    Spec (literalArg v ptr) fun b _ b' => b' = b :=
  Checks.bind (rejectNestedExpr_spec v ptr) fun ok => by
    cases ok <;> exact Checks.pure fun _ _ _ h => h

theorem argValue_spec :
    Spec (argValue v ptr scope) fun b _ b' => b' = b := by
  unfold argValue
  split
  · split
    · exact Checks.map (exprWrapper_spec.mono fun _ _ _ _ h => h.1)
    · exact literalArg_spec
  · exact literalArg_spec

/-- Present arguments are an object. -/
theorem args_spec {v : Option Value} :
    Spec (args v ptr scope) fun b _ b' =>
      b' = b ∧ ∀ x, v = some x → Meets (.type .object) x := by
  unfold args
  split
  · exact Checks.pure fun _ _ => ⟨rfl, by simp⟩
  · next obj =>
      refine (walkMembers_spec (G := fun _ _ => True) fun _ _ =>
        argValue_spec.mono fun _ _ _ _ h => ⟨h, fun _ => trivial⟩).mono
        fun _ _ _ _ h => ⟨h.1, ?_⟩
      rintro x hx
      obtain rfl := Option.some.inj hx
      exact meets_type rfl
  · exact reject_spec

section Durations

variable [Crates]

variable {v : Value} {ptr : String}

theorem durationField_spec {what : String} :
    Spec (durationField v ptr what) fun b _ b' => b' = b ∧ Meets (.ref "humantime") v := by
  unfold durationField
  split
  · next s =>
      cases hd : parseDuration s with
      | ok d =>
        exact Checks.pure fun _ _ => ⟨rfl, meets_humantime (surfaceOk_of_parseDuration hd)⟩
      | error msg => exact reject_spec
  · exact reject_spec

/-- A retry policy has exactly its two fields. -/
theorem retry_spec :
    Spec (retry v ptr) fun b _ b' => b' = b ∧ Meets WorkflowSchema.retry v := by
  unfold retry
  split
  · next obj =>
      refine Checks.bind unknownKeys_spec fun _ =>
        Checks.bind (required_spec issue_spec fun _ => integerField_spec) fun _ =>
        Checks.bind (required_spec issue_spec fun _ => durationField_spec) fun _ =>
        Checks.pure ?_
      rintro u _ t ⟨backoff, hbackoff, rfl, hb⟩ s ⟨attempts, hattempts, rfl, ha⟩ r ⟨rfl, hkeys⟩
      refine ⟨rfl, Schema.valid_allOf (meets_closedObject (by simpa using hkeys) ?_ ?_)⟩
      · simp [contains_of_lookup hattempts, contains_of_lookup hbackoff]
      · simpa [hattempts, hbackoff] using ⟨ha, hb⟩
  · exact reject_spec

end Durations

end RustyPhoton.SessionRunner
