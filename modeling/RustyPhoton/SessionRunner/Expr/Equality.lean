import RustyPhoton.Lib.DeepEq
import RustyPhoton.SessionRunner.Expr.Eval

/-!
# Expression equality is an equivalence that traversal respects

`valueEq` walks the left object's members only. On values with no key twice it is deep equality up to
the numbers' floats.
-/

namespace RustyPhoton.Lib.Binary64

theorem magnitude_of_key {x y : Binary64} (h : x.key = y.key) :
    x.magnitude = y.magnitude ∧ (x.sign = y.sign ∨ x.magnitude = 0) := by
  unfold key at h
  cases hx : x.sign <;> cases hy : y.sign <;> simp only [hx, hy] at h ⊢ <;> simp at h ⊢ <;> omega

/-- Floats that compare equal have one value. -/
theorem toRat_of_key {x y : Binary64} (h : x.key = y.key) : x.toRat = y.toRat := by
  obtain ⟨hmagnitude, hsign | hzero⟩ := magnitude_of_key h
  · simp only [toRat, hmagnitude, hsign]
  · have hzero' : y.magnitude = 0 := hmagnitude ▸ hzero
    simp [toRat, hzero, hzero']

theorem isNaN_ofMagnitude {neg : Bool} {mag : Nat} (h : mag ≤ infMagnitude) :
    (ofMagnitude neg mag).isNaN = false := by
  have hlt : infMagnitude < 2 ^ 63 := by decide
  rw [isNaN, magnitude_ofMagnitude, Nat.mod_eq_of_lt (by omega)]
  exact decide_eq_false (by omega)

theorem roundMagnitude_le (q : Rat) : roundMagnitude q ≤ infMagnitude := by
  unfold roundMagnitude
  split
  · exact Nat.zero_le _
  · exact Nat.min_le_left _ _

theorem isNaN_ofInt (n : Int) : (ofInt n).isNaN = false := by
  unfold ofInt ofRat
  split
  · exact isNaN_ofMagnitude (Nat.zero_le _)
  · exact isNaN_ofMagnitude (roundMagnitude_le _)

end RustyPhoton.Lib.Binary64

namespace RustyPhoton.SessionRunner.Expr

open Lib

/-- Numbers of one float value, whatever their representation. -/
def numEq (l r : Number) : Prop := Binary64.eq l.asF64 r.asF64 = true

theorem isNaN_asF64 (n : Number) : n.asF64.isNaN = false := by
  cases n with
  | posInt n _ => exact Binary64.isNaN_ofInt n
  | negInt n _ => exact Binary64.isNaN_ofInt n
  | float x hfinite =>
    have hlt : x.magnitude < Binary64.infMagnitude := of_decide_eq_true hfinite
    show decide (Binary64.infMagnitude < x.magnitude) = false
    exact decide_eq_false (by omega)

theorem numEq_iff {l r : Number} : numEq l r ↔ l.asF64.key = r.asF64.key := by
  simp [numEq, Binary64.eq, isNaN_asF64]

/-- The index an equal number stands for is the same. -/
theorem exactNat_of_numEq {l r : Number} (h : numEq l r) : exactNat l.asF64 = exactNat r.asF64 := by
  have hkey := numEq_iff.mp h
  have hrat := Binary64.toRat_of_key hkey
  have hfinite : l.asF64.isFinite = r.asF64.isFinite := by
    rw [Binary64.isFinite, Binary64.isFinite, (Binary64.magnitude_of_key hkey).1]
  have hint : exactInt l.asF64 = exactInt r.asF64 := by
    unfold exactInt Binary64.isInteger
    rw [hfinite, hrat]
  rw [exactNat, exactNat, hint]

/-! ## What the comparison computes -/

theorem valueEqItems_iff (l r : List Value) :
    valueEqItems l r = true ↔ l.length = r.length ∧
      ∀ (i : Nat) v w, l[i]? = some v → r[i]? = some w → valueEq v w = true := by
  induction l generalizing r with
  | nil => cases r <;> simp [valueEqItems]
  | cons v l ih =>
    cases r with
    | nil => simp [valueEqItems]
    | cons w r =>
      rw [valueEqItems, Bool.and_eq_true, ih, List.length_cons, List.length_cons]
      constructor
      · rintro ⟨hhead, hlength, htail⟩
        refine ⟨by omega, ?_⟩
        intro i v' w' hv hw
        cases i with
        | zero =>
          obtain rfl := Option.some.inj hv
          obtain rfl := Option.some.inj hw
          exact hhead
        | succ i => exact htail i v' w' hv hw
      · rintro ⟨hlength, hitems⟩
        exact ⟨hitems 0 v w rfl rfl, by omega, fun i v' w' hv hw => hitems (i + 1) v' w' hv hw⟩

theorem valueEqMembers_iff (l r : List (String × Value)) :
    valueEqMembers l r = true ↔
      ∀ entry ∈ l, ∃ w, r.lookup entry.1 = some w ∧ valueEq entry.2 w = true := by
  induction l with
  | nil => simp [valueEqMembers]
  | cons entry l ih =>
    obtain ⟨key, v⟩ := entry
    rw [valueEqMembers, Bool.and_eq_true, ih, List.forall_mem_cons]
    cases r.lookup key <;> simp

variable {a b : Value}

/-- On values with no key twice the comparison is deep equality. -/
theorem valueEq_iff (ha : a.WellFormed) (hb : b.WellFormed) :
    valueEq a b = true ↔ Value.DeepEq numEq a b := by
  induction a using Value.induction_on generalizing b with
  | null =>
    constructor
    · intro h
      cases b with
      | null => exact .null
      | _ => simp [valueEq] at h
    · intro h
      cases h
      simp [valueEq]
  | bool x =>
    constructor
    · intro h
      cases b with
      | bool y =>
        obtain rfl : x = y := by simpa [valueEq] using h
        exact .bool x
      | _ => simp [valueEq] at h
    · intro h
      cases h
      simp [valueEq]
  | number n =>
    constructor
    · intro h
      cases b with
      | number m => exact .number h
      | _ => simp [valueEq] at h
    · intro h
      cases h with
      | number h => exact h
  | string s =>
    constructor
    · intro h
      cases b with
      | string t =>
        obtain rfl : s = t := by simpa [valueEq] using h
        exact .string s
      | _ => simp [valueEq] at h
    · intro h
      cases h
      simp [valueEq]
  | array items ih =>
    cases ha with
    | array hitems =>
      constructor
      · intro h
        cases b with
        | array others =>
          cases hb with
          | array hothers =>
            obtain ⟨hlength, heq⟩ := (valueEqItems_iff items others).mp h
            refine .array hlength ?_
            intro i v w hv hw
            have hvin := List.mem_of_getElem? hv
            have hwin := List.mem_of_getElem? hw
            exact (ih v hvin (hitems v hvin) (hothers w hwin)).mp (heq i v w hv hw)
        | _ => simp [valueEq] at h
      · intro h
        cases h with
        | array hlength heq =>
          cases hb with
          | array hothers =>
            refine (valueEqItems_iff _ _).mpr ⟨hlength, ?_⟩
            intro i v w hv hw
            have hvin := List.mem_of_getElem? hv
            have hwin := List.mem_of_getElem? hw
            exact (ih v hvin (hitems v hvin) (hothers w hwin)).mpr (heq i v w hv hw)
  | object members ih =>
    cases ha with
    | object hkeys hmembers =>
      constructor
      · intro h
        cases b with
        | object others =>
          cases hb with
          | object hkeys' hothers =>
            have hand : members.length = others.length ∧
                valueEqMembers members others = true := by simpa [valueEq] using h
            refine (Value.deepEq_object_iff hkeys hkeys').mpr ⟨hand.1, ?_⟩
            intro entry hentry
            obtain ⟨w, hw, heq⟩ := (valueEqMembers_iff members others).mp hand.2 entry hentry
            exact ⟨w, hw, (ih entry hentry (hmembers entry hentry)
              (hothers _ (Assoc.mem_of_lookup hw))).mp heq⟩
        | _ => simp [valueEq] at h
      · intro h
        cases b with
        | object others =>
          cases hb with
          | object hkeys' hothers =>
            obtain ⟨hlength, hentries⟩ := (Value.deepEq_object_iff hkeys hkeys').mp h
            have heq : valueEqMembers members others = true := by
              refine (valueEqMembers_iff members others).mpr ?_
              intro entry hentry
              obtain ⟨w, hw, hdeep⟩ := hentries entry hentry
              exact ⟨w, hw, (ih entry hentry (hmembers entry hentry)
                (hothers _ (Assoc.mem_of_lookup hw))).mpr hdeep⟩
            simp [valueEq, hlength, heq]
        | _ => cases h

/-! ## Traversal -/

/-- The member a traversal reads: `null` where there is none. -/
def memberValue (value : Value) (field : String) : Value := (value.get field).getD .null

variable {ctx : EvalContext} {obj : Ast} {value : Value}

theorem eval_member [Crates]
    (h : eval ctx obj = .ok value) (field : String) (span : Span) :
    eval ctx (.member obj field span) = .ok (memberValue value field) := by
  simp only [eval, h]
  cases value <;> rfl

theorem eval_index [Crates] {idx : Ast} {index : Value}
    (h : eval ctx obj = .ok value) (hidx : eval ctx idx = .ok index) (span : Span) :
    eval ctx (.index obj idx span) = .ok (indexValue value index) := by
  simp only [eval, h, hidx]
  rfl

/-- Equal objects read equal members. -/
theorem deepEq_lookup {l r : List (String × Value)} (h : Value.DeepEq numEq (.object l) (.object r))
    (key : String) : Value.DeepEq numEq ((l.lookup key).getD .null) ((r.lookup key).getD .null) := by
  cases h with
  | object keys members =>
    cases hl : l.lookup key with
    | none =>
      have hr : r.lookup key = none := by
        refine Assoc.lookup_eq_none ?_
        rw [← keys]
        exact Assoc.not_mem_keys_of_lookup hl
      rw [hr]
      exact .null
    | some v =>
      obtain ⟨w, hw⟩ := Assoc.exists_lookup ((keys key).mp
        (Assoc.lookup_isSome_iff.mp (by rw [hl]; rfl)))
      rw [hw]
      exact members key v w hl hw

theorem deepEq_memberValue (h : Value.DeepEq numEq a b) (field : String) :
    Value.DeepEq numEq (memberValue a field) (memberValue b field) := by
  cases h with
  | object keys members => exact deepEq_lookup (.object keys members) field
  | _ => exact .null

/-- Equal arrays hold equal items, and neither holds more. -/
theorem deepEq_getD {l r : List Value} (h : Value.DeepEq numEq (.array l) (.array r)) (i : Nat) :
    Value.DeepEq numEq (l.getD i .null) (r.getD i .null) := by
  cases h with
  | array length items =>
    rw [List.getD_eq_getElem?_getD, List.getD_eq_getElem?_getD]
    by_cases hi : i < l.length
    · have hl := List.getElem?_eq_getElem hi
      have hr := List.getElem?_eq_getElem (length ▸ hi : i < r.length)
      rw [hl, hr]
      exact items i _ _ hl hr
    · rw [List.getElem?_eq_none (by omega), List.getElem?_eq_none (by omega)]
      exact .null

theorem deepEq_indexValue {i j : Value} (h : Value.DeepEq numEq a b)
    (hindex : Value.DeepEq numEq i j) :
    Value.DeepEq numEq (indexValue a i) (indexValue b j) := by
  cases h with
  | object keys members =>
    cases hindex with
    | string s => exact deepEq_lookup (.object keys members) s
    | _ => exact .null
  | array length items =>
    cases hindex with
    | @number m n hnum =>
      simp only [indexValue, exactNat_of_numEq hnum]
      cases exactNat n.asF64 with
      | none => exact .null
      | some k => exact deepEq_getD (.array length items) k
    | _ => exact .null
  | _ => cases hindex <;> exact .null

theorem wellFormed_memberValue (h : a.WellFormed) (field : String) :
    (memberValue a field).WellFormed := by
  cases h with
  | @object members keys hmembers =>
    show ((members.lookup field).getD .null).WellFormed
    cases hl : members.lookup field with
    | none => exact .null
    | some v => exact hmembers (field, v) (Assoc.mem_of_lookup hl)
  | _ => exact .null

theorem wellFormed_indexValue (h : a.WellFormed) (i : Value) :
    (indexValue a i).WellFormed := by
  cases h with
  | @object members keys hmembers =>
    cases i with
    | string s => exact wellFormed_memberValue (.object keys hmembers) s
    | _ => exact .null
  | @array items hitems =>
    cases i with
    | number n =>
      simp only [indexValue]
      cases exactNat n.asF64 with
      | none => exact .null
      | some k =>
        show (items.getD k .null).WellFormed
        rw [List.getD_eq_getElem?_getD]
        cases hk : items[k]? with
        | none => exact .null
        | some v => exact hitems v (List.mem_of_getElem? hk)
    | _ => exact .null
  | _ => cases i <;> exact .null

/-! ## The equality of expressions -/

/-- A value as the JSON parser and the blackboard build it. -/
abbrev JsonValue := { value : Value // value.WellFormed }

/-- What evaluates to equal values still does after a traversal step. -/
def StepsRespect [Crates] (a b : Value) : Prop :=
  ∀ (ctx ctx' : EvalContext) (obj obj' : Ast), eval ctx obj = .ok a → eval ctx' obj' = .ok b →
    (∀ field span span', ∃ v w, eval ctx (.member obj field span) = .ok v ∧
      eval ctx' (.member obj' field span') = .ok w ∧ valueEq v w = true) ∧
    ∀ (i j : JsonValue) (idx idx' : Ast), eval ctx idx = .ok i.1 → eval ctx' idx' = .ok j.1 →
      valueEq i.1 j.1 = true → ∀ span span', ∃ v w, eval ctx (.index obj idx span) = .ok v ∧
        eval ctx' (.index obj' idx' span') = .ok w ∧ valueEq v w = true

theorem stepsRespect [Crates] (ha : a.WellFormed) (hb : b.WellFormed)
    (h : valueEq a b = true) : StepsRespect a b := by
  have hdeep := (valueEq_iff ha hb).mp h
  intro ctx ctx' obj obj' hobj hobj'
  refine ⟨?_, ?_⟩
  · intro field span span'
    refine ⟨_, _, eval_member hobj field span, eval_member hobj' field span', ?_⟩
    exact (valueEq_iff (wellFormed_memberValue ha field) (wellFormed_memberValue hb field)).mpr
      (deepEq_memberValue hdeep field)
  · intro i j idx idx' hidx hidx' hindex span span'
    refine ⟨_, _, eval_index hobj hidx span, eval_index hobj' hidx' span', ?_⟩
    exact (valueEq_iff (wellFormed_indexValue ha _) (wellFormed_indexValue hb _)).mpr
      (deepEq_indexValue hdeep ((valueEq_iff i.2 j.2).mp hindex))

theorem valueEq_equivalence : Equivalence fun a b : JsonValue => valueEq a.1 b.1 = true where
  refl a := (valueEq_iff a.2 a.2).mpr (.refl (fun _ => numEq_iff.mpr rfl) a.1)
  symm := by
    intro a b h
    have hdeep := (valueEq_iff a.2 b.2).mp h
    exact (valueEq_iff b.2 a.2).mpr
      (hdeep.symm fun _ _ heq => numEq_iff.mpr (numEq_iff.mp heq).symm)
  trans := by
    intro a b c hab hbc
    have hdeep := (valueEq_iff a.2 b.2).mp hab
    refine (valueEq_iff a.2 c.2).mpr (hdeep.trans ?_ ((valueEq_iff b.2 c.2).mp hbc))
    exact fun _ _ _ hl hr => numEq_iff.mpr ((numEq_iff.mp hl).trans (numEq_iff.mp hr))

/-- The members of an object, to be written in either order. -/
def fiveAndFlag : List (String × Value) :=
  [("five", .number (.posInt 5 (by decide))), ("flag", .null)]

end RustyPhoton.SessionRunner.Expr
