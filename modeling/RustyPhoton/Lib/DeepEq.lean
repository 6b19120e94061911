import RustyPhoton.Lib.Json

/-!
# Deep equality of JSON values

Two values are deeply equal up to a relation on their numbers: arrays item by item, objects key by
key, in whatever order their members stand. It is an equivalence where the relation is one. A value
that a parser builds has no key twice in any object; on such values an object may be compared by its
length and the lookups of one side only, because the keys of two such objects of one length are the
same as soon as those of one are among those of the other.
-/

namespace RustyPhoton.Lib.Value

/-- What holds of a value once it holds of its items and its members holds of every value. -/
theorem induction_on {P : Value → Prop} (value : Value) (null : P .null)
    (bool : ∀ b, P (.bool b)) (number : ∀ n, P (.number n)) (string : ∀ s, P (.string s))
    (array : ∀ items : List Value, (∀ v ∈ items, P v) → P (.array items))
    (object : ∀ members : List (String × Value), (∀ entry ∈ members, P entry.2) →
      P (.object members)) : P value :=
  @Value.rec P (fun items => ∀ v ∈ items, P v) (fun members => ∀ entry ∈ members, P entry.2)
    (fun entry => P entry.2)
    null bool number string array object (by simp)
    (fun _ _ hhead htail => List.forall_mem_cons.mpr ⟨hhead, htail⟩) (by simp)
    (fun _ _ hhead htail => List.forall_mem_cons.mpr ⟨hhead, htail⟩) (fun _ _ h => h) value

/-- No object has a key twice, at any depth. -/
inductive WellFormed : Value → Prop where
  | null : WellFormed .null
  | bool (b : Bool) : WellFormed (.bool b)
  | number (n : Number) : WellFormed (.number n)
  | string (s : String) : WellFormed (.string s)
  | array {items : List Value} (h : ∀ v ∈ items, WellFormed v) : WellFormed (.array items)
  | object {members : List (String × Value)} (keys : (Assoc.keys members).Nodup)
      (h : ∀ entry ∈ members, WellFormed entry.2) : WellFormed (.object members)

/-- Equality up to a relation on the numbers and the order of the members. -/
inductive DeepEq (eqv : Number → Number → Prop) : Value → Value → Prop where
  | null : DeepEq eqv .null .null
  | bool (b : Bool) : DeepEq eqv (.bool b) (.bool b)
  | number {l r : Number} (h : eqv l r) : DeepEq eqv (.number l) (.number r)
  | string (s : String) : DeepEq eqv (.string s) (.string s)
  | array {l r : List Value} (length : l.length = r.length)
      (items : ∀ (i : Nat) v w, l[i]? = some v → r[i]? = some w → DeepEq eqv v w) :
      DeepEq eqv (.array l) (.array r)
  | object {l r : List (String × Value)} (keys : ∀ key, key ∈ Assoc.keys l ↔ key ∈ Assoc.keys r)
      (members : ∀ key v w, l.lookup key = some v → r.lookup key = some w → DeepEq eqv v w) :
      DeepEq eqv (.object l) (.object r)

variable {eqv eqv' : Number → Number → Prop} {a b c : Value}

namespace DeepEq

theorem refl (hrefl : ∀ n, eqv n n) (a : Value) : DeepEq eqv a a := by
  induction a using induction_on with
  | null => exact .null
  | bool b => exact .bool b
  | number n => exact .number (hrefl n)
  | string s => exact .string s
  | array items ih =>
    refine .array rfl ?_
    intro i v w hv hw
    obtain rfl := Option.some.inj (hv.symm.trans hw)
    exact ih v (List.mem_of_getElem? hv)
  | object members ih =>
    refine .object (fun _ => Iff.rfl) ?_
    intro key v w hv hw
    obtain rfl := Option.some.inj (hv.symm.trans hw)
    exact ih (key, v) (Assoc.mem_of_lookup hv)

theorem symm (hsymm : ∀ l r, eqv l r → eqv r l) (h : DeepEq eqv a b) : DeepEq eqv b a := by
  induction h with
  | null => exact .null
  | bool b => exact .bool b
  | number h => exact .number (hsymm _ _ h)
  | string s => exact .string s
  | array length _ ih => exact .array length.symm fun i v w hv hw => ih i w v hw hv
  | object keys _ ih => exact .object (fun key => (keys key).symm) fun key v w hv hw => ih key w v hw hv

theorem trans (htrans : ∀ l m r, eqv l m → eqv m r → eqv l r) (h : DeepEq eqv a b)
    (h' : DeepEq eqv b c) : DeepEq eqv a c := by
  induction h generalizing c with
  | null => exact h'
  | bool b => exact h'
  | string s => exact h'
  | number h =>
    cases h' with
    | number h' => exact .number (htrans _ _ _ h h')
  | @array l m length items ih =>
    cases h' with
    | array length' items' =>
      refine .array (length.trans length') ?_
      intro i v w hv hw
      have hi : i < m.length := by
        rw [← length]
        exact (List.getElem?_eq_some_iff.mp hv).1
      have hm := List.getElem?_eq_getElem hi
      exact ih i v m[i] hv hm (items' i m[i] w hm hw)
  | @object l m keys members ih =>
    cases h' with
    | object keys' members' =>
      refine .object (fun key => (keys key).trans (keys' key)) ?_
      intro key v w hv hw
      have hkey : key ∈ Assoc.keys m := by
        rw [← keys, ← Assoc.lookup_isSome_iff, hv]
        rfl
      obtain ⟨u, hu⟩ := Assoc.exists_lookup hkey
      exact ih key v u hv hu (members' key u w hu hw)

theorem mono (himp : ∀ l r, eqv l r → eqv' l r) (h : DeepEq eqv a b) : DeepEq eqv' a b := by
  induction h with
  | null => exact .null
  | bool b => exact .bool b
  | number h => exact .number (himp _ _ h)
  | string s => exact .string s
  | array length _ ih => exact .array length ih
  | object keys _ ih => exact .object keys ih

end DeepEq

variable {l r : List (String × Value)}

/-- Distinct keys among as many others are all of them. -/
theorem keys_iff_of_length (hl : (Assoc.keys l).Nodup)
    (hlength : l.length = r.length)
    (hsub : ∀ key ∈ Assoc.keys l, key ∈ Assoc.keys r) (key : String) :
    key ∈ Assoc.keys l ↔ key ∈ Assoc.keys r := by
  have hsubperm : (Assoc.keys l).Subperm (Assoc.keys r) := List.subperm_of_subset hl hsub
  have hle : (Assoc.keys r).length ≤ (Assoc.keys l).length := by
    simp [Assoc.keys, hlength]
  exact (hsubperm.perm_of_length_le hle).mem_iff

theorem length_of_keys_iff (hl : (Assoc.keys l).Nodup)
    (hr : (Assoc.keys r).Nodup) (h : ∀ key, key ∈ Assoc.keys l ↔ key ∈ Assoc.keys r) :
    l.length = r.length := by
  have hperm : (Assoc.keys l).Perm (Assoc.keys r) := (List.perm_ext_iff_of_nodup hl hr).mpr h
  simpa [Assoc.keys] using hperm.length_eq

/-- Objects with no key twice are compared by their length and one side's lookups. -/
theorem deepEq_object_iff (hl : (Assoc.keys l).Nodup)
    (hr : (Assoc.keys r).Nodup) :
    DeepEq eqv (.object l) (.object r) ↔ l.length = r.length ∧
      ∀ entry ∈ l, ∃ w, r.lookup entry.1 = some w ∧ DeepEq eqv entry.2 w := by
  constructor
  · intro h
    cases h with
    | object keys members =>
      refine ⟨length_of_keys_iff hl hr keys, ?_⟩
      intro entry hentry
      have hkey : entry.1 ∈ Assoc.keys l := List.mem_map_of_mem hentry
      obtain ⟨w, hw⟩ := Assoc.exists_lookup ((keys _).mp hkey)
      exact ⟨w, hw, members _ _ _ (Assoc.lookup_of_mem hl hentry) hw⟩
  · rintro ⟨hlength, hentries⟩
    refine .object (keys_iff_of_length hl hlength ?_) ?_
    · intro key hkey
      obtain ⟨v, hv⟩ := Assoc.exists_lookup hkey
      obtain ⟨w, hw, -⟩ := hentries (key, v) (Assoc.mem_of_lookup hv)
      rw [← Assoc.lookup_isSome_iff, hw]
      rfl
    · intro key v w hv hw
      obtain ⟨w', hw', hdeep⟩ := hentries (key, v) (Assoc.mem_of_lookup hv)
      exact Option.some.inj (hw'.symm.trans hw) ▸ hdeep

/-- The order of the members does not matter. -/
theorem deepEq_of_perm (hrefl : ∀ n, eqv n n)
    (hl : (Assoc.keys l).Nodup) (hperm : l.Perm r) : DeepEq eqv (.object l) (.object r) := by
  have hkeys : (Assoc.keys l).Perm (Assoc.keys r) := hperm.map _
  refine (deepEq_object_iff hl (hkeys.nodup_iff.mp hl)).mpr ⟨hperm.length_eq, ?_⟩
  intro entry hentry
  exact ⟨entry.2, Assoc.lookup_of_mem (hkeys.nodup_iff.mp hl) (hperm.mem_iff.mp hentry),
    .refl hrefl _⟩

end RustyPhoton.Lib.Value
