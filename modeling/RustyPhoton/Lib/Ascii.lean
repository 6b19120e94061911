import Mathlib.Data.List.DropRight
import Mathlib.Data.Option.Basic

/-!
# Texts with the same ASCII characters

A relation between texts that keeps their ASCII characters in place and may relate what stands
between them in any way. Whatever a parser does by looking for ASCII characters only, it does alike
on related texts, and the parts it finds are related again.
-/

namespace RustyPhoton.Lib

/-- A character below the first two-byte one. -/
def IsAscii (c : Char) : Prop := c.toNat < 0x80

instance (c : Char) : Decidable (IsAscii c) := inferInstanceAs (Decidable (_ < _))

/-- A text that is found ASCII character by character. -/
theorem isAscii_of_all {l : List Char} (h : l.all (fun c => decide (IsAscii c)) = true) :
    ∀ c ∈ l, IsAscii c :=
  fun c hc => of_decide_eq_true (List.all_eq_true.mp h c hc)

/-- A relation that keeps ASCII characters in place. -/
structure KeepsAscii (D : List Char → List Char → Prop) : Prop where
  nil : ∀ {t}, D [] t ↔ t = []
  ne_nil : ∀ {a}, D a [] → a = []
  split : ∀ {a b t x}, D (a ++ x :: b) t → IsAscii x →
    ∃ ta tb, t = ta ++ x :: tb ∧ D a ta ∧ D b tb
  join : ∀ {a b ta tb x}, D a ta → D b tb → IsAscii x → D (a ++ x :: b) (ta ++ x :: tb)
  mem : ∀ {a t x}, D a t → IsAscii x → x ∈ t → x ∈ a

namespace KeepsAscii

variable {D : List Char → List Char → Prop} (hD : KeepsAscii D) {a t b tb : List Char} {x : Char}
include hD

theorem mem_iff (h : D a t) (hx : IsAscii x) : x ∈ a ↔ x ∈ t := by
  refine ⟨fun hmem => ?_, hD.mem h hx⟩
  obtain ⟨p, q, rfl⟩ := List.append_of_mem hmem
  obtain ⟨tp, tq, rfl, -, -⟩ := hD.split h hx
  simp

theorem of_nil (h : D a t) : a = [] ↔ t = [] := by
  constructor
  · rintro rfl
    exact hD.nil.mp h
  · rintro rfl
    exact hD.ne_nil h

/-! ## The first and the last character -/

theorem cons (h : D (x :: a) t) (hx : IsAscii x) : ∃ t', t = x :: t' ∧ D a t' := by
  obtain ⟨ta, tb, rfl, hnil, hb⟩ := hD.split (a := []) h hx
  obtain rfl := hD.nil.mp hnil
  exact ⟨tb, rfl, hb⟩

/-- A text up to the first occurrence of an ASCII character. -/
theorem first (h : D a t) (hx : IsAscii x) (hmem : x ∈ t) :
    ∃ p q tp tq, a = p ++ x :: q ∧ t = tp ++ x :: tq ∧ x ∉ p ∧ x ∉ tp ∧ D p tp ∧ D q tq := by
  obtain ⟨p, q, rfl, hp⟩ := List.eq_append_cons_of_mem (hD.mem h hx hmem)
  obtain ⟨tp, tq, rfl, hptp, hqtq⟩ := hD.split h hx
  exact ⟨p, q, tp, tq, rfl, rfl, hp, fun htp => hp (hD.mem hptp hx htp), hptp, hqtq⟩

theorem of_cons (h : D a (x :: t)) (hx : IsAscii x) : ∃ a', a = x :: a' ∧ D a' t := by
  obtain ⟨p, q, tp, tq, rfl, ht, -, hnot, hp, hq⟩ := hD.first h hx (by simp)
  cases tp with
  | nil =>
    obtain rfl := hD.ne_nil hp
    obtain ⟨-, rfl⟩ := List.cons.inj ht
    exact ⟨q, rfl, hq⟩
  | cons y tp =>
    obtain ⟨rfl, -⟩ := List.cons.inj ht
    exact absurd List.mem_cons_self hnot

/-- A text of ASCII characters is only related to itself. -/
theorem eq_iff (h : D a t) {w : List Char} (hw : ∀ c ∈ w, IsAscii c) : a = w ↔ t = w := by
  induction w generalizing a t with
  | nil => exact hD.of_nil h
  | cons c w ih =>
    have hc : IsAscii c := hw c (by simp)
    have hrest : ∀ c ∈ w, IsAscii c := fun c hmem => hw c (by simp [hmem])
    constructor
    · rintro rfl
      obtain ⟨t', rfl, h'⟩ := hD.cons h hc
      rw [(ih h' hrest).mp rfl]
    · rintro rfl
      obtain ⟨a', rfl, h'⟩ := hD.of_cons h hc
      rw [(ih h' hrest).mpr rfl]

theorem snoc (h : D (a ++ [x]) t) (hx : IsAscii x) : ∃ t', t = t' ++ [x] ∧ D a t' := by
  obtain ⟨ta, tb, rfl, ha, hnil⟩ := hD.split h hx
  obtain rfl := hD.nil.mp hnil
  exact ⟨ta, rfl, ha⟩

theorem of_snoc (h : D a (t ++ [x])) (hx : IsAscii x) : ∃ a', a = a' ++ [x] := by
  have hmem : x ∈ a.reverse := List.mem_reverse.mpr (hD.mem h hx (by simp))
  obtain ⟨q, p, hrev, hq⟩ := List.eq_append_cons_of_mem hmem
  obtain rfl : a = p.reverse ++ x :: q.reverse := by
    rw [← List.reverse_reverse a, hrev]
    simp
  obtain ⟨ta, tb, ht, -, hlast⟩ := hD.split h hx
  have hnot : x ∉ tb := fun htb => hq (List.mem_reverse.mp (hD.mem hlast hx htb))
  -- what stands after the last `x` is related to the empty text
  rcases List.eq_nil_or_concat' tb with rfl | ⟨tb, y, rfl⟩
  · exact ⟨p.reverse, by rw [hD.ne_nil hlast]⟩
  · have hxy : x = y := by
      have hassoc : t ++ [x] = (ta ++ x :: tb) ++ [y] := by simpa using ht
      simpa using (List.append_inj' hassoc rfl).2
    exact absurd (by simp [hxy]) hnot

/-- Trimming an ASCII character from the end. -/
theorem trimEnd (h : D a t) (hx : IsAscii x) :
    D (a.rdropWhile (· = x)) (t.rdropWhile (· = x)) := by
  induction a using List.reverseRecOn generalizing t with
  | nil =>
    obtain rfl := hD.nil.mp h
    simpa using h
  | append_singleton a y ih =>
    by_cases hy : y = x
    · subst hy
      obtain ⟨t', rfl, h'⟩ := hD.snoc h hx
      simpa [List.rdropWhile_concat] using ih h'
    · have ht : t.rdropWhile (· = x) = t := by
        rw [List.rdropWhile_eq_self_iff]
        intro hne heq
        obtain ⟨a', ha'⟩ : ∃ a', a ++ [y] = a' ++ [x] := by
          refine hD.of_snoc (t := t.dropLast) ?_ hx
          have hlast : t.getLast hne = x := by simpa using heq
          rwa [← hlast, List.dropLast_append_getLast]
        exact hy (by simpa using (List.append_inj' ha' rfl).2)
      rw [ht, List.rdropWhile_concat_neg _ _ _ (by simpa using hy)]
      exact h

end KeepsAscii

end RustyPhoton.Lib
