import Mathlib.Data.List.Basic
import Mathlib.Order.Lattice

/-!
# The first of the least

A scan that replaces what it holds only by something strictly smaller ends with the element of least
key that comes first.
-/

namespace RustyPhoton.Lib.FirstLeast

universe u v

variable {α : Type u} {κ : Type v} [LinearOrder κ] (key : α → κ)

/-- No key is smaller, and those in front of it are larger. -/
def Chosen (xs : List α) (x : α) : Prop :=
  ∃ before later, xs = before ++ x :: later ∧ (∀ y ∈ before, key x < key y) ∧
    ∀ y ∈ later, key x ≤ key y

/-- One step of the scan. -/
def keep : Option α → α → Option α
  | none, x => some x
  | some held, x => if key x < key held then some x else some held

variable {xs : List α} {x : α}

theorem Chosen.le (h : Chosen key xs x) {y : α} (hy : y ∈ xs) :
    key x ≤ key y := by
  obtain ⟨before, later, rfl, hbefore, hlater⟩ := h
  rcases List.mem_append.mp hy with hy | hy
  · exact (hbefore y hy).le
  · rcases List.mem_cons.mp hy with rfl | hy
    · exact le_rfl
    · exact hlater y hy

theorem chosen_singleton (x : α) : Chosen key [x] x :=
  ⟨[], [], rfl, by simp, by simp⟩

/-- Chosen among the elements that pass a test, it stands in the list behind larger ones only. -/
theorem chosen_of_filter {p : α → Bool} (h : Chosen key (xs.filter p) x) :
    p x = true ∧ ∃ before later, xs = before ++ x :: later ∧
      (∀ y ∈ before, p y = true → key x < key y) ∧ ∀ y ∈ later, p y = true → key x ≤ key y := by
  obtain ⟨before, later, heq, hbefore, hlater⟩ := h
  obtain ⟨front, rest, rfl, hfront, hrest⟩ := List.filter_eq_append_iff.mp heq
  obtain ⟨passed, back, rfl, hpassed, hx, hback⟩ := List.filter_eq_cons_iff.mp hrest
  refine ⟨hx, front ++ passed, back, by simp, ?_, ?_⟩
  · intro y hy hp
    rcases List.mem_append.mp hy with hy | hy
    · exact hbefore y (hfront ▸ List.mem_filter.mpr ⟨hy, hp⟩)
    · exact absurd hp (hpassed y hy)
  · intro y hy hp
    exact hlater y (hback ▸ List.mem_filter.mpr ⟨hy, hp⟩)

variable {seen : List α}

/-- What a step of the scan holds is chosen from what it has seen. -/
theorem keep_chosen {held : α} (h : Chosen key seen held) :
    ∃ held', keep key (some held) x = some held' ∧ Chosen key (seen ++ [x]) held' := by
  show ∃ held', (if key x < key held then some x else some held) = some held' ∧ _
  split
  · next hlt =>
    refine ⟨x, rfl, seen, [], by simp, ?_, by simp⟩
    intro y hy
    exact lt_of_lt_of_le hlt (h.le key hy)
  · next hle =>
    obtain ⟨before, later, rfl, hbefore, hlater⟩ := h
    refine ⟨held, rfl, before, later ++ [x], by simp, hbefore, ?_⟩
    intro y hy
    rcases List.mem_append.mp hy with hy | hy
    · exact hlater y hy
    · rw [List.mem_singleton.mp hy]
      exact not_lt.mp hle

/-- The scan from an element it holds. -/
theorem foldl_keep_chosen {held : α} (xs : List α) (h : Chosen key seen held) :
    ∃ held', xs.foldl (keep key) (some held) = some held' ∧ Chosen key (seen ++ xs) held' := by
  induction xs generalizing seen held with
  | nil => exact ⟨held, rfl, by simpa using h⟩
  | cons x xs ih =>
    obtain ⟨held', hkeep, h'⟩ := keep_chosen key (x := x) h
    obtain ⟨last, hlast, hchosen⟩ := ih h'
    refine ⟨last, ?_, by simpa using hchosen⟩
    rw [List.foldl_cons, hkeep, hlast]

/-- A scan that found something chose it. -/
theorem foldl_keep_some (h : xs.foldl (keep key) none = some x) :
    Chosen key xs x := by
  cases xs with
  | nil => cases h
  | cons first xs =>
    obtain ⟨last, hlast, hchosen⟩ := foldl_keep_chosen key xs (chosen_singleton key first)
    have hheld : some x = some last := by
      rw [← hlast, ← h]
      rfl
    cases hheld
    simpa using hchosen

theorem foldl_keep_eq_none : xs.foldl (keep key) none = none ↔ xs = [] := by
  cases xs with
  | nil => simp
  | cons first xs =>
    obtain ⟨last, hlast, -⟩ := foldl_keep_chosen key xs (chosen_singleton key first)
    have hheld : (first :: xs).foldl (keep key) none = some last := hlast
    rw [hheld]
    simp

end RustyPhoton.Lib.FirstLeast
