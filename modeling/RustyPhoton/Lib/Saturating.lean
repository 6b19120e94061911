import Mathlib.Order.MinMax

/-!
# Signed 32-bit numbers that stop at their limits

The numbers a signed 32-bit word holds, ordered as integers. Sums, differences and products that do
not fit are the limit they passed.
-/

namespace RustyPhoton.Lib

/-- A number that a signed 32-bit word holds. -/
structure I32 where
  val : ℤ
  low : -2147483648 ≤ val
  high : val ≤ 2147483647
  deriving DecidableEq

namespace I32

theorem ext {a b : I32} (h : a.val = b.val) : a = b := by
  cases a
  cases b
  cases h
  rfl

theorem val_injective : Function.Injective val := fun _ _ h => ext h

/-- The number nearest an integer. -/
def clamp (n : ℤ) : I32 :=
  ⟨max (-2147483648) (min 2147483647 n), le_max_left _ _,
    max_le (by decide) (min_le_left _ _)⟩

theorem clamp_val (n : ℤ) : (clamp n).val = max (-2147483648) (min 2147483647 n) := rfl

instance : LinearOrder I32 := LinearOrder.lift' val val_injective

theorem le_iff {a b : I32} : a ≤ b ↔ a.val ≤ b.val := Iff.rfl

theorem lt_iff {a b : I32} : a < b ↔ a.val < b.val := Iff.rfl

/-- Sums that do not fit are the limit they passed. -/
def satAdd (a b : I32) : I32 := clamp (a.val + b.val)

/-- Differences that do not fit are the limit they passed. -/
def satSub (a b : I32) : I32 := clamp (a.val - b.val)

/-- Products that do not fit are the limit they passed. -/
def satMul (a b : I32) : I32 := clamp (a.val * b.val)

theorem satAdd_val (a b : I32) :
    (satAdd a b).val = max (-2147483648) (min 2147483647 (a.val + b.val)) := rfl

theorem satSub_val (a b : I32) :
    (satSub a b).val = max (-2147483648) (min 2147483647 (a.val - b.val)) := rfl

theorem satMul_val (a b : I32) :
    (satMul a b).val = max (-2147483648) (min 2147483647 (a.val * b.val)) := rfl

theorem max_val (a b : I32) : (max a b).val = max a.val b.val := by
  rcases le_total a b with h | h
  · rw [max_eq_right h, max_eq_right (le_iff.mp h)]
  · rw [max_eq_left h, max_eq_left (le_iff.mp h)]

theorem min_val (a b : I32) : (min a b).val = min a.val b.val := by
  rcases le_total a b with h | h
  · rw [min_eq_left h, min_eq_left (le_iff.mp h)]
  · rw [min_eq_right h, min_eq_right (le_iff.mp h)]

end I32

end RustyPhoton.Lib
