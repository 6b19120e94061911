import Mathlib.Data.Rat.Floor

/-!
# Folding and rounding

A number folded into one period, and rounding to the nearest integer with halves away from zero. A
fold takes off a whole number of periods, and is the only value of its band that does.
-/

namespace RustyPhoton.Lib.Circle

/-- The remainder of a division whose quotient is rounded down. -/
def remEuclid (value period : ℚ) : ℚ := value - period * ⌊value / period⌋

/-- A number folded into the period around zero. -/
def foldToSigned (value period : ℚ) : ℚ :=
  if period / 2 ≤ remEuclid value period then remEuclid value period - period
  else remEuclid value period

/-- The nearest integer, halves away from zero. -/
def roundAway (value : ℚ) : ℤ := if 0 ≤ value then ⌊value + 1 / 2⌋ else ⌈value - 1 / 2⌉

variable {value period : ℚ}

theorem remEuclid_nonneg (value : ℚ) (h : 0 < period) : 0 ≤ remEuclid value period := by
  have hfloor : (⌊value / period⌋ : ℚ) ≤ value / period := Int.floor_le _
  rw [le_div_iff₀ h] at hfloor
  unfold remEuclid
  linarith

theorem remEuclid_lt (value : ℚ) (h : 0 < period) : remEuclid value period < period := by
  have hfloor : value / period < (⌊value / period⌋ : ℚ) + 1 := Int.lt_floor_add_one _
  rw [div_lt_iff₀ h] at hfloor
  unfold remEuclid
  linarith

/-- A fold takes off whole periods. -/
theorem exists_remEuclid (value period : ℚ) : ∃ k : ℤ, remEuclid value period = value - period * k :=
  ⟨_, rfl⟩

theorem exists_foldToSigned (value period : ℚ) :
    ∃ k : ℤ, foldToSigned value period = value - period * k := by
  unfold foldToSigned
  split
  · refine ⟨⌊value / period⌋ + 1, ?_⟩
    unfold remEuclid
    push_cast
    ring
  · exact exists_remEuclid value period

theorem le_foldToSigned (value : ℚ) (h : 0 < period) : -(period / 2) ≤ foldToSigned value period := by
  have hlow := remEuclid_nonneg value h
  unfold foldToSigned
  split <;> linarith

theorem foldToSigned_lt (value : ℚ) (h : 0 < period) : foldToSigned value period < period / 2 := by
  have hhigh := remEuclid_lt value h
  unfold foldToSigned
  split
  · linarith
  · next hlow => exact not_le.mp hlow

/-- Two values of one band that differ by whole periods are the same. -/
theorem eq_of_sub_eq {a b : ℚ} (low : ℚ) {k : ℤ} (ha : low ≤ a ∧ a < low + period)
    (hb : low ≤ b ∧ b < low + period) (hk : a - b = period * k) : a = b := by
  have hpos : 0 < period := by linarith [ha.1, ha.2]
  have hlow : -(1 : ℚ) < k := by
    have hlt : period * (-1) < period * k := by linarith [ha.1, hb.2]
    exact lt_of_mul_lt_mul_left hlt hpos.le
  have hhigh : (k : ℚ) < 1 := by
    have hlt : period * k < period * 1 := by linarith [ha.2, hb.1]
    exact lt_of_mul_lt_mul_left hlt hpos.le
  have hzero : k = 0 := by
    have hlow : -1 < k := by exact_mod_cast hlow
    have hhigh : k < 1 := by exact_mod_cast hhigh
    omega
  rw [hzero, Int.cast_zero, mul_zero] at hk
  linarith

/-- A value is the fold of whatever differs from it by whole periods. -/
theorem foldToSigned_eq {a : ℚ} (h : 0 < period) (hlow : -(period / 2) ≤ a) (hhigh : a < period / 2)
    {k : ℤ} (hk : value = a + period * k) : foldToSigned value period = a := by
  obtain ⟨j, hj⟩ := exists_foldToSigned value period
  have hwhole : foldToSigned value period - a = period * (k - j : ℤ) := by
    rw [hj, hk]
    push_cast
    ring
  refine eq_of_sub_eq (-(period / 2)) ⟨le_foldToSigned value h, ?_⟩ ⟨hlow, by linarith⟩ hwhole
  linarith [foldToSigned_lt value h]

/-! ## Rounding -/

theorem abs_roundAway_sub_le (value : ℚ) : |(roundAway value : ℚ) - value| ≤ 1 / 2 := by
  unfold roundAway
  split
  · have hlow : (⌊value + 1 / 2⌋ : ℚ) ≤ value + 1 / 2 := Int.floor_le _
    have hhigh : value + 1 / 2 < (⌊value + 1 / 2⌋ : ℚ) + 1 := Int.lt_floor_add_one _
    rw [abs_le]
    constructor <;> linarith
  · have hlow : value - 1 / 2 ≤ (⌈value - 1 / 2⌉ : ℚ) := Int.le_ceil _
    have hhigh : (⌈value - 1 / 2⌉ : ℚ) < value - 1 / 2 + 1 := Int.ceil_lt_add_one _
    rw [abs_le]
    constructor <;> linarith

/-- Rounding does not pass an integer. -/
theorem roundAway_le {n : ℤ} (h : value ≤ n) : roundAway value ≤ n := by
  unfold roundAway
  split
  · refine Int.lt_add_one_iff.mp (Int.floor_lt.mpr ?_)
    push_cast
    linarith
  · refine Int.ceil_le.mpr ?_
    linarith

theorem le_roundAway {n : ℤ} (h : (n : ℚ) ≤ value) : n ≤ roundAway value := by
  unfold roundAway
  split
  · refine Int.le_floor.mpr ?_
    linarith
  · refine Int.sub_one_lt_iff.mp (Int.lt_ceil.mpr ?_)
    push_cast
    linarith

end RustyPhoton.Lib.Circle
