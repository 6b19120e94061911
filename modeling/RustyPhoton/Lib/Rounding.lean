import Mathlib.Algebra.Order.Field.Power
import RustyPhoton.Lib.Binary64

/-!
# Bounds on rounded values

How large a rounded rational gets, and the arithmetic of zero: a value less itself, and zero times a
finite value.
-/

namespace RustyPhoton.Lib.Binary64

/-! ## The exponent of a rational -/

variable {q : Rat}

theorem abs_num_div_den (h : 0 < q) : q = (q.num.natAbs : Rat) / (q.den : Rat) := by
  have hnum : ((q.num.natAbs : Nat) : Rat) = (q.num : Rat) := by
    rw [← Int.cast_natCast, Int.natAbs_of_nonneg (Rat.num_nonneg.mpr h.le)]
  rw [hnum, Rat.num_div_den]

theorem natAbs_num_pos (h : 0 < q) : 0 < q.num.natAbs :=
  Int.natAbs_pos.mpr (Rat.num_pos.mpr h).ne'

theorem pow_log2_le {n : Nat} (h : 0 < n) : (2 : Rat) ^ (Nat.log2 n : Int) ≤ n := by
  rw [zpow_natCast]
  exact_mod_cast Nat.log2_self_le h.ne'

theorem lt_pow_log2 (n : Nat) : (n : Rat) < (2 : Rat) ^ ((Nat.log2 n : Int) + 1) := by
  have hcast : ((Nat.log2 n : Int) + 1) = ((Nat.log2 n + 1 : Nat) : Int) := by push_cast; rfl
  rw [hcast, zpow_natCast]
  exact_mod_cast Nat.lt_log2_self

/-- The first guess at the exponent is at most one too high. -/
theorem lt_pow_guess (h : 0 < q) :
    q < (2 : Rat) ^ ((Nat.log2 q.num.natAbs : Int) - Nat.log2 q.den + 1) := by
  have hden : (0 : Rat) < q.den := by exact_mod_cast q.den_pos
  have hsplit : (2 : Rat) ^ ((Nat.log2 q.num.natAbs : Int) - Nat.log2 q.den + 1) *
      (2 : Rat) ^ (Nat.log2 q.den : Int) = (2 : Rat) ^ ((Nat.log2 q.num.natAbs : Int) + 1) := by
    rw [← zpow_add₀ two_ne_zero]
    congr 1
    omega
  rw [abs_num_div_den h, div_lt_iff₀ hden, ← abs_num_div_den h]
  calc (q.num.natAbs : Rat) < (2 : Rat) ^ ((Nat.log2 q.num.natAbs : Int) + 1) := lt_pow_log2 _
    _ = _ := hsplit.symm
    _ ≤ _ := by
        gcongr
        exact pow_log2_le q.den_pos

theorem pow_guess_le (h : 0 < q) :
    (2 : Rat) ^ ((Nat.log2 q.num.natAbs : Int) - Nat.log2 q.den - 1) ≤ q := by
  have hden : (0 : Rat) < q.den := by exact_mod_cast q.den_pos
  have hsplit : (2 : Rat) ^ ((Nat.log2 q.num.natAbs : Int) - Nat.log2 q.den - 1) *
      (2 : Rat) ^ ((Nat.log2 q.den : Int) + 1) = (2 : Rat) ^ (Nat.log2 q.num.natAbs : Int) := by
    rw [← zpow_add₀ two_ne_zero]
    congr 1
    omega
  rw [abs_num_div_den h, le_div_iff₀ hden, ← abs_num_div_den h]
  calc _ ≤ (2 : Rat) ^ ((Nat.log2 q.num.natAbs : Int) - Nat.log2 q.den - 1) *
        (2 : Rat) ^ ((Nat.log2 q.den : Int) + 1) := by
          gcongr
          exact (lt_pow_log2 _).le
    _ = _ := hsplit
    _ ≤ _ := pow_log2_le (natAbs_num_pos h)

theorem pow_floorLog2_le (h : 0 < q) : (2 : Rat) ^ floorLog2 q ≤ q := by
  simp only [floorLog2]
  split
  · next hle => exact hle
  · exact pow_guess_le h

theorem lt_pow_floorLog2 (h : 0 < q) : q < (2 : Rat) ^ (floorLog2 q + 1) := by
  simp only [floorLog2]
  split
  · exact lt_pow_guess h
  · next hlt =>
      rw [sub_add_cancel]
      exact not_le.mp hlt

/-! ## Rounded magnitudes -/

theorem roundHalfEven_le {n : Int} (h : q < n) : roundHalfEven q ≤ n := by
  have hfloor : q.floor < n := Rat.floor_lt_iff.mpr h
  simp only [roundHalfEven]
  split
  · omega
  · split
    · omega
    · split <;> omega

/-- A rational below `2 ^ 64` rounds to a finite magnitude. -/
theorem roundMagnitude_lt (h : q < 2 ^ 64) : roundMagnitude q < infMagnitude := by
  rw [roundMagnitude]
  split
  · decide
  · next hpos =>
      have hq : 0 < q := not_le.mp hpos
      have hexp : floorLog2 q < 64 := by
        have hlt : (2 : Rat) ^ floorLog2 q < (2 : Rat) ^ (64 : Int) := by
          calc (2 : Rat) ^ floorLog2 q ≤ q := pow_floorLog2_le hq
            _ < 2 ^ 64 := h
            _ = (2 : Rat) ^ (64 : Int) := by norm_num
        exact (zpow_lt_zpow_iff_right₀ (by norm_num)).mp hlt
      generalize he : Max.max (-1074) (floorLog2 q - 52) = e
      have hsmall : q / (2 : Rat) ^ e < ((2 ^ 53 : Int) : Rat) := by
        rw [div_lt_iff₀ (by positivity)]
        calc q < (2 : Rat) ^ (floorLog2 q + 1) := lt_pow_floorLog2 hq
          _ ≤ (2 : Rat) ^ (53 + e) := zpow_le_zpow_right₀ (by norm_num) (by omega)
          _ = (2 : Rat) ^ (53 : Int) * (2 : Rat) ^ e := zpow_add₀ two_ne_zero _ _
          _ = _ := by norm_num
      have hsignificand : roundHalfEven (q / (2 : Rat) ^ e) ≤ 2 ^ 53 := roundHalfEven_le hsmall
      show Min.min infMagnitude ((e + 1074).toNat * 2 ^ 52 + _) < infMagnitude
      rw [infMagnitude]
      omega

theorem isFinite_ofMagnitude {neg : Bool} {mag : Nat} (h : mag < infMagnitude) :
    (ofMagnitude neg mag).isFinite = true := by
  have hmod : mag % 2 ^ 63 = mag := Nat.mod_eq_of_lt (by rw [infMagnitude] at h; omega)
  rw [isFinite, magnitude_ofMagnitude, hmod]
  exact decide_eq_true h

theorem isFinite_ofRat {zeroSign : Bool} (h : |q| < 2 ^ 64) :
    (ofRat zeroSign q).isFinite = true := by
  rw [ofRat]
  split
  · exact isFinite_ofMagnitude (by decide)
  · exact isFinite_ofMagnitude (roundMagnitude_lt h)

variable {x : Binary64}

theorem not_isNaN_of_isFinite (h : x.isFinite = true) : x.isNaN = false := by
  have hlt : x.magnitude < infMagnitude := of_decide_eq_true h
  exact decide_eq_false (by omega)

/-- A product of finite values whose exact product is below `2 ^ 64` is finite. -/
theorem isFinite_mul {y : Binary64} (hx : x.isFinite = true) (hy : y.isFinite = true)
    (h : |x.toRat * y.toRat| < 2 ^ 64) : (mul x y).isFinite = true := by
  rw [mul, not_isNaN_of_isFinite hx, not_isNaN_of_isFinite hy, hx, hy]
  exact isFinite_ofRat h

/-! ## Values from magnitudes -/

/-- A value is below the power of two above its exponent. -/
theorem abs_toRat_lt {e : Nat} (he : 1 ≤ e) (h : x.magnitude / 2 ^ 52 ≤ e) :
    |x.toRat| < (2 : Rat) ^ ((e : Int) - 1022) := by
  have hsignificand : (if x.magnitude / 2 ^ 52 = 0 then x.magnitude % 2 ^ 52
      else 2 ^ 52 + x.magnitude % 2 ^ 52) < 2 ^ 53 := by split <;> omega
  have habs : |x.toRat| = ((if x.magnitude / 2 ^ 52 = 0 then x.magnitude % 2 ^ 52
      else 2 ^ 52 + x.magnitude % 2 ^ 52 : Nat) : Rat) *
        (2 : Rat) ^ ((Nat.max (x.magnitude / 2 ^ 52) 1 : Int) - 1075) := by
    simp only [toRat]
    split
    · rw [abs_neg, abs_of_nonneg (by positivity)]
    · rw [abs_of_nonneg (by positivity)]
  have hmax : (Nat.max (x.magnitude / 2 ^ 52) 1 : Int) ≤ e := by
    exact_mod_cast Nat.max_le.mpr ⟨h, he⟩
  rw [habs]
  calc _ < ((2 ^ 53 : Nat) : Rat) * (2 : Rat) ^ ((Nat.max (x.magnitude / 2 ^ 52) 1 : Int) - 1075) := by
        gcongr
    _ ≤ ((2 ^ 53 : Nat) : Rat) * (2 : Rat) ^ ((e : Int) - 1075) := by
        gcongr
        norm_num
    _ = (2 : Rat) ^ (53 : Int) * (2 : Rat) ^ ((e : Int) - 1075) := by norm_num
    _ = _ := by
        rw [← zpow_add₀ two_ne_zero]
        congr 1
        omega

theorem toRat_ofMagnitude_zero (neg : Bool) : (ofMagnitude neg 0).toRat = 0 := by
  have hzero : (ofMagnitude neg 0).magnitude = 0 := by rw [magnitude_ofMagnitude]; rfl
  simp [toRat, hzero]

theorem toRat_neg (x : Binary64) : x.neg.toRat = -x.toRat := by
  have hmag : x.neg.magnitude = x.magnitude := by
    rw [neg, magnitude_ofMagnitude, Nat.mod_eq_of_lt x.magnitude_lt]
  have hsign : x.neg.sign = !x.sign := by rw [neg, sign_ofMagnitude]
  simp only [toRat, hmag, hsign]
  cases x.sign <;> simp

/-! ## Zero -/

/-- A finite value less itself is the positive zero. -/
theorem sub_self (h : x.isFinite = true) : sub x x = ofMagnitude false 0 := by
  have hneg : x.neg.isFinite = true := by
    rw [isFinite, neg, magnitude_ofMagnitude, Nat.mod_eq_of_lt x.magnitude_lt]
    exact h
  have hsign : (x.sign && x.neg.sign) = false := by
    rw [neg, sign_ofMagnitude]
    cases x.sign <;> rfl
  rw [sub, not_isNaN_of_isFinite h, if_neg Bool.false_ne_true, add, not_isNaN_of_isFinite h,
    not_isNaN_of_isFinite hneg, h, hneg]
  simp only [Bool.or_self, Bool.false_eq_true, if_false, if_true]
  rw [hsign, toRat_neg, add_neg_cancel, ofRat, if_pos rfl]

/-- Zero times a finite value is a zero. -/
theorem isZero_mul {y : Binary64} (hx : x.isFinite = true) (hzero : x.toRat = 0)
    (hy : y.isFinite = true) : (mul x y).isZero = true := by
  rw [mul, not_isNaN_of_isFinite hx, not_isNaN_of_isFinite hy, hx, hy]
  simp only [Bool.or_self, Bool.false_eq_true, if_false, Bool.and_self, if_true]
  rw [hzero, zero_mul, ofRat, if_pos rfl, isZero, magnitude_ofMagnitude]
  rfl

end RustyPhoton.Lib.Binary64
