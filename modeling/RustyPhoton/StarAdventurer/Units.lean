import RustyPhoton.Lib.Circle

/-!
# The mount's quantities

The newtypes of `units.rs`, with exact rationals for the floating-point values. A quantity carries
the band its constructor folds it into. A count of an axis is any integer, as the firmware's counter
is wider than a revolution; the counts per revolution are six hex digits of a reply.
-/

namespace RustyPhoton.StarAdventurer

open Lib.Circle

/-- Saturation at the edges of an `i32`. -/
def saturate (value : ℤ) : ℤ := max (-2147483648) (min value 2147483647)

/-- `sat_round_i32`. -/
def satRoundI32 (value : ℚ) : ℤ := saturate (roundAway value)

/-- `f64::signum`. -/
def signum (value : ℚ) : ℚ := if 0 ≤ value then 1 else -1

/-- The reflection through the celestial pole. -/
def throughPole (deg : ℚ) : ℚ := signum deg * (180 - |deg|)

/-- Counts per revolution of one axis. -/
structure Cpr where
  get : ℕ
  wire : get < 16777216
  deriving DecidableEq

/-- A count folded into the revolution around zero. -/
def foldTicksCanonical (value : ℤ) (cpr : Cpr) : ℤ :=
  if cpr.get = 0 then value
  else
    let cpr : ℤ := cpr.get
    let half := cpr / 2
    let modular := value % cpr
    if half ≤ modular then saturate (modular - cpr) else modular

/-! ## The RA axis, in hours -/

structure Lst where
  value : ℚ
  band : 0 ≤ value ∧ value < 24

structure Ra where
  value : ℚ
  band : 0 ≤ value ∧ value < 24

structure HourAngle where
  value : ℚ
  band : -12 ≤ value ∧ value < 12

structure MechHa where
  value : ℚ
  band : -12 ≤ value ∧ value < 12

structure RaTicks where
  value : ℤ
  deriving DecidableEq

theorem remEuclid_band (hours : ℚ) : 0 ≤ remEuclid hours 24 ∧ remEuclid hours 24 < 24 :=
  ⟨remEuclid_nonneg hours (by norm_num), remEuclid_lt hours (by norm_num)⟩

theorem foldToSigned_band (hours : ℚ) :
    -12 ≤ foldToSigned hours 24 ∧ foldToSigned hours 24 < 12 := by
  have hday : (0 : ℚ) < 24 := by norm_num
  have hlow := le_foldToSigned hours hday
  have hhigh := foldToSigned_lt hours hday
  constructor <;> linarith

def Lst.new (hours : ℚ) : Lst := ⟨remEuclid hours 24, remEuclid_band hours⟩

def Ra.new (hours : ℚ) : Ra := ⟨remEuclid hours 24, remEuclid_band hours⟩

def HourAngle.new (hours : ℚ) : HourAngle := ⟨foldToSigned hours 24, foldToSigned_band hours⟩

def MechHa.new (hours : ℚ) : MechHa := ⟨foldToSigned hours 24, foldToSigned_band hours⟩

def Lst.hourAngleOf (lst : Lst) (ra : Ra) : HourAngle := .new (lst.value - ra.value)

def HourAngle.toMech (ha : HourAngle) : MechHa := .new ha.value

namespace MechHa

/-- The mirror of a mechanical hour angle after a meridian flip. -/
def flipped (ha : MechHa) : MechHa := .new (ha.value + 12)

def toTicks (ha : MechHa) (cpr : Cpr) : RaTicks :=
  if cpr.get = 0 then ⟨0⟩ else ⟨satRoundI32 (ha.value * cpr.get / 24)⟩

def toRa (ha : MechHa) (lst : Lst) : Ra := .new (lst.value - ha.value)

def toRaFlipped (ha : MechHa) (lst : Lst) : Ra := .new (lst.value - ha.value + 12)

end MechHa

namespace RaTicks

def toMechHa (ticks : RaTicks) (cpr : Cpr) : MechHa :=
  if cpr.get = 0 then ⟨0, by norm_num⟩ else .new (ticks.value * 24 / cpr.get)

def foldToCanonicalBand (ticks : RaTicks) (cpr : Cpr) : RaTicks :=
  ⟨foldTicksCanonical ticks.value cpr⟩

/-- The shortest way from an earlier count. -/
def canonicalDeltaSince (ticks prev : RaTicks) (cpr : Cpr) : RaTicks :=
  foldToCanonicalBand ⟨saturate (ticks.value - prev.value)⟩ cpr

end RaTicks

/-! ## The Dec axis, in degrees -/

/-- A celestial declination, which the constructor does not clamp. -/
structure Dec where
  value : ℚ

structure MechDec where
  value : ℚ
  band : -180 ≤ value ∧ value < 180

structure DecTicks where
  value : ℤ
  deriving DecidableEq

def MechDec.new (degrees : ℚ) : MechDec where
  value := foldToSigned degrees 360
  band := by
    have hcircle : (0 : ℚ) < 360 := by norm_num
    have hlow := le_foldToSigned degrees hcircle
    have hhigh := foldToSigned_lt degrees hcircle
    constructor <;> linarith

namespace Dec

def toMech (dec : Dec) : MechDec := .new dec.value

def toMechFlipped (dec : Dec) : MechDec := .new (throughPole dec.value)

end Dec

namespace MechDec

def toDec (dec : MechDec) : Dec := ⟨dec.value⟩

def toDecFlipped (dec : MechDec) : Dec := ⟨throughPole dec.value⟩

def toTicks (dec : MechDec) (cpr : Cpr) : DecTicks :=
  if cpr.get = 0 then ⟨0⟩ else ⟨satRoundI32 (dec.value * cpr.get / 360)⟩

end MechDec

namespace DecTicks

def toMechDec (ticks : DecTicks) (cpr : Cpr) : MechDec :=
  if cpr.get = 0 then ⟨0, by norm_num⟩ else .new (ticks.value * 360 / cpr.get)

def foldToCanonicalBand (ticks : DecTicks) (cpr : Cpr) : DecTicks :=
  ⟨foldTicksCanonical ticks.value cpr⟩

def canonicalDeltaSince (ticks prev : DecTicks) (cpr : Cpr) : DecTicks :=
  foldToCanonicalBand ⟨saturate (ticks.value - prev.value)⟩ cpr

end DecTicks

/-! ## Folds of counts -/

theorem saturate_eq {value : ℤ} (hlow : -2147483648 ≤ value) (hhigh : value ≤ 2147483647) :
    saturate value = value := by
  unfold saturate
  omega

variable {cpr : Cpr}

/-- A folded count is within half a revolution, whole revolutions from the count. -/
theorem foldTicksCanonical_spec (hpos : 0 < cpr.get) (value : ℤ) :
    (∃ k : ℤ, foldTicksCanonical value cpr = value + k * cpr.get) ∧
    (cpr.get : ℤ) / 2 - cpr.get ≤ foldTicksCanonical value cpr ∧
    foldTicksCanonical value cpr < (cpr.get : ℤ) / 2 := by
  have hwire := cpr.wire
  have hcpr : (0 : ℤ) < cpr.get := by exact_mod_cast hpos
  have hlow := Int.emod_nonneg value hcpr.ne'
  have hhigh := Int.emod_lt_of_pos value hcpr
  have hsplit := Int.emod_add_mul_ediv value cpr.get
  have hcomm : (cpr.get : ℤ) * (value / cpr.get) = value / cpr.get * cpr.get := Int.mul_comm _ _
  unfold foldTicksCanonical
  rw [if_neg (by omega)]
  simp only
  split
  · rw [saturate_eq (by omega) (by omega)]
    refine ⟨⟨-(value / cpr.get) - 1, ?_⟩, by omega, by omega⟩
    rw [Int.sub_mul, Int.neg_mul]
    omega
  · refine ⟨⟨-(value / cpr.get), ?_⟩, by omega, by omega⟩
    rw [Int.neg_mul]
    omega

/-- A count within half a revolution is the fold of every count whole revolutions from it. -/
theorem foldTicksCanonical_eq (hpos : 0 < cpr.get) (heven : 2 ∣ cpr.get) {ticks : ℤ}
    (hlow : -(cpr.get : ℤ) ≤ 2 * ticks) (hhigh : 2 * ticks < cpr.get) (k : ℤ) :
    foldTicksCanonical (ticks + k * cpr.get) cpr = ticks := by
  obtain ⟨⟨j, hj⟩, hfoldLow, hfoldHigh⟩ :=
    foldTicksCanonical_spec hpos (ticks + k * cpr.get)
  generalize foldTicksCanonical (ticks + k * cpr.get) cpr = folded at hj hfoldLow hfoldHigh ⊢
  have hcpr : (0 : ℤ) < cpr.get := by exact_mod_cast hpos
  have hdiff : folded - ticks = (k + j) * cpr.get := by
    rw [hj, Int.add_mul]
    omega
  have hzero : k + j = 0 := by
    have hlow : -1 * (cpr.get : ℤ) < (k + j) * cpr.get := by omega
    have hhigh : (k + j) * cpr.get < 1 * (cpr.get : ℤ) := by omega
    have hlow := Int.lt_of_mul_lt_mul_right hlow hcpr.le
    have hhigh := Int.lt_of_mul_lt_mul_right hhigh hcpr.le
    omega
  rw [hzero, Int.zero_mul] at hdiff
  omega

end RustyPhoton.StarAdventurer
