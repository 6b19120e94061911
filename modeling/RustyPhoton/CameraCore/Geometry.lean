import Mathlib.Algebra.GCDMonoid.Nat
import Mathlib.Data.PNat.Defs
import Mathlib.Order.Bounds.Defs

/-!
# Regions of interest

The geometry of a camera: a region is kept in unbinned pixels, seen and set at a bin, and checked
against the extent that the driver reports. That extent is reduced to a multiple of every alignment
step, so that the full frame at every supported bin passes the check. A `u8`, `u32` or `u64` is a
natural number that stops at its limit.
-/

namespace RustyPhoton.CameraCore

def u32Max : ℕ := 4294967295

def u64Max : ℕ := 18446744073709551615

/-- Sums that do not fit a `u32` are its limit. -/
def satAdd (a b : ℕ) : ℕ := min (a + b) u32Max

def satMul (a b : ℕ) : ℕ := min (a * b) u32Max

/-- A region in binned pixels. -/
structure Roi where
  startX : ℕ
  startY : ℕ
  width : ℕ
  height : ℕ
  deriving DecidableEq

/-- Whether the numbers of a region are `u32` ones. -/
def Roi.Fits (roi : Roi) : Prop :=
  roi.startX ≤ u32Max ∧ roi.startY ≤ u32Max ∧ roi.width ≤ u32Max ∧ roi.height ≤ u32Max

/-- A region in unbinned pixels. -/
structure UnbinnedRoi where
  startX : ℕ
  startY : ℕ
  width : ℕ
  height : ℕ
  deriving DecidableEq

namespace UnbinnedRoi

def fullFrame (width height : ℕ) : UnbinnedRoi := ⟨0, 0, width, height⟩

def fit (v : ℕ) : ℕ := if v ≤ u32Max then v else u32Max

def offset (bin v : ℕ) : ℕ := fit (v / bin)

/-- An extent below one pixel is one, and a zero that was set stays. -/
def extent (bin v : ℕ) : ℕ := if v = 0 then 0 else fit (max (v / bin) 1)

/-- The region seen at a bin. -/
def binned (roi : UnbinnedRoi) (bin : ℕ) : Roi :=
  -- a bin nobody has published is not a scale
  let bin := if bin = 0 then 1 else bin
  ⟨offset bin roi.startX, offset bin roi.startY, extent bin roi.width, extent bin roi.height⟩

end UnbinnedRoi

/-- What a setter stores for a value set at a bin. -/
def unbinned (value bin : ℕ) : ℕ := min (value * max bin 1) u64Max

structure Alignment where
  width : ℕ+
  height : ℕ+
  deriving DecidableEq

inductive GeometryError where
  | zeroExtent
  | zeroBin
  | misaligned (align : Alignment)
  | outOfBoundsX
  | outOfBoundsY
  deriving DecidableEq

def GeometryError.toString : GeometryError → String
  | zeroExtent => "NumX and NumY must be greater than 0"
  | zeroBin => "BinX and BinY must be greater than 0"
  | misaligned align =>
      s!"NumX must be a multiple of {align.width.val} and NumY a multiple of {align.height.val}"
  | outOfBoundsX => "StartX + NumX exceeds CameraXSize / BinX"
  | outOfBoundsY => "StartY + NumY exceeds CameraYSize / BinY"

def checkedDiv (a b : ℕ) : Option ℕ := if b = 0 then none else some (a / b)

/-- Whether an extent breaks the alignment rule. -/
def misalignedBy (roi : Roi) (align : Alignment) : Bool :=
  roi.width % align.width != 0 || roi.height % align.height != 0

/-- The first rule that a region breaks, at a bin of a sensor. -/
def check (roi : Roi) (sensorW sensorH bin : ℕ) (align : Option Alignment) :
    Except GeometryError Unit :=
  if roi.width = 0 ∨ roi.height = 0 then .error .zeroExtent
  else
    match checkedDiv sensorW bin, checkedDiv sensorH bin with
    | some maxX, some maxY =>
        match align.filter (misalignedBy roi) with
        | some align => .error (.misaligned align)
        | none =>
            if maxX < satAdd roi.startX roi.width then .error .outOfBoundsX
            else if maxY < satAdd roi.startY roi.height then .error .outOfBoundsY
            else .ok ()
    | _, _ => .error .zeroBin

/-- Euclid's loop, on numbers that are not zero. -/
def gcd (a b : ℕ+) : ℕ+ :=
  if h : 0 < (a : ℕ) % b then gcd b (Nat.toPNat _ h) else b
termination_by (b : ℕ)
decreasing_by exact Nat.mod_lt _ b.pos

def lcm (a b : ℕ) : ℕ :=
  if ha : 0 < a then
    if hb : 0 < b then satMul (a / gcd (a.toPNat ha) (b.toPNat hb)) b else 0
  else 0

/-- The step an extent is reduced to a multiple of. -/
def alignedStep (supportedBins : List ℕ) (unit : ℕ) : ℕ :=
  ((supportedBins.filter (0 < ·)).map (satMul unit)).foldl lcm 1

def alignedSensorExtent (maxExtent : ℕ) (supportedBins : List ℕ) (unit : ℕ) : ℕ :=
  let step := alignedStep supportedBins unit
  if 0 < step ∧ step ≤ maxExtent then maxExtent - maxExtent % step else maxExtent

/-- The extents that a driver reports. -/
def alignedSensor (maxWidth maxHeight : ℕ) (supportedBins : List ℕ) :
    Option Alignment → ℕ × ℕ
  | none => (maxWidth, maxHeight)
  | some align =>
      (alignedSensorExtent maxWidth supportedBins align.width,
        alignedSensorExtent maxHeight supportedBins align.height)

/-! ## The step -/

theorem gcd_eq (a b : ℕ+) : (gcd a b : ℕ) = Nat.gcd a b := by
  fun_induction gcd a b with
  | case1 a b h ih =>
    rw [ih]
    show Nat.gcd b (a % b) = Nat.gcd a b
    rw [Nat.gcd_comm a b, Nat.gcd_rec b a, Nat.gcd_comm]
  | case2 a b h =>
    have hzero : (a : ℕ) % b = 0 := Nat.eq_zero_of_not_pos h
    rw [Nat.gcd_comm, Nat.gcd_rec, hzero, Nat.gcd_zero_left]

/-- A step of the fold is the least common multiple, or stops at the limit. -/
theorem lcm_eq {a b : ℕ} (ha : 0 < a) (hb : 0 < b) : lcm a b = min (Nat.lcm a b) u32Max := by
  have hdvd : Nat.gcd a b ∣ a := Nat.gcd_dvd_left a b
  rw [lcm, dif_pos ha, dif_pos hb, satMul, gcd_eq]
  show min (a / Nat.gcd a b * b) u32Max = _
  rw [Nat.div_mul_right_comm hdvd]
  rfl

/-- Stopping at the limit before a step is stopping after it. -/
theorem lcm_min {a b : ℕ} (ha : 0 < a) (hb : 0 < b) :
    lcm (min a u32Max) (min b u32Max) = min (Nat.lcm a b) u32Max := by
  have hlimit : 0 < u32Max := by decide
  have hla : a ≤ Nat.lcm a b := Nat.le_of_dvd (Nat.lcm_pos ha hb) (Nat.dvd_lcm_left a b)
  have hlb : b ≤ Nat.lcm a b := Nat.le_of_dvd (Nat.lcm_pos ha hb) (Nat.dvd_lcm_right a b)
  have ha' : 0 < min a u32Max := lt_min ha hlimit
  have hb' : 0 < min b u32Max := lt_min hb hlimit
  rw [lcm_eq ha' hb']
  have hma := Nat.le_of_dvd (Nat.lcm_pos ha' hb') (Nat.dvd_lcm_left (min a u32Max) (min b u32Max))
  have hmb := Nat.le_of_dvd (Nat.lcm_pos ha' hb') (Nat.dvd_lcm_right (min a u32Max) (min b u32Max))
  by_cases hsmall : a ≤ u32Max ∧ b ≤ u32Max
  · rw [min_eq_left hsmall.1, min_eq_left hsmall.2]
  · -- an operand past the limit leaves both sides at it
    omega

/-- The least common multiple of the steps of the positive bins. -/
def trueStep (supportedBins : List ℕ) (unit : ℕ) : ℕ :=
  ((supportedBins.filter (0 < ·)).map (unit * ·)).foldl Nat.lcm 1

theorem foldl_lcm (steps : List ℕ) (hsteps : ∀ s ∈ steps, 0 < s) {acc : ℕ} (hacc : 0 < acc) :
    (steps.map (min · u32Max)).foldl lcm (min acc u32Max) =
        min (steps.foldl Nat.lcm acc) u32Max ∧
      0 < steps.foldl Nat.lcm acc ∧
      ∀ m, steps.foldl Nat.lcm acc ∣ m ↔ acc ∣ m ∧ ∀ s ∈ steps, s ∣ m := by
  induction steps generalizing acc with
  | nil => exact ⟨rfl, hacc, fun m => by simp⟩
  | cons s rest ih =>
    have hs := hsteps s List.mem_cons_self
    obtain ⟨hfold, hpos, hdvd⟩ :=
      ih (fun t ht => hsteps t (List.mem_cons_of_mem s ht)) (Nat.lcm_pos hacc hs)
    refine ⟨?_, hpos, fun m => ?_⟩
    · rw [List.map_cons, List.foldl_cons, List.foldl_cons, lcm_min hacc hs]
      exact hfold
    · rw [List.foldl_cons, hdvd, Nat.lcm_dvd_iff, List.forall_mem_cons, and_assoc]

section step

variable {supportedBins : List ℕ} (unit : ℕ+)

theorem positive_steps : ∀ s ∈ (supportedBins.filter (0 < ·)).map (unit.val * ·), 0 < s := by
  intro s hs
  obtain ⟨b, hb, rfl⟩ := List.mem_map.mp hs
  have hpos := (List.mem_filter.mp hb).2
  exact Nat.mul_pos unit.pos (of_decide_eq_true hpos)

theorem alignedStep_eq :
    alignedStep supportedBins unit = min (trueStep supportedBins unit) u32Max := by
  have hmap : (supportedBins.filter (0 < ·)).map (satMul unit) =
      ((supportedBins.filter (0 < ·)).map (unit.val * ·)).map (min · u32Max) := by
    rw [List.map_map]
    rfl
  rw [alignedStep, hmap]
  exact (foldl_lcm _ (positive_steps unit) Nat.one_pos).1

theorem trueStep_pos : 0 < trueStep supportedBins unit :=
  (foldl_lcm _ (positive_steps unit) Nat.one_pos).2.1

/-- The step is the least common multiple: it divides what every positive bin's step divides. -/
theorem trueStep_dvd_iff (m : ℕ) :
    trueStep supportedBins unit ∣ m ↔ ∀ b ∈ supportedBins, 0 < b → unit.val * b ∣ m := by
  rw [trueStep, (foldl_lcm _ (positive_steps unit) Nat.one_pos).2.2, List.forall_mem_map]
  simp only [List.mem_filter, decide_eq_true_eq, one_dvd, true_and, and_imp]

/-- An extent that holds a step is reduced to the last multiple of it. -/
theorem alignedSensorExtent_of_le {raw : ℕ} (hraw : raw ≤ u32Max)
    (hle : trueStep supportedBins unit ≤ raw) :
    alignedSensorExtent raw supportedBins unit = raw - raw % trueStep supportedBins unit := by
  have hpos : 0 < trueStep supportedBins unit := trueStep_pos unit
  rw [alignedSensorExtent, alignedStep_eq, min_eq_left (hle.trans hraw)]
  exact if_pos ⟨hpos, hle⟩

/-- An extent below a step is left as it is, also where the step stops at the limit. -/
theorem alignedSensorExtent_of_lt {raw : ℕ} (hraw : raw ≤ u32Max)
    (hlt : raw < trueStep supportedBins unit) :
    alignedSensorExtent raw supportedBins unit = raw := by
  simp only [alignedSensorExtent, alignedStep_eq]
  split
  · next h =>
      have hlimit : min (trueStep supportedBins unit) u32Max = raw := by omega
      rw [hlimit, Nat.mod_self, Nat.sub_zero]
  · rfl

theorem isGreatest_reduced {raw step : ℕ} :
    IsGreatest {m | step ∣ m ∧ m ≤ raw} (raw - raw % step) := by
  refine ⟨⟨Nat.dvd_sub_mod raw, Nat.sub_le _ _⟩, fun m hm => ?_⟩
  obtain ⟨⟨k, rfl⟩, hle⟩ := hm
  rcases Nat.eq_zero_or_pos step with rfl | hpos
  · simp
  · have hk : k ≤ raw / step := (Nat.le_div_iff_mul_le hpos).mpr (by rwa [Nat.mul_comm])
    have hsplit := Nat.mod_add_div raw step
    calc step * k ≤ step * (raw / step) := Nat.mul_le_mul_left step hk
      _ = raw - raw % step := by omega

/-- A reduced extent at a bin is a positive multiple of the unit. -/
theorem extent_aligned {raw b : ℕ} (hraw : raw ≤ u32Max)
    (hle : trueStep supportedBins unit ≤ raw) (hb : b ∈ supportedBins) (hpos : 0 < b) :
    let reported := alignedSensorExtent raw supportedBins unit
    UnbinnedRoi.extent b reported = reported / b ∧ 0 < reported / b ∧
      reported / b % unit = 0 ∧ reported / b ≤ u32Max := by
  intro reported
  have hgreatest : IsGreatest {m | trueStep supportedBins unit ∣ m ∧ m ≤ raw} reported := by
    show IsGreatest _ (alignedSensorExtent raw supportedBins unit)
    rw [alignedSensorExtent_of_le unit hraw hle]
    exact isGreatest_reduced
  obtain ⟨⟨hdvd, hreported⟩, hmost⟩ := hgreatest
  have hstep : unit.val * b ∣ reported := (trueStep_dvd_iff unit _).mp hdvd b hb hpos
  have hreportedPos : 0 < reported :=
    lt_of_lt_of_le (trueStep_pos unit) (hmost ⟨dvd_refl _, hle⟩)
  obtain ⟨k, hk⟩ := hstep
  have hquotient : reported / b = unit.val * k := by
    rw [hk, Nat.mul_right_comm]
    exact Nat.mul_div_cancel _ hpos
  have hk0 : 0 < k := Nat.pos_of_ne_zero fun hzero => by
    rw [hzero, Nat.mul_zero] at hk
    omega
  have hquotientPos : 0 < reported / b := by
    rw [hquotient]
    exact Nat.mul_pos unit.pos hk0
  have hfits : reported / b ≤ u32Max := (Nat.div_le_self _ _).trans (hreported.trans hraw)
  refine ⟨?_, hquotientPos, ?_, hfits⟩
  · rw [UnbinnedRoi.extent, if_neg hreportedPos.ne', max_eq_left hquotientPos, UnbinnedRoi.fit,
      if_pos hfits]
  · rw [hquotient, Nat.mul_mod_right]

end step

/-! ## The check -/

theorem satAdd_le_iff {a b bound : ℕ} (hbound : bound < u32Max) :
    satAdd a b ≤ bound ↔ a + b ≤ bound := by
  unfold satAdd
  omega

/-- What the check accepts. -/
theorem check_ok_iff {roi : Roi} {sensorW sensorH bin : ℕ} {align : Option Alignment} :
    check roi sensorW sensorH bin align = .ok () ↔
      (0 < roi.width ∧ 0 < roi.height) ∧ 0 < bin ∧
      (∀ rule ∈ align, roi.width % rule.width = 0 ∧ roi.height % rule.height = 0) ∧
      satAdd roi.startX roi.width ≤ sensorW / bin ∧
      satAdd roi.startY roi.height ≤ sensorH / bin := by
  unfold check checkedDiv
  by_cases hzero : roi.width = 0 ∨ roi.height = 0
  · rw [if_pos hzero]
    simp only [reduceCtorEq, false_iff]
    omega
  rw [if_neg hzero]
  rcases Nat.eq_zero_or_pos bin with rfl | hbin
  · simp
  simp only [if_neg hbin.ne']
  have hfilter : align.filter (misalignedBy roi) = none ↔
      ∀ rule ∈ align, roi.width % rule.width = 0 ∧ roi.height % rule.height = 0 := by
    simp [Option.filter_eq_none_iff, misalignedBy]
  cases hrule : align.filter (misalignedBy roi) with
  | some rule =>
    have hbroken := mt hfilter.mpr (by simp [hrule])
    simp only [reduceCtorEq, false_iff]
    exact fun h => hbroken h.2.2.1
  | none =>
    have hpositive : 0 < roi.width ∧ 0 < roi.height := by omega
    dsimp only
    split
    · simp only [reduceCtorEq, false_iff]
      rintro ⟨-, -, -, hx, -⟩
      omega
    · split
      · simp only [reduceCtorEq, false_iff]
        rintro ⟨-, -, -, -, hy⟩
        omega
      · exact iff_of_true rfl ⟨hpositive, hbin, hfilter.mp hrule, by omega, by omega⟩

/-- The three integer widths agree. The reported extents are the last multiples of the true step,
or the raw ones below it, every binned full frame of reduced extents passes the check, a value set
at a bin is read back at it, and the check is exact below the limit. -/
theorem geometry_agrees (align : Alignment) (supportedBins : List ℕ) (rawW rawH : ℕ)
    (hrawW : rawW ≤ u32Max) (hrawH : rawH ≤ u32Max) :
    let stepW := trueStep supportedBins align.width
    let stepH := trueStep supportedBins align.height
    let reported := alignedSensor rawW rawH supportedBins (some align)
    (stepW ≤ rawW ∧ stepH ≤ rawH →
      IsGreatest {m | stepW ∣ m ∧ m ≤ rawW} reported.1 ∧
      IsGreatest {m | stepH ∣ m ∧ m ≤ rawH} reported.2 ∧
      ∀ b ∈ supportedBins, 0 < b →
        check ((UnbinnedRoi.fullFrame reported.1 reported.2).binned b) reported.1 reported.2 b
          (some align) = .ok ()) ∧
    (rawW < stepW → reported.1 = rawW) ∧ (rawH < stepH → reported.2 = rawH) ∧
    (∀ (roi : Roi) (b : ℕ), roi.Fits → 1 ≤ b → b ≤ 255 →
      (UnbinnedRoi.mk (unbinned roi.startX b) (unbinned roi.startY b) (unbinned roi.width b)
        (unbinned roi.height b)).binned b = roi) ∧
    ∀ (roi : Roi) (sensorW sensorH bin : ℕ) (rule : Option Alignment),
      sensorW < u32Max → sensorH < u32Max →
      (check roi sensorW sensorH bin rule = .ok () ↔
        (0 < roi.width ∧ 0 < roi.height) ∧ 0 < bin ∧
        (∀ r ∈ rule, roi.width % r.width = 0 ∧ roi.height % r.height = 0) ∧
        roi.startX + roi.width ≤ sensorW / bin ∧ roi.startY + roi.height ≤ sensorH / bin) := by
  intro stepW stepH reported
  refine ⟨?_, alignedSensorExtent_of_lt _ hrawW, alignedSensorExtent_of_lt _ hrawH, ?_, ?_⟩
  · intro hfit
    have hgreatestW : IsGreatest {m | stepW ∣ m ∧ m ≤ rawW} reported.1 := by
      show IsGreatest _ (alignedSensorExtent rawW supportedBins align.width)
      rw [alignedSensorExtent_of_le _ hrawW hfit.1]
      exact isGreatest_reduced
    have hgreatestH : IsGreatest {m | stepH ∣ m ∧ m ≤ rawH} reported.2 := by
      show IsGreatest _ (alignedSensorExtent rawH supportedBins align.height)
      rw [alignedSensorExtent_of_le _ hrawH hfit.2]
      exact isGreatest_reduced
    refine ⟨hgreatestW, hgreatestH, fun b hb hpos => ?_⟩
    obtain ⟨hviewW, hposW, hdvdW, hmaxW⟩ := extent_aligned align.width hrawW hfit.1 hb hpos
    obtain ⟨hviewH, hposH, hdvdH, hmaxH⟩ := extent_aligned align.height hrawH hfit.2 hb hpos
    have hview : (UnbinnedRoi.fullFrame reported.1 reported.2).binned b =
        ⟨0, 0, reported.1 / b, reported.2 / b⟩ := by
      simp only [UnbinnedRoi.binned, if_neg hpos.ne', UnbinnedRoi.fullFrame]
      rw [show UnbinnedRoi.extent b reported.1 = reported.1 / b from hviewW,
        show UnbinnedRoi.extent b reported.2 = reported.2 / b from hviewH]
      simp [UnbinnedRoi.offset, UnbinnedRoi.fit]
    rw [hview, check_ok_iff]
    refine ⟨⟨hposW, hposH⟩, hpos, fun rule hrule => ?_, ?_, ?_⟩
    · cases hrule
      exact ⟨hdvdW, hdvdH⟩
    · show min (0 + reported.1 / b) u32Max ≤ _
      omega
    · show min (0 + reported.2 / b) u32Max ≤ _
      omega
  · intro roi b hfits hlow hhigh
    have hoffset : ∀ v, v ≤ u32Max → UnbinnedRoi.offset b (unbinned v b) = v ∧
        UnbinnedRoi.extent b (unbinned v b) = v := by
      intro v hv
      have hproduct : v * b ≤ u32Max * 255 := Nat.mul_le_mul hv hhigh
      have hlimit : u32Max * 255 ≤ u64Max := by decide
      have hstored : unbinned v b = v * b := by
        rw [unbinned, max_eq_left hlow, min_eq_left (hproduct.trans hlimit)]
      have hquotient : v * b / b = v := Nat.mul_div_cancel v hlow
      rw [UnbinnedRoi.offset, UnbinnedRoi.extent, hstored, hquotient, UnbinnedRoi.fit, if_pos hv]
      refine ⟨rfl, ?_⟩
      split
      · next hzero =>
          rcases Nat.mul_eq_zero.mp hzero with hv0 | hb0 <;> omega
      · next hnonzero =>
          have hv0 : 0 < v := Nat.pos_of_ne_zero fun h => hnonzero (by rw [h, Nat.zero_mul])
          rw [max_eq_left hv0, UnbinnedRoi.fit, if_pos hv]
    obtain ⟨hx, hy, hw, hh⟩ := hfits
    simp only [UnbinnedRoi.binned, if_neg (show b ≠ 0 by omega), (hoffset _ hx).1, (hoffset _ hy).1,
      (hoffset _ hw).2, (hoffset _ hh).2]
  · intro roi sensorW sensorH bin rule hsensorW hsensorH
    have hboundX : sensorW / bin < u32Max := lt_of_le_of_lt (Nat.div_le_self _ _) hsensorW
    have hboundY : sensorH / bin < u32Max := lt_of_le_of_lt (Nat.div_le_self _ _) hsensorH
    rw [check_ok_iff, satAdd_le_iff hboundX, satAdd_le_iff hboundY]

/-- A sensor of 6248 by 4176 pixels, at bins one to four. -/
theorem geometry_agrees_6248 :
    check ((UnbinnedRoi.fullFrame 6240 4176).binned 3) 6240 4176 3 (some ⟨8, 2⟩) = .ok () := by
  have hagrees := geometry_agrees ⟨8, 2⟩ [1, 2, 3, 4] 6248 4176 (by decide) (by decide)
  have hwidth : alignedSensorExtent 6248 [1, 2, 3, 4] 8 = 6240 :=
    (alignedSensorExtent_of_le 8 (by decide) (by decide)).trans (by decide)
  have hheight : alignedSensorExtent 4176 [1, 2, 3, 4] 2 = 4176 :=
    (alignedSensorExtent_of_le 2 (by decide) (by decide)).trans (by decide)
  have hreported : alignedSensor 6248 4176 [1, 2, 3, 4] (some ⟨8, 2⟩) = (6240, 4176) :=
    Prod.ext hwidth hheight
  have hfull := (hagrees.1 ⟨by decide, by decide⟩).2.2 3 (by decide) (by decide)
  rw [hreported] at hfull
  exact hfull

end RustyPhoton.CameraCore
