import Mathlib.Tactic.Linarith
import Mathlib.Tactic.Positivity
import Mathlib.Tactic.Ring
import RustyPhoton.FocusModel.Sweep

/-!
# Where a sweep goes

Which positions a grid holds, and how far a retry moves its centre. Both stay inside the travel, since
what is outside is dropped from a grid and a centre is held to the bounds.
-/

namespace RustyPhoton.FocusModel

open Lib

variable {F : Type} [F64 F] {params : SweepParams F} {bounds : Bounds}

/-- The travel is not empty. -/
def Ordered (bounds : Bounds) : Prop := ∀ low ∈ bounds.1, ∀ high ∈ bounds.2, low ≤ high

theorem inBounds_iff {p : I32} :
    inBounds bounds p = true ↔ (∀ low ∈ bounds.1, low ≤ p) ∧ ∀ high ∈ bounds.2, p ≤ high := by
  obtain ⟨low, high⟩ := bounds
  cases low <;> cases high <;> simp [inBounds]

/-- What lies between two positions inside the travel is inside it. -/
theorem inBounds_between {a b p : I32} (ha : inBounds bounds a = true) (hb : inBounds bounds b = true)
    (hap : a ≤ p) (hpb : p ≤ b) : inBounds bounds p = true := by
  rw [inBounds_iff] at *
  exact ⟨fun low hlow => (ha.1 low hlow).trans hap, fun high hhigh => hpb.trans (hb.2 high hhigh)⟩

/-! ## The positions of a grid -/

/-- A position as an integer, inside the travel. -/
def insideTravel (bounds : Bounds) (n : ℤ) : Bool :=
  bounds.1.all (fun low => decide (low.val ≤ n)) && bounds.2.all (fun high => decide (n ≤ high.val))

theorem insideTravel_val (p : I32) : insideTravel bounds p.val = inBounds bounds p := rfl

/-- The positions `centre − halfWidth + k * step` up to `centre + halfWidth` inside the bounds. -/
def gridPositions (centre step halfWidth : ℤ) (bounds : Bounds) : List ℤ :=
  ((List.range (halfWidth * 2 / step + 1).toNat).map fun k : ℕ => centre - halfWidth + k * step).filter
    (insideTravel bounds)

/-- What is past a point of a range and never kept does not count. -/
theorem filter_range_of_le {keep : ℕ → Bool} {m n : ℕ} (hle : m ≤ n)
    (h : ∀ k, m ≤ k → keep k = false) : (List.range n).filter keep = (List.range m).filter keep := by
  obtain ⟨d, rfl⟩ := Nat.exists_eq_add_of_le hle
  rw [List.range_add, List.filter_append]
  have hnone : ((List.range d).map (m + ·)).filter keep = [] := by
    rw [List.filter_eq_nil_iff]
    intro k hk
    obtain ⟨i, _, rfl⟩ := List.mem_map.mp hk
    rw [h (m + i) (Nat.le_add_right m i)]
    exact Bool.false_ne_true
  rw [hnone, List.append_nil]

variable {step finish : I32}

/-- The walk of the grid visits every step up to its end, while it has visits left. -/
theorem gridFrom_val (hstep : 1 ≤ step.val) (hfinish : finish.val < 2147483647) (left : ℕ) (p : I32)
    (hp : p ≤ finish) :
    (gridFrom step finish bounds left p).map I32.val =
      ((List.range left).filter fun k : ℕ => decide (p.val + k * step.val ≤ finish.val) &&
        insideTravel bounds (p.val + k * step.val)).map fun k : ℕ => p.val + k * step.val := by
  induction left generalizing p with
  | zero => rfl
  | succ left ih =>
    have hple : p.val ≤ finish.val := hp
    have hhigh := p.high
    have hlow := p.low
    -- the rest of the walk is the same walk from the next position, or nothing is left before the end
    have hrest : (if p = finish ∨ p.satAdd step ≤ p ∨ finish < p.satAdd step then []
          else gridFrom step finish bounds left (p.satAdd step)).map I32.val =
        ((List.range left).filter fun k : ℕ =>
          decide (p.val + ((k + 1 : ℕ) : ℤ) * step.val ≤ finish.val) &&
            insideTravel bounds (p.val + ((k + 1 : ℕ) : ℤ) * step.val)).map
          fun k : ℕ => p.val + ((k + 1 : ℕ) : ℤ) * step.val := by
      have hsum := I32.satAdd_val p step
      by_cases hpast : finish.val < p.val + step.val
      · have hstop : p = finish ∨ p.satAdd step ≤ p ∨ finish < p.satAdd step := by
          right; right
          rw [I32.lt_iff, hsum]
          omega
        rw [if_pos hstop]
        symm
        rw [List.map_nil, List.map_eq_nil_iff, List.filter_eq_nil_iff]
        intro k _ hk
        simp only [Bool.and_eq_true, decide_eq_true_eq] at hk
        have hgrow : step.val ≤ ((k + 1 : ℕ) : ℤ) * step.val := by
          have hk0 : (0 : ℤ) ≤ (k : ℤ) * step.val := by positivity
          push_cast
          linarith
        omega
      · have hnext : (p.satAdd step).val = p.val + step.val := by
          rw [hsum]
          omega
        have hgo : ¬(p = finish ∨ p.satAdd step ≤ p ∨ finish < p.satAdd step) := by
          rintro (heq | hle | hlt)
          · have hval : p.val = finish.val := congrArg I32.val heq
            omega
          · rw [I32.le_iff, hnext] at hle
            omega
          · rw [I32.lt_iff, hnext] at hlt
            omega
        rw [if_neg hgo, ih (p.satAdd step) (by rw [I32.le_iff, hnext]; omega), hnext]
        have hshift : ∀ k : ℕ, p.val + step.val + (k : ℤ) * step.val =
            p.val + ((k + 1 : ℕ) : ℤ) * step.val := by
          intro k
          push_cast
          ring
        simp only [hshift]
    show ((if inBounds bounds p then p :: (if _ then _ else _) else (if _ then _ else _)) :
      List I32).map I32.val = _
    rw [List.range_succ_eq_map, List.filter_cons, List.filter_map]
    have hzero : p.val + ((0 : ℕ) : ℤ) * step.val = p.val := by simp
    simp only [hzero, hple, decide_true, Bool.true_and, insideTravel_val]
    split
    · rw [List.map_cons, List.map_cons, hrest, hzero, List.map_map]
      rfl
    · rw [hrest, List.map_map]
      rfl

theorem mem_gridFrom {left : ℕ} {p q : I32} (h : q ∈ gridFrom step finish bounds left p) :
    inBounds bounds q = true := by
  induction left generalizing p with
  | zero => cases h
  | succ left ih =>
    simp only [gridFrom] at h
    split at h
    · next hin =>
        rcases List.mem_cons.mp h with rfl | h
        · exact hin
        · split at h
          · cases h
          · exact ih h
    · split at h
      · cases h
      · exact ih h

/-- Away from the limits of an `i32`, the walk is exactly the grid. -/
def AwayFromLimits (centre halfWidth : I32) : Prop :=
  -2147483648 ≤ centre.val - halfWidth.val ∧ centre.val + halfWidth.val < 2147483647

theorem buildGrid_val {centre halfWidth : I32} (hstep : 1 ≤ step.val) (hwidth : 1 ≤ halfWidth.val)
    (haway : AwayFromLimits centre halfWidth) (hplanned : plannedPoints halfWidth step ≤ MAX_GRID_POINTS) :
    (buildGrid centre step halfWidth bounds).map I32.val =
      gridPositions centre.val step.val halfWidth.val bounds := by
  obtain ⟨hlow, hhigh⟩ := haway
  have hstart : (centre.satSub halfWidth).val = centre.val - halfWidth.val := by
    rw [I32.satSub_val]
    omega
  have hend : (centre.satAdd halfWidth).val = centre.val + halfWidth.val := by
    rw [I32.satAdd_val]
    omega
  have hcount : plannedPoints halfWidth step = (halfWidth.val * 2 / step.val + 1).toNat := by
    rw [plannedPoints, max_eq_left (by omega), max_eq_left hstep]
  have hnonneg : 0 ≤ halfWidth.val * 2 / step.val := Int.ediv_nonneg (by omega) (by omega)
  -- a step is before the end of the grid exactly when it is one of the planned ones
  have hend_iff : ∀ k : ℕ, centre.val - halfWidth.val + k * step.val ≤ centre.val + halfWidth.val ↔
      k < (halfWidth.val * 2 / step.val + 1).toNat := by
    intro k
    have hdiv : (k : ℤ) ≤ halfWidth.val * 2 / step.val ↔ (k : ℤ) * step.val ≤ halfWidth.val * 2 :=
      Int.le_ediv_iff_mul_le (by omega)
    omega
  show (gridFrom step (centre.satAdd halfWidth) bounds (MAX_GRID_POINTS + 1)
    (centre.satSub halfWidth)).map I32.val = _
  rw [gridFrom_val hstep (by rw [hend]; exact hhigh) _ _ (by rw [I32.le_iff, hstart, hend]; omega), hstart,
    hend, gridPositions, List.filter_map, ← hcount,
    filter_range_of_le (Nat.le_succ_of_le hplanned) (fun k hk => ?_)]
  · congr 1
    apply List.filter_congr
    intro k hk
    rw [hcount] at hk
    have hle := (hend_iff k).mpr (List.mem_range.mp hk)
    simp only [hle, decide_true, Bool.true_and, Function.comp_apply]
  · rw [hcount] at hk
    have hgt : ¬ centre.val - halfWidth.val + k * step.val ≤ centre.val + halfWidth.val := by
      rw [hend_iff]
      omega
    simp only [hgt, decide_false, Bool.false_and]

/-! ## The grid of an attempt -/

theorem sweepGrid_ok {centre : I32} {grid : List I32} (h : sweepGrid centre params = .ok grid) :
    plannedPoints params.halfWidth params.stepSize ≤ MAX_GRID_POINTS ∧
      params.minFitPoints ≤ grid.length ∧
      grid = if params.direction = .Descending then
          (buildGrid centre params.stepSize params.halfWidth params.bounds).reverse
        else buildGrid centre params.stepSize params.halfWidth params.bounds := by
  unfold sweepGrid checkSpan at h
  by_cases hspan : MAX_GRID_POINTS < plannedPoints params.halfWidth params.stepSize
  · simp only [hspan, if_true, reduceCtorEq] at h
  · simp only [hspan, if_false] at h
    split at h
    · cases h
    · next hpoints =>
        split at h
        · next hdown =>
            cases h
            exact ⟨not_lt.mp hspan, by rw [List.length_reverse]; exact not_lt.mp hpoints, by rw [if_pos hdown]⟩
        · next hup =>
            cases h
            exact ⟨not_lt.mp hspan, not_lt.mp hpoints, by rw [if_neg hup]⟩

/-- No position of a grid is outside the travel. -/
theorem sweepGrid_inside {centre p : I32} {grid : List I32} (h : sweepGrid centre params = .ok grid)
    (hp : p ∈ grid) : inBounds params.bounds p = true := by
  obtain ⟨_, _, rfl⟩ := sweepGrid_ok h
  split at hp
  · exact mem_gridFrom (List.mem_reverse.mp hp)
  · exact mem_gridFrom hp

/-- Away from the limits of an `i32`, the grid is the positions inside the bounds, in walk order. -/
theorem sweepGrid_positions {centre : I32} {grid : List I32} (h : sweepGrid centre params = .ok grid)
    (hstep : 1 ≤ params.stepSize.val) (hwidth : 1 ≤ params.halfWidth.val)
    (haway : AwayFromLimits centre params.halfWidth) :
    grid.map I32.val =
      (if params.direction = .Descending then
        (gridPositions centre.val params.stepSize.val params.halfWidth.val params.bounds).reverse
      else gridPositions centre.val params.stepSize.val params.halfWidth.val params.bounds) ∧
    grid.length ≤ MAX_GRID_POINTS := by
  obtain ⟨hplanned, _, hgrid⟩ := sweepGrid_ok h
  have hval := @buildGrid_val params.bounds _ _ _ hstep hwidth haway hplanned
  have hcount : (gridPositions centre.val params.stepSize.val params.halfWidth.val params.bounds).length ≤
      MAX_GRID_POINTS := by
    refine (List.length_filter_le _ _).trans ?_
    rw [List.length_map, List.length_range]
    have hplan : plannedPoints params.halfWidth params.stepSize =
        (params.halfWidth.val * 2 / params.stepSize.val + 1).toNat := by
      rw [plannedPoints, max_eq_left (by omega), max_eq_left hstep]
    omega
  rw [← hval, List.length_map] at hcount
  rw [← hval]
  split at hgrid
  · next hdown =>
      rw [hgrid, if_pos hdown, List.map_reverse, List.length_reverse]
      exact ⟨rfl, hcount⟩
  · next hup =>
      rw [hgrid, if_neg hup]
      exact ⟨rfl, hcount⟩

/-! ## Where a retry is centred -/

theorem clampToBounds_inside (hbounds : Ordered bounds) (p : I32) :
    inBounds bounds (clampToBounds bounds p) = true := by
  obtain ⟨low, high⟩ := bounds
  rw [inBounds_iff]
  cases low with
  | none =>
    cases high with
    | none => simp
    | some high => simp [clampToBounds]
  | some low =>
    cases high with
    | none => simp [clampToBounds]
    | some high =>
      have hle : low ≤ high := hbounds low rfl high rfl
      simp [clampToBounds, hle]

/-- Holding a position to the travel moves it nearer to any position inside. -/
theorem clampToBounds_near {centre p : I32} {reach : ℤ} (hcentre : inBounds bounds centre = true)
    (h : |p.val - centre.val| ≤ reach) : |(clampToBounds bounds p).val - centre.val| ≤ reach := by
  obtain ⟨low, high⟩ := bounds
  obtain ⟨hlow, hhigh⟩ := inBounds_iff.mp hcentre
  rw [abs_le] at h ⊢
  cases low with
  | none =>
    cases high with
    | none => exact h
    | some high =>
      have hc : centre.val ≤ high.val := hhigh high rfl
      simp only [clampToBounds, Option.elim, I32.min_val]
      omega
  | some low =>
    have hl : low.val ≤ centre.val := hlow low rfl
    cases high with
    | none =>
      simp only [clampToBounds, Option.elim, I32.max_val]
      omega
    | some high =>
      have hc : centre.val ≤ high.val := hhigh high rfl
      simp only [clampToBounds, Option.elim, I32.min_val, I32.max_val]
      omega

theorem min?_mem {positions : List I32} {low : I32} (h : positions.min? = some low) : low ∈ positions :=
  List.min?_mem h

theorem max?_mem {positions : List I32} {high : I32} (h : positions.max? = some high) :
    high ∈ positions :=
  List.max?_mem h

/-- A vertex is followed three half widths at most, when the samples are within one. -/
theorem vertexCentre_near {vertex centre halfWidth target : I32} {side : Ordering}
    {accepted : List (Sample F)} (hwidth : 1 ≤ halfWidth.val)
    (hnear : ∀ sample ∈ accepted, |sample.1.val - centre.val| ≤ halfWidth.val)
    (h : vertexCentre vertex side accepted centre halfWidth = some target) :
    |target.val - centre.val| ≤ 3 * halfWidth.val := by
  have hthree : I32.three.val = 3 := by decide
  have hreach := I32.satMul_val halfWidth I32.three
  rw [hthree] at hreach
  have hlow := centre.low
  have hhigh := centre.high
  unfold vertexCentre at h
  split at h
  · next lowEnd highEnd hmin hmax =>
      obtain ⟨low, hlowMem, hlowEq⟩ := List.mem_map.mp (min?_mem hmin)
      obtain ⟨high, hhighMem, hhighEq⟩ := List.mem_map.mp (max?_mem hmax)
      have hlowNear := abs_le.mp (hnear low hlowMem)
      have hhighNear := abs_le.mp (hnear high hhighMem)
      rw [hlowEq] at hlowNear
      rw [hhighEq] at hhighNear
      rw [abs_le]
      cases side with
      | lt =>
        dsimp only at h
        split at h
        · next hpast =>
            cases h
            have hval : vertex.val < lowEnd.val := hpast
            rw [I32.max_val, I32.satSub_val, hreach]
            omega
        · cases h
      | gt =>
        dsimp only at h
        split at h
        · next hpast =>
            cases h
            have hval : highEnd.val < vertex.val := hpast
            rw [I32.min_val, I32.satAdd_val, hreach]
            omega
        · cases h
      | eq => cases h
  · cases h

variable {centre halfWidth : I32} {error : FitError F} {curvePoints : List (CurvePoint F)}

/-- What a retry plans: the same place, or a shifted one held to the travel. -/
theorem retryCentre_cases :
    (retryCentre centre error curvePoints halfWidth bounds).centre = centre ∨
      ∃ target, (retryCentre centre error curvePoints halfWidth bounds).centre =
          clampToBounds bounds target ∧
        (target = centre.satSub halfWidth ∨ target = centre.satAdd halfWidth ∨
          ∃ vertex side, vertexCentre vertex side (curvePoints.filterMap CurvePoint.acceptedSample)
            centre halfWidth = some target) := by
  unfold retryCentre
  dsimp only
  split
  · exact .inl rfl
  · next lowestPosition _ _ _ =>
      -- a shift goes by a half width unless the fit placed a vertex
      have hshift : ∀ byHalfWidth : I32,
          (byHalfWidth = centre.satSub halfWidth ∨ byHalfWidth = centre.satAdd halfWidth) →
          ∀ extrapolated : Option I32,
          (∀ target, extrapolated = some target → ∃ vertex side, vertexCentre vertex side
            (curvePoints.filterMap CurvePoint.acceptedSample) centre halfWidth = some target) →
          let plan := if clampToBounds bounds (extrapolated.getD byHalfWidth) = centre then
              (⟨.ShiftAbsorbed, centre⟩ : RetryPlan)
            else ⟨.Shift, clampToBounds bounds (extrapolated.getD byHalfWidth)⟩
          plan.centre = centre ∨ ∃ target, plan.centre = clampToBounds bounds target ∧
            (target = centre.satSub halfWidth ∨ target = centre.satAdd halfWidth ∨
              ∃ vertex side, vertexCentre vertex side
                (curvePoints.filterMap CurvePoint.acceptedSample) centre halfWidth = some target) := by
        intro byHalfWidth hby extrapolated hvertex
        dsimp only
        split
        · exact .inl rfl
        · right
          refine ⟨extrapolated.getD byHalfWidth, rfl, ?_⟩
          cases extrapolated with
          | none => exact hby.elim .inl fun h => .inr (.inl h)
          | some target => exact .inr (.inr (hvertex target rfl))
      have hextrapolated : ∀ direction target, extrapolatedCentre error direction
          (curvePoints.filterMap CurvePoint.acceptedSample) centre halfWidth = some target →
          ∃ vertex side, vertexCentre vertex side
            (curvePoints.filterMap CurvePoint.acceptedSample) centre halfWidth = some target := by
        intro direction target h
        unfold extrapolatedCentre at h
        split at h
        · exact ⟨_, direction, h⟩
        · cases h
      split
      · exact hshift _ (.inl rfl) _ (hextrapolated _)
      · exact hshift _ (.inr rfl) _ (hextrapolated _)
      · exact .inl rfl

theorem retryCentre_inside (hbounds : Ordered bounds) (hcentre : inBounds bounds centre = true) :
    inBounds bounds (retryCentre centre error curvePoints halfWidth bounds).centre = true := by
  rcases @retryCentre_cases _ _ bounds centre halfWidth error curvePoints with hsame | ⟨target, hshift, _⟩
  · rw [hsame]
    exact hcentre
  · rw [hshift]
    exact clampToBounds_inside hbounds target

/-- Three half widths at most from the centre that failed, when its samples are within one. -/
theorem retryCentre_near (hwidth : 1 ≤ halfWidth.val) (hcentre : inBounds bounds centre = true)
    (hnear : ∀ point ∈ curvePoints, |point.position.val - centre.val| ≤ halfWidth.val) :
    |(retryCentre centre error curvePoints halfWidth bounds).centre.val - centre.val| ≤
      3 * halfWidth.val := by
  have hlow := centre.low
  have hhigh := centre.high
  rcases @retryCentre_cases _ _ bounds centre halfWidth error curvePoints with hsame | ⟨target, hshift, htarget⟩
  · rw [hsame, sub_self, abs_zero]
    omega
  · rw [hshift]
    apply clampToBounds_near hcentre
    rcases htarget with rfl | rfl | ⟨vertex, side, hvertex⟩
    · rw [abs_le, I32.satSub_val]
      omega
    · rw [abs_le, I32.satAdd_val]
      omega
    · refine vertexCentre_near hwidth (fun sample hsample => ?_) hvertex
      obtain ⟨point, hpoint, haccepted⟩ := List.mem_filterMap.mp hsample
      have hposition : sample.1 = point.position := by
        unfold CurvePoint.acceptedSample at haccepted
        split at haccepted
        · cases haccepted
          rfl
        · cases haccepted
      rw [hposition]
      exact hnear point hpoint

end RustyPhoton.FocusModel
