import Mathlib.Data.Prod.Lex
import RustyPhoton.Lib.FirstLeast
import RustyPhoton.Rp.Planner.ProgressScan

/-!
# The next target

After `decision.rs` and `progress.rs`. Exhausted targets and those below their floor are dropped;
among the rest whose hour angle is near the smallest one, the least of a key of three parts is
taken, the first of them in list order.
-/

namespace RustyPhoton.Rp.Planner

open Lib

universe u

/-- The floats of the decision, none of them a NaN: an order, and the operations it uses. -/
class Hours (F : Type u) extends LinearOrder F where
  ofInt : Int → F
  half : F
  add : F → F → F
  sub : F → F → F
  div : F → F → F
  remEuclid : F → F → F
  abs : F → F
  le_add_half : ∀ x, x ≤ add x half

variable {F : Type u} [Hours F]

instance : Hours ℚ where
  ofInt n := n
  half := 1 / 2
  add := (· + ·)
  sub := (· - ·)
  div := (· / ·)
  remEuclid x y := x - |y| * ⌊x / |y|⌋
  abs x := |x|
  le_add_half x := by linarith

def astronomicalDuskDeg : F := Hours.ofInt (-18)

structure Coord (F : Type u) where
  raHours : F
  decDegrees : F

structure AltAz (F : Type u) where
  altitudeDegrees : F
  azimuthDegrees : F

/-- The sky over one site; the errors are `erfa`'s. -/
structure Ephemeris (F : Type u) (Time : Type) where
  siderealTime : Time → F
  altAz : Coord F → Time → Except String (AltAz F)
  sunPosition : Time → AltAz F
  /-- `checked_add_signed` by the trend sample. -/
  addTrendSample : Time → Option Time

structure ExposureSpec (F : Type u) where
  filter : Option String
  durationSecs : F
  count : Option Nat

structure PlannerTarget (F : Type u) where
  name : String
  coord : Coord F
  minAltitudeDegrees : Option F
  positionAngleDegrees : Option F
  exposures : List (ExposureSpec F)

inductive NextTargetReason where
  | bestTransitingCandidate
  | noTargetsConfigured
  | allBelowMinAltitude
  | waitForTwilight
  | endOfSession
  deriving DecidableEq

structure NextTargetRecommendation (F : Type u) where
  target : Option (PlannerTarget F)
  reason : NextTargetReason
  exposure : Option (ExposureSpec F)
  positionAngleDegrees : Option F

/-! ## Progress -/

/-- The counts of each target by its name, in plan order. -/
abbrev PlanProgress : Type := String → Option (List GoalProgress)

namespace PlanProgress

variable (progress : PlanProgress) (target : PlannerTarget F)

def countsAt (index : Nat) : GoalProgress :=
  ((progress target.name).bind fun counts => counts[index]?).getD .zero

/-- The walk over the plan from an index on. -/
def nextIncompleteFrom (index : Nat) : List (ExposureSpec F) → Option (ExposureSpec F)
  | [] => none
  | entry :: later =>
      if entry.count.all fun goal => (progress.countsAt target index).good < goal then some entry
      else nextIncompleteFrom (index + 1) later

def nextIncompleteEntry : Option (ExposureSpec F) :=
  progress.nextIncompleteFrom target 0 target.exposures

def isExhausted : Bool :=
  !target.exposures.isEmpty && (progress.nextIncompleteEntry target).isNone

/-- `u32::saturating_add`. -/
def saturatingAdd (a b : Nat) : Nat := min (a + b) (2 ^ 32 - 1)

/-- The good frames and the goals of the counted entries, from an index on. -/
def tally (index : Nat) : List (ExposureSpec F) → Nat × Nat → Nat × Nat
  | [], sums => sums
  | entry :: later, sums =>
      match entry.count with
      | none => tally (index + 1) later sums
      | some goal =>
          tally (index + 1) later
            (saturatingAdd sums.1 (min (progress.countsAt target index).good goal),
              saturatingAdd sums.2 goal)

def fraction : F :=
  let sums := progress.tally target 0 target.exposures (0, 0)
  if sums.2 = 0 then Hours.ofInt 0 else Hours.div (Hours.ofInt sums.1) (Hours.ofInt sums.2)

end PlanProgress

/-! ## The decision -/

def noneWith (reason : NextTargetReason) : NextTargetRecommendation F :=
  ⟨none, reason, none, none⟩

/-- The hour angle in `(-12, 12]`. -/
def signedHourAngle (lstHours targetRaHours : F) : F :=
  let ha := Hours.remEuclid (Hours.sub lstHours targetRaHours) (Hours.ofInt 24)
  if Hours.ofInt 12 < ha then Hours.sub ha (Hours.ofInt 24) else ha

variable {Time : Type} (eph : Ephemeris F Time) (now : Time)

def eliminate (defaultMinAltitudeDeg : F) (progress : PlanProgress) :
    List (PlannerTarget F) → List (PlannerTarget F)
  | [] => []
  | t :: later =>
      let survivors := eliminate defaultMinAltitudeDeg progress later
      if progress.isExhausted t then survivors
      else
        match eph.altAz t.coord now with
        | .error _ => survivors
        | .ok aa =>
            if t.minAltitudeDegrees.getD defaultMinAltitudeDeg ≤ aa.altitudeDegrees then
              t :: survivors
            else survivors

def noSurvivorsReason (targets : List (PlannerTarget F)) (progress : PlanProgress) :
    NextTargetReason :=
  if targets.all fun t => progress.isExhausted t then .endOfSession
  else
    let sunAlt := (eph.sunPosition now).altitudeDegrees
    if astronomicalDuskDeg < sunAlt then
      let resample := (eph.addTrendSample now).getD now
      let sunAltLater := (eph.sunPosition resample).altitudeDegrees
      if sunAlt < sunAltLater then .endOfSession else .waitForTwilight
    else .allBelowMinAltitude

def absHa (t : PlannerTarget F) : F :=
  Hours.abs (signedHourAngle (eph.siderealTime now) t.coord.raHours)

/-- The key of a candidate; tuples are compared from the left, and `false` comes first. -/
abbrev Key (F : Type u) : Type u := F ×ₗ Bool ×ₗ F

def filterMatchesWheel (progress : PlanProgress) (currentFilter : Option String)
    (t : PlannerTarget F) : Bool :=
  match currentFilter, progress.nextIncompleteEntry t with
  | some inWheel, some entry => entry.filter.getD "" = inWheel
  | _, _ => false

def sortKey (progress : PlanProgress) (currentFilter : Option String) (t : PlannerTarget F) :
    Key F :=
  toLex (progress.fraction t, toLex (!filterMatchesWheel progress currentFilter t, absHa eph now t))

/-- The loop over the survivors: those out of the band are passed over. -/
def choose (progress : PlanProgress) (currentFilter : Option String) (bestHa : F) :
    Option (PlannerTarget F × Key F) → List (PlannerTarget F) → Option (PlannerTarget F × Key F)
  | chosen, [] => chosen
  | chosen, t :: later =>
      if Hours.add bestHa Hours.half < absHa eph now t then
        choose progress currentFilter bestHa chosen later
      else
        let key := sortKey eph now progress currentFilter t
        let better := match chosen with
          | none => true
          | some (_, held) => key < held
        choose progress currentFilter bestHa (if better then some (t, key) else chosen) later

def nextTarget (targets : List (PlannerTarget F)) (defaultMinAltitudeDeg : F)
    (trainDefaultPositionAngleDeg : Option F) (progress : PlanProgress)
    (currentFilter : Option String) : NextTargetRecommendation F :=
  if targets.isEmpty then noneWith .noTargetsConfigured
  else
    let survivors := eliminate eph now defaultMinAltitudeDeg progress targets
    if survivors.isEmpty then noneWith (noSurvivorsReason eph now targets progress)
    else
      match (survivors.map (absHa eph now)).min? with
      | none => noneWith .allBelowMinAltitude
      | some bestHa =>
          match choose eph now progress currentFilter bestHa none survivors with
          | none => noneWith .allBelowMinAltitude
          | some (chosen, _) =>
              { target := some chosen
                reason := .bestTransitingCandidate
                exposure := progress.nextIncompleteEntry chosen
                positionAngleDegrees := some (((chosen.positionAngleDegrees.or
                  trainDefaultPositionAngleDeg)).getD (Hours.ofInt 0)) }

/-! ## What it recommends -/

section Spec

/-- The plan entry at an index has a goal, and as many good frames. -/
def GoalMet (progress : PlanProgress) (t : PlannerTarget F) (index : Nat)
    (entry : ExposureSpec F) : Prop :=
  ∃ goal, entry.count = some goal ∧ goal ≤ (progress.countsAt t index).good

def Exhausted (progress : PlanProgress) (t : PlannerTarget F) : Prop :=
  t.exposures ≠ [] ∧ ∀ index entry, t.exposures[index]? = some entry → GoalMet progress t index entry

def AboveFloor (defaultMinAltitudeDeg : F) (t : PlannerTarget F) : Prop :=
  ∃ aa, eph.altAz t.coord now = .ok aa ∧
    t.minAltitudeDegrees.getD defaultMinAltitudeDeg ≤ aa.altitudeDegrees

/-- A target that may be recommended. -/
def Eligible (defaultMinAltitudeDeg : F) (progress : PlanProgress) (t : PlannerTarget F) : Prop :=
  ¬ Exhausted progress t ∧ AboveFloor eph now defaultMinAltitudeDeg t

/-- The smallest hour angle of a target that may be recommended. -/
def IsBestHa (targets : List (PlannerTarget F)) (defaultMinAltitudeDeg : F)
    (progress : PlanProgress) (bestHa : F) : Prop :=
  (∃ t ∈ targets, Eligible eph now defaultMinAltitudeDeg progress t ∧ absHa eph now t = bestHa) ∧
    ∀ t ∈ targets, Eligible eph now defaultMinAltitudeDeg progress t → bestHa ≤ absHa eph now t

/-- The entry is the first of the plan whose goal is not met. -/
def FirstOpen (progress : PlanProgress) (t : PlannerTarget F) (entry : ExposureSpec F) : Prop :=
  ∃ before later, t.exposures = before ++ entry :: later ∧
    (∀ index other, before[index]? = some other → GoalMet progress t index other) ∧
      ¬ GoalMet progress t before.length entry

/-- A target that may be recommended, in the band, in front of which every such target has a larger
key and behind which none has a smaller one. -/
structure Recommended (targets : List (PlannerTarget F)) (defaultMinAltitudeDeg : F)
    (progress : PlanProgress) (currentFilter : Option String) (t : PlannerTarget F) : Prop where
  eligible : Eligible eph now defaultMinAltitudeDeg progress t
  first : ∃ bestHa, IsBestHa eph now targets defaultMinAltitudeDeg progress bestHa ∧
    absHa eph now t ≤ Hours.add bestHa Hours.half ∧
    ∃ before later, targets = before ++ t :: later ∧
      (∀ other ∈ before, Eligible eph now defaultMinAltitudeDeg progress other →
        absHa eph now other ≤ Hours.add bestHa Hours.half →
        sortKey eph now progress currentFilter t < sortKey eph now progress currentFilter other) ∧
      ∀ other ∈ later, Eligible eph now defaultMinAltitudeDeg progress other →
        absHa eph now other ≤ Hours.add bestHa Hours.half →
        sortKey eph now progress currentFilter t ≤ sortKey eph now progress currentFilter other

end Spec

/-! ### The plan -/

variable {progress : PlanProgress} {t : PlannerTarget F} {index : Nat} {entry : ExposureSpec F}

omit [Hours F] in
theorem goalMet_iff :
    (entry.count.all fun goal => decide ((progress.countsAt t index).good < goal)) = false ↔
      GoalMet progress t index entry := by
  unfold GoalMet
  cases entry.count with
  | none => simp
  | some goal => simp

variable {plan : List (ExposureSpec F)}

omit [Hours F] in
/-- The walk stops at the first entry that is not met. -/
theorem nextIncompleteFrom_eq_some (h : progress.nextIncompleteFrom t index plan = some entry) :
    ∃ before later, plan = before ++ entry :: later ∧
      (∀ i other, before[i]? = some other → GoalMet progress t (index + i) other) ∧
        ¬ GoalMet progress t (index + before.length) entry := by
  induction plan generalizing index with
  | nil => cases h
  | cons head plan ih =>
    unfold PlanProgress.nextIncompleteFrom at h
    split at h
    · next hopen =>
      cases h
      refine ⟨[], plan, rfl, by simp, ?_⟩
      rw [← goalMet_iff, List.length_nil, Nat.add_zero, hopen]
      exact Bool.noConfusion
    · next hmet =>
      obtain ⟨before, later, rfl, hbefore, hentry⟩ := ih h
      refine ⟨head :: before, later, rfl, ?_, ?_⟩
      · intro i other hi
        cases i with
        | zero =>
          cases hi
          exact goalMet_iff.mp (by simpa using hmet)
        | succ i =>
          have := hbefore i other hi
          rwa [Nat.add_right_comm] at this
      · rwa [List.length_cons, Nat.add_comm before.length, ← Nat.add_assoc]

omit [Hours F] in
theorem nextIncompleteFrom_eq_none :
    progress.nextIncompleteFrom t index plan = none ↔
      ∀ i entry, plan[i]? = some entry → GoalMet progress t (index + i) entry := by
  induction plan generalizing index with
  | nil => simp [PlanProgress.nextIncompleteFrom]
  | cons head plan ih =>
    unfold PlanProgress.nextIncompleteFrom
    split
    · next hopen =>
      constructor
      · intro h
        cases h
      · intro h
        have := goalMet_iff.mpr (h 0 head rfl)
        rw [Nat.add_zero, hopen] at this
        cases this
    · next hmet =>
      rw [ih]
      constructor
      · intro h i entry hi
        cases i with
        | zero =>
          cases hi
          exact goalMet_iff.mp (by simpa using hmet)
        | succ i =>
          have := h i entry hi
          rwa [Nat.add_right_comm] at this
      · intro h i entry hi
        have := h (i + 1) entry hi
        rwa [Nat.add_right_comm]

omit [Hours F] in
theorem isExhausted_iff :
    progress.isExhausted t = true ↔ Exhausted progress t := by
  unfold PlanProgress.isExhausted Exhausted PlanProgress.nextIncompleteEntry
  rw [Bool.and_eq_true, Option.isNone_iff_eq_none, nextIncompleteFrom_eq_none]
  simp

/-! ### The survivors -/

/-- The test of the elimination. -/
def survives (defaultMinAltitudeDeg : F) (progress : PlanProgress) (t : PlannerTarget F) : Bool :=
  !progress.isExhausted t &&
    match eph.altAz t.coord now with
    | .error _ => false
    | .ok aa => t.minAltitudeDegrees.getD defaultMinAltitudeDeg ≤ aa.altitudeDegrees

variable {defaultMinAltitudeDeg : F}

theorem survives_iff :
    survives eph now defaultMinAltitudeDeg progress t = true ↔
      Eligible eph now defaultMinAltitudeDeg progress t := by
  unfold survives Eligible AboveFloor
  rw [Bool.and_eq_true, Bool.not_eq_true', ← Bool.not_eq_true, isExhausted_iff]
  cases eph.altAz t.coord now with
  | error e => simp
  | ok aa => simp

theorem eliminate_eq_filter (targets : List (PlannerTarget F)) :
    eliminate eph now defaultMinAltitudeDeg progress targets =
      targets.filter (survives eph now defaultMinAltitudeDeg progress) := by
  induction targets with
  | nil => rfl
  | cons t later ih =>
    rw [eliminate, List.filter_cons, ← ih]
    cases hdone : progress.isExhausted t with
    | true => simp [survives, hdone]
    | false =>
      cases haa : eph.altAz t.coord now with
      | error e => simp [survives, haa]
      | ok aa => simp [survives, hdone, haa]

/-! ### The choice -/

variable {currentFilter : Option String}

theorem choose_eq {bestHa : F}
    (held : Option (PlannerTarget F)) (survivors : List (PlannerTarget F)) :
    choose eph now progress currentFilter bestHa
        (held.map fun t => (t, sortKey eph now progress currentFilter t)) survivors =
      ((survivors.filter fun t => absHa eph now t ≤ Hours.add bestHa Hours.half).foldl
        (FirstLeast.keep (sortKey eph now progress currentFilter)) held).map
          fun t => (t, sortKey eph now progress currentFilter t) := by
  induction survivors generalizing held with
  | nil => rfl
  | cons t later ih =>
    unfold choose
    split
    · next hout =>
      rw [ih, List.filter_cons_of_neg (by simpa using hout)]
    · next hin =>
      rw [List.filter_cons_of_pos (by simpa using not_lt.mp hin), List.foldl_cons, ← ih]
      cases held with
      | none => rfl
      | some held =>
        simp only [Option.map_some, FirstLeast.keep, decide_eq_true_eq]
        split <;> rfl

/-- The choice from survivors, with the smallest of their hour angles. -/
theorem choose_min {survivors : List (PlannerTarget F)} (hne : survivors ≠ []) :
    ∃ closest ∈ survivors, ∃ t,
      (survivors.map (absHa eph now)).min? = some (absHa eph now closest) ∧
      (∀ other ∈ survivors, absHa eph now closest ≤ absHa eph now other) ∧
      choose eph now progress currentFilter (absHa eph now closest) none survivors =
        some (t, sortKey eph now progress currentFilter t) ∧
      FirstLeast.Chosen (sortKey eph now progress currentFilter) (survivors.filter fun other =>
        absHa eph now other ≤ Hours.add (absHa eph now closest) Hours.half) t := by
  obtain ⟨bestHa, hmin⟩ : ∃ bestHa, (survivors.map (absHa eph now)).min? = some bestHa := by
    cases survivors with
    | nil => exact absurd rfl hne
    | cons t later => exact ⟨_, rfl⟩
  obtain ⟨hmem, hleast⟩ := List.min?_eq_some_iff.mp hmin
  obtain ⟨closest, hclosest, rfl⟩ := List.mem_map.mp hmem
  -- the closest one is in its own band, so the scan finds something
  have hband : closest ∈ survivors.filter fun other =>
      absHa eph now other ≤ Hours.add (absHa eph now closest) Hours.half := by
    refine List.mem_filter.mpr ⟨hclosest, ?_⟩
    simpa using Hours.le_add_half (absHa eph now closest)
  cases hscan : (survivors.filter fun other =>
      absHa eph now other ≤ Hours.add (absHa eph now closest) Hours.half).foldl
        (FirstLeast.keep (sortKey eph now progress currentFilter)) none with
  | none =>
    rw [(FirstLeast.foldl_keep_eq_none _).mp hscan] at hband
    cases hband
  | some t =>
    refine ⟨closest, hclosest, t, hmin, ?_, ?_, FirstLeast.foldl_keep_some _ hscan⟩
    · intro other hother
      exact hleast _ (List.mem_map_of_mem hother)
    · have := @choose_eq _ _ _ eph now progress currentFilter
        (absHa eph now closest) none survivors
      rw [hscan] at this
      exact this

variable {targets : List (PlannerTarget F)}

/-- What survives the elimination and is chosen in the band is recommended. -/
theorem recommended_of_chosen {closest : PlannerTarget F}
    (hclosest : closest ∈ eliminate eph now defaultMinAltitudeDeg progress targets)
    (hleast : ∀ other ∈ eliminate eph now defaultMinAltitudeDeg progress targets,
      absHa eph now closest ≤ absHa eph now other)
    (h : FirstLeast.Chosen (sortKey eph now progress currentFilter)
      ((eliminate eph now defaultMinAltitudeDeg progress targets).filter fun other =>
        absHa eph now other ≤ Hours.add (absHa eph now closest) Hours.half) t) :
    Recommended eph now targets defaultMinAltitudeDeg progress currentFilter t := by
  rw [eliminate_eq_filter] at hclosest hleast h
  rw [List.filter_filter] at h
  obtain ⟨hpass, before, later, hsplit, hbefore, hlater⟩ := FirstLeast.chosen_of_filter _ h
  obtain ⟨hband, hsurvives⟩ := Bool.and_eq_true_iff.mp hpass
  obtain ⟨hmem, hclosest⟩ := List.mem_filter.mp hclosest
  refine ⟨(survives_iff eph now).mp hsurvives, absHa eph now closest,
    ⟨⟨closest, hmem, (survives_iff eph now).mp hclosest, rfl⟩, ?_⟩, of_decide_eq_true hband,
    before, later, hsplit, ?_, ?_⟩
  · intro other hother helig
    exact hleast other (List.mem_filter.mpr ⟨hother, (survives_iff eph now).mpr helig⟩)
  · intro other hother helig hin
    exact hbefore other hother
      (Bool.and_eq_true_iff.mpr ⟨decide_eq_true hin, (survives_iff eph now).mpr helig⟩)
  · intro other hother helig hin
    exact hlater other hother
      (Bool.and_eq_true_iff.mpr ⟨decide_eq_true hin, (survives_iff eph now).mpr helig⟩)

theorem exists_eligible_iff :
    (∃ t ∈ targets, Eligible eph now defaultMinAltitudeDeg progress t) ↔
      eliminate eph now defaultMinAltitudeDeg progress targets ≠ [] := by
  rw [eliminate_eq_filter, Ne, List.filter_eq_nil_iff]
  simp only [survives_iff, not_forall, not_not, exists_prop]

/-- A recommendation without a target, or one whose target was chosen. -/
theorem nextTarget_cases (targets : List (PlannerTarget F)) (defaultMinAltitudeDeg : F)
    (trainDefaultPositionAngleDeg : Option F) (progress : PlanProgress)
    (currentFilter : Option String) :
    let answer := nextTarget eph now targets defaultMinAltitudeDeg trainDefaultPositionAngleDeg
      progress currentFilter
    (eliminate eph now defaultMinAltitudeDeg progress targets = [] ∧ answer.target = none) ∨
      ∃ t, Recommended eph now targets defaultMinAltitudeDeg progress currentFilter t ∧
        eliminate eph now defaultMinAltitudeDeg progress targets ≠ [] ∧
        answer.target = some t ∧ answer.exposure = progress.nextIncompleteEntry t := by
  intro answer
  by_cases hnone : eliminate eph now defaultMinAltitudeDeg progress targets = []
  · refine .inl ⟨hnone, ?_⟩
    show (nextTarget eph now targets defaultMinAltitudeDeg trainDefaultPositionAngleDeg
      progress currentFilter).target = none
    unfold nextTarget
    split
    · rfl
    · simp [hnone, noneWith]
  · obtain ⟨closest, hclosest, t, hmin, hleast, hchoose, hchosen⟩ :=
      @choose_min _ _ _ eph now progress currentFilter _ hnone
    refine .inr ⟨t, recommended_of_chosen eph now hclosest hleast hchosen, hnone, ?_⟩
    have hsome : targets.isEmpty = false := by
      cases targets with
      | nil => exact absurd rfl hnone
      | cons first later => rfl
    simp only [answer, nextTarget, hsome, List.isEmpty_iff, hnone, if_false, hmin, hchoose,
      Bool.false_eq_true, and_self]

omit [Hours F] in
/-- The entry of a target that is not exhausted. -/
theorem nextIncompleteEntry_spec (h : ¬ Exhausted progress t) :
    (∀ entry, progress.nextIncompleteEntry t = some entry → FirstOpen progress t entry) ∧
      (progress.nextIncompleteEntry t = none ↔ t.exposures = []) := by
  constructor
  · intro entry hentry
    obtain ⟨before, later, hsplit, hbefore, hopen⟩ := nextIncompleteFrom_eq_some hentry
    simp only [Nat.zero_add] at hbefore hopen
    exact ⟨before, later, hsplit, hbefore, hopen⟩
  · rw [PlanProgress.nextIncompleteEntry, nextIncompleteFrom_eq_none]
    constructor
    · intro hmet
      by_contra hne
      refine h ⟨hne, ?_⟩
      simpa using hmet
    · intro hnil
      simp [hnil]

/-- The decision recommends a target when one may be recommended, and the right one with the right
entry of its plan. -/
theorem nextTarget_exact (targets : List (PlannerTarget F)) (defaultMinAltitudeDeg : F)
    (trainDefaultPositionAngleDeg : Option F) (progress : PlanProgress)
    (currentFilter : Option String) :
    let answer := nextTarget eph now targets defaultMinAltitudeDeg trainDefaultPositionAngleDeg
      progress currentFilter
    ((∃ t, answer.target = some t) ↔
        ∃ t ∈ targets, Eligible eph now defaultMinAltitudeDeg progress t) ∧
      ∀ t, answer.target = some t →
        Recommended eph now targets defaultMinAltitudeDeg progress currentFilter t ∧
        (∀ entry, answer.exposure = some entry → FirstOpen progress t entry) ∧
        (answer.exposure = none ↔ t.exposures = []) := by
  intro answer
  rw [exists_eligible_iff]
  rcases nextTarget_cases eph now targets defaultMinAltitudeDeg trainDefaultPositionAngleDeg
    progress currentFilter with ⟨hnone, htarget⟩ | ⟨t, hrec, hne, htarget, hexposure⟩
  · have htarget : answer.target = none := htarget
    simp [htarget, hnone]
  · have htarget : answer.target = some t := htarget
    have hexposure : answer.exposure = progress.nextIncompleteEntry t := hexposure
    refine ⟨⟨fun _ => hne, fun _ => ⟨t, htarget⟩⟩, ?_⟩
    intro other hother
    obtain rfl : t = other := Option.some.inj (htarget.symm.trans hother)
    rw [hexposure]
    exact ⟨hrec, nextIncompleteEntry_spec hrec.eligible.1⟩

end RustyPhoton.Rp.Planner
