import RustyPhoton.FocusModel.SweepRuns
import RustyPhoton.Lib.Circle

/-!
# A sweep stays inside, ends and accounts for every frame

What one attempt adds to the account, and the account of a whole run by induction on the attempts that
are left.
-/

namespace RustyPhoton.FocusModel

open Lib

variable {σ F : Type} [F64 F] {params : SweepParams F}

/-! ## The gate -/

variable {point : CurvePoint F}

theorem acceptedSample_eq {sample : Sample F}
    (h : point.acceptedSample = some sample) : sample.1 = point.position := by
  unfold CurvePoint.acceptedSample at h
  split at h
  · cases h
    rfl
  · cases h

theorem gated_position (point : CurvePoint F) : point.gated.position = point.position := by
  unfold CurvePoint.gated
  split
  · rfl
  · rfl

/-- A point behind the gate is accepted, sparse or starless, and one of them only. -/
theorem gated_kinds (hraw : point.rejected = none) :
    (point.gated.hfr.isSome && point.gated.rejected.isSome) =
        (point.gated.hfr.isSome && decide (point.gated.starCount < MIN_SAMPLE_STARS)) ∧
      ((point.gated.acceptedSample.isSome = true ∧
          (point.gated.hfr.isSome && point.gated.rejected.isSome) = false ∧
          point.gated.hfr.isNone = false) ∨
        (point.gated.acceptedSample.isSome = false ∧
          (point.gated.hfr.isSome && point.gated.rejected.isSome) = true ∧
          point.gated.hfr.isNone = false) ∨
        (point.gated.acceptedSample.isSome = false ∧
          (point.gated.hfr.isSome && point.gated.rejected.isSome) = false ∧
          point.gated.hfr.isNone = true)) := by
  obtain ⟨position, hfr, starCount, documentId, rejected⟩ := point
  cases hraw
  cases hfr with
  | none => exact ⟨rfl, .inr (.inr ⟨rfl, rfl, rfl⟩)⟩
  | some hfr =>
    by_cases hfew : starCount < MIN_SAMPLE_STARS
    · simp [CurvePoint.gated, CurvePoint.acceptedSample, hfew]
    · simp [CurvePoint.gated, CurvePoint.acceptedSample, hfew]

variable {points : List (CurvePoint F)}

/-- A gate that marks no more than the sparse samples splits the points in three. -/
theorem gateCounts_applyStarFloor (hraw : ∀ point ∈ points, point.rejected = none) :
    (applyStarFloor points).length =
        (gateCounts (applyStarFloor points)).1 + (gateCounts (applyStarFloor points)).2.1 +
          (gateCounts (applyStarFloor points)).2.2 ∧
      (gateCounts (applyStarFloor points)).2.1 = (applyStarFloor points).countP fun point =>
        point.hfr.isSome && decide (point.starCount < MIN_SAMPLE_STARS) := by
  induction points with
  | nil => exact ⟨rfl, rfl⟩
  | cons point points ih =>
    obtain ⟨hsplit, hsparse⟩ := ih fun other hother => hraw other (List.mem_cons_of_mem _ hother)
    obtain ⟨hsame, hkinds⟩ := gated_kinds (hraw point List.mem_cons_self)
    simp only [gateCounts, applyStarFloor, List.map_cons, List.countP_cons, List.length_cons,
      ← hsame] at *
    refine ⟨?_, by rw [hsparse]⟩
    rcases hkinds with ⟨haccepted, hfew, hnone⟩ | ⟨haccepted, hfew, hnone⟩ | ⟨haccepted, hfew, hnone⟩
    all_goals
      simp only [haccepted, hfew, hnone, if_true, Bool.false_eq_true, if_false]
      omega

theorem gateAndFit_fst (fitHyperbola : FitHyperbola F) (points : List (CurvePoint F)) :
    (gateAndFit fitHyperbola points params).1 = applyStarFloor points := by
  unfold gateAndFit
  dsimp only
  split
  · rfl
  · split
    · rfl
    · rfl

theorem lowestSample_mem {samples : List (Sample F)} {low : Sample F}
    (h : lowestSample samples = some low) : low ∈ samples := by
  cases samples with
  | nil => cases h
  | cons first rest =>
    cases h
    suffices hfold : ∀ (rest : List (Sample F)) (low : Sample F), rest.foldl (fun low sample =>
        if sampleOrder low sample = .gt then sample else low) low ∈ low :: rest from hfold rest first
    intro rest
    induction rest with
    | nil =>
      intro low
      exact List.mem_cons_self
    | cons sample rest ih =>
      intro low
      rw [List.foldl_cons]
      split
      · exact List.mem_cons_of_mem _ (ih sample)
      · rcases List.mem_cons.mp (ih low) with hlow | hrest
        · rw [hlow]
          exact List.mem_cons_self
        · exact List.mem_cons_of_mem _ (List.mem_cons_of_mem _ hrest)

variable {stage : FitStage F}

/-- The vertex a stage moves to lies between two samples, and its fallback is one. -/
theorem validate_ok {fitted : HyperbolaFit F} {accepted : List (Sample F)}
    (h : validate fitted accepted params = .ok stage) :
    (∃ low ∈ accepted, ∃ high ∈ accepted, low.1 ≤ stage.bestPosition ∧ stage.bestPosition ≤ high.1) ∧
      ∃ low ∈ accepted, low.1 = stage.lowestPosition := by
  unfold validate at h
  dsimp only at h
  split at h
  · next sampledMin sampledMax hmin hmax =>
      split at h
      · cases h
      · next hvertex =>
          rw [not_or, not_lt, not_lt] at hvertex
          split at h
          · cases h
          · split at h
            · cases h
            · next lowestPosition lowestHfr stars hlowest =>
                cases h
                obtain ⟨low, hlow, hlowEq⟩ := List.mem_map.mp (min?_mem hmin)
                obtain ⟨high, hhigh, hhighEq⟩ := List.mem_map.mp (max?_mem hmax)
                exact ⟨⟨low, hlow, high, hhigh, by rw [hlowEq]; exact hvertex.1,
                  by rw [hhighEq]; exact hvertex.2⟩, _, lowestSample_mem hlowest, rfl⟩
  · cases h

/-- Where the confirmation may go lies inside the travel when the samples do. -/
theorem gateAndFit_inside {fitHyperbola : FitHyperbola F}
    (hpoints : ∀ point ∈ points, inBounds params.bounds point.position = true)
    (h : (gateAndFit fitHyperbola points params).2 = .ok stage) :
    inBounds params.bounds stage.bestPosition = true ∧
      inBounds params.bounds stage.lowestPosition = true := by
  have haccepted : ∀ sample ∈ (applyStarFloor points).filterMap CurvePoint.acceptedSample,
      inBounds params.bounds sample.1 = true := by
    intro sample hsample
    obtain ⟨gated, hgated, heq⟩ := List.mem_filterMap.mp hsample
    obtain ⟨point, hpoint, rfl⟩ := List.mem_map.mp hgated
    rw [acceptedSample_eq heq, gated_position]
    exact hpoints point hpoint
  unfold gateAndFit at h
  dsimp only at h
  split at h
  · cases h
  · split at h
    · cases h
    · obtain ⟨⟨low, hlow, high, hhigh, hle, hge⟩, lowest, hlowest, heq⟩ := validate_ok h
      refine ⟨inBounds_between (haccepted low hlow) (haccepted high hhigh) hle hge, ?_⟩
      rw [← heq]
      exact haccepted lowest hlowest

/-! ## One attempt more -/

variable {number : ℕ} {centre : I32} {before : List (CurvePoint F)} {logBefore : List FailedAttempt}

/-- What a travel and a sweep have to be. -/
structure Sweepable (params : SweepParams F) : Prop where
  step : 1 ≤ params.stepSize.val
  width : 1 ≤ params.halfWidth.val
  bounds : Ordered params.bounds

variable {a : SweepAttempt F}

/-- An attempt on the grid of its centre. -/
theorem Attempted.of_grid (hparams : Sweepable params) {grid : List I32}
    (hgrid : sweepGrid a.centre params = .ok grid) (hbegin : targets a.walk <+: grid)
    (hlead : ∀ target ∈ targets a.lead, inBounds params.bounds target = true)
    (hending : ∀ target ∈ targets a.ending, inBounds params.bounds target = true)
    (href : references a.events ≤ 1)
    (hmeasured : a.points.map CurvePoint.raw = samplesFrom none a.walk) : Attempted params a where
  inside target htarget := by
    rw [SweepAttempt.events, targets_append, targets_append] at htarget
    rcases List.mem_append.mp htarget with htarget | htarget
    · rcases List.mem_append.mp htarget with htarget | htarget
      · exact hlead target htarget
      · exact sweepGrid_inside hgrid (hbegin.subset htarget)
    · exact hending target htarget
  grid := ⟨grid, hgrid, hbegin⟩
  positions haway := by
    obtain ⟨hpositions, hcount⟩ := sweepGrid_positions hgrid hparams.step hparams.width haway
    exact ⟨grid, hgrid, hcount, hpositions⟩
  enough grid' hgrid' := (sweepGrid_ok hgrid').2.1
  oneReference := href
  measured := hmeasured

variable {result : Except (SweepFailure F) (SweepOutcome F)}

/-- The account of a run that ended with this attempt. -/
theorem Account.last (hnumber : number ≤ params.maxAttempts) (hattempt : Attempted params a)
    (hwhole : stoppedByRig result = false → a.Whole params)
    (hpoints : curvePointsOf result = before ++ a.points) (entries : List FailedAttempt)
    (hlog : attemptsLogOf result = logBefore ++ entries)
    (hentries : entries = [] ∨ ∃ entry, entries = [entry] ∧ Logged a entry) :
    Account params number a.centre before logBefore [a] a.events result where
  events := by simp
  bounded := by rw [List.length_singleton]; omega
  first b hb := by
    cases hb
    rfl
  each b hb := by
    rw [List.mem_singleton.mp hb]
    exact hattempt
  chain := List.isChain_singleton a
  whole hresult b hb := by
    rw [List.mem_singleton.mp hb]
    exact hwhole hresult
  points := by simpa using hpoints
  logged := by
    rcases hentries with rfl | ⟨entry, rfl, hentry⟩
    · exact ⟨[], hlog, Nat.zero_le _, .nil⟩
    · exact ⟨[entry], hlog, le_refl _, .cons hentry .nil⟩

variable {entry : FailedAttempt} {next : I32}

/-- The account of a run that went on after this attempt. -/
theorem Account.cons {attempts : List (SweepAttempt F)} {events : List (SweepEvent F)}
    (hattempt : Attempted params a)
    (hwhole : a.Whole params) (hentry : Logged a entry)
    (hnear : (∀ reached ∈ readBacks a.walk, |reached.val - a.centre.val| ≤ params.halfWidth.val) →
      |next.val - a.centre.val| ≤ 3 * params.halfWidth.val)
    (h : Account params (number + 1) next (before ++ a.points) (logBefore ++ [entry]) attempts events
      result) :
    Account params number a.centre before logBefore (a :: attempts) (a.events ++ events) result where
  events := by rw [h.events, List.flatMap_cons]
  bounded := by
    have hbounded := h.bounded
    rw [List.length_cons]
    omega
  first b hb := by
    cases hb
    rfl
  each b hb := by
    rcases List.mem_cons.mp hb with rfl | hb
    · exact hattempt
    · exact h.each b hb
  chain := by
    cases attempts with
    | nil => exact List.isChain_singleton a
    | cons b attempts =>
      refine List.isChain_cons_cons.mpr ⟨⟨hwhole, ?_⟩, h.chain⟩
      rw [h.first b rfl]
      exact hnear
  whole hresult b hb := by
    rcases List.mem_cons.mp hb with rfl | hb
    · exact hwhole
    · exact h.whole hresult b hb
  points := by rw [h.points, List.flatMap_cons, List.append_assoc]
  logged := by
    obtain ⟨entries, hlog, hcount, hentries⟩ := h.logged
    refine ⟨entry :: entries, by rw [hlog, List.append_assoc]; rfl, ?_, ?_⟩
    · rw [List.length_cons, List.length_cons]
      omega
    · exact .cons hentry hentries

/-! ## An attempt that failed to fit -/

variable {reference : Reference} {error : FitError F}

/-- The entry tells what the gate left of the attempt. -/
theorem failedAttempt_logged {next : Option (I32 × List I32)}
    (hraw : ∀ point ∈ points, point.rejected = none) (hpoints : a.points = applyStarFloor points)
    (h : failedAttempt number a.centre reference a.points error params = (entry, next)) :
    Logged a entry := by
  obtain ⟨hsplit, hsparse⟩ := gateCounts_applyStarFloor hraw
  rw [← hpoints] at hsplit hsparse
  have hcounts : entry.centre = a.centre ∧ entry.points = a.points.length ∧
      entry.accepted = (gateCounts a.points).1 ∧ entry.sparse = (gateCounts a.points).2.1 ∧
      entry.starless = (gateCounts a.points).2.2 := by
    unfold failedAttempt at h
    dsimp only at h
    split at h
    · split at h
      · cases h
        exact ⟨rfl, rfl, rfl, rfl, rfl⟩
      · cases h
        exact ⟨rfl, rfl, rfl, rfl, rfl⟩
    · cases h
      exact ⟨rfl, rfl, rfl, rfl, rfl⟩
  obtain ⟨hcentre, hlength, haccepted, hsparse', hstarless⟩ := hcounts
  exact ⟨hcentre, hlength, by rw [hlength, haccepted, hsparse', hstarless]; exact hsplit, haccepted,
    hsparse'.trans hsparse, hstarless⟩

/-- Where the next attempt goes: on the grid of a centre inside the travel, near the one that failed. -/
theorem failedAttempt_next {nextGrid : List I32} (hparams : Sweepable params)
    (hcentre : inBounds params.bounds centre = true)
    (h : failedAttempt number centre reference points error params = (entry, some (next, nextGrid))) :
    sweepGrid next params = .ok nextGrid ∧ inBounds params.bounds next = true ∧
      ((∀ point ∈ points, |point.position.val - centre.val| ≤ params.halfWidth.val) →
        |next.val - centre.val| ≤ 3 * params.halfWidth.val) := by
  unfold failedAttempt at h
  dsimp only at h
  split at h
  · split at h
    · next hgrid =>
        cases h
        exact ⟨hgrid, retryCentre_inside hparams.bounds hcentre, retryCentre_near hparams.width hcentre⟩
    · cases h
  · cases h

/-! ## The run -/

variable {rig : SweepRig σ F} {fitHyperbola : FitHyperbola F}

theorem sweepFrom_account (hparams : Sweepable params) (hreads : rig.ReadsInside params.bounds)
    (number : ℕ) (hnumber : number ≤ params.maxAttempts) (centre : I32) (grid : List I32)
    (hgrid : sweepGrid centre params = .ok grid) (hcentre : inBounds params.bounds centre = true)
    (before : List (CurvePoint F)) (logBefore : List FailedAttempt) :
    Traced.Leaves (fun out l => ∃ result attempts, out = .ok result ∧
        Account params number centre before logBefore attempts l result)
      (sweepFrom rig.ops fitHyperbola params number centre grid before logBefore) := by
  -- by the number of attempts that are left
  induction hleft : params.maxAttempts - number using Nat.strong_induction_on generalizing number centre
    grid before logBefore with
  | _ left ih =>
  rw [sweepFrom]
  refine .attempt (takeReference_leaves hreads centre (number = 1)) ?_
  rintro (error | ⟨reference, list⟩) lead ⟨hlead, href⟩
  · -- no reference frame
    refine .pure ⟨_, [⟨centre, lead, [], [], []⟩], rfl, ?_⟩
    have hevents : lead ++ [] = SweepAttempt.events (F := F) ⟨centre, lead, [], [], []⟩ := by
      simp [SweepAttempt.events]
    rw [hevents]
    refine Account.last (a := ⟨centre, lead, [], [], []⟩) hnumber (.of_grid hparams hgrid ?_ ?_ ?_ ?_ rfl)
      ?_ ?_ [] ?_ (.inl rfl)
    · exact List.nil_prefix
    · intro target htarget
      rw [hlead target htarget]
      exact hcentre
    · intro target htarget
      cases htarget
    · simpa [SweepAttempt.events] using href
    · intro h
      cases h
    · exact (List.append_nil before).symm
    · exact (List.append_nil logBefore).symm
  · refine .bind (walk_leaves hreads grid list []) ?_ ?_
    · rintro _ _ ⟨_, _, h, _⟩
      cases h
    · rintro result walked ⟨ended, points, hresult, hbegin, hwhole, hwalkRef, hsamples, hpoints⟩
      rw [List.nil_append] at hresult
      obtain rfl : result = (ended, points) := Except.ok.inj hresult
      have hraw : ∀ point ∈ points, point.rejected = none := fun point hpoint => (hpoints point hpoint).1
      have hleadInside : ∀ target ∈ targets lead, inBounds params.bounds target = true := by
        intro target htarget
        rw [hlead target htarget]
        exact hcentre
      cases ended with
      | error error =>
        -- the walk was cut short
        have hmeasured : points.map CurvePoint.raw = samplesFrom none walked := by
          rw [hsamples none]
          exact (List.map_congr_left fun point hpoint => by
            obtain ⟨_, _, _, _, _⟩ := point
            cases hraw _ hpoint
            rfl).trans (List.map_id _)
        refine .pure ⟨_, [⟨centre, lead, walked, [], points⟩], rfl, ?_⟩
        have hevents : lead ++ (walked ++ []) =
            SweepAttempt.events ⟨centre, lead, walked, [], points⟩ := by
          simp [SweepAttempt.events]
        rw [hevents]
        refine Account.last (a := ⟨centre, lead, walked, [], points⟩) hnumber
          (.of_grid hparams hgrid hbegin hleadInside ?_ ?_ hmeasured) (fun h => by cases h) rfl
          [] (by rw [List.append_nil]; rfl) (.inl rfl)
        · intro target htarget
          cases htarget
        · simpa [SweepAttempt.events, hwalkRef] using href
      | ok list =>
        have hall : targets walked = grid := hwhole list rfl
        have hmeasured : (applyStarFloor points).map CurvePoint.raw = samplesFrom none walked := by
          rw [hsamples none, applyStarFloor, List.map_map]
          exact (List.map_congr_left fun point hpoint => by
            rw [Function.comp_apply, raw_gated]
            obtain ⟨_, _, _, _, _⟩ := point
            cases hraw _ hpoint
            rfl).trans (List.map_id _)
        have hfst : (gateAndFit fitHyperbola points params).1 = applyStarFloor points :=
          gateAndFit_fst fitHyperbola points
        have hinside : ∀ stage, (gateAndFit fitHyperbola points params).2 = .ok stage →
            inBounds params.bounds stage.bestPosition = true ∧
              inBounds params.bounds stage.lowestPosition = true :=
          fun stage => gateAndFit_inside fun point hpoint => (hpoints point hpoint).2.1
        dsimp only
        generalize gateAndFit fitHyperbola points params = gated at hfst hinside
        obtain ⟨curvePoints, verdict⟩ := gated
        cases hfst
        cases verdict with
        | ok stage =>
          obtain ⟨hbest, hlowest⟩ := hinside stage rfl
          refine .attempt (confirm_leaves hreads stage list) ?_
          rintro confirmed ending ⟨hendRef, hendTargets⟩
          have hendInside : ∀ target ∈ targets ending, inBounds params.bounds target = true := by
            intro target htarget
            rcases hendTargets target htarget with rfl | rfl
            · exact hbest
            · exact hlowest
          have hattempt : Attempted params ⟨centre, lead, walked, ending, applyStarFloor points⟩ :=
            .of_grid hparams hgrid hbegin hleadInside hendInside
              (by simpa [SweepAttempt.events, hwalkRef, hendRef] using href) hmeasured
          have hevents : lead ++ (walked ++ (ending ++ [])) = SweepAttempt.events
              ⟨centre, lead, walked, ending, applyStarFloor points⟩ := by
            simp [SweepAttempt.events]
          rcases confirmed with error | ⟨confirmation, position, hfr⟩
          · refine .pure ⟨_, [⟨centre, lead, walked, ending, applyStarFloor points⟩], rfl, ?_⟩
            rw [hevents]
            exact Account.last hnumber hattempt (fun h => by cases h) rfl []
              (by rw [List.append_nil]; rfl) (.inl rfl)
          · refine .pure ⟨_, [⟨centre, lead, walked, ending, applyStarFloor points⟩], rfl, ?_⟩
            rw [hevents]
            exact Account.last hnumber hattempt (fun _ => by
              show sweepGrid centre params = .ok (targets walked)
              rw [hall]
              exact hgrid) rfl [] (by rw [List.append_nil]; rfl) (.inl rfl)
        | error error =>
          have hattempt : Attempted params ⟨centre, lead, walked, [], applyStarFloor points⟩ :=
            .of_grid hparams hgrid hbegin hleadInside (fun target htarget => by cases htarget)
              (by simpa [SweepAttempt.events, hwalkRef] using href) hmeasured
          have hwholeAttempt : SweepAttempt.Whole params
              ⟨centre, lead, walked, [], applyStarFloor points⟩ := by
            show sweepGrid centre params = .ok (targets walked)
            rw [hall]
            exact hgrid
          have hevents : lead ++ walked = SweepAttempt.events
              ⟨centre, lead, walked, [], applyStarFloor points⟩ := by
            simp [SweepAttempt.events]
          dsimp only
          split
          · next failed nextCentre nextGrid hnext =>
              have hlt := number_lt_of_failedAttempt hnext
              have hmax := params.maxAttempts_le
              have hlogged : Logged ⟨centre, lead, walked, [], applyStarFloor points⟩ failed :=
                failedAttempt_logged hraw rfl hnext
              obtain ⟨hnextGrid, hnextInside, hnear⟩ := failedAttempt_next hparams hcentre hnext
              have hsucc : min (number + 1) 4294967295 = number + 1 := by omega
              rw [hsucc]
              refine (ih (params.maxAttempts - (number + 1)) (by omega) (number + 1) hlt nextCentre
                nextGrid hnextGrid hnextInside (before ++ applyStarFloor points)
                (logBefore ++ [failed]) rfl).mono ?_
              rintro out rest ⟨result, attempts, rfl, haccount⟩
              refine ⟨result, ⟨centre, lead, walked, [], applyStarFloor points⟩ :: attempts, rfl, ?_⟩
              rw [← List.append_assoc, hevents]
              refine Account.cons hattempt hwholeAttempt hlogged (fun hreadBacks => ?_) haccount
              refine hnear fun point hpoint => ?_
              obtain ⟨raw, hrawMem, rfl⟩ := List.mem_map.mp hpoint
              rw [gated_position]
              exact hreadBacks _ (hpoints raw hrawMem).2.2
          · next failed hnext =>
              refine .pure ⟨_, [⟨centre, lead, walked, [], applyStarFloor points⟩], rfl, ?_⟩
              rw [List.append_nil, hevents]
              exact Account.last hnumber hattempt (fun _ => hwholeAttempt) rfl [failed] rfl
                (.inr ⟨failed, rfl, failedAttempt_logged hraw rfl hnext⟩)

/-- Exact arithmetic, for runs on fixed inputs. -/
instance : F64 ℚ where
  ofRat := id
  ofI32 n := n.val
  isFinite _ := true
  partialCmp a b := some (compare a b)
  totalCmp := compare
  add a b := a + b
  sub a b := a - b
  mul a b := a * b
  div a b := a / b
  max a b := Max.max a b
  midpoint a b := (a + b) / 2
  abs a := |a|
  mulAdd a b c := a * b + c
  roundI32 a := I32.clamp (Circle.roundAway a)
  fixed _ a := toString a
  display a := toString a

/-- Three positions around the centre, in a travel of a hundred steps. -/
def hundredSteps : SweepParams ℚ where
  stepSize := I32.clamp 10
  halfWidth := I32.clamp 10
  minFitPoints := 3
  minFitRSquared := none
  confirmationTolerance := 1 / 4
  maxAttempts := 2
  maxAttempts_le := by decide
  direction := .Ascending
  minPosition := some (I32.clamp 0)
  maxPosition := some (I32.clamp 100)

/-- A focuser that stops at the ends of its travel, and a camera that sees two stars, smallest at 50. -/
def stoppingRig : SweepRig I32 ℚ where
  checkCancelled place := (.ok (), place)
  moveFocuser target _ :=
    (.ok (clampToBounds hundredSteps.bounds target), clampToBounds hundredSteps.bounds target)
  reference place := (.ok ⟨"reference", [⟨0, 0, 1, 2⟩, ⟨5, 5, 1, 2⟩]⟩, place)
  measure list place := (.ok (⟨some (|(place.val : ℚ) - 50| / 10 + 1), list.length, "frame"⟩, list), place)

end RustyPhoton.FocusModel
