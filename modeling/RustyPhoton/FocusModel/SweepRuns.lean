import RustyPhoton.FocusModel.Grid

/-!
# The account of a sweep

A sweep on a rig that behaves in any way: every call is an event with its answer. The run is told
attempt by attempt; every attempt walks its grid, and what the run returns is what the attempts
measured.
-/

namespace RustyPhoton.FocusModel

open Lib

variable {σ F : Type} [F64 F]

/-- A call of the sweep and how it was answered. -/
inductive SweepEvent (F : Type) where
  | checked (answer : Except FocusModelError Unit)
  | moved (target : I32) (answer : Except FocusModelError I32)
  | referenced (answer : Except FocusModelError (ReferenceFrame F))
  | measured (list : List (ListedStar F))
      (answer : Except FocusModelError (Measurement F × List (ListedStar F)))

/-- A rig that answers every call as it likes. -/
structure SweepRig (σ F : Type) where
  checkCancelled : σ → Except FocusModelError Unit × σ
  moveFocuser : I32 → σ → Except FocusModelError I32 × σ
  reference : σ → Except FocusModelError (ReferenceFrame F) × σ
  measure : List (ListedStar F) → σ →
    Except FocusModelError (Measurement F × List (ListedStar F)) × σ

def SweepRig.ops (rig : SweepRig σ F) : SweepOps σ (SweepEvent F) F where
  moveFocuser target := Traced.call fun s =>
    ((rig.moveFocuser target s).1, .moved target (rig.moveFocuser target s).1,
      (rig.moveFocuser target s).2)
  reference := Traced.call fun s =>
    ((rig.reference s).1, .referenced (rig.reference s).1, (rig.reference s).2)
  measure list := Traced.call fun s =>
    ((rig.measure list s).1, .measured list (rig.measure list s).1, (rig.measure list s).2)
  checkCancelled := Traced.call fun s =>
    ((rig.checkCancelled s).1, .checked (rig.checkCancelled s).1, (rig.checkCancelled s).2)

/-- Every read-back lies inside the travel. -/
def SweepRig.ReadsInside (rig : SweepRig σ F) (bounds : Bounds) : Prop :=
  ∀ target s reached, (rig.moveFocuser target s).1 = .ok reached → inBounds bounds reached = true

/-! ## Reading the events -/

/-- Where the focuser was sent. -/
def targets (events : List (SweepEvent F)) : List I32 :=
  events.filterMap fun
    | .moved target _ => some target
    | _ => none

/-- Where the focuser reported it was. -/
def readBacks (events : List (SweepEvent F)) : List I32 :=
  events.filterMap fun
    | .moved _ (.ok reached) => some reached
    | _ => none

/-- How many reference frames were asked for. -/
def references (events : List (SweepEvent F)) : ℕ :=
  events.countP fun
    | .referenced _ => true
    | _ => false

/-- What was measured, each where the focuser had last reported it was. -/
def samplesFrom : Option I32 → List (SweepEvent F) → List (CurvePoint F)
  | _, [] => []
  | _, .moved _ (.ok reached) :: rest => samplesFrom (some reached) rest
  | some reached, .measured _ (.ok measured) :: rest =>
      ⟨reached, finiteHfr measured.1.hfr, measured.1.starCount, measured.1.documentId, none⟩ ::
        samplesFrom (some reached) rest
  | reached, _ :: rest => samplesFrom reached rest

@[simp] theorem targets_append (l l' : List (SweepEvent F)) :
    targets (l ++ l') = targets l ++ targets l' := List.filterMap_append

@[simp] theorem readBacks_append (l l' : List (SweepEvent F)) :
    readBacks (l ++ l') = readBacks l ++ readBacks l' := List.filterMap_append

@[simp] theorem references_append (l l' : List (SweepEvent F)) :
    references (l ++ l') = references l + references l' := List.countP_append

/-- A point as it was measured, before the gate marked it. -/
def CurvePoint.raw {F : Type} (point : CurvePoint F) : CurvePoint F := { point with rejected := none }

theorem raw_gated (point : CurvePoint F) : point.gated.raw = point.raw := by
  unfold CurvePoint.gated
  split
  · rfl
  · rfl

/-! ## The account -/

/-- One attempt of a run: what it did up to its reference frame, on its walk and after it, and what the
run keeps of it. -/
structure SweepAttempt (F : Type) where
  centre : I32
  lead : List (SweepEvent F)
  walk : List (SweepEvent F)
  ending : List (SweepEvent F)
  points : List (CurvePoint F)

def SweepAttempt.events (a : SweepAttempt F) : List (SweepEvent F) := a.lead ++ a.walk ++ a.ending

/-- What holds of every attempt, wherever it ended: it walked its grid as far as it got, stayed inside
the travel, and kept what it measured. -/
structure Attempted (params : SweepParams F) (a : SweepAttempt F) : Prop where
  inside : ∀ target ∈ targets a.events, inBounds params.bounds target = true
  grid : ∃ grid, sweepGrid a.centre params = .ok grid ∧ targets a.walk <+: grid
  positions : AwayFromLimits a.centre params.halfWidth → ∃ grid, sweepGrid a.centre params = .ok grid ∧
    grid.length ≤ MAX_GRID_POINTS ∧ grid.map I32.val =
      if params.direction = .Descending then
        (gridPositions a.centre.val params.stepSize.val params.halfWidth.val params.bounds).reverse
      else gridPositions a.centre.val params.stepSize.val params.halfWidth.val params.bounds
  enough : ∀ grid, sweepGrid a.centre params = .ok grid → params.minFitPoints ≤ grid.length
  oneReference : references a.events ≤ 1
  measured : a.points.map CurvePoint.raw = samplesFrom none a.walk

/-- The attempt walked its whole grid. -/
def SweepAttempt.Whole (params : SweepParams F) (a : SweepAttempt F) : Prop :=
  sweepGrid a.centre params = .ok (targets a.walk)

/-- The next attempt after one that failed to fit. -/
structure Retried (params : SweepParams F) (a b : SweepAttempt F) : Prop where
  whole : a.Whole params
  near : (∀ reached ∈ readBacks a.walk, |reached.val - a.centre.val| ≤ params.halfWidth.val) →
    |b.centre.val - a.centre.val| ≤ 3 * params.halfWidth.val

/-- The log entry of an attempt that failed to fit. -/
structure Logged (a : SweepAttempt F) (entry : FailedAttempt) : Prop where
  centre : entry.centre = a.centre
  points : entry.points = a.points.length
  split : entry.points = entry.accepted + entry.sparse + entry.starless
  accepted : entry.accepted = a.points.countP fun point => point.acceptedSample.isSome
  sparse : entry.sparse =
    a.points.countP fun point => point.hfr.isSome && decide (point.starCount < MIN_SAMPLE_STARS)
  starless : entry.starless = a.points.countP fun point => point.hfr.isNone

/-- The curve points a sweep returns. -/
def curvePointsOf : Except (SweepFailure F) (SweepOutcome F) → List (CurvePoint F)
  | .ok outcome => outcome.curvePoints
  | .error (.Fit _ _ _ _ curvePoints) => curvePoints
  | .error (.Grid _) => []
  | .error (.Rig _ _ _ curvePoints) => curvePoints

/-- The log of failed attempts a sweep returns. -/
def attemptsLogOf : Except (SweepFailure F) (SweepOutcome F) → List FailedAttempt
  | .ok outcome => outcome.attemptsLog
  | .error (.Fit _ _ attemptsLog _ _) => attemptsLog
  | .error (.Grid _) => []
  | .error (.Rig _ attemptsLog _ _) => attemptsLog

/-- A rig failure or a cancellation stopped the sweep. -/
def stoppedByRig : Except (SweepFailure F) (SweepOutcome F) → Bool
  | .error (.Rig _ _ _ _) => true
  | _ => false

/-- A run from the attempt with this number on, told attempt by attempt. -/
structure Account (params : SweepParams F) (number : ℕ) (centre : I32)
    (before : List (CurvePoint F)) (logBefore : List FailedAttempt)
    (attempts : List (SweepAttempt F)) (events : List (SweepEvent F))
    (result : Except (SweepFailure F) (SweepOutcome F)) : Prop where
  events : events = attempts.flatMap SweepAttempt.events
  bounded : attempts.length + number ≤ params.maxAttempts + 1
  first : ∀ a ∈ attempts.head?, a.centre = centre
  each : ∀ a ∈ attempts, Attempted params a
  chain : attempts.IsChain (Retried params)
  whole : stoppedByRig result = false → ∀ a ∈ attempts, a.Whole params
  points : curvePointsOf result = before ++ attempts.flatMap SweepAttempt.points
  logged : ∃ entries, attemptsLogOf result = logBefore ++ entries ∧
    entries.length ≤ attempts.length ∧
    List.Forall₂ Logged (attempts.take entries.length) entries

/-! ## What each part of an attempt leaves -/

section Parts

variable {rig : SweepRig σ F} {params : SweepParams F} {bounds : Bounds}

theorem checkCancelled_leaves :
    Traced.Leaves (fun out l => l = [SweepEvent.checked out]) rig.ops.checkCancelled :=
  .call fun _ => rfl

theorem moveFocuser_leaves (hreads : rig.ReadsInside bounds) (target : I32) :
    Traced.Leaves (fun out l => l = [SweepEvent.moved target out] ∧
      ∀ reached, out = .ok reached → inBounds bounds reached = true) (rig.ops.moveFocuser target) :=
  .call fun s => ⟨rfl, hreads target s⟩

theorem reference_leaves :
    Traced.Leaves (fun out l => l = [SweepEvent.referenced out]) rig.ops.reference :=
  .call fun _ => rfl

theorem measure_leaves (list : List (ListedStar F)) :
    Traced.Leaves (fun out l => l = [SweepEvent.measured list out]) (rig.ops.measure list) :=
  .call fun _ => rfl

/-- The reference frame is one frame at the attempt's centre. -/
theorem takeReference_leaves (hreads : rig.ReadsInside bounds) (centre : I32) (first : Bool) :
    Traced.Leaves (fun _ l => (∀ target ∈ targets l, target = centre) ∧ references l ≤ 1)
      (takeReference rig.ops centre first) := by
  refine .bind checkCancelled_leaves (fun e l hl => by subst hl; simp [targets, references]) ?_
  rintro _ _ rfl
  have hposition : Traced.Leaves (fun _ l => (∀ target ∈ targets l, target = centre) ∧ references l = 0)
      (arrive rig.ops centre first) := by
    unfold arrive
    split
    · exact .pure (by simp [targets, references])
    · refine (moveFocuser_leaves hreads centre).mono fun out l hl => ?_
      rw [hl.1]
      simp [targets, references]
  refine .bind hposition (fun e l hl => ?_) fun position l hl => ?_
  · simp only [targets_append, references_append]
    exact ⟨by simpa [targets] using hl.1, by rw [hl.2]; simp [references]⟩
  · refine .bind checkCancelled_leaves ?_ ?_
    · rintro _ _ rfl
      simp only [targets_append, references_append]
      exact ⟨by simpa [targets] using hl.1, by rw [hl.2]; simp [references]⟩
    · rintro _ _ rfl
      refine .bind reference_leaves ?_ ?_
      · rintro _ _ rfl
        simp only [targets_append, references_append]
        exact ⟨by simpa [targets] using hl.1, by rw [hl.2]; simp [references]⟩
      · rintro frame _ rfl
        refine .pure ?_
        simp only [targets_append, references_append]
        exact ⟨by simpa [targets] using hl.1, by rw [hl.2]; simp [references]⟩

/-- What a sample's calls leave: a move to the position, and a point where the focuser reported it
was. -/
theorem samplePoint_leaves (hreads : rig.ReadsInside bounds) (position : I32)
    (list : List (ListedStar F)) :
    Traced.Leaves (fun out l => targets l <+: [position] ∧ references l = 0 ∧
      match out with
      | .ok sampled => targets l = [position] ∧ sampled.1.rejected = none ∧
          inBounds bounds sampled.1.position = true ∧ readBacks l = [sampled.1.position] ∧
          ∀ reached, ∃ reached', ∀ rest,
            samplesFrom reached (l ++ rest) = sampled.1 :: samplesFrom reached' rest
      | .error _ => ∀ reached, samplesFrom reached l = [])
      (samplePoint rig.ops position list) := by
  refine .bind checkCancelled_leaves ?_ ?_
  · rintro _ _ rfl
    exact ⟨by simp [targets], by simp [references], fun reached => by cases reached <;> rfl⟩
  · rintro _ _ rfl
    refine .bind (moveFocuser_leaves hreads position) ?_ ?_
    · rintro _ _ ⟨rfl, _⟩
      exact ⟨by simp [targets], by simp [references], fun reached => by cases reached <;> rfl⟩
    · rintro reached _ ⟨rfl, hinside⟩
      refine .bind checkCancelled_leaves ?_ ?_
      · rintro _ _ rfl
        exact ⟨by simp [targets], by simp [references], fun before => by cases before <;> rfl⟩
      · rintro _ _ rfl
        refine .bind (measure_leaves list) ?_ ?_
        · rintro _ _ rfl
          exact ⟨by simp [targets], by simp [references], fun before => by cases before <;> rfl⟩
        · rintro measured _ rfl
          refine .pure ⟨by simp [targets], by simp [references], by simp [targets], rfl,
            hinside reached rfl, by simp [readBacks], fun before => ⟨some reached, fun rest => ?_⟩⟩
          cases before <;> rfl

/-- A walk goes along its grid, and what it keeps is what it measured. -/
theorem walk_leaves (hreads : rig.ReadsInside bounds) (grid : List I32) (list : List (ListedStar F))
    (before : List (CurvePoint F)) :
    Traced.Leaves (fun out l => ∃ ended points, out = .ok (ended, before ++ points) ∧
        targets l <+: grid ∧ (∀ list, ended = .ok list → targets l = grid) ∧ references l = 0 ∧
        (∀ reached, samplesFrom reached l = points) ∧
        ∀ point ∈ points, point.rejected = none ∧ inBounds bounds point.position = true ∧
          point.position ∈ readBacks l)
      (walk rig.ops grid list before) := by
  induction grid generalizing list before with
  | nil =>
    refine .pure ⟨.ok list, [], by rw [List.append_nil], by simp [targets], fun _ _ => rfl, rfl, ?_, ?_⟩
    · intro reached
      cases reached <;> rfl
    · intro point hpoint
      cases hpoint
  | cons position grid ih =>
    refine .attempt (samplePoint_leaves hreads position list) ?_
    rintro (error | ⟨point, list⟩) l ⟨htargets, href, hsampled⟩
    · refine .pure ⟨.error error, [], by rw [List.append_nil], ?_, fun _ h => (by cases h), ?_, ?_, ?_⟩
      · rw [List.append_nil]
        exact htargets.trans (by simp)
      · rw [List.append_nil]
        exact href
      · intro reached
        rw [List.append_nil]
        exact hsampled reached
      · intro point hpoint
        cases hpoint
    · obtain ⟨htarget, hraw, hinside, hread, hsamples⟩ := hsampled
      refine (ih list (before ++ [point])).mono ?_
      rintro out l' ⟨ended, points, rfl, hbegin, hwhole, href', hrest, hpoints⟩
      refine ⟨ended, point :: points, by rw [List.append_assoc]; rfl, ?_, ?_, ?_, ?_, ?_⟩
      · rw [targets_append, htarget]
        exact List.cons_prefix_cons.mpr ⟨rfl, hbegin⟩
      · intro list hended
        rw [targets_append, htarget, hwhole list hended]
        rfl
      · rw [references_append, href, href']
      · intro reached
        obtain ⟨reached', hone⟩ := hsamples reached
        rw [hone, hrest]
      · intro other hother
        rw [readBacks_append, hread]
        rcases List.mem_cons.mp hother with rfl | hother
        · exact ⟨hraw, hinside, by simp⟩
        · obtain ⟨hraw', hinside', hread'⟩ := hpoints other hother
          exact ⟨hraw', hinside', List.mem_append_right _ hread'⟩

/-- The confirmation moves to the fitted vertex, and back to the lowest sample at most. -/
theorem confirm_leaves (hreads : rig.ReadsInside bounds) (stage : FitStage F)
    (list : List (ListedStar F)) :
    Traced.Leaves (fun _ l => references l = 0 ∧
        ∀ target ∈ targets l, target = stage.bestPosition ∨ target = stage.lowestPosition)
      (confirm rig.ops params stage list) := by
  have hfallBack : ∀ list, Traced.Leaves (fun _ l => references l = 0 ∧
      ∀ target ∈ targets l, target = stage.lowestPosition) (fallBack rig.ops stage list) := by
    intro list
    refine .bind checkCancelled_leaves ?_ ?_
    · rintro _ _ rfl
      exact ⟨rfl, by simp [targets]⟩
    · rintro _ _ rfl
      refine .bind (moveFocuser_leaves hreads _) ?_ ?_
      · rintro _ _ ⟨rfl, _⟩
        exact ⟨rfl, by simp [targets]⟩
      · rintro position _ ⟨rfl, _⟩
        split
        · exact .pure ⟨rfl, by simp [targets]⟩
        · refine .bind checkCancelled_leaves ?_ ?_
          · rintro _ _ rfl
            exact ⟨rfl, by simp [targets]⟩
          · rintro _ _ rfl
            refine .bind (measure_leaves list) ?_ ?_
            · rintro _ _ rfl
              exact ⟨rfl, by simp [targets]⟩
            · rintro measured _ rfl
              split
              · exact .pure ⟨rfl, by simp [targets]⟩
              · exact .halt ⟨rfl, by simp [targets]⟩
  refine .bind checkCancelled_leaves ?_ ?_
  · rintro _ _ rfl
    exact ⟨rfl, by simp [targets]⟩
  · rintro _ _ rfl
    refine .bind (moveFocuser_leaves hreads _) ?_ ?_
    · rintro _ _ ⟨rfl, _⟩
      exact ⟨rfl, by simp [targets]⟩
    · rintro movedTo _ ⟨rfl, _⟩
      refine .bind checkCancelled_leaves ?_ ?_
      · rintro _ _ rfl
        exact ⟨rfl, by simp [targets]⟩
      · rintro _ _ rfl
        refine .bind (measure_leaves list) ?_ ?_
        · rintro _ _ rfl
          exact ⟨rfl, by simp [targets]⟩
        · rintro measured _ rfl
          dsimp only
          split
          · exact .pure ⟨rfl, by simp [targets]⟩
          · refine .bind (hfallBack _) (fun e l hl => ?_) fun settled l hl => .pure ?_
            · simp only [references_append, targets_append, hl.1]
              refine ⟨rfl, fun target htarget => ?_⟩
              simp only [targets, List.filterMap_cons, List.filterMap_nil, List.nil_append,
                List.cons_append, List.mem_cons] at htarget
              exact htarget.imp id (hl.2 target)
            · simp only [references_append, targets_append, hl.1]
              refine ⟨rfl, fun target htarget => ?_⟩
              simp only [targets, List.filterMap_cons, List.filterMap_nil, List.nil_append,
                List.append_nil, List.cons_append, List.mem_cons] at htarget
              exact htarget.imp id (hl.2 target)

end Parts

end RustyPhoton.FocusModel
