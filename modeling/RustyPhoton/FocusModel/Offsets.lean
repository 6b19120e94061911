import RustyPhoton.FocusModel.Workflow

/-!
# The offsets procedure

Rounds of reference-then-filter sweeps, the median of the differences, the writes and the restore. Each
sweep is the body `focus_train` runs; a pause that no sweep could undo is the procedure's to undo, on its
way out. Maps from filter names are lists in the order of their first writes.
-/

namespace RustyPhoton.FocusModel

open Lib

variable {σ F Ω ρ : Type} [F64 F] (s : Session σ F Ω ρ)

def DEFAULT_ROUNDS : ℕ := 2

/-- The most rounds a call may ask for. -/
def MAX_ROUNDS : ℕ := 5

/-- The arguments of `determine_filter_offsets`. -/
structure OffsetsParams where
  trainId : String
  filters : Option (List String)
  reference : Option String
  rounds : Option ℕ

/-- One sweep of the procedure, as the result reports it. -/
structure OffsetSweep (F : Type) where
  round : ℕ
  filter : String
  confirmed : Bool
  position : Option I32
  hfr : Option F
  error : Option String
  notRecorded : Option String

/-- Where the call left the rig. -/
structure Restored where
  filter : Option String
  position : Option I32
  error : Option String

/-- What the store did with the offsets. -/
structure OffsetsRecorded where
  offsetsWritten : Bool
  offsetsDropped : List String
  runs : Option ℕ
  error : Option String

structure OffsetsView (F : Type) where
  trainId : String
  reference : String
  rounds : ℕ
  offsets : List (String × I32)
  differences : List (String × I32)
  /-- The filters that kept no offset, each with why. -/
  unmeasured : List (String × String)
  sweeps : List (OffsetSweep F)
  restored : Restored
  recorded : OffsetsRecorded
  model : String

/-- The arguments resolved against the train, before anything moves. -/
structure OffsetsPlan (Ω : Type) where
  ctx : TrainContext Ω
  wheel : String
  filters : List String
  reference : String
  rounds : ℕ
  enteringStale : List String
  enteringEmpty : Bool

/-- The order one round walks: the reference first. -/
def OffsetsPlan.order (plan : OffsetsPlan Ω) : List String :=
  plan.reference :: plan.filters.filter fun name => name ≠ plan.reference

/-- Where the rig was when the call arrived. -/
structure Started where
  filter : Option String
  position : I32

/-- What the rounds measured. -/
structure Measured (F : Type) where
  sweeps : List (OffsetSweep F)
  /-- Every difference with its filter, in the order they were measured. -/
  differences : List (String × I32)
  referencePlaced : Bool
  /-- The filter of every confirmed pair whose difference did not fit a focuser position. -/
  discarded : List String

def Measured.nothing {F : Type} : Measured F := ⟨[], [], false, []⟩

/-- Where one filter was last left by a sweep that measured a position. -/
def Measured.lastMeasured {F : Type} (measured : Measured F) (filter : String) : Option I32 :=
  (measured.sweeps.reverse.filter fun sweep => sweep.filter = filter).findSome? fun sweep => sweep.position

def Measured.whyUnmeasured {F : Type} (measured : Measured F) (filter : String) : String :=
  if filter ∈ measured.discarded then
    s!"'{filter}' confirmed, but no difference from the reference fits a focuser position"
  else if measured.referencePlaced then
    s!"no round confirmed '{filter}' and the reference together"
  else "no round's reference sweep confirmed"

/-- The runs the store would not take, or nothing when it took them all. -/
def Measured.missingRuns {F : Type} (measured : Measured F) : Option String :=
  let unrecorded := measured.sweeps.countP fun sweep =>
    sweep.notRecorded.isSome || sweep.error.any fun error => contains error RUN_NOT_RECORDED
  if unrecorded = 0 then none else some s!"{unrecorded} of them reached no run in the history"

/-- Why nothing was measured. -/
def Measured.shortfall {F : Type} (measured : Measured F) : String :=
  let missed := measured.sweeps.countP fun sweep => !sweep.confirmed
  let missing := measured.missingRuns.elim "" fun missing => s!", and {missing}"
  if missed = 0 then
    let pairs := if measured.discarded.length = 1 then "pair" else "pairs"
    s!"{measured.discarded.length} confirmed {pairs} produced no difference that fits a focuser " ++
      s!"position{missing}"
  else s!"{missed} of {measured.sweeps.length} sweeps did not confirm{missing}"

/-! ## The arguments -/

/-- Every name is checked against the wheel, and one given twice is measured once. -/
def checkedNames (ctx : TrainContext Ω) : List String → List String → Except FocusModelError (List String)
  | [], wanted => .ok wanted
  | name :: names, wanted =>
      match ctx.checkFilter name with
      | .error e => .error e
      | .ok () => checkedNames ctx names (if name ∈ wanted then wanted else wanted ++ [name])

/-- The filters to measure: the argument when given, else the wheel's own list. -/
def requestedFilters (ctx : TrainContext Ω) (params : OffsetsParams) :
    Except FocusModelError (List String) :=
  match checkedNames ctx (params.filters.getD (ctx.filters.getD [])) [] with
  | .error e => .error e
  | .ok [] => .error (.Workflow s!"train '{ctx.trainId}' has no filter to measure")
  | .ok wanted => .ok wanted

/-- The reference: the argument, else the record's when the list holds it, else the first of the
list. -/
def referenceFilter (ctx : TrainContext Ω) (held : Option ρ) (params : OffsetsParams)
    (filters : List String) : Except FocusModelError String :=
  let inherited := (held.bind s.setup.referenceFilter).filter fun name => name ∈ filters
  match params.reference.or (inherited.or filters.head?) with
  | none => .error (.Workflow s!"train '{ctx.trainId}' has no filter to measure")
  | some reference =>
      match ctx.checkFilter reference with
      | .error e => .error e
      | .ok () =>
          if reference ∈ filters then .ok reference
          else .error (.Workflow
            (s!"reference '{reference}' is not in filters: " ++ ", ".intercalate filters))

/-- Every filter's sweep must be sizable before the first one moves. -/
def checkSizes (ctx : TrainContext Ω) (usable : Option ρ) : List String → Except FocusModelError Unit
  | [] => .ok ()
  | filter :: filters =>
      let train := s.setup.train ctx.trainId
      match s.setup.planSweep ctx train (some filter) usable with
      | .error e => .error e
      | .ok plan =>
          match (checkSpan plan.halfWidth plan.stepSize : Except (SweepFailure F) Unit) with
          | .error failure => .error (.Workflow failure.toString)
          | .ok () =>
              if ctx.guiding then
                match s.setup.leaseDuration ctx.trainId train plan with
                | .error e => .error e
                | .ok _ => checkSizes ctx usable filters
              else checkSizes ctx usable filters

/-- The arguments against a train and its record. -/
def resolveAgainst (ctx : TrainContext Ω) (wheel : String) (rounds : ℕ) (held : Option ρ)
    (params : OffsetsParams) : Except FocusModelError (OffsetsPlan Ω) := do
  let filters ← requestedFilters ctx params
  let reference ← referenceFilter s ctx held params filters
  if filters.all fun name => name = reference then
    .error (.Workflow s!"train '{ctx.trainId}' has no filter to measure against '{reference}'")
  else do
    checkSizes s ctx (s.setup.usable held ctx) filters
    .ok ⟨ctx, wheel, filters, reference, rounds, held.elim [] fun record => s.setup.staleFields record ctx,
      held.isNone⟩

/-- Resolve the train and check every argument against it. -/
def resolve (params : OffsetsParams) : Talk σ F Ω ρ (OffsetsPlan Ω) :=
  resolveTrain s params.trainId >>= fun ctx =>
  Traced.ofExcept ctx.checkTrainingRun >>= fun _ =>
    match ctx.filterWheelId with
    | none => Traced.halt (.Workflow
        s!"train '{ctx.trainId}' has no filter wheel; an offset is a difference between filters")
    | some wheel =>
        let rounds := params.rounds.getD DEFAULT_ROUNDS
        if rounds = 0 ∨ MAX_ROUNDS < rounds then
          Traced.halt (.Workflow s!"rounds must be between 1 and {MAX_ROUNDS}")
        else
          s.world.ask (.storeGet ctx.trainId) >>= fun (held : Option ρ) =>
            Traced.ofExcept (resolveAgainst s ctx wheel rounds held params)

/-- Read where the rig is, so the procedure can put it back there. -/
def startedState (plan : OffsetsPlan Ω) : Talk σ F Ω ρ Started :=
  s.world.ask (.getFilter .active plan.wheel) >>= fun (filter : Option String) =>
  s.world.ask (.getFocuserPosition .active plan.ctx.focuserId) >>= fun (position : FocuserPosition) =>
  Traced.ofExcept (withinTravel position) >>= fun _ => pure ⟨filter, position.position⟩

/-! ## The rounds -/

/-- Whether two wheels hold different filters, order disregarded. -/
def filterSetsDiffer : Option (List String) → Option (List String) → Bool
  | none, none => false
  | some recorded, some current => ¬recorded.Perm current
  | _, _ => true

/-- How the train differs from the one the call resolved. -/
def trainChanged (started now : TrainContext Ω) : Option String :=
  let note (what was now : String) : List String :=
    if was = now then [] else [s!"the {what} was '{was}' and is '{now}'"]
  let names (filters : Option (List String)) : String := filters.elim "none" fun f => ", ".intercalate f
  let changed := note "camera" started.cameraId now.cameraId ++
    note "focuser" started.focuserId now.focuserId ++
    note "filter wheel" (started.filterWheelId.getD "none") (now.filterWheelId.getD "none") ++
    if filterSetsDiffer started.filters now.filters then
      [s!"the filter set was '{names started.filters}' and is '{names now.filters}'"]
    else []
  if changed = [] then none else some ("; ".intercalate changed)

/-- The train is read again after each sweep: a rig that is no longer the same rig ends the
procedure. -/
def sameTrain (plan : OffsetsPlan Ω) : Talk σ F Ω ρ Unit :=
  resolveTrain s plan.ctx.trainId >>= fun now =>
    match trainChanged plan.ctx now with
    | none => pure ()
    | some changed => Traced.halt (.Workflow (s!"train '{plan.ctx.trainId}' changed under the " ++
        s!"procedure: {changed}; what it measured are differences through the rig it started on, and " ++
        "no offset is written from them"))

/-- What one sweep gave, or what ends the procedure. A sweep that did not fit is this filter's loss for
this round. -/
def sweepVerdict (round : ℕ) (filter : String) :
    Except FocusModelError (FocusTrainOutcome F) → Except FocusModelError (OffsetSweep F)
  | .ok outcome => .ok ⟨round, filter, outcome.swept.confirmed, some outcome.position,
      some outcome.swept.hfr, none, outcome.recorded.error⟩
  | .error (.Sweep message) => .ok ⟨round, filter, false, none, none, some message, none⟩
  | .error e => .error e

/-- One filter's sweep, and whether a pause is outstanding. -/
def oneSweep (plan : OffsetsPlan Ω) (round : ℕ) (filter : String) (outstanding : Bool) :
    Talk σ F Ω ρ (Except FocusModelError (OffsetSweep F) × Bool) :=
  focusOne s ⟨plan.ctx.trainId, some filter⟩ .Own outstanding >>= fun focused =>
    match sweepVerdict round filter focused.1 with
    | .error e => pure (.error e, focused.2)
    | .ok sweep =>
        Traced.attempt (sameTrain s plan) >>= fun
        | .error e => pure (.error e, focused.2)
        | .ok () => pure (.ok sweep, focused.2)

/-- Where a sweep confirmed, or nothing. -/
def confirmedAt {F : Type} (sweep : OffsetSweep F) : Option I32 :=
  if sweep.confirmed then sweep.position else none

/-- A difference that fits a focuser position. -/
def checkedSub (a b : I32) : Option I32 :=
  if h : -2147483648 ≤ a.val - b.val ∧ a.val - b.val ≤ 2147483647 then some ⟨_, h.1, h.2⟩ else none

/-- What a sweep adds to what was measured, and where the round's reference is. -/
def Measured.push {F : Type} (measured : Measured F) (reference : String) (referenceAt : Option I32)
    (sweep : OffsetSweep F) : Measured F × Option I32 :=
  let sweeps := measured.sweeps ++ [sweep]
  if sweep.filter = reference then
    let placed := confirmedAt sweep
    ({ measured with sweeps := sweeps, referencePlaced := measured.referencePlaced || placed.isSome },
      placed)
  else
    match referenceAt, confirmedAt sweep with
    | some origin, some position =>
        match checkedSub position origin with
        | some difference =>
            ({ measured with
                sweeps := sweeps, differences := measured.differences ++ [(sweep.filter, difference)] },
              referenceAt)
        | none =>
            ({ measured with sweeps := sweeps, discarded := measured.discarded ++ [sweep.filter] },
              referenceAt)
    | _, _ => ({ measured with sweeps := sweeps }, referenceAt)

/-- What the rounds leave: what was measured, what ended them, whether a pause is outstanding. -/
abbrev Rounds (F : Type) := Measured F × Option FocusModelError × Bool

/-- The rest of one round. -/
def sweepRound (plan : OffsetsPlan Ω) (round : ℕ) :
    List String → Option I32 → Measured F → Bool → Talk σ F Ω ρ (Rounds F)
  | [], _, measured, outstanding => pure (measured, none, outstanding)
  | filter :: filters, referenceAt, measured, outstanding =>
      oneSweep s plan round filter outstanding >>= fun
      | (.error e, outstanding) => pure (measured, some e, outstanding)
      | (.ok sweep, outstanding) =>
          let pushed := measured.push plan.reference referenceAt sweep
          sweepRound plan round filters pushed.2 pushed.1 outstanding

/-- The rest of the rounds. -/
def runRounds (plan : OffsetsPlan Ω) : List ℕ → Measured F → Bool → Talk σ F Ω ρ (Rounds F)
  | [], measured, outstanding => pure (measured, none, outstanding)
  | round :: rounds, measured, outstanding =>
      sweepRound s plan round plan.order none measured outstanding >>= fun
      | (measured, some fatal, outstanding) => pure (measured, some fatal, outstanding)
      | (measured, none, outstanding) => runRounds plan rounds measured outstanding

/-! ## The offsets -/

/-- The middle difference, or the mean of the two middles rounded away from zero. -/
def medianDifference (values : List I32) : Option I32 :=
  let sorted := values.insertionSort fun a b => a ≤ b
  match sorted[lowerMiddle sorted.length]?, sorted[sorted.length / 2]? with
  | some lower, some upper =>
      if lower = upper then some lower
      else
        let sum := lower.val + upper.val
        let away := if 0 ≤ sum then 1 else -1
        some (I32.clamp ((sum + away).tdiv 2))
  | _, _ => none

/-- The offsets: the median of each filter's differences, the reference at 0. -/
def offsetsFrom {F : Type} (measured : Measured F) (reference : String) : List (String × I32) :=
  (reference, I32.clamp 0) :: (measured.differences.map Prod.fst).eraseDups.filterMap fun filter =>
    (medianDifference ((measured.differences.filter fun d => d.1 = filter).map Prod.snd)).map
      fun offset => (filter, offset)

/-- Write the reference and the offsets onto the train's record. -/
def writeOffsets (plan : OffsetsPlan Ω) (offsets : List (String × I32)) :
    Talk σ F Ω ρ (List (String × I32) × OffsetsRecorded × String) :=
  Traced.attempt (s.world.ask (.writeOffsets plan.ctx.trainId plan.reference offsets)) >>= fun
  | .ok (written : OffsetsWritten) =>
      let model := if plan.enteringEmpty then "empty"
        else if plan.enteringStale ≠ [] then "reset: " ++ "; ".intercalate plan.enteringStale
        else written.model
      pure (written.offsets, ⟨true, written.dropped, some written.runs, none⟩, model)
  | .error e => pure (offsets, ⟨false, [], none, some e.toolMessage⟩, "unrecorded")

/-! ## The restore -/

/-- Move the focuser to `target` and prove it landed, trying again so many times. -/
def settleTries (focuserId : String) (target : I32) :
    ℕ → Option I32 → Talk σ F Ω ρ (Option I32 × Option String)
  | 0, last => pure (last, last.map fun place =>
      s!"the focuser settled at {place.val} instead of {target.val}")
  | tries + 1, _ =>
      Traced.attempt (s.world.ask (.moveFocuser .cleanup focuserId target none)) >>= fun
      | .ok (reached : I32) =>
          if reached = target then pure (some reached, none)
          else settleTries focuserId target tries (some reached)
      | .error e =>
          Traced.attempt (s.world.ask (.getFocuserPosition .cleanup focuserId)) >>= fun
          | .ok (read : FocuserPosition) => pure (none, some (s!"{e.toolMessage}; the focuser read " ++
              s!"back at {read.position.val} and may still be moving"))
          | .error _ => pure (none, some e.toolMessage)

/-- Reads to take while waiting for a focuser to stop changing. -/
def SETTLE_READS : ℕ := 20

/-- Wait for two agreeing reads, with so many left, and say how that went. -/
def waitUntilStill (focuserId : String) : ℕ → Option I32 → Bool → Talk σ F Ω ρ String
  | 0, _, unread =>
      pure (if unread then "the focuser could not be read in the 10s it was given to settle"
        else "the focuser was still moving 10s later")
  | reads + 1, last, _ =>
      Traced.attempt (s.world.ask (.getFocuserPosition .cleanup focuserId)) >>= fun
      | .ok (read : FocuserPosition) =>
          if last = some read.position then
            pure s!"the focuser came to rest at {read.position.val}"
          else waitUntilStill focuserId reads (some read.position) false
      | .error _ => waitUntilStill focuserId reads none true

/-- Add a note to the restore, keeping one already there. -/
def Restored.note (restored : Restored) (note : String) : Restored :=
  { restored with error := some (joinNotes restored.error note) }

/-- Put the filter back in the path: what is in it then. -/
def restoreFilter (plan : OffsetsPlan Ω) (started : Started) : Talk σ F Ω ρ Restored :=
  match started.filter with
  | none => pure ⟨none, none, none⟩
  | some name =>
      Traced.attempt (s.world.ask (.setFilter .cleanup plan.wheel name none)) >>= fun
      | .ok _ => pure ⟨some name, none, none⟩
      | .error e =>
          -- the wheel is wherever the last sweep left it, so it is read back
          Traced.attempt (s.world.ask (.getFilter .cleanup plan.wheel)) >>= fun
          | .ok (filter : Option String) => pure ⟨filter, none, some e.toolMessage⟩
          | .error _ => pure ⟨none, none, some e.toolMessage⟩

/-- Why the focuser was left where the last sweep put it. -/
def whyLeft (started : Started) (filter : Option String) : String :=
  match started.filter, filter with
  | none, _ => "the wheel named no filter when the call started, so there was nothing to put back in " ++
      "the path and the focuser was left where the last sweep put it"
  | some _, none => "the wheel would not turn back and the filter it holds could not be read, so the " ++
      "focuser was left where the last sweep put it"
  | some _, some name => s!"the wheel holds '{name}', which this call measured nothing through, so " ++
      "the focuser was left where the last sweep put it"

/-- Put the wheel and the focuser back, on the client a cancellation cannot reach. -/
def restore (plan : OffsetsPlan Ω) (started : Started) (measured : Measured F) :
    Talk σ F Ω ρ Restored :=
  restoreFilter s plan started >>= fun restored =>
    let restorable := started.filter.isSome ∧ restored.filter = started.filter
    let found := if restorable then some started.position else none
    match (restored.filter.bind measured.lastMeasured).or found with
    | some target =>
        settleTries s plan.ctx.focuserId target 2 none >>= fun settled =>
          let restored := { restored with position := settled.1 }
          match settled.2 with
          | none => pure restored
          | some failed =>
              waitUntilStill s plan.ctx.focuserId SETTLE_READS none false >>= fun waited =>
                pure ((restored.note failed).note waited)
    | none =>
        waitUntilStill s plan.ctx.focuserId SETTLE_READS none false >>= fun waited =>
          pure ((restored.note waited).note (whyLeft started restored.filter))

/-- The last chance to undo a pause no sweep could undo. -/
def resumeOutstanding (outstanding : Bool) (restored : Restored) : Talk σ F Ω ρ Restored :=
  if outstanding then
    Traced.attempt (s.world.ask (.resumeGuiding .cleanup)) >>= fun
    | .ok _ => pure restored
    | .error e => pure (restored.note s!"{GUIDING_NOT_RESUMED}: {e.toolMessage}")
  else pure restored

/-- A cancellation that lands after the last sweep still ends the procedure. -/
def lateCancellation : Option FocusModelError → Talk σ F Ω ρ (Option FocusModelError)
  | some fatal => pure (some fatal)
  | none => s.world.poll >>= fun cancelled =>
      pure (if cancelled then some (.Cancelled "the caller cancelled the procedure") else none)

/-- What a call that wrote nothing answers. -/
def offsetsError (plan : OffsetsPlan Ω) (measured : Measured F) (fatal : Option FocusModelError)
    (restored : Restored) : FocusModelError :=
  appendNote (match fatal with
    | none => .Workflow s!"no filter was measured against '{plan.reference}': {measured.shortfall}"
    | some error => appendStoreNote error measured.missingRuns) restored.error

/-- The `determine_filter_offsets` body. -/
def determineFilterOffsets (params : OffsetsParams) :
    Talk σ F Ω ρ (Except FocusModelError (OffsetsView F)) :=
  resolve s params >>= fun plan =>
  startedState s plan >>= fun started =>
  runRounds s plan ((List.range plan.rounds).map Nat.succ) .nothing false >>= fun walked =>
  lateCancellation s walked.2.1 >>= fun fatal =>
    let measured := walked.1
    let offsets := offsetsFrom measured plan.reference
    if fatal.isSome ∨ offsets.length ≤ 1 then
      restore s plan started measured >>= fun restored =>
      resumeOutstanding s walked.2.2 restored >>= fun restored =>
        pure (.error (offsetsError plan measured fatal restored))
    else
      writeOffsets s plan offsets >>= fun written =>
      restore s plan started measured >>= fun restored =>
        pure (.ok
          { trainId := plan.ctx.trainId, reference := plan.reference, rounds := plan.rounds,
            offsets := written.1, differences := measured.differences,
            unmeasured := (plan.filters.filter fun filter => filter ∉ offsets.map Prod.fst).map
              fun filter => (filter, measured.whyUnmeasured filter),
            sweeps := measured.sweeps, restored := restored, recorded := written.2.1,
            model := written.2.2 })

end RustyPhoton.FocusModel
