import Mathlib.Data.List.Infix
import RustyPhoton.FocusModel.Sweep

/-!
# The focus workflow

Train resolution, the body of `focus_train` with its prediction, sweep, guiding handshake and put-back,
and the shared-focuser walk. Everything is said to the rig on one of two clients: the `active` one,
whose calls the caller's cancellation reaches, and the `cleanup` one, whose calls it cannot. The sizing
of a sweep, its prediction and the texts of JSON values are parameters, and so are the optics and the
records that only these read.
-/

namespace RustyPhoton.FocusModel

open Lib

variable {σ F Ω ρ : Type} [F64 F]

/-- The text of an error. -/
def FocusModelError.toString : FocusModelError → String
  | .ToolCall message => "MCP tool call failed: " ++ message
  | .Workflow message => "workflow error: " ++ message
  | other => other.toolMessage

/-- Whether a text holds another. -/
def contains (text part : String) : Bool := decide (part.toList <:+: text.toList)

/-! ## What the rig reports -/

/-- The members and optics of a train. -/
structure TrainInfo (Ω : Type) where
  cameraId : Option String
  filterWheelId : Option String
  filters : Option (List String)
  terminalFocuserId : Option String
  terminalFocuserSharedWith : List String
  purpose : Option String
  optics : Ω

/-- Where the focuser is, the travel a move is held to, and the side moves arrive from. -/
structure FocuserPosition where
  position : I32
  minPosition : Option I32
  maxPosition : Option I32
  approach : Option String

def FocuserPosition.bounds (p : FocuserPosition) : Bounds := (p.minPosition, p.maxPosition)

/-- The walk order: the approach direction, ascending by default. -/
def FocuserPosition.direction (p : FocuserPosition) : Direction :=
  if p.approach = some "in" then .Descending else .Ascending

/-- One step of the refocus plan. -/
structure PlanStep where
  focuserId : String
  runTrainId : String
  metric : String
  deriving DecidableEq

def PlanStep.isGuide (step : PlanStep) : Bool := step.metric = "guide"

structure RefocusPlan where
  guideCoupled : Bool
  steps : List PlanStep

structure CaptureResult where
  documentId : String

/-- One star of a measured frame. -/
structure MeasuredStar (F : Type) where
  x : F
  y : F
  radius : F
  hfr : Option F

def MeasuredStar.listed {F : Type} (star : MeasuredStar F) : ListedStar F := ⟨star.x, star.y, star.radius⟩

structure StarMeasurement (F : Type) where
  hfr : Option F
  starCount : ℕ
  stars : List (MeasuredStar F)

structure GuideFocusResult (F : Type) where
  finalPosition : Option I32
  finalHfd : Option F
  confirmed : Option Bool

/-! ## What the store keeps -/

inductive RunOutcome where
  | Confirmed
  | Fallback
  | NotEnoughStars
  | MonotonicCurve
  | PoorFit
  | Cancelled
  | Error
  deriving DecidableEq

inductive SweepSource where
  | Derived
  | Configured
  | Mixed
  deriving DecidableEq

/-- The terms a prediction was made of. -/
structure PredictionTerms (F : Type) where
  lastGood : Option I32
  offset : Option I32
  temperature : Option F

/-- What was predicted, and what was done about it. -/
structure Prediction (F : Type) where
  fromPosition : I32
  start : Option I32
  terms : PredictionTerms F
  missing : List String
  moved : Bool
  skipped : Option String

/-- A sized sweep, as far as the workflow reads it. -/
structure SweepPlan where
  stepSize : I32
  halfWidth : I32
  points : ℕ
  source : SweepSource

/-- One focus run, successful or not. -/
structure FocusRun (F : Type) where
  startedAt : String
  filter : Option String
  outcome : RunOutcome
  error : Option String
  position : Option I32
  hfr : Option F
  bestPosition : Option I32
  bestHfr : Option F
  fitRSquared : Option F
  samplesUsed : Option ℕ
  attempts : Option ℕ
  wingSlope : Option F
  temperatureC : Option F
  stepSize : I32
  halfWidth : I32
  sweepSource : SweepSource
  prediction : Option (Prediction F)
  attemptsLog : List FailedAttempt
  reference : Option Reference
  curvePoints : List (CurvePoint F)

/-- A run that has everything but its measurement. -/
def FocusRun.fresh (startedAt : String) (filter : Option String) (outcome : RunOutcome)
    (plan : SweepPlan) : FocusRun F :=
  { startedAt := startedAt, filter := filter, outcome := outcome, error := none, position := none,
    hfr := none, bestPosition := none, bestHfr := none, fitRSquared := none, samplesUsed := none,
    attempts := none, wingSlope := none, temperatureC := none, stepSize := plan.stepSize,
    halfWidth := plan.halfWidth, sweepSource := plan.source, prediction := none, attemptsLog := [],
    reference := none, curvePoints := [] }

/-- Fill in what a completed sweep measured. -/
def FocusRun.withOutcome (run : FocusRun F) (outcome : SweepOutcome F) : FocusRun F :=
  { run with
    outcome := if outcome.confirmed then .Confirmed else .Fallback
    position := some outcome.position
    hfr := some outcome.hfr
    bestPosition := some outcome.bestPosition
    bestHfr := some outcome.bestHfr
    fitRSquared := some outcome.fitRSquared
    samplesUsed := some outcome.samplesUsed
    attempts := some outcome.attempts
    wingSlope := outcome.wingSlope
    attemptsLog := outcome.attemptsLog
    reference := some outcome.reference
    curvePoints := outcome.curvePoints }

/-! ## Calls -/

inductive Client where
  | active
  | cleanup
  deriving DecidableEq

/-- What the workflow asks of the rig and of the store. -/
inductive Call (F : Type) where
  | getTrainInfo (client : Client) (trainId : String)
  | getRefocusPlan (client : Client) (trainId : String)
  | getFocuserPosition (client : Client) (focuserId : String)
  | getFocuserTemperature (client : Client) (focuserId : String)
  | moveFocuser (client : Client) (focuserId : String) (position : I32) (leaseId : Option String)
  | getFilter (client : Client) (filterWheelId : String)
  | setFilter (client : Client) (filterWheelId filter : String) (leaseId : Option String)
  | capture (client : Client) (trainId : String) (duration : ℕ) (leaseId : Option String)
  | measureStars (client : Client) (documentId : String) (minArea maxArea : ℕ)
      (thresholdSigma : Option F) (stars : Option (List (ListedStar F)))
  | guidingActive (client : Client)
  | pauseGuiding (client : Client)
  | resumeGuiding (client : Client)
  | autoFocusGuideTrain (client : Client) (trainId : String)
  | acquireTrainLease (client : Client) (trainId leaseId : String) (maxDuration : ℕ)
  | releaseTrainLease (client : Client) (leaseId : String)
  | storeGet (trainId : String)
  | recordRun (trainId : String) (run : FocusRun F)
  | writeOffsets (trainId reference : String) (offsets : List (String × I32))

/-- What the store did with offsets: the record's offsets now, those it dropped, how many runs the
record holds and how it reads. -/
structure OffsetsWritten where
  offsets : List (String × I32)
  dropped : List String
  runs : ℕ
  model : String

/-- What a call answers when it does not fail. -/
@[reducible] def Call.Reply (Ω ρ : Type) {F : Type} : Call F → Type
  | .getTrainInfo _ _ => TrainInfo Ω
  | .getRefocusPlan _ _ => RefocusPlan
  | .getFocuserPosition _ _ => FocuserPosition
  | .getFocuserTemperature _ _ => Option F
  | .moveFocuser _ _ _ _ => I32
  | .getFilter _ _ => Option String
  | .setFilter _ _ _ _ => Unit
  | .capture _ _ _ _ => CaptureResult
  | .measureStars _ _ _ _ _ _ => StarMeasurement F
  | .guidingActive _ => Bool
  | .pauseGuiding _ => Unit
  | .resumeGuiding _ => Unit
  | .autoFocusGuideTrain _ _ => GuideFocusResult F
  | .acquireTrainLease _ _ _ _ => Unit
  | .releaseTrainLease _ _ => Bool
  | .storeGet _ => Option ρ
  | .recordRun _ _ => ℕ × String
  | .writeOffsets _ _ _ => OffsetsWritten

/-- A call with its answer, and whether it took effect if it failed; or a look at the cancellation. -/
inductive FocusEvent (F Ω ρ : Type) where
  | call (c : Call F) (answer : Except FocusModelError (c.Reply Ω ρ)) (took : Bool)
  | polled (cancelled : Bool)

/-- A rig and a store that behave as they like. -/
structure World (σ F Ω ρ : Type) where
  perform : (c : Call F) → σ → (Except FocusModelError (c.Reply Ω ρ) × Bool) × σ
  isCancelled : σ → Bool × σ
  now : σ → String × σ
  freshId : σ → String × σ

/-- A computation that talks to a world. -/
abbrev Talk (σ F Ω ρ : Type) := Traced σ FocusModelError (FocusEvent F Ω ρ)

def World.ask (w : World σ F Ω ρ) (c : Call F) : Talk σ F Ω ρ (c.Reply Ω ρ) :=
  Traced.call fun s =>
    ((w.perform c s).1.1, .call c (w.perform c s).1.1 (w.perform c s).1.2, (w.perform c s).2)

def World.poll (w : World σ F Ω ρ) : Talk σ F Ω ρ Bool :=
  Traced.call fun s => (.ok (w.isCancelled s).1, .polled (w.isCancelled s).1, (w.isCancelled s).2)

/-- What is read of the clock or drawn at random leaves no trace. -/
def silently (f : σ → String × σ) : Talk σ F Ω ρ String :=
  Traced.step fun s => ((f s).1, [], (f s).2)

/-! ## Configuration and trains -/

/-- One train's sweep configuration. -/
structure TrainConfig (F : Type) where
  duration : ℕ
  minArea : ℕ
  maxArea : ℕ
  thresholdSigma : Option F
  framesPerStep : ℕ
  minFitPoints : ℕ
  minFitRSquared : Option F
  confirmationTolerance : F
  maxAttempts : ℕ
  /-- A field that fails five sweeps is not going to fit on the sixth. -/
  maxAttempts_le : maxAttempts ≤ 5

/-- A train as the workflow sees it. -/
structure TrainContext (Ω : Type) where
  trainId : String
  cameraId : String
  focuserId : String
  filterWheelId : Option String
  filters : Option (List String)
  optics : Ω
  guiding : Bool
  focuserSharedWith : List String
  temperatureSensor : Option String

/-- The configuration of the service, and what the sizing, the prediction and the records answer. -/
structure Setup (F Ω ρ : Type) where
  train : String → TrainConfig F
  temperatureSensor : String → Option String
  fitHyperbola : FitHyperbola F
  /-- The sweep of a train through a filter, from a record that still holds. -/
  planSweep : TrainContext Ω → TrainConfig F → Option String → Option ρ → Except FocusModelError SweepPlan
  predict : Option ρ → Option String → I32 → Option F → Bounds → SweepPlan → Prediction F
  staleFields : ρ → TrainContext Ω → List String
  referenceFilter : ρ → Option String
  /-- How long a training run asks its lease for. -/
  leaseDuration : String → TrainConfig F → SweepPlan → Except FocusModelError ℕ
  attemptsLogJson : List FailedAttempt → String
  curvePointsJson : List (CurvePoint F) → String
  predictionJson : Prediction F → String

/-- The services one focus call reads, writes and puts back through. -/
structure Session (σ F Ω ρ : Type) where
  world : World σ F Ω ρ
  setup : Setup F Ω ρ

variable (s : Session σ F Ω ρ)

/-- Refuse a training run on a guiding train whose terminal focuser another train also has. -/
def TrainContext.checkTrainingRun (ctx : TrainContext Ω) : Except FocusModelError Unit :=
  if ¬ctx.guiding ∨ ctx.focuserSharedWith = [] then .ok ()
  else
    let names := ", ".intercalate (ctx.focuserSharedWith.map fun id => s!"'{id}'")
    let words := if ctx.focuserSharedWith.length = 1 then ("train", "whose sweep focuses it")
      else ("trains", "whose sweeps focus it")
    .error (.Workflow (s!"guiding train '{ctx.trainId}' has no focuser of its own: its terminal " ++
      s!"focuser '{ctx.focuserId}' is in {words.1} {names}, {words.2}"))

/-- Check a requested filter against the wheel. -/
def TrainContext.checkFilter (ctx : TrainContext Ω) (filter : String) : Except FocusModelError Unit :=
  match ctx.filterWheelId with
  | none => .error (.Workflow s!"train '{ctx.trainId}' has no filter wheel; do not pass filter")
  | some wheel =>
      let names := ctx.filters.getD []
      if filter ∈ names then .ok ()
      else .error (.Workflow (s!"filter '{filter}' is not on train '{ctx.trainId}' (wheel '{wheel}' " ++
        "has: " ++ ", ".intercalate names ++ ")"))

/-- Resolve a train, with the temperature sensor its config names. -/
def resolveTrain (trainId : String) : Talk σ F Ω ρ (TrainContext Ω) :=
  s.world.ask (.getTrainInfo .active trainId) >>= fun (info : TrainInfo Ω) =>
    match info.terminalFocuserId, info.cameraId with
    | none, _ => Traced.halt (.Workflow s!"train '{trainId}' has no terminal focuser")
    | some _, none => Traced.halt (.Workflow s!"train '{trainId}' has no camera")
    | some focuserId, some cameraId => pure
        { trainId := trainId, cameraId := cameraId, focuserId := focuserId,
          filterWheelId := info.filterWheelId, filters := info.filters, optics := info.optics,
          guiding := info.purpose = some "guiding", focuserSharedWith := info.terminalFocuserSharedWith,
          temperatureSensor := s.setup.temperatureSensor trainId }

/-! ## The sweep adapter -/

/-- The index of the lower of the two middles, for an even count. -/
def lowerMiddle (length : ℕ) : ℕ := (length - 1) / 2

def median (values : List F) : Option F :=
  (values.insertionSort fun a b => (F64.partialCmp a b).getD .eq ≠ .gt)[lowerMiddle values.length]?

def medianCount (values : List ℕ) : ℕ :=
  ((values.insertionSort fun a b => a ≤ b)[lowerMiddle values.length]?).getD 0

/-- What a sweep on a train moves and captures with. -/
structure RigSweep (F : Type) where
  trainId : String
  focuserId : String
  leaseId : Option String
  train : TrainConfig F

/-- The frames of one grid point that are still to be taken. -/
def measureFrames (sweep : RigSweep F) : ℕ → List (ListedStar F) → List F → List ℕ → String →
    Talk σ F Ω ρ (Measurement F × List (ListedStar F))
  | 0, list, hfrs, counts, documentId => pure (⟨median hfrs, medianCount counts, documentId⟩, list)
  | frames + 1, list, hfrs, counts, _ =>
      s.world.ask (.capture .active sweep.trainId sweep.train.duration sweep.leaseId) >>=
      fun (frame : CaptureResult) =>
        -- an empty list has nothing to measure; the frame is kept all the same
        if list.isEmpty then measureFrames sweep frames list hfrs counts frame.documentId
        else
          s.world.ask (.measureStars .active frame.documentId sweep.train.minArea sweep.train.maxArea
            sweep.train.thresholdSigma (some list)) >>= fun (measured : StarMeasurement F) =>
            let seen := if measured.stars.length = list.length then
              measured.stars.map MeasuredStar.listed else list
            match finiteHfr measured.hfr with
            | some hfr => measureFrames sweep frames seen (hfrs ++ [hfr]) (counts ++ [measured.starCount])
                frame.documentId
            | none => measureFrames sweep frames seen hfrs counts frame.documentId

/-- The reference frame of an attempt. -/
def referenceFrame (sweep : RigSweep F) : Talk σ F Ω ρ (ReferenceFrame F) :=
  s.world.ask (.capture .active sweep.trainId sweep.train.duration sweep.leaseId) >>=
  fun (frame : CaptureResult) =>
    s.world.ask (.measureStars .active frame.documentId sweep.train.minArea sweep.train.maxArea
      sweep.train.thresholdSigma none) >>= fun (measured : StarMeasurement F) =>
      pure ⟨frame.documentId, measured.stars.filterMap fun star =>
        (finiteHfr star.hfr).map fun hfr => ⟨star.x, star.y, star.radius, hfr⟩⟩

/-- The sweep's calls, on the active client. -/
def RigSweep.ops (sweep : RigSweep F) : SweepOps σ (FocusEvent F Ω ρ) F where
  moveFocuser position := s.world.ask (.moveFocuser .active sweep.focuserId position sweep.leaseId)
  reference := referenceFrame s sweep
  measure list := measureFrames s sweep sweep.train.framesPerStep list [] [] ""
  checkCancelled := s.world.poll >>= fun cancelled =>
    if cancelled then Traced.halt (.Cancelled "the caller cancelled the focus run") else pure ()

/-! ## Before anything moves -/

/-- The state a sweep starts from. -/
structure StartState (F : Type) where
  position : FocuserPosition
  temperatureC : Option F
  filter : Option String

/-- Whether the rig refused a call because it knows no such focuser. -/
def namesUnknownFocuser (error : FocusModelError) (focuserId : String) : Bool :=
  match error with
  | .ToolCall message => contains message s!"focuser not found: {focuserId}"
  | _ => false

/-- The train's temperature, of its own focuser or of the stand-in its config names. -/
def readTemperature (ctx : TrainContext Ω) : Talk σ F Ω ρ (Option F) :=
  Traced.attempt (s.world.ask (.getFocuserTemperature .active ctx.focuserId)) >>= fun
  | .error e => if e.isCancelled then Traced.halt e else pure none
  | .ok (own : Option F) =>
      match ctx.temperatureSensor, own with
      | none, own => pure own
      | some sensor, some reading => Traced.halt (.Workflow
          (s!"train '{ctx.trainId}' names temperature_sensor '{sensor}', but its own focuser " ++
          s!"'{ctx.focuserId}' reports a temperature ({F64.fixed 1 reading} °C): a session refocuses " ++
          "on that focuser's readings, so a stand-in would put its baseline on another sensor; remove " ++
          s!"trains.{ctx.trainId}.temperature_sensor from focus-model.json"))
      | some sensor, none =>
          Traced.attempt (s.world.ask (.getFocuserTemperature .active sensor)) >>= fun
          | .ok (reading : Option F) => pure reading
          | .error e =>
              if e.isCancelled then Traced.halt e
              else if namesUnknownFocuser e sensor then Traced.halt (.Workflow
                (s!"train '{ctx.trainId}' names temperature_sensor '{sensor}', which rp does not know " ++
                s!"({e.toolMessage}); name a focuser in rp's config, or remove " ++
                s!"trains.{ctx.trainId}.temperature_sensor from focus-model.json"))
              else pure none

/-- The filter the wheel reports, on a train that has one. -/
def readFilter (ctx : TrainContext Ω) : Talk σ F Ω ρ (Option String) :=
  match ctx.filterWheelId with
  | some wheel => s.world.ask (.getFilter .active wheel)
  | none => pure none

/-- Read the focuser and the wheel before anything moves. -/
def readStart (ctx : TrainContext Ω) : Talk σ F Ω ρ (StartState F) := do
  let position ← s.world.ask (.getFocuserPosition .active ctx.focuserId)
  let temperatureC ← readTemperature s ctx
  let filter ← readFilter s ctx
  pure ⟨position, temperatureC, filter⟩

/-- What the call resolved before anything moved. -/
structure Prepared (F Ω : Type) where
  ctx : TrainContext Ω
  start : StartState F
  filter : Option String
  train : TrainConfig F
  plan : SweepPlan
  prediction : Prediction F

/-- What a focus call asks for. -/
structure FocusTrainParams where
  trainId : String
  filter : Option String

/-- The sweep's filter: the argument when given, else what the wheel reports now. -/
def sweepFilter (ctx : TrainContext Ω) (params : FocusTrainParams) (start : StartState F) :
    Except FocusModelError (Option String) :=
  match params.filter with
  | some filter => (ctx.checkFilter filter).map fun _ => some filter
  | none => .ok start.filter

/-- A record that still describes the train. -/
def Setup.usable (setup : Setup F Ω ρ) (record : Option ρ) (ctx : TrainContext Ω) : Option ρ :=
  record.filter fun record => setup.staleFields record ctx = []

/-- Resolve the train, read the rig, load the record, size the sweep and predict its start. -/
def prepare (params : FocusTrainParams) : Talk σ F Ω ρ (Prepared F Ω) := do
  let ctx ← resolveTrain s params.trainId
  Traced.ofExcept ctx.checkTrainingRun
  let start ← readStart s ctx
  let filter ← Traced.ofExcept (sweepFilter ctx params start)
  let record ← s.world.ask (.storeGet ctx.trainId)
  let usable := s.setup.usable record ctx
  let train := s.setup.train ctx.trainId
  let plan ← Traced.ofExcept (s.setup.planSweep ctx train filter usable)
  pure ⟨ctx, start, filter, train, plan,
    s.setup.predict usable filter start.position.position start.temperatureC start.position.bounds plan⟩

/-- How the bounds read in a message. -/
def describeBounds (bounds : Bounds) : String :=
  let limitText (limit : Option I32) : String := limit.elim "-" fun p => toString p.val
  s!"[{limitText bounds.1}, {limitText bounds.2}]"

/-- Whether the put-back could reach the position the call started at. -/
def withinTravel (position : FocuserPosition) : Except FocusModelError Unit :=
  if inBounds position.bounds position.position then .ok ()
  else .error (.Workflow (s!"the focuser is at {position.position.val}, outside its configured travel " ++
    s!"{describeBounds position.bounds}; nothing was moved"))

/-- Where the sweep will be centred. -/
def plannedCentre (prepared : Prepared F Ω) : I32 :=
  match prepared.prediction.moved, prepared.prediction.start with
  | true, some start => start
  | _, _ => prepared.start.position.position

/-- The sweep parameters for one train. -/
def sweepParams (prepared : Prepared F Ω) : SweepParams F :=
  { stepSize := prepared.plan.stepSize, halfWidth := prepared.plan.halfWidth,
    minFitPoints := prepared.train.minFitPoints, minFitRSquared := prepared.train.minFitRSquared,
    confirmationTolerance := prepared.train.confirmationTolerance,
    maxAttempts := prepared.train.maxAttempts,
    maxAttempts_le := prepared.train.maxAttempts_le.trans (by decide),
    direction := prepared.start.position.direction,
    minPosition := prepared.start.position.minPosition,
    maxPosition := prepared.start.position.maxPosition }

/-! ## Recording and putting back -/

def GUIDING_NOT_RESUMED : String := "guiding could not be resumed"

def RUN_NOT_RECORDED : String := "the run could not be recorded"

/-- Write a failed run and say whether it landed. -/
def recordFailure (ctx : TrainContext Ω) (run : FocusRun F) : Talk σ F Ω ρ (Option String) :=
  Traced.attempt (s.world.ask (.recordRun ctx.trainId run)) >>= fun
  | .ok _ => pure none
  | .error e => pure (some s!"{RUN_NOT_RECORDED}: {e.toolMessage}")

/-- Name a run the store would not take beside the failure, keeping that failure's kind. -/
def appendStoreNote (error : FocusModelError) : Option String → FocusModelError
  | none => error
  | some note => match error with
      | .Cancelled reason => .Cancelled s!"{reason}; {note}"
      | .ToolCall message => .ToolCall s!"{message}; {note}"
      | .Sweep message => .Sweep s!"{message}; {note}"
      | other => .Workflow s!"{other.toolMessage}; {note}"

/-- Name a failed put-back, or a resume that did not land, beside the error that caused it. -/
def appendNote (error : FocusModelError) : Option String → FocusModelError
  | none => error
  | some note => match error with
      | .Cancelled reason => .Cancelled s!"{reason}; {note}"
      | other => .ToolCall s!"{other.toolMessage}; {note}"

/-- Stamp a failure onto the run the call will be remembered by. -/
def markFailed (run : FocusRun F) (error : FocusModelError) (prepared : Prepared F Ω) : FocusRun F :=
  { run with
    outcome := if error.isCancelled then .Cancelled else .Error
    error := some error.toolMessage
    temperatureC := prepared.start.temperatureC
    prediction := some prepared.prediction }

/-- A call that failed before anything moved. -/
def refuse (prepared : Prepared F Ω) (run : FocusRun F) (error : FocusModelError) :
    Talk σ F Ω ρ FocusModelError := do
  let note ← recordFailure s prepared.ctx (markFailed run error prepared)
  pure (appendStoreNote error note)

/-- What the body needs to put back if the sweep does not succeed. -/
structure Guard where
  focuserId : String
  startedAt : I32
  guidingPaused : Bool
  leaseId : Option String

/-- Whether the rig refused a call under a lease it no longer holds. -/
def isNotHeld (error : FocusModelError) (leaseId : String) : Bool :=
  match error with
  | .ToolCall message => contains message s!"lease '{leaseId}' is not held"
  | _ => false

/-- A put-back's move, under the run's lease; sent again without it when the lease is no longer
held. -/
def putBackMove (focuserId : String) (position : I32) (leaseId : Option String) : Talk σ F Ω ρ I32 :=
  Traced.attempt (s.world.ask (.moveFocuser .cleanup focuserId position leaseId)) >>= fun
  | .ok (reached : I32) => pure reached
  | .error e =>
      if leaseId.any fun id => isNotHeld e id then
        s.world.ask (.moveFocuser .cleanup focuserId position none)
      else Traced.halt e

/-- Move back to where the call found the focuser, and read it back to be sure, so many times. -/
def restoreTries (guard : Guard) : ℕ → Talk σ F Ω ρ Unit
  | 0 => Traced.halt (.Workflow s!"the focuser did not settle at {guard.startedAt.val}")
  | tries + 1 =>
      putBackMove s guard.focuserId guard.startedAt guard.leaseId >>= fun _ =>
      s.world.ask (.getFocuserPosition .cleanup guard.focuserId) >>= fun (seen : FocuserPosition) =>
        if seen.position = guard.startedAt then pure () else restoreTries guard tries

def Guard.restore (guard : Guard) : Talk σ F Ω ρ Unit := restoreTries s guard 2

/-- The note a put-back that did not land leaves. -/
def restoreNote (guard : Guard) (e : FocusModelError) : String :=
  s!"the focuser could not be restored to {guard.startedAt.val}: {e.toolMessage}"

/-- Two notes as one. -/
def joinNotes (first : Option String) (second : String) : String :=
  first.elim second fun first => s!"{first}; {second}"

/-- Move the focuser back and resume guiding, on the cleanup client: what could not be done, and
whether guiding is still paused. -/
def Guard.putBack (guard : Guard) : Talk σ F Ω ρ (Option String × Bool) :=
  Traced.attempt (guard.restore s) >>= fun restored =>
    let note := match restored with
      | .ok () => none
      | .error e => some (restoreNote guard e)
    if guard.guidingPaused then
      Traced.attempt (s.world.ask (.resumeGuiding .cleanup)) >>= fun
      | .ok _ => pure (note, false)
      | .error e => pure (some (joinNotes note s!"{GUIDING_NOT_RESUMED}: {e.toString}"), true)
    else pure (note, false)

/-- Put the focuser back, record the failed run and hand the failure to the caller. -/
def putBackAndRecord (guard : Guard) (ctx : TrainContext Ω) (run : FocusRun F)
    (error : FocusModelError) (outstanding : Bool) : Talk σ F Ω ρ (FocusModelError × Bool) := do
  let left ← guard.putBack s
  let storeNote ← recordFailure s ctx run
  pure (appendNote (appendStoreNote error storeNote) left.1, outstanding || left.2)

/-- A call that failed before the sweep: mark the run, put back, record. -/
def abandon (guard : Guard) (prepared : Prepared F Ω) (run : FocusRun F) (error : FocusModelError)
    (outstanding : Bool) : Talk σ F Ω ρ (FocusModelError × Bool) :=
  putBackAndRecord s guard prepared.ctx (markFailed run error prepared) error outstanding

/-! ## The handshake and the lease -/

/-- Pause guide corrections, for a coupling the caller has already read. -/
def pauseIfCoupled (guideCoupled : Bool) : Talk σ F Ω ρ Bool :=
  if guideCoupled then
    Traced.attempt (s.world.ask (.guidingActive .active)) >>= fun
    | .ok (running : Bool) =>
        if running then s.world.ask (.pauseGuiding .active) >>= fun _ => pure true
        else pure false
    -- the caller giving up is not a guider that could not be read
    | .error e => if e.isCancelled then Traced.halt e else pure false
  else pure false

/-- Pause guide corrections when the focuser is guide-coupled and the guider reports an active loop. -/
def pauseForSweep (ctx : TrainContext Ω) : Talk σ F Ω ρ Bool :=
  s.world.ask (.getRefocusPlan .active ctx.trainId) >>= fun (plan : RefocusPlan) =>
    pauseIfCoupled s plan.guideCoupled

/-- Release a training run's train lease; a release that fails is not raised. -/
def releaseLease (leaseId : String) : Talk σ F Ω ρ Unit :=
  Traced.attempt (s.world.ask (.releaseTrainLease .cleanup leaseId)) >>= fun _ => pure ()

/-- Take the train lease for a training run on the guiding train. An acquire that fails is released all
the same. -/
def takeLease (prepared : Prepared F Ω) : Talk σ F Ω ρ (Option String) :=
  if prepared.ctx.guiding then do
    let maxDuration ← Traced.ofExcept
      (s.setup.leaseDuration prepared.ctx.trainId prepared.train prepared.plan)
    let leaseId ← silently s.world.freshId
    Traced.attempt (s.world.ask (.acquireTrainLease .active prepared.ctx.trainId leaseId maxDuration)) >>=
      fun
      | .ok _ => pure (some leaseId)
      | .error e => releaseLease s leaseId >>= fun _ => Traced.halt e
  else pure none

/-! ## One train's sweep -/

/-- Who owns the guiding handshake around a sweep. -/
inductive Guiding where
  | Own
  | Held (paused : Bool)

/-- What the store did with a run. -/
structure Recorded where
  lastGoodUpdated : Bool
  runs : ℕ
  error : Option String

/-- One step of a shared walk, as the result reports it. -/
structure StepOutcome (F : Type) where
  focuserId : String
  runTrainId : String
  metric : String
  position : Option I32
  hfr : Option F
  confirmed : Option Bool

/-- The result of a focus call. -/
structure FocusTrainOutcome (F : Type) where
  trainId : String
  filter : Option String
  prediction : Prediction F
  sweep : SweepPlan
  swept : SweepOutcome F
  temperatureC : Option F
  guidingPaused : Bool
  recorded : Recorded
  model : String
  steps : Option (List (StepOutcome F))

/-- Where the focuser was left. -/
def FocusTrainOutcome.position {F : Type} (outcome : FocusTrainOutcome F) : I32 := outcome.swept.position

/-- Put the requested filter in the path. -/
def selectFilter (prepared : Prepared F Ω) (leaseId : Option String) : Talk σ F Ω ρ Unit :=
  match prepared.ctx.filterWheelId, prepared.filter with
  | some wheel, some name =>
      if prepared.start.filter ≠ some name then s.world.ask (.setFilter .active wheel name leaseId)
      else pure ()
  | _, _ => pure ()

/-- Move to the predicted start, when there is one worth moving to. -/
def moveToStart (prepared : Prepared F Ω) (leaseId : Option String) : Talk σ F Ω ρ I32 :=
  match prepared.prediction.moved, prepared.prediction.start with
  | true, some start => s.world.ask (.moveFocuser .active prepared.ctx.focuserId start leaseId)
  | _, _ => pure prepared.start.position.position

/-- Everything between the reads and the walk. -/
def approach (prepared : Prepared F Ω) (leaseId : Option String) : Talk σ F Ω ρ I32 := do
  let centre ← moveToStart s prepared leaseId
  selectFilter s prepared leaseId
  pure centre

/-- Resume the guiding this call paused, on the cleanup client. -/
def resumeAfter (guard : Guard) (position : I32) : Talk σ F Ω ρ Unit :=
  if guard.guidingPaused then
    Traced.attempt (s.world.ask (.resumeGuiding .cleanup)) >>= fun
    | .ok _ => pure ()
    | .error e => Traced.halt (.ToolCall
        (s!"the sweep finished at {position.val} but {GUIDING_NOT_RESUMED}: {e.toolMessage}"))
  else pure ()

/-- What a successful call reports of the store. -/
def recordedOrNot (confirmed : Bool) : Except FocusModelError (ℕ × String) → Recorded × String
  | .ok (runs, model) => (⟨confirmed, runs, none⟩, model)
  | .error e => (⟨false, 0, some e.toolMessage⟩, "unrecorded")

/-- A sweep that produced a position: resume guiding, record the run, answer. -/
def finishSuccess (guard : Guard) (prepared : Prepared F Ω) (runBase : FocusRun F)
    (outcome : SweepOutcome F) : Talk σ F Ω ρ (Except FocusModelError (FocusTrainOutcome F)) :=
  Traced.attempt (resumeAfter s guard outcome.position) >>= fun resumed =>
    let run : FocusRun F :=
      { runBase.withOutcome outcome with
        temperatureC := prepared.start.temperatureC
        prediction := some prepared.prediction
        error := match resumed with
          | .ok () => runBase.error
          | .error e => some e.toolMessage }
    Traced.attempt (s.world.ask (.recordRun prepared.ctx.trainId run)) >>=
    fun (recorded : Except FocusModelError (ℕ × String)) =>
      match resumed with
      | .error resume => pure (.error resume)
      | .ok () =>
          let told := recordedOrNot outcome.confirmed recorded
          pure (.ok
            { trainId := prepared.ctx.trainId, filter := prepared.filter,
              prediction := prepared.prediction, sweep := prepared.plan, swept := outcome,
              temperatureC := prepared.start.temperatureC, guidingPaused := guard.guidingPaused,
              recorded := told.1, model := told.2, steps := none })

/-- Fold the sweep's failure into the run being recorded and the error the caller sees. -/
def failureError (failure : SweepFailure F) (run : FocusRun F) (prediction : Prediction F) :
    FocusRun F × FocusModelError :=
  match failure with
  | .Fit error attempts attemptsLog reference curvePoints =>
      ({ run with
          outcome := match error.outcome with
            | .MonotonicCurve => .MonotonicCurve
            | .NotEnoughStars => .NotEnoughStars
            | .PoorFit => .PoorFit
          fitRSquared := error.fitRSquared
          attempts := some attempts
          attemptsLog := attemptsLog
          reference := reference
          curvePoints := curvePoints
          error := some error.toString },
        .Sweep (s!"{error.toString}; attempts: {attempts}; attempts_log: " ++
          s!"{s.setup.attemptsLogJson attemptsLog}; prediction: {s.setup.predictionJson prediction}; " ++
          s!"curve_points: {s.setup.curvePointsJson curvePoints}"))
  | .Grid message => ({ run with outcome := .Error, error := some message }, .Sweep message)
  | .Rig error attemptsLog reference curvePoints =>
      ({ run with
          outcome := if error.isCancelled then .Cancelled else .Error
          error := some error.toolMessage
          attemptsLog := attemptsLog
          reference := reference
          curvePoints := curvePoints },
        match error with
        | .Cancelled reason => .Cancelled reason
        | other => .ToolCall other.toolMessage)

/-- The text of a failed sweep. -/
def SweepFailure.toString : SweepFailure F → String
  | .Fit error _ _ _ _ => error.toString
  | .Grid message => message
  | .Rig error _ _ _ => error.toString

/-- The sweep of a prepared call. -/
def Prepared.rigSweep (prepared : Prepared F Ω) (leaseId : Option String) : RigSweep F :=
  ⟨prepared.ctx.trainId, prepared.ctx.focuserId, leaseId, prepared.train⟩

/-- The walk, and what it ends in. -/
def sweepGuarded (guard : Guard) (prepared : Prepared F Ω) (runBase : FocusRun F)
    (leaseId : Option String) (centre : I32) (outstanding : Bool) :
    Talk σ F Ω ρ (Except FocusModelError (FocusTrainOutcome F) × Bool) :=
  runSweep ((prepared.rigSweep leaseId).ops s) s.setup.fitHyperbola centre (sweepParams prepared) >>= fun
  | .ok outcome =>
      finishSuccess s guard prepared runBase outcome >>= fun finished =>
        -- the one exit with no put-back: its error is the pause it left behind
        match finished with
        | .ok outcome => pure (.ok outcome, outstanding)
        | .error e => pure (.error e, outstanding || guard.guidingPaused)
  | .error failure =>
      let run := { runBase with
        temperatureC := prepared.start.temperatureC, prediction := some prepared.prediction }
      let failed := failureError s failure run prepared.prediction
      putBackAndRecord s guard prepared.ctx failed.1 failed.2 outstanding >>= fun left =>
        pure (.error left.1, left.2)

/-- The handshake as its owner makes it. -/
def handshake (ctx : TrainContext Ω) : Guiding → Talk σ F Ω ρ Bool
  | .Own => pauseForSweep s ctx
  | .Held paused => pure paused

/-- Whether the call owns the handshake. -/
def Guiding.owned : Guiding → Bool
  | .Own => true
  | .Held _ => false

/-- The sweep after its refusals and its lease. -/
def sweepPrepared (prepared : Prepared F Ω) (runBase : FocusRun F) (guiding : Guiding)
    (leaseId : Option String) (outstanding : Bool) :
    Talk σ F Ω ρ (Except FocusModelError (FocusTrainOutcome F) × Bool) :=
  Traced.attempt (handshake s prepared.ctx guiding) >>= fun
  -- nothing has moved and nothing was paused
  | .error e => refuse s prepared runBase e >>= fun e => pure (.error e, outstanding)
  | .ok guidingPaused =>
      let guard : Guard := ⟨prepared.ctx.focuserId, prepared.start.position.position,
        guidingPaused && guiding.owned, leaseId⟩
      Traced.attempt (approach s prepared leaseId) >>= fun
      | .error e => abandon s guard prepared runBase e outstanding >>= fun left =>
          pure (.error left.1, left.2)
      | .ok centre => sweepGuarded s guard prepared runBase leaseId centre outstanding

/-- After the put-back, whatever the sweep did. -/
def releaseTaken : Option String → Talk σ F Ω ρ Unit
  | some leaseId => releaseLease s leaseId
  | none => pure ()

/-- A prepared call: its refusals, its lease, its sweep. -/
def focusPrepared (prepared : Prepared F Ω) (guiding : Guiding) (outstanding : Bool) :
    Talk σ F Ω ρ (Except FocusModelError (FocusTrainOutcome F) × Bool) :=
  silently s.world.now >>= fun now =>
    let runBase : FocusRun F := .fresh now prepared.filter .Error prepared.plan
    let refused (e : FocusModelError) : Talk σ F Ω ρ (Except FocusModelError (FocusTrainOutcome F) × Bool) :=
      refuse s prepared runBase e >>= fun e => pure (.error e, outstanding)
    match withinTravel prepared.start.position with
    | .error e => refused e
    | .ok () =>
        match checkGrid (plannedCentre prepared) (sweepParams prepared) with
        | .error failure => refused (.Sweep failure.toString)
        | .ok () =>
            Traced.attempt (takeLease s prepared) >>= fun
            | .error e => refused e
            | .ok leaseId =>
                sweepPrepared s prepared runBase guiding leaseId outstanding >>= fun swept =>
                releaseTaken s leaseId >>= fun _ => pure swept

/-- One train's sweep: prepare, approach, walk, record; and whether a pause is outstanding. -/
def focusOne (params : FocusTrainParams) (guiding : Guiding) (outstanding : Bool) :
    Talk σ F Ω ρ (Except FocusModelError (FocusTrainOutcome F) × Bool) :=
  Traced.attempt (prepare s params) >>= fun
  | .error e => pure (.error e, outstanding)
  | .ok prepared => focusPrepared s prepared guiding outstanding

/-- The `focus_train` body. -/
def focusTrain (params : FocusTrainParams) :
    Talk σ F Ω ρ (Except FocusModelError (FocusTrainOutcome F)) :=
  focusOne s params .Own false >>= fun focused => pure focused.1

/-! ## The shared walk -/

/-- A plan whose only step is the guiding metric sweep. -/
def noCaptureStep (trainId : String) : FocusModelError :=
  .Workflow s!"train '{trainId}' has no capture step to focus"

/-- Refuse a plan with a capture step a sweep cannot measure, before anything pauses or moves. -/
def checkCaptureSteps (trainId : String) : List PlanStep → Talk σ F Ω ρ Unit
  | [] => pure ()
  | step :: steps =>
      if step.isGuide then checkCaptureSteps trainId steps
      else
        s.world.ask (.getTrainInfo .active step.runTrainId) >>= fun (info : TrainInfo Ω) =>
          if info.terminalFocuserId = some step.focuserId then checkCaptureSteps trainId steps
          else Traced.halt (.Workflow (s!"train '{trainId}' has a plan step this provider cannot " ++
            s!"sweep: focuser '{step.focuserId}' in train '{step.runTrainId}', whose sweep moves " ++
            "'" ++ info.terminalFocuserId.getD "no focuser" ++ "'"))

/-- Resume the walk's guiding pause on the cleanup client; it is only cleared when the resume lands. -/
def releaseGuiding (paused : Bool) (occasion : String) : Talk σ F Ω ρ (Except FocusModelError Unit × Bool) :=
  if paused then
    Traced.attempt (s.world.ask (.resumeGuiding .cleanup)) >>= fun
    | .ok _ => pure (.ok (), false)
    | .error e => pure (.error (.ToolCall s!"{GUIDING_NOT_RESUMED} {occasion}: {e.toolMessage}"), true)
  else pure (.ok (), false)

/-- What a walk brings back, and whether its pause is still held. -/
abbrev Walked (F : Type) :=
  Except FocusModelError (List (StepOutcome F) × Option (FocusTrainOutcome F)) × Bool

/-- The rest of the plan's steps, under the walk's guiding pause. -/
def walkPlan (params : FocusTrainParams) : List PlanStep → Bool → List (StepOutcome F) →
    Option (FocusTrainOutcome F) → Talk σ F Ω ρ (Walked F)
  | [], paused, steps, last => pure (.ok (steps, last), paused)
  | step :: plan, paused, steps, last =>
      if step.isGuide then
        releaseGuiding s paused "before the guide step" >>= fun
        | (.error e, paused) => pure (.error e, paused)
        | (.ok (), paused) =>
            Traced.attempt (s.world.ask (.autoFocusGuideTrain .active step.runTrainId)) >>= fun
            | .error e => pure (.error e, paused)
            | .ok (guide : GuideFocusResult F) =>
                walkPlan params plan paused (steps ++ [⟨step.focuserId, step.runTrainId, step.metric,
                  guide.finalPosition, guide.finalHfd, guide.confirmed⟩]) last
      else
        focusOne s ⟨step.runTrainId, params.filter⟩ (.Held paused) false >>= fun
        | (.error e, _) => pure (.error e, paused)
        | (.ok outcome, _) =>
            walkPlan params plan paused (steps ++ [⟨step.focuserId, step.runTrainId, step.metric,
              some outcome.position, some outcome.swept.hfr, some outcome.swept.confirmed⟩]) (some outcome)

/-- What a finished walk answers. -/
def sharedOutcome (params : FocusTrainParams) (walkedPaused : Bool) (steps : List (StepOutcome F)) :
    Option (FocusTrainOutcome F) → Except FocusModelError (FocusTrainOutcome F)
  | none => .error (noCaptureStep params.trainId)
  | some outcome => .ok { outcome with
      trainId := params.trainId, guidingPaused := walkedPaused, steps := some steps }

/-- A walk's answer beside its last resume. -/
def joinResume {α : Type} (answer : Except FocusModelError α) (resumed : Except FocusModelError Unit) :
    Except FocusModelError α :=
  match answer, resumed with
  | .error e, .ok () => .error e
  | .error e, .error resume => .error (appendNote e (some resume.toolMessage))
  | .ok _, .error resume => .error resume
  | .ok a, .ok () => .ok a

/-- Walk the refocus plan for the train: a full sweep per capture step, the guiding step through the
rig's own metric sweep, under one guiding pause. -/
def focusShared (params : FocusTrainParams) :
    Talk σ F Ω ρ (Except FocusModelError (FocusTrainOutcome F)) :=
  s.world.ask (.getRefocusPlan .active params.trainId) >>= fun (plan : RefocusPlan) =>
    if plan.steps.all PlanStep.isGuide then pure (.error (noCaptureStep params.trainId))
    else
      checkCaptureSteps s params.trainId plan.steps >>= fun _ =>
      pauseIfCoupled s plan.guideCoupled >>= fun paused =>
      walkPlan s params plan.steps paused [] none >>= fun walked =>
      releaseGuiding s walked.2 "after the shared walk" >>= fun resumed =>
        pure (joinResume (walked.1.bind fun done => sharedOutcome params paused done.1 done.2) resumed.1)

end RustyPhoton.FocusModel
