import RustyPhoton.Phd2Guider.GuiderOps

/-!
# Steps of the tasks

What each task of the guider does at a step, as a function of the instant, of its own number and of
what it waited for. `none` is where a task does not take an input: the lock is not free, or a timer
has not run out.
-/

namespace RustyPhoton.Phd2Guider

open Lib

/-- Whether an instant that may lie beyond the clock's range has come. -/
def hasPassed (now : Nat) : Option Nat → Bool
  | some deadline => decide (deadline ≤ now)
  | none => false

/-- An instant after a duration. Where it cannot be written it is now. -/
def later (now duration : Nat) : Nat := (checkedAdd now duration).getD now

/-- A duration in whole milliseconds. -/
def wholeMs (duration : Nat) : Nat := min (duration / 1000000) u64Max * 1000000

namespace GuiderOps

/-- A step that takes a task to its next stage. -/
def go (ops : GuiderOps) (task : Task) : Advance := ⟨ops, task, .quiet, []⟩

/-- A task is done with the lock. -/
def leave (ops : GuiderOps) (outcome : Outcome) : Advance := ops.unlock.go (.done outcome)

variable (rfc3339 : Nat → String) (wall : Nat → Nat → String) (grace stopTimeout : Nat)
  (stopTimeoutText : String)

/-- `lock_while_stopped`: the stage that follows, or how it ends. -/
def lockWhileStopped (ops : GuiderOps) (now task : Nat) (stage : StoppedLock) (input : TaskInput) :
    Option (GuiderOps × (StoppedLock ⊕ Except StoppedLockError Unit)) :=
  match stage, input with
  | .trying, .next =>
      match ops.tryLock task with
      | none => some (ops, .inr (.error .busy))
      | some ops => some (ops, .inl .checkingSlot)
  | .checkingSlot, .next =>
      match ops.captureClaim now with
      | some claim => some (ops.unlock, .inr (.error (.capturing claim)))
      | none => some (ops, .inl .asking)
  | .asking, .next => some (ops, .inl .awaiting)
  | .awaiting, .state (.error failure) => some (ops.unlock, .inr (.error (.rpc failure)))
  | .awaiting, .state (.ok state) =>
      if state = .stopped then some (ops, .inr (.ok ()))
      else some (ops.unlock, .inr (.error (.notStopped state)))
  | .awaiting, .elapsed =>
      some (ops.unlock, .inr (.error (.rpc (.unreachable "PHD2 did not answer get_app_state"))))
  | _, _ => none

/-- The mutating operations, with both halves of `refuse_while_camera_held`. -/
def mutate (ops : GuiderOps) (now task : Nat) (operation : Mutation) (stage : MutationStage)
    (input : TaskInput) : Option Advance :=
  let refuse (ops : GuiderOps) (e : ServiceError) := ops.leave (.mutation (.error e))
  match stage, input with
  | .waiting, .next => do
      let ops ← ops.tryLock task
      pure (ops.go (.mutation operation .checkingSlot))
  | .checkingSlot, .next =>
      match ops.captureClaim now with
      | some claim =>
          some (refuse ops (.cameraBusy (claimHeld rfc3339 claim ++
            "; guiding operations are refused until it ends")))
      | none => some (ops.go (.mutation operation .checkingLease))
  | .checkingLease, .next => some (ops.go (.mutation operation (.askingLease now)))
  | .askingLease asked, .next =>
      let (heldUntil, book) := ops.lease.heldUntil asked
      let ops := { ops with lease := book }
      match heldUntil with
      | some expires =>
          some (refuse ops (.cameraBusy ("the camera facade's sweep lease is held; guiding " ++
            "operations are refused until it is released or ends, by " ++ wall expires asked ++
            " unless it is renewed")))
      | none => some (ops.go (.mutation operation (.sending operation.first)))
  | .sending rpc, .next => some ⟨ops, .mutation operation (.awaiting rpc), .mutationRpc, []⟩
  | .awaiting .getAppState, .polled (.error e) => some (refuse ops e)
  | .awaiting .getAppState, .polled (.ok state) =>
      if state = .guiding then some (ops.go (.mutation operation (.sending .command)))
      else some (refuse ops (.notGuiding state.text))
  | .awaiting .command, .acknowledged (.error e) => some (refuse ops e)
  | .awaiting .command, .acknowledged (.ok ()) =>
      if operation.settles then some (ops.go (.mutation operation .settling))
      else some (ops.leave (.mutation (.ok ())))
  | .settling, .settled settleEnd => some (ops.leave (.mutation settleEnd.result))
  | _, _ => none

/-- `stop`. -/
def stop (ops : GuiderOps) (now task : Nat) (stage : StopStage) (input : TaskInput) :
    Option Advance :=
  match stage, input with
  | .waiting, .next => do
      let ops ← ops.tryLock task
      pure (ops.go (.stop .endingLease))
  | .endingLease, .next => some ((ops.endLease .stopped now).go (.stop .asking))
  | .asking, .next => some (ops.go (.stop .awaiting))
  | .awaiting, .polled (.error e) | .awaitingPoll _, .polled (.error e)
  | .stopping, .acknowledged (.error e) => some (ops.leave (.stop (.error e)))
  | .awaiting, .polled (.ok state) => some (ops.go (.stop (.deciding state)))
  | .deciding state, .next =>
      if ((ops.captureClaim now).filter fun claim => !claim.recovered).isSome then
        some (ops.go (.stop .marking))
      else if state = .stopped then some (ops.leave (.stop (.ok ())))
      else some (ops.go (.stop .sending))
  | .marking, .next => some (ops.markCaptureStopped.go (.stop .sending))
  | .sending, .next => some (ops.go (.stop .stopping))
  | .stopping, .acknowledged (.ok ()) =>
      some (ops.go (.stop (.polling (checkedAdd now stopTimeout))))
  | .polling deadline, .elapsed => some (ops.go (.stop (.awaitingPoll deadline)))
  | .awaitingPoll deadline, .polled (.ok state) =>
      if state = .stopped then some (ops.leave (.stop (.ok ())))
      else if hasPassed now deadline then
        some (ops.leave (.stop (.error (.stopTimeout stopTimeoutText))))
      else some (ops.go (.stop (.polling deadline)))
  | _, _ => none

/-- `CaptureEngine::start`, with `settle_request` at its end. -/
def startCapture (ops : GuiderOps) (now task exposureMs : Nat) (stage : CaptureStage)
    (input : TaskInput) : Option Advance :=
  match stage, input with
  | .locking stage, input => do
      let (ops, after) ← ops.lockWhileStopped now task stage input
      match after with
      | .inl stage => pure (ops.go (.capture exposureMs (.locking stage)))
      | .inr (.error e) => pure (ops.go (.done (.capture (.error (e.startError rfc3339)))))
      | .inr (.ok ()) => pure (ops.go (.capture exposureMs .marking))
  | .marking, .marker path wallNow written =>
      let total := min (exposureMs * 1000000 + grace) durationMax
      match written with
      | .error reason => some (ops.leave (.capture (.error (.marker path reason))))
      | .ok () =>
          some (ops.go (.capture exposureMs (.claiming path (later now total) (wallNow + total))))
  | .claiming path expires deadline, .next =>
      some ⟨ops.claimCapture ⟨path, expires, deadline, false, false⟩,
        .capture exposureMs (.requesting path expires), .captureGranted, []⟩
  | .requesting path expires, .next =>
      some (ops.go (.capture exposureMs (.awaiting path expires)))
  | .awaiting path expires, .captured .accepted =>
      some ⟨ops.unlock, .done (.capture (.ok ())), .quiet, [.wait path expires now]⟩
  | .awaiting path _, .captured (.settled failure) =>
      some ((ops.releaseCapture path).leave (.capture (.error (startErrorOf failure))))
  | .awaiting path expires, .captured (.unanswered message) =>
      some ⟨ops.unlock, .done (.capture (.error (.unconfirmed message))), .quiet,
        [.wait path expires now]⟩
  | _, _ => none

/-- `CaptureEngine::wait`, up to `finish_claim`. -/
def wait (ops : GuiderOps) (now : Nat) (path : String) (expires started : Nat)
    (input : TaskInput) : Option Advance :=
  match input with
  | .reported true _ => some (ops.go (.finishing path (.frame .saved)))
  | .reported false error =>
      let stopped := (ops.captureClaim now).any fun claim =>
        claim.path = path && claim.stopRequested
      some (ops.go (.finishing path (.frame (.failed (error.getD "no reason given") stopped))))
  | .elapsed =>
      if expires ≤ now then
        some ((ops.abandon path).go
          (.finishing path (.frame (.notReported (wholeMs (now - started))))))
      else none
  | _ => none

/-- `CaptureEngine::abort`. -/
def abort (ops : GuiderOps) (now task : Nat) (path : String) (limit : Nat) (stage : AbortStage)
    (input : TaskInput) : Option Advance :=
  match stage, input with
  | .waiting, .next => do
      let ops ← ops.tryLock task
      pure (ops.go (.abort path limit .checking))
  | .checking, .next =>
      if (ops.captureClaim now).any fun claim => claim.path = path && !claim.recovered then
        some (ops.markCaptureStopped.go (.abort path limit .sending))
      else some (ops.leave (.aborted true))
  | .sending, .next => some (ops.go (.abort path limit .awaiting))
  | .awaiting, .acknowledged _ | .awaiting, .elapsed =>
      some (ops.unlock.go (.abort path limit (.releasing (checkedAdd now limit))))
  | .releasing _, .next =>
      if ops.captureReleased path then some (ops.go (.done (.aborted true))) else none
  | .releasing deadline, .elapsed =>
      if hasPassed now deadline then some (ops.go (.done (.aborted false))) else none
  | _, _ => none

/-- `acquire_lease`. -/
def acquire (ops : GuiderOps) (now task : Nat) (request : AcquireRequest) (stage : AcquireStage)
    (input : TaskInput) : Option Advance :=
  match stage, input with
  | .checking, .next =>
      match ops.lease.checkGrant wall request.token now with
      | (.error refusal, book) =>
          some ({ ops with lease := book }.go (.done (.acquire (.error (.refused refusal)))))
      | (.ok (), book) => some ({ ops with lease := book }.go (.acquire request (.locking .trying)))
  | .locking stage, input => do
      let (ops, after) ← ops.lockWhileStopped now task stage input
      match after with
      | .inl stage => pure (ops.go (.acquire request (.locking stage)))
      | .inr (.error e) => pure (ops.go (.done (.acquire (.error (e.leaseError rfc3339)))))
      | .inr (.ok ()) => pure (ops.go (.acquire request .granting))
  | .granting, .next =>
      match ops.lease.grant wall request.token request.ttlS now with
      | (.error refusal, book) =>
          some ({ ops with lease := book }.leave (.acquire (.error (.refused refusal))))
      | (.ok granted, book) =>
          some ⟨{ ops with lease := book }.unlock, .done (.acquire (.ok granted)),
            .leaseGranted request.token, []⟩
  | _, _ => none

/-- `on_late_report`, of one of the facade's own frames. -/
def onLateReport (ops : GuiderOps) (now : Nat) (path : String) : Advance :=
  if path ∈ ops.abandoned then { ops with abandoned := ops.abandoned.erase path }.go (.done .nothing)
  else if (ops.captureClaim now).any fun claim => claim.path = path && claim.recovered then
    ops.go (.finishing path .nothing)
  else ops.go (.done .nothing)

/-- `CaptureEngine::shutdown`. -/
def shutdown (ops : GuiderOps) (now : Nat) : Advance :=
  match ops.captureClaim now with
  | none => ops.go (.done .nothing)
  | some claim =>
      if claim.recovered then ops.go (.done .nothing)
      else ops.go (.abort claim.path grace .waiting)

/-- A step of a task. -/
def advance (ops : GuiderOps) (now task : Nat) (stage : Task) (input : TaskInput) :
    Option Advance :=
  match stage, input with
  | .mutation operation stage, input => ops.mutate rfc3339 wall now task operation stage input
  | .stop stage, input => ops.stop stopTimeout stopTimeoutText now task stage input
  | .capture exposureMs stage, input =>
      ops.startCapture rfc3339 grace now task exposureMs stage input
  | .wait path expires started, input => ops.wait now path expires started input
  | .finishing path outcome, .next => do
      let ops ← ops.tryLock task
      pure (ops.go (.ending path outcome))
  | .ending path outcome, .next => some ((ops.releaseCapture path).leave outcome)
  | .abort path limit stage, input => ops.abort now task path limit stage input
  | .lateReport path, .next => some (ops.onLateReport now path)
  | .recovering path expires deadline, .next => do
      let ops ← ops.tryLock task
      pure (ops.go (.recovered path expires deadline))
  | .recovered path expires deadline, .next =>
      some ⟨(ops.claimCapture ⟨path, expires, deadline, false, true⟩).unlock, .done .nothing,
        .captureGranted, [.watchRecovered path expires]⟩
  | .watchRecovered path _, .next =>
      if ops.captureReleased path then some (ops.go (.done .nothing)) else none
  | .watchRecovered path expires, .elapsed =>
      if expires ≤ now then some (ops.go (.finishing path .nothing)) else none
  | .shutdown, .next => some (ops.shutdown grace now)
  | .acquire request stage, input => ops.acquire rfc3339 wall now task request stage input
  | _, _ => none

end GuiderOps

/-- What starts a task. -/
inductive TaskRequest where
  | mutation (operation : Mutation)
  | stop
  | capture (exposureMs : Nat)
  | abort (path : String) (limit : Nat)
  | acquire (request : AcquireRequest)
  | lateReport (path : String)
  /-- A restart marker's frame, with the time it has left. -/
  | recover (path : String) (left deadline : Nat)
  | shutdown

def TaskRequest.task (request : TaskRequest) (now : Nat) : Task :=
  match request with
  | .mutation operation => .mutation operation .waiting
  | .stop => .stop .waiting
  | .capture exposureMs => .capture exposureMs (.locking .trying)
  | .abort path limit => .abort path limit .waiting
  | .acquire request => .acquire request .checking
  | .lateReport path => .lateReport path
  | .recover path left deadline => .recovering path (later now left) deadline
  | .shutdown => .shutdown

inductive GuiderEvent where
  | tick (elapsed : Nat)
  | spawn (request : TaskRequest)
  | advance (task : Nat) (input : TaskInput)
  /-- A task is dropped with the lock it may hold, as one whose client has gone is. -/
  | drop (task : Nat)
  | renew (token : Token)
  | release (token : Token)
  | disconnect

namespace Guider

def new : Guider := ⟨0, .new, []⟩

variable (rfc3339 : Nat → String) (wall : Nat → Nat → String) (grace stopTimeout : Nat)
  (stopTimeoutText : String)

def step (s : Guider) : GuiderEvent → Option (Effect × Guider)
  | .tick elapsed => some (.quiet, { s with clock := s.clock + elapsed })
  | .spawn request =>
      some (.quiet, { s with tasks := s.tasks ++ [request.task s.clock] })
  | .advance task input => do
      let stage ← s.tasks[task]?
      let after ← s.ops.advance rfc3339 wall grace stopTimeout stopTimeoutText s.clock task stage
        input
      pure (after.effect,
        { s with ops := after.ops, tasks := s.tasks.set task after.task ++ after.spawned })
  | .drop task =>
      some (.quiet,
        { s with
          ops := if s.ops.opLock = some task then s.ops.unlock else s.ops
          tasks := s.tasks.set task (.done .nothing) })
  | .renew token =>
      match s.ops.lease.renew wall token s.clock with
      | (.ok _, book) => some (.leaseRenewed token, { s with ops := { s.ops with lease := book } })
      | (.error _, book) => some (.quiet, { s with ops := { s.ops with lease := book } })
  | .release token =>
      some (.quiet,
        { s with ops := { s.ops with lease := (s.ops.lease.release token s.clock).2 } })
  | .disconnect => some (.quiet, { s with ops := s.ops.endLease .disconnected s.clock })

/-- A run, with what its steps do. -/
def run (s : Guider) : List GuiderEvent → Option (List Effect × Guider)
  | [] => some ([], s)
  | event :: rest => do
      let (effect, s) ← s.step rfc3339 wall grace stopTimeout stopTimeoutText event
      let (effects, s) ← s.run rest
      pure (effect :: effects, s)

end Guider

end RustyPhoton.Phd2Guider
