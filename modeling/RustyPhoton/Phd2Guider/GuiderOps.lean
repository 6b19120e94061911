import RustyPhoton.Phd2Guider.LeaseBook

/-!
# The guiding operations and the camera facade

`GuiderOps` of `guider.rs` with the capture engine of `capture.rs`. A task takes a step at each
await, at each lock it takes and each time it reads the clock; between two of its steps the other
tasks run and time passes. What PHD2 answers and what the timers and channels yield is an input.
`rfc3339` and `wall` are the texts of a wall-clock time and of an instant.
-/

namespace RustyPhoton.Phd2Guider

open Lib

/-- `ABANDONED_REMEMBERED`. -/
def abandonedRemembered : Nat := 64

inductive AppState where
  | stopped
  | selected
  | calibrating
  | guiding
  | lostLock
  | paused
  | looping
  deriving DecidableEq

def AppState.text : AppState → String
  | .stopped => "Stopped"
  | .selected => "Selected"
  | .calibrating => "Calibrating"
  | .guiding => "Guiding"
  | .lostLock => "LostLock"
  | .paused => "Paused"
  | .looping => "Looping"

/-- A facade frame holding the capture slot. `deadline` is `expires` in wall-clock time. -/
structure CaptureClaim where
  path : String
  expires : Nat
  deadline : Nat
  stopRequested : Bool
  recovered : Bool

inductive RpcFailure where
  | busy (message : String)
  | refused (message : String)
  | unreachable (message : String)

inductive StoppedLockError where
  | busy
  | capturing (claim : CaptureClaim)
  | rpc (failure : RpcFailure)
  | notStopped (state : AppState)

inductive ServiceError where
  | notGuiding (state : String)
  | cameraBusy (message : String)
  | guideFailed (message : String)
  | settleTimeout (waited : String)
  | stopTimeout (waited : String)
  | phd2Unreachable (message : String)
  | internal (message : String)

inductive StartError where
  | busy (message : String)
  | notStopped (state : AppState)
  | phd2Busy (message : String)
  | phd2Refused (message : String)
  | unreachable (message : String)
  | marker (path reason : String)
  | unconfirmed (message : String)

inductive LeaseError where
  | notConnected (message : String)
  | refused (message : String)

inductive FrameEnd where
  | saved
  | failed (message : String) (stopped : Bool)
  | notReported (waited : Nat)

/-- What PHD2 answered to `capture_single_frame`. A request is `settled` where PHD2 refused it or
where it was never sent. -/
inductive CaptureAnswer where
  | accepted
  | settled (failure : RpcFailure)
  | unanswered (message : String)

/-- How the wait for a settle verdict ends. -/
inductive SettleEnd where
  | verdict (status : Int) (error : Option String)
  | backstop (waited : String)
  | closed

/-- `wait_for_settle`. -/
def SettleEnd.result : SettleEnd → Except ServiceError Unit
  | .verdict status error =>
      if status = 0 then .ok ()
      else .error (.guideFailed (error.getD ("SettleDone status " ++ toString status)))
  | .backstop waited => .error (.settleTimeout waited)
  | .closed => .error (.phd2Unreachable "PHD2 event stream closed")

/-- `start_error_of`. -/
def startErrorOf : RpcFailure → StartError
  | .busy message => .phd2Busy message
  | .refused message => .phd2Refused message
  | .unreachable message => .unreachable message

section

variable (rfc3339 : Nat → String)

/-- What holds the capture slot, and until when at the latest. -/
def claimHeld (claim : CaptureClaim) : String :=
  if claim.recovered then
    "a camera-facade frame started before this service restarted may still be exposing, until " ++
      rfc3339 claim.deadline ++ " at the latest"
  else
    "a frame is still exposing in PHD2 (" ++ claim.path ++ "), until " ++ rfc3339 claim.deadline ++
      " at the latest"

def StoppedLockError.text : StoppedLockError → String
  | .busy => "the guider is busy: a guiding request, or the end of an earlier frame"
  | .capturing claim => claimHeld rfc3339 claim
  | .rpc (.busy message) | .rpc (.refused message) | .rpc (.unreachable message) => message
  | .notStopped state =>
      "PHD2 is " ++ state.text ++ "; the camera facade works only while PHD2 is Stopped"

/-- What a capture makes of the lock it did not get. -/
def StoppedLockError.startError (e : StoppedLockError) : StartError :=
  match e with
  | .busy | .capturing _ => .busy (e.text rfc3339)
  | .rpc failure => startErrorOf failure
  | .notStopped state => .notStopped state

/-- What an acquire makes of the lock it did not get. -/
def StoppedLockError.leaseError (e : StoppedLockError) : LeaseError :=
  match e with
  | .rpc (.unreachable message) => .notConnected ("PHD2 unreachable: " ++ message)
  | .rpc (.busy message) | .rpc (.refused message) =>
      .refused ("PHD2 refused get_app_state: " ++ message)
  | .notStopped state =>
      .refused ("PHD2 is " ++ state.text ++
        "; a sweep lease is granted only while PHD2 is Stopped")
  | .busy | .capturing _ => .refused (e.text rfc3339)

end

/-- The guiding lock, by the task that holds it, the capture slot and the sweep lease, with the
capture engine's frames that it gave up on. -/
structure GuiderOps where
  opLock : Option Nat
  capture : Option CaptureClaim
  lease : LeaseBook
  abandoned : List String

namespace GuiderOps

def new : GuiderOps := ⟨none, none, .new, []⟩

/-- The frame holding the capture slot. A claim whose deadline has passed holds nothing. -/
def captureClaim (ops : GuiderOps) (now : Nat) : Option CaptureClaim :=
  ops.capture.filter fun claim => decide (now < claim.expires)

def claimCapture (ops : GuiderOps) (claim : CaptureClaim) : GuiderOps :=
  { ops with capture := some claim }

def releaseCapture (ops : GuiderOps) (path : String) : GuiderOps :=
  if ops.capture.any (·.path = path) then { ops with capture := none } else ops

/-- Whether the wait for a release is over. -/
def captureReleased (ops : GuiderOps) (path : String) : Bool := ops.capture.all (·.path ≠ path)

def markCaptureStopped (ops : GuiderOps) : GuiderOps :=
  { ops with capture := ops.capture.map fun claim => { claim with stopRequested := true } }

def endLease (ops : GuiderOps) (why : LeaseEnd) (now : Nat) : GuiderOps :=
  { ops with lease := (ops.lease.endLease why now).2 }

/-- The lock is taken where it is free. -/
def tryLock (ops : GuiderOps) (task : Nat) : Option GuiderOps :=
  match ops.opLock with
  | none => some { ops with opLock := some task }
  | some _ => none

/-- A frame is given up on, and the oldest is forgotten where too many are. -/
def abandon (ops : GuiderOps) (path : String) : GuiderOps :=
  { ops with
    abandoned :=
      (if ops.abandoned.length = abandonedRemembered then ops.abandoned.tail else ops.abandoned) ++
        [path] }

def unlock (ops : GuiderOps) : GuiderOps := { ops with opLock := none }

end GuiderOps

/-- The guiding operations that are refused while the camera is held. -/
inductive Mutation where
  | startGuiding
  | dither
  | pause
  | resume
  | clearCalibration
  | reselectStar
  deriving DecidableEq

/-- The requests of a mutation: the state, which a dither asks first, and its command. -/
inductive MutationRpc where
  | getAppState
  | command

def Mutation.first : Mutation → MutationRpc
  | .dither => .getAppState
  | _ => .command

/-- Whether the operation blocks until the star has settled. -/
def Mutation.settles : Mutation → Bool
  | .startGuiding | .dither => true
  | _ => false

/-- An acquire's parameters. -/
structure AcquireRequest where
  token : Token
  ttlS : Nat

/-- The steps of `lock_while_stopped`. -/
inductive StoppedLock where
  | trying
  | checkingSlot
  | asking
  | awaiting

inductive MutationStage where
  | waiting
  | checkingSlot
  | checkingLease
  /-- The clock was read, and the lease is not looked at yet. -/
  | askingLease (now : Nat)
  | sending (rpc : MutationRpc)
  | awaiting (rpc : MutationRpc)
  | settling

inductive StopStage where
  | waiting
  | endingLease
  | asking
  | awaiting
  | deciding (state : AppState)
  | marking
  | sending
  | stopping
  | polling (deadline : Option Nat)
  | awaitingPoll (deadline : Option Nat)

inductive CaptureStage where
  | locking (stage : StoppedLock)
  | marking
  | claiming (path : String) (expires deadline : Nat)
  | requesting (path : String) (expires : Nat)
  | awaiting (path : String) (expires : Nat)

inductive AbortStage where
  | waiting
  | checking
  | sending
  | awaiting
  | releasing (deadline : Option Nat)

inductive AcquireStage where
  | checking
  | locking (stage : StoppedLock)
  | granting

/-- How a task ended. -/
inductive Outcome where
  | mutation (result : Except ServiceError Unit)
  | stop (result : Except ServiceError Unit)
  | capture (result : Except StartError Unit)
  | frame (result : FrameEnd)
  | aborted (released : Bool)
  | acquire (result : Except LeaseError Granted)
  | nothing

inductive Task where
  | mutation (operation : Mutation) (stage : MutationStage)
  | stop (stage : StopStage)
  | capture (exposureMs : Nat) (stage : CaptureStage)
  /-- `wait`, since when. -/
  | wait (path : String) (expires started : Nat)
  /-- `finish_claim`, before and after it takes the lock. -/
  | finishing (path : String) (outcome : Outcome)
  | ending (path : String) (outcome : Outcome)
  | abort (path : String) (limit : Nat) (stage : AbortStage)
  | lateReport (path : String)
  /-- The claim of a restart marker's frame, before and after it takes the lock. -/
  | recovering (path : String) (expires deadline : Nat)
  | recovered (path : String) (expires deadline : Nat)
  | watchRecovered (path : String) (expires : Nat)
  | shutdown
  | acquire (request : AcquireRequest) (stage : AcquireStage)
  | done (outcome : Outcome)

/-- What a task waits for. `next` is a step without an await, or the lock. -/
inductive TaskInput where
  | next
  | state (answer : Except RpcFailure AppState)
  | polled (answer : Except ServiceError AppState)
  | acknowledged (answer : Except ServiceError Unit)
  | captured (answer : CaptureAnswer)
  | settled (settleEnd : SettleEnd)
  | marker (path : String) (wallNow : Nat) (written : Except String Unit)
  | reported (success : Bool) (error : Option String)
  | elapsed

/-- What a step does that the exclusion is about. -/
inductive Effect where
  | quiet
  | mutationRpc
  | captureGranted
  | leaseGranted (token : Token)
  | leaseRenewed (token : Token)

/-- The guider at an instant. -/
structure Guider where
  clock : Nat
  ops : GuiderOps
  tasks : List Task

/-- What a step of a task leaves. -/
structure Advance where
  ops : GuiderOps
  task : Task
  effect : Effect
  spawned : List Task

end RustyPhoton.Phd2Guider
