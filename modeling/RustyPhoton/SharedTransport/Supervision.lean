import RustyPhoton.SharedTransport.Lifecycle

/-!
# The supervisors of a shared transport

The flags of a `SharedTransport`, whether its slot holds a conduit, and the reconnect supervisors:
the one that is registered, and any that was cancelled and still runs. A step takes a future from
one await to the next. The conduits are left out, with all that a call does to the poll task and the
cadence clock; whether an open, a handshake or an attempt succeeds, and whether a stop lands, are
inputs. An attempt that outlives its supervisor changes no flag, and is left out too.
-/

namespace RustyPhoton.SharedTransport

/-- The await at which a supervisor's loop stands. -/
inductive LoopStage where
  | waiting
  -- `wait_out_cadence`.
  | pacing
  | attempting (noClient : Bool)
  | replaying (paying : Nat)
  -- The attempt is aborted and not gone yet.
  | aborting
  deriving DecidableEq

/-- A supervisor task. -/
structure SupervisorTask where
  id : Nat
  cancelled : Bool
  stage : LoopStage
  deriving DecidableEq

/-- The await at which the call that holds `acquire_lock` stands. -/
inductive CallStage where
  | free
  -- `release_any_held_conduit`: the supervisor, its join, the slot.
  | taking (who : Opener)
  | joining (who : Opener) (id : Nat)
  | emptying (who : Opener)
  -- The close of the old conduit, the open and the handshake.
  | opening (who : Opener)
  | asserting (who : Opener) (paying : Nat)
  | failing (who : Opener)
  | publishing (who : Opener)
  | reusing
  | promoting
  | spawning
  -- `run_cleanup_locked`.
  | quiescing
  | looking
  | stopping
  | closing
  -- `shutdown`: the supervisor, its join, the hook, the slot, the close.
  | withdrawing
  | awaiting (id : Nat)
  | shuttingDown
  | vacating
  | ending
  | leaving
  deriving DecidableEq

/-- The shared state. -/
structure Supervision where
  count : Nat
  available : Bool
  serviceLifetime : Bool
  reconnecting : Bool
  slot : Bool
  incurred : Nat
  paid : Nat
  sessions : Nat
  /-- A permit of `reconnect_signal`. -/
  signal : Bool
  supervisorState : Option Nat
  supervisorLive : Bool
  /-- The tasks that run. -/
  supervisors : List SupervisorTask
  spawned : Nat
  call : CallStage

/-- What an await of a call comes to. -/
inductive Reply where
  | ok
  | err
  | verdict (landed : Bool)
  | timeout
  | panic
  deriving DecidableEq

/-- What happens to a supervisor. -/
inductive LoopStep where
  | cancelled
  | signal
  | tick
  | paced
  | attempted (ok : Bool)
  | replayed (landed : Bool)
  -- The aborted attempt is gone.
  | aborted
  deriving DecidableEq

inductive SupervisionInput where
  | acquire
  | release
  | start
  | shutdown
  | resume (reply : Reply)
  | dropStart
  | supervise (id : Nat) (step : LoopStep)
  | wireFailure
  deriving DecidableEq

namespace Supervision

/-- `new`. -/
def new : Supervision where
  count := 0
  available := false
  serviceLifetime := false
  reconnecting := false
  slot := false
  incurred := 0
  paid := 0
  sessions := 0
  signal := false
  supervisorState := none
  supervisorLive := false
  supervisors := []
  spawned := 0
  call := .free

def debtOutstanding (s : Supervision) : Bool := s.incurred ≠ s.paid

def incur (s : Supervision) : Supervision := { s with incurred := oneMore s.incurred }

def pay (s : Supervision) (count : Nat) : Supervision := { s with paid := max s.paid count }

def outOfService (s : Supervision) : Supervision := { s with reconnecting := true, available := false }

def goTo (s : Supervision) (call : CallStage) : Supervision := { s with call := call }

/-! ## The supervisors -/

/-- The task ends. -/
def dropTask (s : Supervision) (id : Nat) : Supervision :=
  { s with supervisors := s.supervisors.filter fun t => t.id ≠ id }

/-- The task goes on at another await. -/
def loopGoesTo (s : Supervision) (id : Nat) (stage : LoopStage) : Supervision :=
  { s with
    supervisors := s.supervisors.map fun t => if t.id = id then { t with stage := stage } else t }

/-- `take_supervisor`, and the cancellation of what it took. -/
def takeSupervisor (s : Supervision) : Supervision :=
  { s with
    supervisorLive := false
    supervisorState := none
    supervisors := s.supervisors.map fun t =>
      if s.supervisorState = some t.id then { t with cancelled := true } else t }

/-- `spawn_supervisor`. One that is registered is cancelled, and joined or aborted, first. -/
def spawnSupervisor (s : Supervision) : Supervision :=
  { s with
    supervisorLive := true
    supervisorState := some s.spawned
    supervisors := s.supervisors.filter (fun t => s.supervisorState ≠ some t.id) ++
      [⟨s.spawned, false, .waiting⟩]
    spawned := s.spawned + 1 }

/-- `publish_recovery`. -/
def publishRecovery (s : Supervision) : Supervision :=
  if s.debtOutstanding then s else { s with available := true, reconnecting := false }

/-- `commit_replacement` of an attempt that dropped no request, and what the loop makes of it. -/
def commitReplacement (s : Supervision) (id : Nat) : Supervision :=
  if s.debtOutstanding then s.loopGoesTo id .waiting else s.publishRecovery.loopGoesTo id .waiting

/-- The attempt has its conduit, and the cell in the slot has it too. -/
def replaced (s : Supervision) (id : Nat) (noClient : Bool) : Supervision :=
  if s.debtOutstanding || (s.serviceLifetime && noClient) then
    s.incur.loopGoesTo id (.replaying (s.incurred + 1))
  else s.commitReplacement id

/-- A loop goes on from its await. -/
def loopStep (s : Supervision) (t : SupervisorTask) : LoopStep → Option Supervision
  | .cancelled =>
      if t.cancelled then
        match t.stage with
        | .waiting | .pacing => some (s.dropTask t.id)
        | .attempting _ | .replaying _ => some (s.loopGoesTo t.id .aborting)
        | .aborting => none
      else none
  -- A cancelled loop may still see the signal or the ticker first.
  | .signal =>
      if t.stage = .waiting ∧ s.signal then
        some ({ s with signal := false }.outOfService.loopGoesTo t.id .pacing)
      else none
  | .tick =>
      if t.stage = .waiting then
        some (s.loopGoesTo t.id (if s.reconnecting then .pacing else .waiting))
      else none
  | .paced =>
      if t.stage = .pacing then
        some (s.loopGoesTo t.id (if s.reconnecting then .attempting (s.count = 0) else .waiting))
      else none
  | .attempted ok =>
      match t.stage with
      | .attempting noClient =>
          -- An attempt that finds the slot empty fails.
          if ok && s.slot then some (s.replaced t.id noClient)
          else some (s.loopGoesTo t.id .waiting)
      | _ => none
  | .replayed landed =>
      match t.stage with
      | .replaying paying =>
          if landed then some ((s.pay paying).commitReplacement t.id)
          else some (s.loopGoesTo t.id .waiting)
      | _ => none
  | .aborted => if t.stage = .aborting then some (s.dropTask t.id) else none

/-! ## Taking the lock -/

def acquire (s : Supervision) : Supervision :=
  if s.serviceLifetime && !s.available && !s.reconnecting then s
  else if s.count = 0 && !s.serviceLifetime then
    { s with count := oneMore s.count, call := .taking .acquire }
  else { s with count := oneMore s.count, call := .reusing }

/-- The count goes from one to zero. -/
def lastReleased (s : Supervision) : Supervision :=
  if s.serviceLifetime then s.goTo .looking else { s with available := false, call := .quiescing }

/-- `release_inline`. A count below one wraps, and the cleanup then finds it above zero. -/
def release (s : Supervision) : Supervision :=
  let s' := { s with count := oneLess s.count, sessions := s.sessions - 1 }
  if s.count = 1 then s'.lastReleased else s'

def start (s : Supervision) : Supervision :=
  if s.serviceLifetime && s.available then s
  else if s.available then s.goTo .promoting
  else s.goTo (.taking .start)

def shutdown (s : Supervision) : Supervision :=
  if s.serviceLifetime then { s with available := false, call := .withdrawing } else s

/-! ## From await to await under the lock -/

/-- The end of an open that failed, was dropped or unwound: `RollbackGuard` or `ColdStartGuard`. -/
def failOpen (s : Supervision) : Opener → Supervision
  | .acquire => { s with count := oneLess s.count, call := .free }
  | .start => { s with reconnecting := false, available := false, call := .free }

/-- `assert_no_client_state`, as far as its hook. -/
def assertNoClientState (s : Supervision) (who : Opener) : Supervision :=
  s.incur.goTo (.asserting who (s.incurred + 1))

def handshaken (s : Supervision) : Opener → Supervision
  | .acquire =>
      if s.debtOutstanding then s.assertNoClientState .acquire else s.goTo (.publishing .acquire)
  | .start => s.assertNoClientState .start

def publish (s : Supervision) : Opener → Supervision
  | .acquire =>
      { s with
        slot := true
        available := true
        reconnecting := false
        sessions := s.sessions + 1
        call := .free }
  | .start =>
      { s with
        slot := true
        available := true
        reconnecting := false
        serviceLifetime := true
        call := .spawning }

/-- What is left of a cleanup after its hook. -/
def cleanedUp (s : Supervision) : Supervision :=
  if s.serviceLifetime then s.goTo .free else s.goTo .closing

/-- The stop is recorded as owed, and a transport that stays open is taken out of service. -/
def oweStop (s : Supervision) : Supervision :=
  if s.serviceLifetime then s.incur.outOfService else s.incur

/-- The hook of a cleanup has returned; a stop that did not land wakes the supervisor. -/
def stopped (s : Supervision) (landed : Bool) : Supervision :=
  if landed then s.cleanedUp
  else { s.oweStop with signal := s.signal || s.serviceLifetime }.cleanedUp

/-- Whether a task still runs. -/
def runs (s : Supervision) (id : Nat) : Bool := s.supervisors.any fun t => t.id = id

/-- The call goes on from its await. A join ends with the task, or with its abort. -/
def resume (s : Supervision) (reply : Reply) : Option Supervision :=
  match s.call, reply with
  | .taking who, .ok =>
      match s.supervisorState with
      | some id => some (s.takeSupervisor.goTo (.joining who id))
      | none => some (s.takeSupervisor.goTo (.emptying who))
  | .joining who id, .ok => if s.runs id then none else some (s.goTo (.emptying who))
  | .joining who id, .timeout => some ((s.dropTask id).goTo (.emptying who))
  | .emptying who, .ok => some { s with slot := false, call := .opening who }
  | .opening who, .ok => some (s.handshaken who)
  | .opening who, .err | .opening who, .panic | .asserting who _, .panic | .failing who, .ok =>
      some (s.failOpen who)
  | .asserting who paying, .verdict landed =>
      if landed then some ((s.pay paying).goTo (.publishing who)) else some (s.goTo (.failing who))
  | .publishing who, .ok => some (s.publish who)
  | .reusing, .ok =>
      if s.slot then some { s with sessions := s.sessions + 1, call := .free }
      else some { s with count := oneLess s.count, call := .free }
  | .promoting, .ok => some { s.spawnSupervisor with serviceLifetime := true, call := .free }
  | .spawning, .ok => some (s.spawnSupervisor.goTo .free)
  | .quiescing, .ok => some (s.goTo .looking)
  | .looking, .ok => if s.slot then some (s.goTo .stopping) else some s.cleanedUp
  | .stopping, .verdict landed => some (s.stopped landed)
  | .stopping, .panic => some (s.oweStop.goTo .free)
  | .closing, .ok => some { s with slot := false, call := .leaving }
  | .withdrawing, .ok =>
      match s.supervisorState with
      | some id => some (s.takeSupervisor.goTo (.awaiting id))
      | none => some { s.takeSupervisor with available := false, call := .shuttingDown }
  | .awaiting id, .ok =>
      if s.runs id then none else some { s with available := false, call := .shuttingDown }
  | .awaiting id, .timeout =>
      some { s.dropTask id with available := false, call := .shuttingDown }
  | .shuttingDown, .ok => some (s.goTo .vacating)
  -- The hook runs only where the slot holds a conduit.
  | .shuttingDown, .panic => if s.slot then some (s.goTo .free) else none
  | .vacating, .ok => some { s with slot := false, call := .ending }
  | .ending, .ok => some ({ s with reconnecting := false, call := .leaving }.pay s.incurred)
  | .leaving, .ok => some (s.goTo .free)
  | _, _ => none

/-- A start is dropped at its await, and its guard runs; a promotion has none. -/
def dropStart (s : Supervision) : Option Supervision :=
  match s.call with
  | .taking .start | .joining .start _ | .emptying .start | .opening .start | .asserting .start _
  | .failing .start | .publishing .start | .spawning => some (s.failOpen .start)
  | .promoting => some (s.goTo .free)
  | _ => none

/-- One step, when it can be taken. -/
def next (s : Supervision) : SupervisionInput → Option Supervision
  | .acquire => if s.call = .free then some s.acquire else none
  | .release => if s.call = .free ∧ 0 < s.sessions then some s.release else none
  | .start => if s.call = .free then some s.start else none
  | .shutdown => if s.call = .free then some s.shutdown else none
  | .resume reply => s.resume reply
  | .dropStart => s.dropStart
  | .supervise id step => (s.supervisors.find? (·.id = id)).bind fun t => s.loopStep t step
  | .wireFailure => some { s with signal := true }

/-- A step as one of a system that logs nothing. -/
def step (s : Supervision) (input : SupervisionInput) : Option (Supervision × List Unit) :=
  (s.next input).map fun s' => (s', [])

/-! ## What the supervisors are held to -/

/-- A transport that recovers has somebody to retry, and one that reads as healthy has a conduit and
somebody to watch it. -/
structure Attended (s : Supervision) : Prop where
  agree : s.supervisorLive = s.supervisorState.isSome
  retried : s.reconnecting = true → s.supervisorState.isSome = true
  watched : s.serviceLifetime = true → s.available = true →
    s.slot = true ∧ s.supervisorState.isSome = true

/-- A call that is given up here leaves nothing to itself: a supervisor is registered, or there is no
conduit in the slot and no supervisor that still runs. A lazy transport has no supervisor. -/
def Unburdened (s : Supervision) : Prop :=
  s.serviceLifetime = false ∨ s.supervisorState.isSome = true ∨
    s.slot = false ∧ s.supervisors = []

instance (s : Supervision) : Decidable s.Unburdened := inferInstanceAs (Decidable (_ ∨ _))

/-- A start is dropped, or a shutdown is unwound by its hook, only where it leaves nothing to
itself; and the count does not come round. -/
def GivesUpUnburdened (_ : List Unit) (s : Supervision) : SupervisionInput → Prop
  | .dropStart => s.Unburdened
  | .resume .panic => s.call = .shuttingDown → s.Unburdened
  | .acquire => s.count + 1 < u32
  | _ => True

end Supervision

end RustyPhoton.SharedTransport
