import RustyPhoton.Lib.Transition

/-!
# The lifecycle of a shared transport

`SharedTransport` of `rusty-photon-shared-transport`: the session count, the conduit in the slot, the
safety debt, and the futures that change them. `acquire`, the release of a session, `start` and
`shutdown` hold `acquire_lock`, so one of them is under way at a time; one reconnect attempt may be
under way beside it. A step takes a future from one await to the next, and a future may be dropped at
any of them.

What a request on a conduit comes to is an input. So is the order of all steps.
-/

namespace RustyPhoton.SharedTransport

/-! ## What is shared -/

/-- The numbers a `u32` has. -/
def u32 : Nat := 4294967296

/-- `fetch_add(1)`. -/
def oneMore (count : Nat) : Nat := (count + 1) % u32

/-- `fetch_sub(1)`. -/
def oneLess (count : Nat) : Nat := if count = 0 then u32 - 1 else count - 1

/-- What the last-disconnect hook says of the state it asserts. -/
inductive StateAssertion where
  | asserted
  | notAsserted
  deriving DecidableEq

/-- The hook while it runs: its conduit, the requests that had failed on it before, and how many
stops had come due by then. -/
structure HookRun where
  conduit : Nat
  before : Nat
  since : Nat
  deriving DecidableEq

/-- A hook run that pays for the debt up to a count. -/
structure Replay where
  hook : HookRun
  paying : Nat
  deriving DecidableEq

/-- Who opens a conduit under the lock. -/
inductive Opener where
  | acquire
  | start
  deriving DecidableEq

/-- The await at which the holder of `acquire_lock` stands. -/
inductive Holder where
  | free
  -- `release_any_held_conduit`: the supervisor, then the slot.
  | releasing (who : Opener)
  | emptying (who : Opener)
  | opening (who : Opener)
  | handshaking (who : Opener) (conduit : Nat)
  | asserting (who : Opener) (replay : Replay)
  | failing (who : Opener)
  -- The locks of the publish.
  | publishing (who : Opener) (conduit : Nat)
  | reusing
  | promoting
  | spawning
  -- `run_cleanup_locked`: the poll task, the slot, the cell, the hook, the slot again.
  | quiescing
  | looking
  | reading (cell : Nat)
  | stopping (run : HookRun)
  | closing
  -- `shutdown`: the supervisor, its join, the hook, the slot, the close.
  | withdrawing
  | joining
  | shuttingDown
  | taking
  | ending
  | leaving
  deriving DecidableEq

/-- The await at which the reconnect attempt stands. -/
inductive Attempt where
  | quiescing (noClient : Bool)
  | looking (noClient : Bool)
  | opening (noClient : Bool) (cell : Nat)
  | handshaking (noClient : Bool) (cell conduit : Nat)
  | swapping (noClient : Bool) (cell conduit failuresAtHandshake : Nat)
  | respawning (noClient : Bool) (conduit failuresAtHandshake : Nat)
  | replaying (replay : Replay) (failuresAtHandshake : Nat)
  | failing
  deriving DecidableEq

/-- Where the supervisor stands: `checking` to `rechecking` are the loads and stores of
`publish_recovery`. -/
inductive Supervisor where
  | none
  | waiting
  | attempting
  | checking
  | storing
  | clearing
  | rechecking
  deriving DecidableEq

/-- The shared state. A cell is named by its place in `cells` and holds a conduit, and a conduit is
named by a number. `wireFailures` counts without an end; the code reads it modulo `u32`. `stops` and
`landed` are for the statements alone: how many times the count went from one to zero on an open
conduit, and how many of these a hook has landed after. -/
structure Transport where
  count : Nat
  available : Bool
  serviceLifetime : Bool
  reconnecting : Bool
  slot : Option Nat
  cells : List Nat
  opened : Nat
  wireFailures : Nat → Nat
  incurred : Nat
  paid : Nat
  sessions : Nat
  supervisor : Supervisor
  holder : Holder
  attempt : Option Attempt
  stops : Nat
  landed : Nat

/-- What an await comes to. -/
inductive Answer where
  | ok
  | err
  | verdict (assertion : StateAssertion)
  deriving DecidableEq

inductive LifecycleInput where
  | acquire
  | release
  | start
  | shutdown
  | resume (answer : Answer)
  | drop
  | dropClose
  | beginAttempt
  | resumeAttempt (answer : Answer)
  | dropAttempt
  | hearSignal
  | publishRecovery
  | wireFailure (conduit : Nat)

namespace LifecycleInput

/-- The conduit on which a request fails. -/
def failing : LifecycleInput → Option Nat
  | .wireFailure conduit => some conduit
  | _ => none

/-- The future that holds the lock is dropped. -/
def drops : LifecycleInput → Bool
  | .drop => true
  | _ => false

end LifecycleInput

namespace Transport

/-- `new`. -/
def new : Transport where
  count := 0
  available := false
  serviceLifetime := false
  reconnecting := false
  slot := none
  cells := []
  opened := 0
  wireFailures := fun _ => 0
  incurred := 0
  paid := 0
  sessions := 0
  supervisor := .none
  holder := .free
  attempt := none
  stops := 0
  landed := 0

/-- `safety_debt_outstanding`. -/
def debtOutstanding (s : Transport) : Bool := s.incurred ≠ s.paid

/-- `fetch_add(1)` on the incurred debt. -/
def incur (s : Transport) : Transport := { s with incurred := oneMore s.incurred }

/-- `fetch_max` on the paid debt. -/
def pay (s : Transport) (count : Nat) : Transport := { s with paid := max s.paid count }

/-- Take the transport out of service until a recovery. -/
def outOfService (s : Transport) : Transport := { s with reconnecting := true, available := false }

def goTo (s : Transport) (holder : Holder) : Transport := { s with holder := holder }

def attemptGoesTo (s : Transport) (attempt : Option Attempt) : Transport :=
  { s with attempt := attempt }

/-! ## The hook -/

/-- The hook starts on a conduit. -/
def begun (s : Transport) (conduit : Nat) : HookRun where
  conduit := conduit
  before := s.wireFailures conduit
  since := s.stops

/-- The hook landed: it vouches for the state, and no request failed on its conduit meanwhile. -/
def Landed (s : Transport) (run : HookRun) (verdict : StateAssertion) : Prop :=
  verdict = .asserted ∧ s.wireFailures run.conduit = run.before

instance (s : Transport) (run : HookRun) (verdict : StateAssertion) :
    Decidable (s.Landed run verdict) :=
  inferInstanceAs (Decidable (_ ∧ _))

/-- A hook that landed answers for the stops that had come due when it started. -/
def land (s : Transport) (run : HookRun) (verdict : StateAssertion) : Transport :=
  if s.Landed run verdict then { s with landed := max s.landed run.since } else s

/-- What the code reads of it: the failure counter moved, or the verdict is not `Asserted`. -/
def missed (s : Transport) (conduit before : Nat) (verdict : StateAssertion) : Bool :=
  s.wireFailures conduit % u32 ≠ before % u32 || verdict = .notAsserted

/-! ## Opening a conduit -/

/-- The end of an open that failed or was dropped: `RollbackGuard` or `ColdStartGuard`. -/
def failOpen (s : Transport) : Opener → Transport
  | .acquire => { s with count := oneLess s.count, holder := .free }
  | .start => { s with reconnecting := false, available := false, holder := .free }

/-- `assert_no_client_state`, as far as its hook. -/
def assertNoClientState (s : Transport) (who : Opener) (conduit : Nat) : Transport :=
  s.incur.goTo (.asserting who { hook := s.begun conduit, paying := s.incurred + 1 })

/-- After the handshake: a start asserts the no-client state, an acquire pays what is owed. -/
def handshaken (s : Transport) (conduit : Nat) : Opener → Transport
  | .acquire =>
      if s.debtOutstanding then s.assertNoClientState .acquire conduit
      else s.goTo (.publishing .acquire conduit)
  | .start => s.assertNoClientState .start conduit

/-- The rest of `assert_no_client_state`. -/
def asserted (s : Transport) (who : Opener) (replay : Replay) (verdict : StateAssertion) :
    Transport :=
  let s' := s.land replay.hook verdict
  if s.missed replay.hook.conduit replay.hook.before verdict then s'.goTo (.failing who)
  else (s'.pay replay.paying).goTo (.publishing who replay.hook.conduit)

/-- A new cell in the slot. -/
def publish (s : Transport) (conduit : Nat) : Opener → Transport
  | .acquire =>
      { s with
        cells := s.cells ++ [conduit]
        slot := some s.cells.length
        available := true
        reconnecting := false
        sessions := s.sessions + 1
        holder := .free }
  | .start =>
      { s with
        cells := s.cells ++ [conduit]
        slot := some s.cells.length
        available := true
        reconnecting := false
        serviceLifetime := true
        holder := .spawning }

/-! ## Taking the lock -/

/-- `acquire`, as far as its first await after the lock. -/
def acquire (s : Transport) : Transport :=
  if s.serviceLifetime && !s.available && !s.reconnecting then s
  else if s.count = 0 && !s.serviceLifetime then
    { s with count := oneMore s.count, holder := .releasing .acquire }
  else { s with count := oneMore s.count, holder := .reusing }

/-- The count goes from one to zero: a stop comes due when the slot holds a conduit. The cleanup
begins. -/
def lastReleased (s : Transport) : Transport :=
  let due := { s with stops := if s.slot.isSome then s.stops + 1 else s.stops }
  if s.serviceLifetime then due.goTo .looking
  else { due with available := false, holder := .quiescing }

/-- `release_inline`, as far as its first await after the lock. A count below one wraps, and the
cleanup then finds it above zero. -/
def release (s : Transport) : Transport :=
  let s' := { s with count := oneLess s.count, sessions := s.sessions - 1 }
  if s.count = 1 then s'.lastReleased else s'

/-- `start`, as far as its first await after the lock. -/
def start (s : Transport) : Transport :=
  if s.serviceLifetime && s.available then s
  else if s.available then s.goTo .promoting
  else s.goTo (.releasing .start)

/-- `shutdown`, as far as its first await after the lock. -/
def shutdown (s : Transport) : Transport :=
  if s.serviceLifetime then { s with available := false, holder := .withdrawing } else s

/-! ## From await to await under the lock -/

/-- What is left of a cleanup after its hook. -/
def cleanedUp (s : Transport) : Transport :=
  if s.serviceLifetime then s.goTo .free else s.goTo .closing

/-- The stop is recorded as owed, and a transport that stays open is taken out of service. -/
def oweStop (s : Transport) : Transport :=
  if s.serviceLifetime then s.incur.outOfService else s.incur

/-- The hook of a cleanup has returned. -/
def stopped (s : Transport) (run : HookRun) (verdict : StateAssertion) : Transport :=
  let s' := s.land run verdict
  if s.missed run.conduit run.before verdict then s'.oweStop.cleanedUp else s'.cleanedUp

/-- The holder goes on from its await. -/
def resume (s : Transport) (answer : Answer) : Option Transport :=
  match s.holder, answer with
  | .releasing who, .ok => some { s with supervisor := .none, holder := .emptying who }
  | .emptying who, .ok => some { s with slot := none, holder := .opening who }
  | .opening who, .ok => some { s with opened := s.opened + 1, holder := .handshaking who s.opened }
  | .opening who, .err | .handshaking who _, .err | .failing who, .ok => some (s.failOpen who)
  | .handshaking who conduit, .ok => some (s.handshaken conduit who)
  | .asserting who replay, .verdict verdict => some (s.asserted who replay verdict)
  | .publishing who conduit, .ok => some (s.publish conduit who)
  | .reusing, .ok =>
      match s.slot with
      | some _ => some { s with sessions := s.sessions + 1, holder := .free }
      | none => some { s with count := oneLess s.count, holder := .free }
  | .promoting, .ok =>
      some { s with supervisor := .waiting, serviceLifetime := true, holder := .free }
  | .spawning, .ok => some { s with supervisor := .waiting, holder := .free }
  | .quiescing, .ok => some (s.goTo .looking)
  | .looking, .ok =>
      match s.slot with
      | some cell => some (s.goTo (.reading cell))
      | none => some s.cleanedUp
  | .reading cell, .ok => some (s.goTo (.stopping (s.begun (s.cells.getD cell 0))))
  | .stopping run, .verdict verdict => some (s.stopped run verdict)
  | .closing, .ok => some { s with slot := none, holder := .leaving }
  | .withdrawing, .ok => some { s with supervisor := .none, holder := .joining }
  | .joining, .ok => some { s with available := false, holder := .shuttingDown }
  | .shuttingDown, .ok => some (s.goTo .taking)
  | .taking, .ok => some { s with slot := none, holder := .ending }
  | .ending, .ok => some ({ s with reconnecting := false, holder := .leaving }.pay s.incurred)
  | .leaving, .ok => some (s.goTo .free)
  | _, _ => none

/-- The holder is dropped at its await, and its guards run. -/
def dropHolder (s : Transport) : Option Transport :=
  match s.holder with
  | .free => none
  | .releasing who | .emptying who | .opening who | .handshaking who _ | .asserting who _
  | .failing who | .publishing who _ => some (s.failOpen who)
  | .spawning => some (s.failOpen .start)
  | .stopping _ => some (s.oweStop.goTo .free)
  -- Nothing is armed here: not in a reuse, a promotion or a shutdown, and not in a cleanup before
  -- its hook has started.
  | .reusing | .promoting | .quiescing | .looking | .reading _ | .closing | .withdrawing | .joining
  | .shuttingDown | .taking | .ending | .leaving => some (s.goTo .free)

/-! ## The reconnect attempt -/

def beginAttempt (s : Transport) : Option Transport :=
  if s.supervisor = .waiting && s.reconnecting && s.attempt.isNone then
    some { s with supervisor := .attempting, attempt := some (.quiescing (s.count = 0)) }
  else none

/-- An attempt is over. The supervisor that ran it hears of it. -/
def endAttempt (s : Transport) (next : Supervisor) : Transport :=
  { s with
    attempt := none
    supervisor := if s.supervisor = .attempting then next else s.supervisor }

/-- `commit_replacement`. -/
def commitReplacement (s : Transport) (conduit failuresAtHandshake : Nat) (paying : Option Nat)
    (verdict : StateAssertion) : Transport :=
  if s.missed conduit failuresAtHandshake verdict then s.attemptGoesTo (some .failing)
  else
    let s' :=
      match paying with
      | some count => s.pay count
      | none => s
    if s'.debtOutstanding then s'.attemptGoesTo (some .failing) else s'.endAttempt .checking

/-- The attempt goes on from its await. -/
def resumeAttempt (s : Transport) (answer : Answer) : Option Transport :=
  match s.attempt, answer with
  | some (.quiescing noClient), .ok => some (s.attemptGoesTo (some (.looking noClient)))
  | some (.looking noClient), .ok =>
      match s.slot with
      | some cell => some (s.attemptGoesTo (some (.opening noClient cell)))
      | none => some (s.endAttempt .waiting)
  | some (.opening noClient cell), .ok =>
      some { s with
        opened := s.opened + 1, attempt := some (.handshaking noClient cell s.opened) }
  | some (.opening _ _), .err | some (.handshaking _ _ _), .err | some .failing, .ok =>
      some (s.endAttempt .waiting)
  | some (.handshaking noClient cell conduit), .ok =>
      some (s.attemptGoesTo (some (.swapping noClient cell conduit (s.wireFailures conduit))))
  | some (.swapping noClient cell conduit failures), .ok =>
      if s.slot = some cell then
        some { s with
          cells := s.cells.set cell conduit
          attempt := some (.respawning noClient conduit failures) }
      else some (s.attemptGoesTo (some .failing))
  | some (.respawning noClient conduit failures), .ok =>
      if s.debtOutstanding || (s.serviceLifetime && noClient) then
        some (s.incur.attemptGoesTo
          (some (.replaying { hook := s.begun conduit, paying := s.incurred + 1 } failures)))
      else some (s.commitReplacement conduit failures none .asserted)
  | some (.replaying replay failures), .verdict verdict =>
      some ((s.land replay.hook verdict).commitReplacement replay.hook.conduit failures
        (some replay.paying) verdict)
  | _, _ => none

/-- One load or store of `publish_recovery`. -/
def publishRecovery (s : Transport) : Option Transport :=
  match s.supervisor with
  | .checking =>
      some { s with supervisor := if s.debtOutstanding then .waiting else .storing }
  | .storing => some { s with available := true, supervisor := .clearing }
  | .clearing => some { s with reconnecting := false, supervisor := .rechecking }
  | .rechecking =>
      if s.debtOutstanding then some { s.outOfService with supervisor := .waiting }
      else some { s with supervisor := .waiting }
  | .none | .waiting | .attempting => none

/-! ## Steps -/

/-- One step, when it can be taken. -/
def next (s : Transport) : LifecycleInput → Option Transport
  | .acquire => if s.holder = .free then some s.acquire else none
  | .release => if s.holder = .free ∧ 0 < s.sessions then some s.release else none
  | .start => if s.holder = .free then some s.start else none
  | .shutdown => if s.holder = .free then some s.shutdown else none
  | .resume answer => s.resume answer
  | .drop => s.dropHolder
  -- A close that is dropped while it waits for the lock.
  | .dropClose => if 0 < s.sessions then some { s with sessions := s.sessions - 1 } else none
  | .beginAttempt => s.beginAttempt
  | .resumeAttempt answer => s.resumeAttempt answer
  | .dropAttempt => if s.attempt.isSome then some (s.endAttempt .waiting) else none
  | .hearSignal => if s.supervisor = .waiting then some s.outOfService else none
  | .publishRecovery => s.publishRecovery
  | .wireFailure conduit =>
      some { s with wireFailures := fun c =>
        if c = conduit then s.wireFailures c + 1 else s.wireFailures c }

/-- A step as one of a system that logs nothing. -/
def step (s : Transport) (input : LifecycleInput) : Option (Transport × List Unit) :=
  (s.next input).map fun s' => (s', [])

end Transport

end RustyPhoton.SharedTransport
