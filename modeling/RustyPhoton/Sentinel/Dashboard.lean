import RustyPhoton.Lib.Instant
import RustyPhoton.Sentinel.Discovery
import Mathlib.Data.List.Sort
import Mathlib.Data.String.Basic

/-!
# The dashboard's services and their supervisors

Two writers share the list of services: a discovery pass, which keeps its membership, and the
health supervisors, which publish the rows of their services. A supervisor publishes what it saw
when it last read the registry, with the counters it has kept since it was spawned.
-/

namespace RustyPhoton.Sentinel

open Lib (checkedAdd durationMax saturatingSucc u32Max u64Max)

/-! ## The rows -/

inductive ServiceHealth where
  | unknown
  | up
  | degraded
  | down
  deriving DecidableEq, Repr

structure ServiceHealthStatus where
  name : String
  unit : String
  runState : RunState
  health : ServiceHealth
  healthMessage : Option String
  lastProbeEpochMs : Nat
  consecutiveFailures : Nat
  restartsInOutage : Nat
  totalRestarts : Nat
  nextRestartEpochMs : Option Nat
  probePort : Option Nat
  pollInterval : Nat
  deriving DecidableEq, Repr

/-- The unprobed snapshot a newly discovered service starts from. -/
def ServiceHealthStatus.unknown (svc : DiscoveredService) (pollInterval : Nat) :
    ServiceHealthStatus where
  name := svc.name
  unit := svc.unit
  runState := svc.state
  health := .unknown
  healthMessage := none
  lastProbeEpochMs := 0
  consecutiveFailures := 0
  restartsInOutage := 0
  totalRestarts := 0
  nextRestartEpochMs := none
  probePort := svc.probe.map (·.port)
  pollInterval := pollInterval

/-- What a pass changes in the row of a service it found. -/
def ServiceHealthStatus.refresh (row : ServiceHealthStatus) (svc : DiscoveredService) :
    ServiceHealthStatus :=
  let row := { row with
    unit := svc.unit, runState := svc.state, probePort := svc.probe.map (·.port) }
  if svc.state.supervised then row
  else { row with
    health := .unknown, healthMessage := none, consecutiveFailures := 0, restartsInOutage := 0,
    nextRestartEpochMs := none }

/-- Change the first row of a name. -/
def modifyFirst (name : String) (f : ServiceHealthStatus → ServiceHealthStatus) :
    List ServiceHealthStatus → List ServiceHealthStatus
  | [] => []
  | row :: rest => if row.name = name then f row :: rest else row :: modifyFirst name f rest

def hasRow (rows : List ServiceHealthStatus) (name : String) : Bool :=
  rows.any fun row => row.name = name

def sortByName (rows : List ServiceHealthStatus) : List ServiceHealthStatus :=
  rows.insertionSort fun a b => a.name ≤ b.name

/-- Replace a service's row; an unseeded name is inserted. -/
def setServiceHealth (rows : List ServiceHealthStatus) (status : ServiceHealthStatus) :
    List ServiceHealthStatus :=
  if hasRow rows status.name then modifyFirst status.name (fun _ => status) rows
  else sortByName (rows ++ [status])

def syncService (pollInterval : Nat) (rows : List ServiceHealthStatus) (svc : DiscoveredService) :
    List ServiceHealthStatus :=
  if hasRow rows svc.name then modifyFirst svc.name (·.refresh svc) rows
  else rows ++ [.unknown svc pollInterval]

/-- Reconcile the rows with a discovery pass. -/
def syncDiscoveredServices (rows : List ServiceHealthStatus) (services : Services)
    (pollInterval : Nat) : List ServiceHealthStatus :=
  sortByName (services.values.foldl (syncService pollInterval)
    (rows.filter fun row => services.containsKey row.name))

/-! ## A supervisor's counters -/

/-- The policy values the supervision loop reads. -/
structure SupervisionPolicy where
  pollInterval : Nat
  failureThreshold : Nat
  restartBackoff : Nat
  restartBackoffMax : Nat
  deriving DecidableEq, Repr

structure OutageCounters where
  consecutiveFailures : Nat
  restartsInOutage : Nat
  totalRestarts : Nat
  initialBackoff : Nat
  backoff : Nat
  nextRestartAt : Option Nat
  deriving DecidableEq, Repr

namespace OutageCounters

def new (policy : SupervisionPolicy) : OutageCounters where
  consecutiveFailures := 0
  restartsInOutage := 0
  totalRestarts := 0
  initialBackoff := min policy.restartBackoff policy.restartBackoffMax
  backoff := min policy.restartBackoff policy.restartBackoffMax
  nextRestartAt := none

def resetOutage (counters : OutageCounters) : OutageCounters :=
  { counters with
    consecutiveFailures := 0, restartsInOutage := 0, backoff := counters.initialBackoff,
    nextRestartAt := none }

def failed (counters : OutageCounters) : OutageCounters :=
  { counters with consecutiveFailures := saturatingSucc u32Max counters.consecutiveFailures }

/-- A restart was reported: the counters, the gate and the backoff move on. -/
def restarted (counters : OutageCounters) (policy : SupervisionPolicy) (now : Nat) :
    OutageCounters :=
  { counters with
    restartsInOutage := saturatingSucc u32Max counters.restartsInOutage
    totalRestarts := saturatingSucc u64Max counters.totalRestarts
    nextRestartAt := checkedAdd now counters.backoff
    backoff := min (min (counters.backoff * 2) durationMax) policy.restartBackoffMax }

def restartDue (counters : OutageCounters) (failureThreshold now : Nat) : Bool :=
  decide (failureThreshold ≤ counters.consecutiveFailures) &&
    counters.nextRestartAt.all (· ≤ now)

end OutageCounters

/-! ## The supervisors -/

inductive TickObservation where
  | up
  | degraded (message : Option String)
  | down
  | unknown
  deriving DecidableEq, Repr

/-- What a tick can observe of a service. -/
def DiscoveredService.observes (snapshot : DiscoveredService) : TickObservation → Bool
  | .up | .degraded _ => decide (snapshot.state = .running) && snapshot.probe.isSome
  | .down => decide (snapshot.state = .failed) ||
      (decide (snapshot.state = .running) && snapshot.probe.isSome)
  | .unknown => match snapshot.state with
      | .failed => false
      | .running => snapshot.probe.isNone
      | _ => true

/-- Where a supervisor's loop stands. A row that is about to be written was made before the wait
for the state. -/
inductive SupervisorStage where
  | looking
  | observing (snapshot : DiscoveredService)
  | publishing (row : ServiceHealthStatus)
  /-- As `publishing`, of a failed check: a restart may be due after it. -/
  | publishingDown (row : ServiceHealthStatus) (snapshot : DiscoveredService) (probedAtMs : Nat)
  | restarting (snapshot : DiscoveredService) (probedAtMs : Nat)
  | notifying (snapshot : DiscoveredService) (probedAtMs : Nat)
  | sleeping
  | ended
  deriving DecidableEq, Repr

structure HealthSupervisor where
  name : String
  cancelled : Bool
  counters : OutageCounters
  stage : SupervisorStage
  deriving DecidableEq, Repr

/-- The row `publish` makes. -/
def HealthSupervisor.status (sup : HealthSupervisor) (snapshot : DiscoveredService)
    (health : ServiceHealth) (message : Option String) (probedAtMs now nowMs pollInterval : Nat) :
    ServiceHealthStatus where
  name := sup.name
  unit := snapshot.unit
  runState := snapshot.state
  health := health
  healthMessage := message
  lastProbeEpochMs := probedAtMs
  consecutiveFailures := sup.counters.consecutiveFailures
  restartsInOutage := sup.counters.restartsInOutage
  totalRestarts := sup.counters.totalRestarts
  nextRestartEpochMs := sup.counters.nextRestartAt.map fun later =>
    min (nowMs + (later - now) / 1000000) u64Max
  probePort := snapshot.probe.map (·.port)
  pollInterval := pollInterval

/-- What came of an autonomous restart. -/
inductive AttemptOutcome where
  | report
  | alreadyInFlight
  | unknownService
  deriving DecidableEq, Repr

/-! ## The two writers -/

/-- Where a discovery pass stands: the registry is written first, then the rows, and then the
supervisors are reaped and spawned. -/
inductive Pass where
  | idle
  | enumerated (services : Services)
  | synced (services : Services)

structure Dashboard where
  policy : SupervisionPolicy
  clock : Nat
  registry : Services
  rows : List ServiceHealthStatus
  pass : Pass
  /-- What the last pass wrote into the rows. -/
  lastPass : Option Services
  supervisors : Nat → Option HealthSupervisor
  nextSupervisor : Nat
  tasks : List (String × Nat)

inductive SupervisorInput where
  | look
  | observe (observation : TickObservation) (probedAtMs nowMs : Nat)
  | publish
  | attempt (outcome : AttemptOutcome)
  | notified (nowMs : Nat)
  | wake
  | seeCancelled

inductive DashboardInput where
  | tick (duration : Nat)
  | enumerate (services : Services)
  | sync
  | reconcile
  | supervisor (task : Nat) (input : SupervisorInput)

inductive DashboardEvent where
  /-- An autonomous restart of the service was reported to the supervisor that asked for it. -/
  | restarted (task : Nat) (name : String)
  /-- A row of the service was written with this lifetime count. -/
  | shown (name : String) (totalRestarts : Nat)
  deriving DecidableEq, Repr

namespace Dashboard

def new (policy : SupervisionPolicy) : Dashboard where
  policy := policy
  clock := 0
  registry := .empty
  rows := []
  pass := .idle
  lastPass := none
  supervisors := fun _ => none
  nextSupervisor := 0
  tasks := []

def setSupervisor (s : Dashboard) (task : Nat) (sup : HealthSupervisor) : Dashboard :=
  { s with supervisors := fun t => if t = task then some sup else s.supervisors t }

/-- The services a pass has to make a row for. -/
def newRows (s : Dashboard) (services : Services) : List String :=
  (services.values.map (·.name)).filter fun name => !hasRow s.rows name

def sync (s : Dashboard) (services : Services) : Dashboard :=
  { s with
    rows := syncDiscoveredServices s.rows services s.policy.pollInterval
    pass := .synced services
    lastPass := some services }

def spawn (s : Dashboard) (name : String) : Dashboard :=
  { s with
    nextSupervisor := s.nextSupervisor + 1
    tasks := (name, s.nextSupervisor) :: s.tasks }.setSupervisor s.nextSupervisor
      ⟨name, false, .new s.policy, .looking⟩

def reap (s : Dashboard) (services : Services) : Dashboard :=
  { s with
    supervisors := fun t => (s.supervisors t).map fun sup =>
      if (services.reaped s.tasks).contains t then { sup with cancelled := true } else sup
    tasks := services.kept s.tasks }

/-- Reap the supervisors whose service left the supervised set, spawn those it lacks. -/
def reconcile (s : Dashboard) (services : Services) : Dashboard :=
  let left := { s with pass := .idle }.reap services
  (services.newlySupervised left.tasks).foldl spawn left

/-- An observation: the counters move, and the row to publish is made. -/
def observed (s : Dashboard) (sup : HealthSupervisor) (snapshot : DiscoveredService)
    (observation : TickObservation) (probedAtMs nowMs : Nat) : HealthSupervisor :=
  let out := { sup with counters := sup.counters.resetOutage }
  let failed := { sup with counters := sup.counters.failed }
  let row (sup : HealthSupervisor) (health : ServiceHealth) (message : Option String) :=
    sup.status snapshot health message probedAtMs s.clock nowMs s.policy.pollInterval
  match observation with
  | .up => { out with stage := .publishing (row out .up none) }
  | .degraded message => { out with stage := .publishing (row out .degraded message) }
  | .unknown => { out with stage := .publishing (row out .unknown none) }
  | .down => { failed with
      stage := .publishingDown (row failed .down none) snapshot probedAtMs }

/-- The stage a supervisor goes on from once its row is written. -/
def published (s : Dashboard) (sup : HealthSupervisor) : Option (ServiceHealthStatus ×
    HealthSupervisor) :=
  match sup.stage with
  | .publishing row => some (row, { sup with stage := .sleeping })
  | .publishingDown row snapshot probedAtMs =>
      if sup.counters.restartDue s.policy.failureThreshold s.clock then
        some (row, { sup with stage := .restarting snapshot probedAtMs })
      else some (row, { sup with stage := .sleeping })
  | _ => none

/-- One step of a supervisor's loop. -/
def run (s : Dashboard) (task : Nat) (sup : HealthSupervisor) :
    SupervisorInput → Option (Dashboard × List DashboardEvent)
  | .look =>
      match sup.stage with
      | .looking =>
          if sup.cancelled then some (s.setSupervisor task { sup with stage := .ended }, [])
          else
            match s.registry.get sup.name with
            | none => some (s.setSupervisor task { sup with stage := .sleeping }, [])
            | some snapshot =>
                some (s.setSupervisor task { sup with stage := .observing snapshot }, [])
      | _ => none
  | .observe observation probedAtMs nowMs =>
      match sup.stage with
      | .observing snapshot =>
          if snapshot.observes observation then
            some (s.setSupervisor task (s.observed sup snapshot observation probedAtMs nowMs), [])
          else none
      | _ => none
  | .publish =>
      match s.published sup with
      | some (row, sup') =>
          some ({ s with rows := setServiceHealth s.rows row }.setSupervisor task sup',
            [.shown row.name row.totalRestarts])
      | none => none
  | .attempt outcome =>
      match sup.stage with
      | .restarting snapshot probedAtMs =>
          match outcome with
          | .report =>
              some (s.setSupervisor task { sup with
                counters := sup.counters.restarted s.policy s.clock
                stage := .notifying snapshot probedAtMs }, [.restarted task sup.name])
          | _ => some (s.setSupervisor task { sup with stage := .sleeping }, [])
      | _ => none
  | .notified nowMs =>
      match sup.stage with
      | .notifying snapshot probedAtMs =>
          some (s.setSupervisor task { sup with
            stage := .publishing (sup.status snapshot .down none probedAtMs s.clock nowMs
              s.policy.pollInterval) }, [])
      | _ => none
  | .wake =>
      match sup.stage with
      | .sleeping => some (s.setSupervisor task { sup with stage := .looking }, [])
      | _ => none
  | .seeCancelled =>
      if sup.cancelled then
        match sup.stage with
        | .sleeping | .restarting _ _ =>
            some (s.setSupervisor task { sup with stage := .ended }, [])
        | _ => none
      else none

def step (s : Dashboard) : DashboardInput → Option (Dashboard × List DashboardEvent)
  | .tick duration => some ({ s with clock := s.clock + duration }, [])
  | .enumerate services =>
      match s.pass with
      | .idle => some ({ s with registry := services, pass := .enumerated services }, [])
      -- the builder's own pass, before the loop runs, spawns no supervisor
      | .synced _ =>
          if s.nextSupervisor = 0 then
            some ({ s with registry := services, pass := .enumerated services }, [])
          else none
      | .enumerated _ => none
  | .sync =>
      match s.pass with
      | .enumerated services =>
          some (s.sync services, (s.newRows services).map fun name => .shown name 0)
      | _ => none
  | .reconcile =>
      match s.pass with
      | .synced services => some (s.reconcile services, [])
      | _ => none
  | .supervisor task input => (s.supervisors task).bind fun sup => s.run task sup input

end Dashboard

end RustyPhoton.Sentinel
