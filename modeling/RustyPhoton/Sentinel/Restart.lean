import RustyPhoton.Sentinel.Discovery

/-!
# Restarts

Three paths restart a service: the REST endpoint, the watchdog's corrective ladder and a health
supervisor. Each claims the service's slot in a shared gate and holds it while it waits for the
platform command and for the recovery check. The slot belongs to the one who waits; the command
runs on without it.
-/

namespace RustyPhoton.Sentinel

/-- Who asks for a restart. -/
inductive RestartCaller where
  | rest
  | ladder
  | supervisor (task : Nat)
  deriving DecidableEq, Repr

/-- Where a restart stands, up to its next await. -/
inductive RestartStage where
  | looking
  | running (command : Nat)
  | recovering
  deriving DecidableEq, Repr

/-- Whether the slot in the gate is held. -/
def RestartStage.holdsSlot : RestartStage → Bool
  | .looking => false
  | .running _ | .recovering => true

structure RestartWaiter where
  caller : RestartCaller
  name : String
  stage : RestartStage
  deriving DecidableEq, Repr

/-- A health supervisor's task: its token, and the restart it waits for. -/
structure SupervisorTask where
  name : String
  cancelled : Bool
  attempt : Option Nat
  deriving DecidableEq, Repr

structure Restarts where
  registry : Services
  /-- The names in the gate's set. -/
  inFlight : String → Bool
  waiters : Nat → Option RestartWaiter
  nextWaiter : Nat
  /-- The platform commands, each with its success once it has ended. -/
  commands : Nat → Option (Option Bool)
  nextCommand : Nat
  supervisors : Nat → Option SupervisorTask
  nextSupervisor : Nat
  /-- The discovery loop's own map, from names to the tasks it has not reaped. -/
  tasks : List (String × Nat)

inductive RestartEvent where
  | started (name : String) (command : Nat)
  | ended (command : Nat)
  /-- The one waiting for a command that still runs is gone. -/
  | abandoned (command : Nat)
  deriving DecidableEq, Repr

inductive RestartInput where
  | post (name : String)
  | restartRung (name : String)
  | attemptRestart (task : Nat)
  /-- The restart takes the slot and spawns the command, which may fail to spawn. -/
  | proceed (waiter : Nat) (spawned : Bool)
  /-- A command exits, or is killed at its budget. -/
  | exits (command : Nat) (success : Bool)
  | wake (waiter : Nat)
  | recovered (waiter : Nat)
  /-- The client of the REST endpoint, or the watchdog, stops waiting. -/
  | drop (waiter : Nat)
  | discover (services : Services)
  /-- A supervisor sees that its token is cancelled. -/
  | cancelled (task : Nat)

namespace Restarts

def new : Restarts where
  registry := .empty
  inFlight := fun _ => false
  waiters := fun _ => none
  nextWaiter := 0
  commands := fun _ => none
  nextCommand := 0
  supervisors := fun _ => none
  nextSupervisor := 0
  tasks := []

def setWaiter (s : Restarts) (waiter : Nat) (value : Option RestartWaiter) : Restarts :=
  { s with waiters := fun w => if w = waiter then value else s.waiters w }

def setCommand (s : Restarts) (command : Nat) (value : Option (Option Bool)) : Restarts :=
  { s with commands := fun c => if c = command then value else s.commands c }

def setSupervisor (s : Restarts) (task : Nat) (value : Option SupervisorTask) : Restarts :=
  { s with supervisors := fun t => if t = task then value else s.supervisors t }

/-- `try_acquire`, where the slot is free. -/
def acquire (s : Restarts) (name : String) : Restarts :=
  { s with inFlight := fun n => n = name || s.inFlight n }

/-- The slot's drop. -/
def release (s : Restarts) (name : String) : Restarts :=
  { s with inFlight := fun n => n ≠ name && s.inFlight n }

/-- A restart ends, and with it the slot it may hold. -/
def finish (s : Restarts) (waiter : Nat) (x : RestartWaiter) : Restarts :=
  if x.stage.holdsSlot then (s.setWaiter waiter none).release x.name
  else s.setWaiter waiter none

/-- Nobody waits for the command any more, which still runs. -/
def abandons (s : Restarts) (x : RestartWaiter) : List RestartEvent :=
  match x.stage with
  | .running command => if s.commands command = some none then [.abandoned command] else []
  | _ => []

def enter (s : Restarts) (caller : RestartCaller) (name : String) : Restarts :=
  { s with nextWaiter := s.nextWaiter + 1 }.setWaiter s.nextWaiter (some ⟨caller, name, .looking⟩)

/-- `RestartManager::restart` and `CorrectiveLadder::run_restart` up to the command's await. Only
the ladder has its unit already. -/
def proceed (s : Restarts) (waiter : Nat) (x : RestartWaiter) (spawned : Bool) :
    Restarts × List RestartEvent :=
  if x.caller ≠ .ladder && (s.registry.get x.name).isNone then (s.setWaiter waiter none, [])
  else if s.inFlight x.name then (s.setWaiter waiter none, [])
  else if spawned then
    ((({ s with nextCommand := s.nextCommand + 1 }.acquire x.name).setCommand s.nextCommand
        (some none)).setWaiter waiter (some { x with stage := .running s.nextCommand }),
      [.started x.name s.nextCommand])
  else (s.setWaiter waiter none, [])

/-- Whether the supervisor waits for a restart. -/
def attempting (s : Restarts) (t : SupervisorTask) : Bool :=
  t.attempt.any fun waiter => (s.waiters waiter).isSome

/-- Reap the supervisors whose service left the supervised set. -/
def reap (s : Restarts) (services : Services) : Restarts :=
  { s with
    supervisors := fun t => (s.supervisors t).map fun task =>
      if (services.reaped s.tasks).contains t then { task with cancelled := true } else task
    tasks := services.kept s.tasks }

/-- Spawn a supervisor. -/
def spawn (s : Restarts) (name : String) : Restarts :=
  { s with
    nextSupervisor := s.nextSupervisor + 1
    tasks := (name, s.nextSupervisor) :: s.tasks }.setSupervisor s.nextSupervisor
      (some ⟨name, false, none⟩)

/-- One pass of the discovery loop. -/
def discover (s : Restarts) (services : Services) : Restarts :=
  let left := { s with registry := services }.reap services
  (services.newlySupervised left.tasks).foldl spawn left

def step (s : Restarts) : RestartInput → Option (Restarts × List RestartEvent)
  | .post name => some (s.enter .rest name, [])
  | .restartRung name => some (s.enter .ladder name, [])
  | .attemptRestart task =>
      match s.supervisors task with
      | some t =>
          if s.attempting t then none
          else some ((s.enter (.supervisor task) t.name).setSupervisor task
            (some { t with attempt := some s.nextWaiter }), [])
      | none => none
  | .proceed waiter spawned =>
      match s.waiters waiter with
      | some x => if x.stage = .looking then some (s.proceed waiter x spawned) else none
      | none => none
  | .exits command success =>
      if s.commands command = some none then
        some (s.setCommand command (some (some success)), [.ended command])
      else none
  | .wake waiter =>
      match s.waiters waiter with
      | some x =>
          match x.stage with
          | .running command =>
              match s.commands command with
              | some (some true) =>
                  some (s.setWaiter waiter (some { x with stage := .recovering }), [])
              | some (some false) => some (s.finish waiter x, [])
              | _ => none
          | _ => none
      | none => none
  | .recovered waiter =>
      match s.waiters waiter with
      | some x => if x.stage = .recovering then some (s.finish waiter x, []) else none
      | none => none
  | .drop waiter =>
      match s.waiters waiter with
      | some x =>
          match x.caller with
          | .supervisor _ => none
          | _ => some (s.finish waiter x, s.abandons x)
      | none => none
  | .discover services => some (s.discover services, [])
  | .cancelled task =>
      match s.supervisors task with
      | some t =>
          if t.cancelled then
            match t.attempt.bind fun waiter => (s.waiters waiter).map (waiter, ·) with
            | some (waiter, x) =>
                some ((s.finish waiter x).setSupervisor task none, s.abandons x)
            | none => some (s.setSupervisor task none, [])
          else none
      | none => none

end Restarts

end RustyPhoton.Sentinel
