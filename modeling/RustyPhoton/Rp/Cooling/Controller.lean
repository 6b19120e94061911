import RustyPhoton.Lib.Assoc
import RustyPhoton.Lib.Transition
import RustyPhoton.Rp.Cooling.Task

/-!
# The cooling controller

`start_cooldown` and `start_warmup` of `cooling.rs`, the cameras' records behind their lock, and the tasks.
Calls and tasks run side by side: a call takes the lock once a step, a task does its effects one by one
and stops, once aborted, where it would next wait. A task whose work is over counts as running until it
is reported finished.
-/

namespace RustyPhoton.Rp.Cooling

open Lib

inductive TaskKind where
  | cooldown
  | warmup
  deriving DecidableEq

/-- A camera's record; the stored task is its number among the tasks. -/
structure CameraCooling where
  rungC : Option Int
  commandedC : Option ℚ
  task : Option (TaskKind × Nat)

/-- A task: the effects it still has to do, and where it then waits, if it goes on. -/
structure CoolingTask where
  camera : String
  kind : TaskKind
  ladder : List Int
  pending : List Effect
  point : Option TaskPoint
  aborted : Bool
  finished : Bool

/-- A call, from one of its steps to the next. -/
inductive Caller where
  | cooldown (rest : List (String × List Int)) (driving : List String)
  /-- No pass runs for the camera: the stored task is to be aborted. -/
  | replacing (camera : String) (ladder : List Int) (rest : List (String × List Int)) (driving : List String)
  | spawning (camera : String) (ladder : List Int) (rest : List (String × List Int)) (driving : List String)
  | storing (camera : String) (task : Nat) (rest : List (String × List Int)) (driving : List String)
  | cooldownReturned (driving : List String)
  | warmup
  /-- The ramps to spawn, and the cameras that are warming. -/
  | ramping (toSpawn : List (String × ℚ)) (warming : List String)
  | storingRamp (camera : String) (task : Nat) (toSpawn : List (String × ℚ)) (warming : List String)
  | warmupReturned (warming : List String)
  deriving DecidableEq

structure Controller where
  clock : Nat
  /-- A camera without an entry has the empty record. -/
  states : String → CameraCooling
  tasks : List CoolingTask
  callers : List Caller

inductive ControlInput where
  | startCooldown
  | startWarmup
  /-- A call's next step; the camera is the next one a ramp is spawned for. -/
  | advance (caller : Nat) (camera : String)
  | answer (task : Nat) (elapsed : Nat) (answer : Answer)
  | act (task : Nat)
  | finish (task : Nat)

inductive ControlRecord where
  | cooldownSpawned (task : Nat) (camera : String)
  | superseded (task : Nat)
  /-- The task wrote its camera's record. -/
  | wrote (task : Nat)
  | warmupReturned (warming : List String)
  deriving DecidableEq

/-- The effects that write the camera's record. -/
def Effect.writes : Effect → Bool
  | .setCommanded _ | .setRung _ | .clearState => true
  | _ => false

namespace CameraCooling

def empty : CameraCooling := ⟨none, none, none⟩

/-- `set_commanded`, `set_rung` and `clear_state`. -/
def write (entry : CameraCooling) : Effect → CameraCooling
  | .setCommanded setpoint => { entry with commandedC := some setpoint }
  | .setRung rung => { entry with rungC := some rung, commandedC := some (rung : ℚ) }
  | .clearState => { entry with rungC := none, commandedC := none }
  | _ => entry

end CameraCooling

namespace CoolingTask

def spawn (camera : String) (kind : TaskKind) (ladder : List Int) (point : TaskPoint) : CoolingTask :=
  ⟨camera, kind, ladder, [], some point, false, false⟩

/-- It waits for an answer. -/
def waitsAt (task : CoolingTask) : Option TaskPoint :=
  if task.pending = [] ∧ task.aborted = false then task.point else none

/-- It has a write of the camera's record to do before it waits again. -/
def writesNext (task : CoolingTask) : Bool := task.pending.any Effect.writes

end CoolingTask

namespace Controller

def update (s : Controller) (camera : String) (entry : CameraCooling) : Controller :=
  { s with states := Function.update s.states camera entry }

def setTask (s : Controller) (id : Nat) (task : CoolingTask) : Controller :=
  { s with tasks := s.tasks.set id task }

def setCaller (s : Controller) (index : Nat) (caller : Caller) : Controller :=
  { s with callers := s.callers.set index caller }

/-- The dark-library rung currently commanded for a camera. -/
def rungFor (s : Controller) (camera : String) : Option Int := (s.states camera).rungC

/-- The kind of task still running for the camera. -/
def runningTask (s : Controller) (camera : String) : Option TaskKind :=
  (s.states camera).task.bind fun (kind, id) =>
    if (s.tasks[id]?).any CoolingTask.finished then none else some kind

/-- The tasks are told to stop. -/
def abort (tasks : List CoolingTask) (ids : List Nat) : List CoolingTask :=
  tasks.mapIdx fun id task => if id ∈ ids then { task with aborted := true } else task

/-- The task stored for a camera. -/
def stored (s : Controller) (camera : String) : List Nat := ((s.states camera).task.map Prod.snd).toList

/-- `abort_task`. -/
def abortTask (s : Controller) (camera : String) : Controller :=
  { s.update camera { s.states camera with task := none } with tasks := abort s.tasks (s.stored camera) }

/-- `store_task`. -/
def storeTask (s : Controller) (camera : String) (kind : TaskKind) (id : Nat) : Controller :=
  { s.update camera { s.states camera with task := some (kind, id) } with
    tasks := abort s.tasks (s.stored camera) }

def spawnTask (s : Controller) (task : CoolingTask) : Controller := { s with tasks := s.tasks ++ [task] }

/-! ### What `start_warmup` does under the lock, for one camera -/

def isWarming (s : Controller) (camera : String) : Bool := s.runningTask camera = some .warmup

/-- The camera is returned as warming. -/
def warms (s : Controller) (camera : String) : Bool :=
  s.isWarming camera || (s.states camera).commandedC.isSome

/-- The ramp to spawn. -/
def rampFrom (s : Controller) (camera : String) : Option (String × ℚ) :=
  if s.isWarming camera then none else (s.states camera).commandedC.map fun fromC => (camera, fromC)

def collected (s : Controller) (camera : String) : CameraCooling :=
  if s.isWarming camera then s.states camera
  else
    { s.states camera with
      task := none
      rungC := if (s.states camera).commandedC.isSome then none else (s.states camera).rungC }

/-- The tasks aborted. -/
def replaced (s : Controller) (camera : String) : List Nat :=
  if s.isWarming camera then [] else s.stored camera

variable (config : CoolingConfig) (ladders : List (String × List Int))

/-- The cameras that can have a record. -/
def cameras : List String := (ladders.map Prod.fst).dedup

/-- The part of `start_warmup` under the lock. -/
def collect (s : Controller) : Controller :=
  { s with
    states := fun camera => if camera ∈ cameras ladders then s.collected camera else s.states camera
    tasks := abort s.tasks ((cameras ladders).flatMap s.replaced) }

def advanceCaller (s : Controller) (index : Nat) (camera : String) : Caller →
    Option (Controller × List ControlRecord)
  | .cooldown [] driving => some (s.setCaller index (.cooldownReturned driving), [])
  | .cooldown ((camera, ladder) :: rest) driving =>
      some (s.setCaller index (if s.runningTask camera = some .cooldown then
        .cooldown rest (driving ++ [camera]) else .replacing camera ladder rest (driving ++ [camera])), [])
  | .replacing camera ladder rest driving =>
      some ((s.abortTask camera).setCaller index (.spawning camera ladder rest driving),
        (s.stored camera).map .superseded)
  | .spawning camera ladder rest driving =>
      some ((s.spawnTask (.spawn camera .cooldown ladder .cooldownSpawned)).setCaller index
        (.storing camera s.tasks.length rest driving), [.cooldownSpawned s.tasks.length camera])
  | .storing camera id rest driving =>
      some ((s.storeTask camera .cooldown id).setCaller index (.cooldown rest driving),
        (s.stored camera).map .superseded)
  | .warmup =>
      some ((s.collect ladders).setCaller index
          (.ramping ((cameras ladders).filterMap s.rampFrom) ((cameras ladders).filter s.warms)),
        ((cameras ladders).flatMap s.replaced).map .superseded)
  | .ramping [] warming =>
      some (s.setCaller index (.warmupReturned warming), [.warmupReturned warming])
  | .ramping toSpawn warming =>
      (toSpawn.lookup camera).map fun fromC =>
        ((s.spawnTask (.spawn camera .warmup [] (.warmupSpawned fromC))).setCaller index
          (.storingRamp camera s.tasks.length (Assoc.erase camera toSpawn) warming), [])
  | .storingRamp camera id toSpawn warming =>
      some ((s.storeTask camera .warmup id).setCaller index (.ramping toSpawn warming),
        (s.stored camera).map .superseded)
  | .cooldownReturned _ | .warmupReturned _ => none

def step (s : Controller) : ControlInput → Option (Controller × List ControlRecord)
  | .startCooldown => some ({ s with callers := s.callers ++ [.cooldown ladders []] }, [])
  | .startWarmup => some ({ s with callers := s.callers ++ [.warmup] }, [])
  | .advance index camera => (s.callers[index]?).bind fun caller => s.advanceCaller ladders index camera caller
  | .answer id elapsed answer =>
      (s.tasks[id]?).bind fun task =>
        task.waitsAt.bind fun point =>
          (resume config task.ladder (s.clock + elapsed) point answer).map fun resumed =>
            ({ s.setTask id { task with pending := resumed.1, point := resumed.2 } with
              clock := s.clock + elapsed }, [])
  | .act id =>
      (s.tasks[id]?).bind fun task =>
        match task.pending with
        | [] => none
        | effect :: rest =>
            some ((s.setTask id { task with pending := rest }).update task.camera
                ((s.states task.camera).write effect),
              if effect.writes then [.wrote id] else [])
  | .finish id =>
      (s.tasks[id]?).bind fun task =>
        if task.pending = [] ∧ (task.point = none ∨ task.aborted = true) then
          some (s.setTask id { task with finished := true }, [])
        else none

/-- No record, no task, no call. -/
def start : Controller := ⟨0, fun _ => .empty, [], []⟩

end Controller

end RustyPhoton.Rp.Cooling
