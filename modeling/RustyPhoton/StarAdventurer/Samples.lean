import Mathlib.Order.Lattice.Nat
import RustyPhoton.Lib.Transition
import RustyPhoton.StarAdventurer.MountDevice

/-!
# The cached axis samples

Sends, background polls, `poll_axes_now` calls and syncs share the cached snapshot of the two axes
and the table of commanded step periods. A task makes one wire exchange, one access to the table or
one write to the snapshot a step, and may be dropped between any two. Every step reads a later clock
than the one before. Times are readings of that clock, and `S` is the decoded reply to `:f`.
-/

namespace RustyPhoton.StarAdventurer.Samples

open RustyPhoton.Lib

variable {S : Type}

structure AxisSnapshot (S : Type) where
  positionTicks : ℤ
  sampledAt : WithBot ℕ
  status : Option S
  stepPeriod : ℕ
  rateBarrier : WithBot ℕ

namespace AxisSnapshot

def empty : AxisSnapshot S := ⟨0, ⊥, none, 0, ⊥⟩

/-- `merge_axis_if_newer` -/
def mergeIfNewer (cached fresh : AxisSnapshot S) : AxisSnapshot S :=
  if fresh.sampledAt < cached.sampledAt then cached
  else
    let rateBarrier := max cached.rateBarrier fresh.rateBarrier
    { fresh with
      stepPeriod := if fresh.sampledAt < rateBarrier then 0 else fresh.stepPeriod
      rateBarrier := rateBarrier }

/-- `mark_axis_rate_unknown` -/
def markRateUnknown (axis : AxisSnapshot S) (now : ℕ) : AxisSnapshot S :=
  { axis with stepPeriod := 0, rateBarrier := max axis.rateBarrier (now : WithBot ℕ) }

/-- `seed_ra_position` and `seed_dec_position` -/
def seed (axis : AxisSnapshot S) (ticks : ℤ) (sentAt : ℕ) : AxisSnapshot S :=
  { axis with positionTicks := ticks, sampledAt := (sentAt : WithBot ℕ) }

def recordPosition (out : AxisSnapshot S) (ticks : ℤ) (sentAt : ℕ) : AxisSnapshot S :=
  { out with positionTicks := ticks, sampledAt := (sentAt : WithBot ℕ) }

def recordStatus (out : AxisSnapshot S) (status : S) (stepPeriod : ℕ) : AxisSnapshot S :=
  { out with status := some status, stepPeriod := stepPeriod }

end AxisSnapshot

abbrev MountSnapshot (S : Type) := Axis → AxisSnapshot S

/-- The last tracking step period sent to each axis, and whether the axis is set up to track. -/
structure CommandedStepPeriods where
  period : Axis → ℕ
  tracking : Axis → Bool

/-- The axis argument of a command. -/
inductive Axes where
  | ra
  | dec
  | both

/-- The axes that a command applies to, in the order in which they are gone through. -/
def Axes.each : Axes → List Axis
  | ra => [.ra]
  | dec => [.dec]
  | both => [.ra, .dec]

/-- The commands that `send` keeps books on. -/
inductive Command where
  /-- `:G` -/
  | setMotionMode (axes : Axes) (kind : ModeKind)
  /-- `:I` -/
  | setStepPeriod (axes : Axes) (period : ℕ)
  /-- `:J` -/
  | startMotion (axes : Axes)
  /-- `:K` -/
  | stopMotion (axes : Axes)
  /-- `:L` -/
  | instantStop (axes : Axes)

/-- What a wire exchange came to. -/
inductive Reply (S : Type) where
  | failed
  | acked
  | position (ticks : ℤ)
  | status (status : S)

/-- What is noted in the log, with its time: only proofs read it. -/
inductive Note where
  /-- A tracking-mode `:G` was recorded. -/
  | tracking (axis : Axis) (time : ℕ)
  /-- A goto `:G` or a stop was recorded: no period is in force any more. -/
  | ended (axis : Axis) (time : ℕ)
  /-- An `:I` was recorded as a tracking period. -/
  | period (axis : Axis) (period : ℕ) (time : ℕ)
  /-- A sample took the commanded period. -/
  | copied (axis : Axis) (period : ℕ) (time : ℕ)
  /-- A `:j` sent at the time read the count. -/
  | read (axis : Axis) (ticks : ℤ) (time : ℕ)
  /-- An `:E` sent at the time wrote the count. -/
  | wrote (axis : Axis) (ticks : ℤ) (time : ℕ)
  /-- The seed for the `:E` sent at the time returned. -/
  | seeded (axis : Axis) (sentAt : ℕ)
  /-- The send of the stop that was recorded at the time returned. -/
  | returned (axis : Axis) (recorded : ℕ)
  deriving DecidableEq

/-- One axis of a poll in the making: `:j`, then `:f`, then the commanded period. -/
inductive Poll (S : Type) where
  | position
  | status (sample : AxisSnapshot S)
  | stepPeriod (sample : AxisSnapshot S) (status : S)

inductive Polled (S : Type) where
  | failed
  | polling (poll : Poll S)
  | sampled (sample : AxisSnapshot S)

/-- `poll_axis_via_ctx` and `poll_axis_via_session`, one step. -/
def Poll.step (periods : CommandedStepPeriods) (axis : Axis) (now : ℕ) (reply : Reply S) :
    Poll S → Polled S × List Note
  | position =>
      match reply with
      | .position ticks =>
          (.polling (.status (AxisSnapshot.empty.recordPosition ticks now)), [.read axis ticks now])
      | _ => (.failed, [])
  | status sample =>
      match reply with
      | .status read => (.polling (.stepPeriod sample read), [])
      | _ => (.failed, [])
  | stepPeriod sample read =>
      (.sampled (sample.recordStatus read (periods.period axis)),
        [.copied axis (periods.period axis) now])

/-- An axis to re-read, with when its stop was recorded if the command stops it. -/
structure Target where
  axis : Axis
  stoppedAt : Option ℕ

/-- The note that the send of a stop returned. -/
def Target.notes (target : Target) : List Note :=
  match target.stoppedAt with
  | some time => [.returned target.axis time]
  | none => []

/-- What `send_timed`, `poll_axes_now`, a cycle of `poll_loop` or a sync does next. -/
inductive Task (S : Type) where
  /-- The exchange of a command. -/
  | send (command : Command)
  /-- `set_mode` with the axes it has left; a stop keeps those it is through with. -/
  | setMode (kind : ModeKind) (left : List Axis) (stopping : Option (List Target))
  /-- `set_mode` has stored the flag of `axis` and has its period to forget. -/
  | forget (axis : Axis) (left : List Axis) (stopping : Option (List Target))
  /-- `record` with the axes it has left. -/
  | record (axes : Axes) (period : ℕ) (left : List Axis) (recorded : Bool)
  /-- `record` has loaded the flag of `axis` and has its period to store. -/
  | store (axes : Axes) (period : ℕ) (axis : Axis) (tracking : Bool) (left : List Axis)
      (recorded : Bool)
  /-- `refresh_axis_samples` before the barrier of a stopped axis. -/
  | mark (target : Target) (left done : List Target)
  | reread (target : Target) (left done : List Target) (poll : Poll S)
  | merge (target : Target) (left done : List Target) (sample : AxisSnapshot S)
  | pollRa (poll : Poll S)
  | pollDec (ra : AxisSnapshot S) (poll : Poll S)
  | publish (ra dec : AxisSnapshot S)
  /-- A sync before the `:E` of an axis. -/
  | write (axis : Axis) (ticks : ℤ) (left : List (Axis × ℤ))
  /-- A sync before the seed for an `:E`. -/
  | seed (axis : Axis) (ticks : ℤ) (sentAt : ℕ) (left : List (Axis × ℤ))

/-- A sync holds `axis_ownership` from its first write to its last seed. -/
def Task.isSync : Task S → Bool
  | write _ _ _ | seed _ _ _ _ => true
  | _ => false

/-- What the tasks share. -/
structure Shared (S : Type) where
  snapshot : MountSnapshot S
  stepPeriods : CommandedStepPeriods

namespace Shared

variable (m : Shared S)

def publish (axis : Axis) (sample : AxisSnapshot S) : Shared S :=
  { m with snapshot := Function.update m.snapshot axis sample }

def setPeriod (axis : Axis) (period : ℕ) : Shared S :=
  { m with stepPeriods := { m.stepPeriods with
      period := Function.update m.stepPeriods.period axis period } }

def setTracking (axis : Axis) (tracking : Bool) : Shared S :=
  { m with stepPeriods := { m.stepPeriods with
      tracking := Function.update m.stepPeriods.tracking axis tracking } }

/-- `merge_newer` -/
def mergeNewer (fresh : MountSnapshot S) : Shared S :=
  { m with snapshot := fun axis => (m.snapshot axis).mergeIfNewer (fresh axis) }

end Shared

/-- A step of a task: what is shared after it, the task it becomes, and what is noted. -/
structure Advance (S : Type) where
  shared : Shared S
  next : Option (Task S)
  notes : List Note

/-- `refresh_axis_samples` on to the next axis; with none left the send returns. -/
def Shared.refresh (m : Shared S) (notes : List Note) (left done : List Target) : Advance S :=
  match left with
  | [] => ⟨m, none, notes ++ done.flatMap Target.notes⟩
  | target :: left =>
      match target.stoppedAt with
      | some _ => ⟨m, some (.mark target left done), notes⟩
      | none => ⟨m, some (.reread target left done .position), notes⟩

/-- `set_mode` on to the next axis; a stop then re-reads its axes, a `:G` returns. -/
def Shared.afterMode (m : Shared S) (notes : List Note) (kind : ModeKind) (left : List Axis)
    (stopping : Option (List Target)) : Advance S :=
  match left, stopping with
  | [], none => ⟨m, none, notes⟩
  | [], some stopped => m.refresh notes stopped []
  | _ :: _, _ => ⟨m, some (.setMode kind left stopping), notes⟩

/-- `record` on to the next axis; then a tracking axis is re-read. -/
def Shared.afterRecord (m : Shared S) (notes : List Note) (axes : Axes) (period : ℕ)
    (left : List Axis) (recorded : Bool) : Advance S :=
  match left with
  | [] =>
      if recorded then m.refresh notes (axes.each.map (⟨·, none⟩)) [] else ⟨m, none, notes⟩
  | _ :: _ => ⟨m, some (.record axes period left recorded), notes⟩

/-- The sync on to the next axis. -/
def Shared.afterSeed (m : Shared S) (notes : List Note) : List (Axis × ℤ) → Advance S
  | [] => ⟨m, none, notes⟩
  | (axis, ticks) :: left => ⟨m, some (.write axis ticks left), notes⟩

/-- What `send_timed` does once the command is acknowledged. -/
def Shared.acknowledged (m : Shared S) : Command → Advance S
  | .setMotionMode axes kind => m.afterMode [] kind axes.each none
  | .setStepPeriod axes period => m.afterRecord [] axes period axes.each false
  | .startMotion axes => m.refresh [] (axes.each.map (⟨·, none⟩)) []
  | .stopMotion axes | .instantStop axes => m.afterMode [] .goto axes.each (some [])

/-- The step of a task at a time, with the reply if it makes an exchange. -/
def Shared.advance (m : Shared S) (now : ℕ) (reply : Reply S) : Task S → Advance S
  | .send command =>
      match reply with
      | .acked => m.acknowledged command
      | _ => ⟨m, none, []⟩
  | .setMode _ [] _ => ⟨m, none, []⟩
  | .setMode .tracking (axis :: left) stopping =>
      (m.setTracking axis true).afterMode [.tracking axis now] .tracking left stopping
  | .setMode .goto (axis :: left) stopping =>
      ⟨m.setTracking axis false, some (.forget axis left stopping), []⟩
  | .forget axis left stopping =>
      (m.setPeriod axis 0).afterMode [.ended axis now] .goto left
        (stopping.map (· ++ [⟨axis, some now⟩]))
  | .record _ _ [] _ => ⟨m, none, []⟩
  | .record axes period (axis :: left) recorded =>
      ⟨m, some (.store axes period axis (m.stepPeriods.tracking axis) left recorded), []⟩
  | .store axes period axis tracking left recorded =>
      (m.setPeriod axis (if tracking then period else 0)).afterRecord
        (if tracking then [.period axis period now] else []) axes period left (recorded || tracking)
  | .mark target left done =>
      ⟨m.publish target.axis ((m.snapshot target.axis).markRateUnknown now),
        some (.reread target left done .position), []⟩
  | .reread target left done poll =>
      match poll.step m.stepPeriods target.axis now reply with
      | (.failed, notes) => m.refresh notes left (done ++ [target])
      | (.polling poll, notes) => ⟨m, some (.reread target left done poll), notes⟩
      | (.sampled sample, notes) =>
          let sample := if target.stoppedAt.isSome then { sample with stepPeriod := 0 } else sample
          ⟨m, some (.merge target left done sample), notes⟩
  | .merge target left done sample =>
      (m.publish target.axis ((m.snapshot target.axis).mergeIfNewer sample)).refresh [] left
        (done ++ [target])
  | .pollRa poll =>
      match poll.step m.stepPeriods .ra now reply with
      | (.failed, notes) => ⟨m, none, notes⟩
      | (.polling poll, notes) => ⟨m, some (.pollRa poll), notes⟩
      | (.sampled ra, notes) => ⟨m, some (.pollDec ra .position), notes⟩
  | .pollDec ra poll =>
      match poll.step m.stepPeriods .dec now reply with
      | (.failed, notes) => ⟨m, none, notes⟩
      | (.polling poll, notes) => ⟨m, some (.pollDec ra poll), notes⟩
      | (.sampled dec, notes) => ⟨m, some (.publish ra dec), notes⟩
  | .publish ra dec =>
      ⟨m.mergeNewer fun
        | .ra => ra
        | .dec => dec, none, []⟩
  | .write axis ticks left =>
      match reply with
      | .acked => ⟨m, some (.seed axis ticks now left), [.wrote axis ticks now]⟩
      | _ => ⟨m, none, []⟩
  | .seed axis ticks sentAt left =>
      (m.publish axis ((m.snapshot axis).seed ticks sentAt)).afterSeed [.seeded axis sentAt] left

/-- What the driver is asked for, or does of itself. -/
inductive Job where
  | send (command : Command)
  /-- A cycle of the poll loop, or a `poll_axes_now` call. -/
  | poll
  | sync (raTicks decTicks : ℤ)

def Job.task : Job → Task S
  | send command => .send command
  | poll => .pollRa .position
  | sync raTicks decTicks => .write .ra raTicks [(.dec, decTicks)]

structure Driver (S : Type) where
  now : ℕ
  shared : Shared S
  tasks : ℕ → Option (Task S)
  /-- Who syncs, under `axis_ownership`. -/
  syncing : Option ℕ

/-- Nothing has been sampled and no rate is in force. -/
def Driver.fresh : Driver S :=
  ⟨0, ⟨fun _ => .empty, ⟨fun _ => 0, fun _ => false⟩⟩, fun _ => none, none⟩

inductive Move (S : Type) where
  /-- Time passes. -/
  | wait (time : ℕ)
  | start (number : ℕ) (job : Job)
  | step (number : ℕ) (reply : Reply S)
  /-- The future is dropped where it waits. -/
  | drop (number : ℕ)

/-- `axis_ownership` is let go of with the last step of the sync. -/
def release (syncing : Option ℕ) (number : ℕ) (next : Option (Task S)) : Option ℕ :=
  if next.isNone ∧ syncing = some number then none else syncing

def Driver.step (s : Driver S) : Move S → Option (Driver S × List Note)
  | .wait time => some ({ s with now := s.now + time }, [])
  | .start number job =>
      match s.tasks number with
      | some _ => none
      | none =>
          let task : Task S := job.task
          -- a sync waits here for the one before it to let go
          if task.isSync ∧ s.syncing.isSome then none
          else some ({ s with
            tasks := Function.update s.tasks number (some task)
            syncing := if task.isSync then some number else s.syncing }, [])
  | .step number reply =>
      match s.tasks number with
      | none => none
      | some task =>
          let now := s.now + 1
          let after := s.shared.advance now reply task
          some (⟨now, after.shared, Function.update s.tasks number after.next,
            release s.syncing number after.next⟩, after.notes)
  | .drop number =>
      some ({ s with
        tasks := Function.update s.tasks number none
        syncing := release s.syncing number (none : Option (Task S)) }, [])

/-- The moves of a driver, in any interleaving. -/
abbrev Driver.Run (moves : List (Move S)) (log : List Note) (s : Driver S) : Prop :=
  History Driver.step (fun _ _ _ => True) .fresh moves log s

end RustyPhoton.StarAdventurer.Samples
