import RustyPhoton.Lib.Instant
import RustyPhoton.Rp.Events.Stream
import RustyPhoton.Sentinel.Discovery

/-!
# The operation watchdog

After `watchdog.rs`, with `rp` and its event stream before it: the frames that arrive in the channel
of a connection, the operations that are tracked and their deadlines. The reading task fills the
channel in its own time, so that an event is emitted, yielded, delivered and handled in four steps,
and anything may happen between them. The clock counts nanoseconds. The rendering of an alert and
the notifiers, and what the ladder does, are left out; so is the end of the program.
-/

namespace RustyPhoton.Sentinel

open Lib Rp.Events
open SessionRunner.Events (SseFrame)

/-! ## Frames -/

/-- What a frame means to the watchdog. -/
inductive FrameAction where
  | started (family : String) (operationId : String) (maxDurationMs : Option Nat)
  | ended (operationId : String)
  | gap
  | ignore
  deriving DecidableEq

/-- Classify a frame by its event type, with its data as JSON. -/
def classify (frame : SseFrame) (json : Value) : FrameAction :=
  let operationId := (json.get "operation_id").bind Value.asStr
  let event := frame.event.or (((json.get "event").bind Value.asStr).map String.toList)
  match event with
  | none => .ignore
  | some event =>
      if event = "stream_gap".toList then .gap
      else match List.dropSuffix? event "_started".toList with
        | some family =>
            match operationId with
            | some id =>
                .started (String.ofList family) id
                  ((json.get "max_duration_ms").bind Value.asU64)
            | none => .ignore
        | none =>
            if "_complete".toList.isSuffixOf event || "_failed".toList.isSuffixOf event then
              match operationId with
              | some id => .ended id
              | none => .ignore
            else .ignore

/-- The meaning of a frame; data that is no JSON reads as null. -/
def frameAction (wire : Wire) (item : Item) : FrameAction :=
  let frame := wire.frame item
  classify frame ((wire.fromStr frame.data).getD .null)

/-! ## Configuration -/

inductive OnExpiry where
  | notifyOnly
  | abortThenRestart
  deriving DecidableEq

/-- Per-operation-family policy. -/
structure OperationPolicy where
  buffer : Option Nat
  onExpiry : OnExpiry
  service : Option String

structure OperationWatchdogConfig where
  reconnectMaxAttempts : Nat
  reconnectBackoff : Nat
  defaultBuffer : Nat
  operations : List (String × OperationPolicy)

namespace OperationWatchdogConfig

def bufferFor (config : OperationWatchdogConfig) (family : String) : Nat :=
  ((config.operations.lookup family).bind (·.buffer)).getD config.defaultBuffer

def onExpiryFor (config : OperationWatchdogConfig) (family : String) : OnExpiry :=
  ((config.operations.lookup family).map (·.onExpiry)).getD .notifyOnly

end OperationWatchdogConfig

/-- The Alpaca device an operation family drives. -/
structure AlpacaBinding where
  deviceType : String
  abortVerb : String
  deriving DecidableEq

def alpacaBinding (family : String) : Option AlpacaBinding :=
  if family = "slew" ∨ family = "park" then some ⟨"telescope", "abortslew"⟩
  else if family = "exposure" then some ⟨"camera", "abortexposure"⟩
  else if family = "move_focuser" then some ⟨"focuser", "halt"⟩
  else none

structure CorrectiveTarget where
  serviceName : String
  unit : String
  baseUrl : Option String
  binding : Option AlpacaBinding
  deriving DecidableEq

def CorrectiveTarget.new (family : String) (service : DiscoveredService) : CorrectiveTarget :=
  ⟨service.name, service.unit, service.probe.map (·.alpacaBase), alpacaBinding family⟩

/-- The configured service of the family, if it is discovered. -/
def resolveTarget (config : OperationWatchdogConfig) (services : Services) (family : String) :
    Option CorrectiveTarget :=
  (((config.operations.lookup family).bind (·.service)).bind services.get).map
    (CorrectiveTarget.new family)

/-- What the ladder is run against. -/
def ladderTarget (config : OperationWatchdogConfig) (services : Services) (family : String) :
    Option CorrectiveTarget :=
  if config.onExpiryFor family = .abortThenRestart then resolveTarget config services family
  else none

/-! ## Operations -/

/-- An operation that is tracked; one with no deadline has no timer. -/
structure Tracked where
  family : String
  started : Nat
  deadline : Option Nat
  /-- Where its start stands among the events of `rp`: the process and the number. -/
  place : Nat × Nat
  deriving DecidableEq

def Tracked.expired (t : Tracked) (now : Nat) : Bool := t.deadline.any (· ≤ now)

/-- An expiry too far out to represent leaves the operation untimed. -/
def deadlineOf (config : OperationWatchdogConfig) (family : String) (started : Nat)
    (maxDurationMs : Option Nat) : Option Nat :=
  maxDurationMs.bind fun ms =>
    checkedAdd started (min (ms * 1000000 + config.bufferFor family) durationMax)

/-- The arguments of an escalation. -/
structure Escalation where
  operation : String
  operationId : String
  elapsed : Nat
  reason : String
  action : String
  deriving DecidableEq

/-- What the log keeps. -/
inductive WatchdogTrace where
  | emitted (time : Nat) (x : Origin)
  /-- The events `rp` held when the watchdog connected. -/
  | connected (held : List Origin)
  /-- A frame came into the channel. -/
  | arrived (process : Nat) (item : Item)
  | handled (process : Nat) (item : Item)
  | corrected (operationId : String) (t : Tracked) (target : CorrectiveTarget)
  | exceeded (t : Tracked) (escalation : Escalation)
  | unconfirmed (t : Tracked) (escalation : Escalation)
  | unresponsive (escalation : Escalation)
  deriving DecidableEq

/-- One operation whose deadline has passed: the ladder, where it runs, and the escalation. -/
def expire (config : OperationWatchdogConfig) (services : Services)
    (actionSuffix : CorrectiveTarget → String) (now : Nat) (operation : String × Tracked) :
    List WatchdogTrace :=
  let (operationId, t) := operation
  let elapsed := now - t.started
  match ladderTarget config services t.family with
  | some target =>
      [.corrected operationId t target,
        .exceeded t ⟨t.family, operationId, elapsed, "exceeded its deadline", actionSuffix target⟩]
  | none => [.exceeded t ⟨t.family, operationId, elapsed, "exceeded its deadline", ""⟩]

/-- An operation that is open when history is lost. -/
def unconfirm (now : Nat) (operation : String × Tracked) : WatchdogTrace :=
  let (operationId, t) := operation
  .unconfirmed t
    ⟨t.family, operationId, now - t.started, "is unconfirmed after an event-stream gap", ""⟩

/-- The operations as a frame leaves them, and what is reported. -/
def applyAction (config : OperationWatchdogConfig) (now : Nat) (place : Nat × Nat)
    (tracked : List (String × Tracked)) :
    FrameAction → List (String × Tracked) × List WatchdogTrace
  | .started family operationId maxDurationMs =>
      (Assoc.insert operationId ⟨family, now, deadlineOf config family now maxDurationMs, place⟩
        tracked, [])
  | .ended operationId => (Assoc.erase operationId tracked, [])
  | .gap => ([], tracked.map (unconfirm now))
  | .ignore => (tracked, [])

/-! ## The watchdog and what it watches -/

/-- Where the monitor's loop stands. -/
inductive Stage where
  | connecting
  | consuming
  | sleeping (wake : Nat)
  deriving DecidableEq

def mpscCapacity : Nat := 256

section Watch

variable {b : Broadcast EventEnvelope}

/-- `rp`, the connection, the channel it fills and the monitor. -/
structure Watch (b : Broadcast EventEnvelope) where
  /-- How often `rp` was restarted. -/
  process : Nat
  bus : EventBus b
  /-- What the running process has emitted. -/
  emitted : List EventEnvelope
  link : Option (Link b)
  clock : Nat
  channel : List (Nat × Item)
  stage : Stage
  tracked : List (String × Tracked)
  lastSeq : Option Nat
  attempts : Nat

def Watch.start : Watch b := ⟨0, .new, [], none, 0, [], .connecting, [], none, 0⟩

/-- What happens next. -/
inductive WatchdogInput where
  | tick (elapsed : Nat)
  | emit (envelope : EventEnvelope) (eventId timestamp : String)
  | restart
  /-- The stream looks for a live event. -/
  | serve
  /-- The reading task hands the next frame to the channel. -/
  | deliver
  /-- `rp` ends the stream. -/
  | close
  /-- The reading task ends, and with it the sender. -/
  | disconnect
  | connect
  | connectFails
  | receive
  /-- The channel is empty and its sender is gone. -/
  | ended
  /-- The timer of the earliest deadline. -/
  | timer (services : Services) (actionSuffix : CorrectiveTarget → String)
  | wake

/-- The earliest deadline. -/
def nextDeadline (tracked : List (String × Tracked)) : Option Nat :=
  (tracked.filterMap (·.2.deadline)).min?

/-- The highest number seen. -/
def advance (lastSeq id : Option Nat) : Option Nat :=
  match id with
  | some id => some (lastSeq.elim id (max · id))
  | none => lastSeq

def Watch.handleFrame (config : OperationWatchdogConfig) (wire : Wire) (s : Watch b) (process : Nat)
    (item : Item) : Watch b × List WatchdogTrace :=
  let id := (wire.frame item).id
  let (tracked, reports) :=
    applyAction config s.clock (process, id.getD 0) s.tracked (frameAction wire item)
  ({ s with lastSeq := advance s.lastSeq id, tracked }, .handled process item :: reports)

/-- Escalate, and stop tracking, every operation whose deadline has passed. -/
def Watch.fireExpired (config : OperationWatchdogConfig) (services : Services)
    (actionSuffix : CorrectiveTarget → String) (s : Watch b) : Watch b × List WatchdogTrace :=
  ({ s with tracked := s.tracked.filter fun operation => !operation.2.expired s.clock },
    (s.tracked.filter fun operation => operation.2.expired s.clock).flatMap
      (expire config services actionSuffix s.clock))

def unresponsive : Escalation :=
  ⟨"rp", "-", 0, "is unresponsive (event stream unreachable)", ""⟩

/-- A connect that failed: once too often in a row is escalated, and the count begins anew. -/
def Watch.connectFails (config : OperationWatchdogConfig) (s : Watch b) :
    Watch b × List WatchdogTrace :=
  let attempts := saturatingSucc u32Max s.attempts
  let stage := Stage.sleeping (s.clock + config.reconnectBackoff)
  if config.reconnectMaxAttempts ≠ 0 ∧ config.reconnectMaxAttempts ≤ attempts then
    ({ s with attempts := 0, stage }, [.unresponsive unresponsive])
  else ({ s with attempts, stage }, [])

def Watch.step (config : OperationWatchdogConfig) (wire : Wire) (s : Watch b) :
    WatchdogInput → Option (Watch b × List WatchdogTrace)
  | .tick elapsed =>
      if s.clock + elapsed ≤ instantMax then some ({ s with clock := s.clock + elapsed }, [])
      else none
  | .emit envelope eventId timestamp =>
      let e := s.bus.stamp envelope eventId timestamp
      some ({ s with
          bus := s.bus.dispatch envelope eventId timestamp
          emitted := s.emitted ++ [e] },
        [.emitted s.clock (s.process, e)])
  | .restart =>
      some ({ s with
          process := s.process + 1, bus := .new, emitted := []
          link := s.link.map Link.close }, [])
  | .serve =>
      match s.link with
      | some link =>
          if link.isOpen then some ({ s with link := some (link.serve s.bus.broadcast) }, []) else none
      | none => none
  | .deliver =>
      match s.link with
      | some ⟨process, item :: rest, receiver, isOpen⟩ =>
          if s.channel.length < mpscCapacity then
            some ({ s with
                link := some ⟨process, rest, receiver, isOpen⟩
                channel := s.channel ++ [(process, item)] }, [.arrived process item])
          else none
      | _ => none
  | .close => some ({ s with link := s.link.map Link.close }, [])
  | .disconnect => some ({ s with link := none }, [])
  | .connect =>
      if s.stage = .connecting then
        some ({ s with
            link := some (openStream s.process s.bus s.lastSeq), stage := .consuming, attempts := 0 },
          [.connected (s.bus.history.map (Prod.mk s.process))])
      else none
  | .connectFails => if s.stage = .connecting then some (s.connectFails config) else none
  -- the channel is asked before the timer
  | .receive =>
      match s.channel with
      | (process, item) :: rest =>
          if s.stage = .consuming then
            some ({ s with channel := rest }.handleFrame config wire process item)
          else none
      | [] => none
  | .ended =>
      if s.stage = .consuming ∧ s.channel = [] ∧ s.link.isNone then
        some ({ s with stage := .sleeping (s.clock + config.reconnectBackoff) }, [])
      else none
  | .timer services actionSuffix =>
      if s.stage = .consuming ∧ s.channel = [] ∧ s.link.isSome ∧
          (nextDeadline s.tracked).any (· ≤ s.clock) then
        some (s.fireExpired config services actionSuffix)
      else none
  | .wake =>
      match s.stage with
      | .sleeping wake => if wake ≤ s.clock then some ({ s with stage := .connecting }, []) else none
      | _ => none

/-! ## What the watchdog is held to -/

/-- Where an event stands: the process and the number. -/
def Precedes (p q : Nat × Nat) : Prop := p.1 < q.1 ∨ p.1 = q.1 ∧ p.2 < q.2

instance (p q : Nat × Nat) : Decidable (Precedes p q) := inferInstanceAs (Decidable (_ ∨ _))

/-- The event ends the operation. -/
def Finishes (operationId : String) (e : EventEnvelope) : Prop :=
  e.operationId = some operationId ∧
    ("_complete".toList <:+ e.event.toList ∨ "_failed".toList <:+ e.event.toList)

def WatchdogTrace.emission : WatchdogTrace → Option Origin
  | .emitted _ x => some x
  | _ => none

def WatchdogTrace.arrival : WatchdogTrace → Option Origin
  | .arrived process item => item.origin process
  | _ => none

/-- The events that were delivered. -/
def delivered (log : List WatchdogTrace) : List Origin := log.filterMap WatchdogTrace.arrival

/-- The event ends the operation that is tracked, and was emitted before its deadline. -/
def FinishedInTime (log : List WatchdogTrace) (operationId : String) (t : Tracked) (x : Origin) :
    Prop :=
  ∃ time deadline, .emitted time x ∈ log ∧ t.deadline = some deadline ∧ time < deadline ∧
    Precedes t.place (key x) ∧ Finishes operationId x.2

/-- At the next connect after the event was emitted, `rp` still held it. -/
def HeldAtNext (log : List WatchdogTrace) (x : Origin) : Prop :=
  ∃ a time b held c, log = a ++ .emitted time x :: (b ++ .connected held :: c) ∧
    (∀ other, .connected other ∉ b) ∧ x ∈ held

/-- The operation that an entry acts on as one that exceeded its deadline. -/
def WatchdogTrace.late : WatchdogTrace → Option (String × Tracked)
  | .corrected operationId t _ => some (operationId, t)
  | .exceeded t escalation => some (escalation.operationId, t)
  | _ => none

/-- The operation that an entry escalates. -/
def WatchdogTrace.alarm : WatchdogTrace → Option String
  | .exceeded _ escalation | .unconfirmed _ escalation => some escalation.operationId
  | _ => none

/-- The operation whose start an entry handles. -/
def WatchdogTrace.begun (wire : Wire) : WatchdogTrace → Option String
  | .handled _ item =>
      match frameAction wire item with
      | .started _ operationId _ => some operationId
      | _ => none
  | _ => none

/-- No operation is acted on that finished in time, where its end came through or was still held at
the next connect; and none is escalated more often than it was seen to start. -/
structure ActsOnlyOnOpen (wire : Wire) (log : List WatchdogTrace) : Prop where
  unfinished : ∀ a entry c operationId t, log = a ++ entry :: c → entry.late = some (operationId, t) →
    ∀ x, FinishedInTime a operationId t x → x ∉ delivered log ∧ ¬ HeldAtNext log x
  once : ∀ operationId, (log.filterMap WatchdogTrace.alarm).count operationId ≤
    (log.filterMap (WatchdogTrace.begun wire)).count operationId

/-- The operation of an event is read back from its frame. -/
def Told (wire : Wire) (e : EventEnvelope) : Prop :=
  ∃ v, wire.fromStr (wire.envelopeJson e) = some v ∧
    (v.get "operation_id").bind Value.asStr = e.operationId

/-- What the emitters and the JSON crate promise, and that the counter has not wrapped. -/
def Promised (wire : Wire) (s : Watch b) : WatchdogInput → Prop
  | .emit envelope eventId timestamp =>
      Told wire (s.bus.stamp envelope eventId timestamp) ∧ s.emitted.length + 1 < seqModulus
  | _ => True

/-- The event has not come, and cannot any more: it is not on its way, `rp` does not hold it, and it
did not at the next connect. -/
def Lost (log : List WatchdogTrace) (s : Watch b) (x : Origin) : Prop :=
  x ∉ delivered log ∧ (∀ link, s.link = some link → x ∉ link.queued) ∧
    ¬ (x.1 = s.process ∧ x.2 ∈ s.bus.history) ∧ ¬ HeldAtNext log x

/-- Of the operations that have expired, every end that was emitted in time has come into the
channel, or is lost. -/
def CaughtUp (log : List WatchdogTrace) (s : Watch b) : Prop :=
  ∀ operationId t, (operationId, t) ∈ s.tracked → t.expired s.clock = true →
    ∀ x, FinishedInTime log operationId t x → x ∈ delivered log ∨ Lost log s x

/-- The timer fires only when the watchdog has caught up. -/
def FiresCaughtUp (wire : Wire) (log : List WatchdogTrace) (s : Watch b) (i : WatchdogInput) : Prop :=
  Promised wire s i ∧
    ∀ services actionSuffix, i = .timer services actionSuffix → CaughtUp log s

end Watch

end RustyPhoton.Sentinel
