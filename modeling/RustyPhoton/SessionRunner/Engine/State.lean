import RustyPhoton.Lib.Traced
import RustyPhoton.SessionRunner.Blackboard

/-!
# The engine's state, its host and its trace

After `engine/mod.rs`, `engine/io.rs` and the fields of `Exec` in `engine/exec.rs`. Everything
outside the engine (the tool client, the clocks, the event intake, the stop token and the file
system) is one automaton `Host` over an arbitrary state: each use of the outside is an answer and a
new host state, so a result for every host is a result for every behaviour of the outside.

A run leaves a trace. Its leaves say what the engine did, and its spans group what one
instruction, block, safe point or trigger action did.
-/

namespace RustyPhoton.SessionRunner.Engine

open Lib

/-- One event as the engine consumes it. -/
structure EngineEvent where
  event : String
  payload : Value
  deriving DecidableEq

inductive ToolCallError where
  | safetyStopped (message : String)
  | unavailable (message : String)
  | failed (message : String)
  deriving DecidableEq

abbrev Answer := Except ToolCallError Value

/-- A workflow error: catchable by `try`. -/
structure WorkflowError where
  message : String
  instructionId : Option String
  tool : Option String
  deriving DecidableEq

/-- The `error.*` namespace value. -/
def WorkflowError.toValue (e : WorkflowError) : Value :=
  .object [("message", .string e.message), ("instruction_id", .ofOptionString e.instructionId),
    ("tool", .ofOptionString e.tool)]

inductive PauseReason where
  | safety (message : String)
  | rpOutage (message : String)
  deriving DecidableEq

/-- The reason an answer pauses the run, if it does. -/
def pauseReason : Answer → Option PauseReason
  | .error (.safetyStopped message) => some (.safety message)
  | .error (.unavailable message) => some (.rpOutage message)
  | _ => none

/-- Why execution stopped early. -/
inductive Interrupt where
  | error (e : WorkflowError)
  | paused (reason : PauseReason)
  | stopped
  deriving DecidableEq

/-- Why a computation of the model did not return: an interrupt, or the fuel of the model. -/
inductive Halt where
  | interrupt (i : Interrupt)
  | fuel
  deriving DecidableEq

/-- What ended a wait's sleep segment. -/
inductive Wake where
  | stop
  | event (e : EngineEvent)
  | slept
  deriving DecidableEq

/-- The result of an atomic write. A failed one may still have replaced the content: the fsync of
the directory comes after the rename. -/
inductive WriteResult where
  | written
  | failed (message : String) (replaced : Bool)
  deriving DecidableEq

/-- The outside of the engine. -/
structure Host (σ : Type) where
  call : String → List (String × Value) → σ → Answer × σ
  now : σ → DateTime × σ
  monotonic : σ → Duration × σ
  sleep : Duration → σ → σ
  /-- `EventIntake::try_next`. -/
  tryNext : σ → Option EngineEvent × σ
  /-- Whether the stop token has been cancelled since it was last asked. -/
  stop : σ → Bool × σ
  /-- The select of a wait, with the stop branch enabled or not. -/
  wait : Bool → Duration → σ → Wake × σ
  /-- `write_atomic` of the session. -/
  write : Value → σ → WriteResult × σ

/-- Every atomic write succeeds. -/
def Host.WritesSucceed {σ : Type} (host : Host σ) : Prop :=
  ∀ session h, (host.write session h).1 = .written

/-- What a run holds fixed. -/
structure Exec (σ : Type) where
  params : Value
  triggers : List Trigger
  host : Host σ

/-- What a run changes. -/
structure State (σ : Type) where
  host : σ
  /-- The blackboard's in-memory object and the content of its file. -/
  session : Value
  file : Option Value
  result : Value
  error : Option Value
  event : Option Value
  inTriggerAction : Bool
  pending : List EngineEvent
  occurrences : List (String × Nat)
  queued : List (Option Value)
  pollDue : List (Option Duration)
  honourStop : Bool
  /-- The stop token was seen cancelled; it stays so. -/
  cancelled : Bool

/-! ## The trace -/

/-- A leaf of the trace. -/
inductive Mark where
  /-- A tool was called and answered, with the stop honoured or not. -/
  | call (tool : String) (args : List (String × Value)) (answer : Answer) (honoured : Bool)
  /-- The blackboard at a tool call or a safe point. -/
  | snapshot (session : Value) (file : Option Value)
  | clock (t : DateTime)
  /-- A `set` starts to write these values over this session. -/
  | writes (writes : List (List String × Value)) (session : Value)
  /-- A safe point raised the stop. -/
  | stopRaised
  /-- An event entered `pending` from the intake, or from the engine itself. -/
  | received (e : EngineEvent)
  | synthesized (e : EngineEvent)
  /-- The pump took an event out of `pending` and counted it. -/
  | counted (e : EngineEvent)
  /-- An event was considered for the event trigger at this index. -/
  | offered (e : EngineEvent) (index : Nat)
  /-- An `until_event` wait was satisfied, from the occurrences or straight from `pending`. -/
  | satisfied (name : String) (fromPending inAction : Bool)
  | onceSkipped (key : String)
  | onceCompleted (key : String)
  /-- A firing was queued, in place of another one or not. -/
  | queued (index : Nat) (replaced : Bool)
  | triggerCompleted (index : Nat) (at_ : DateTime)

/-- What a span of the trace covers. -/
inductive Label where
  | instruction (ins : Instruction)
  | safePoint
  | try_ (finally_ : Option (List Instruction))
  | body
  /-- A `catch` block, and whether its `try` has a `finally`. -/
  | catch_ (guarded : Bool)
  /-- A `finally` block, and the interrupt it runs for, none on the success path. -/
  | finally_ (cause : Option Interrupt) (block : List Instruction)
  | action (index : Nat)
  /-- One event's turn in trigger evaluation. -/
  | considering (e : EngineEvent)

inductive Node where
  | mark (m : Mark)
  | span (label : Label) (trace : List Node) (halt : Option Halt)

abbrev Trace := List Node

/-- A computation of the engine. -/
abbrev M (σ : Type) := Traced (State σ) Halt Node

/-! ## Steps -/

section Steps

variable {σ α : Type}

/-- Ask the host. -/
def ask (f : σ → α × σ) : M σ α :=
  Traced.step fun s => ((f s.host).1, [], { s with host := (f s.host).2 })

def mark (m : Mark) : M σ Unit := Traced.emit (.mark m)

def span (label : Label) (m : M σ α) : M σ α := Traced.span (.span label) m

def raise (i : Interrupt) : M σ α := Traced.halt (.interrupt i)

/-- A workflow error raised at an instruction. -/
def errorHere (ins : Instruction) (message : String) : M σ α :=
  raise (.error ⟨message, ins.id, none⟩)

variable (x : Exec σ)

def now : M σ DateTime := do
  let t ← ask x.host.now
  mark (.clock t)
  pure t

def monotonic : M σ Duration := ask x.host.monotonic

def sleep (d : Duration) : M σ Unit := ask fun h => ((), x.host.sleep d h)

/-- The blackboard as it is here. -/
def snapshot : M σ Unit :=
  Traced.step fun s => ((), [.mark (.snapshot s.session s.file)], s)

def callTool (tool : String) (args : List (String × Value)) : M σ Answer :=
  Traced.step fun s =>
    let answer := x.host.call tool args s.host
    (answer.1,
      [.mark (.snapshot s.session s.file), .mark (.call tool args answer.1 s.honourStop)],
      { s with host := answer.2 })

/-- `Blackboard::persist`; the error is its text. -/
def persist : M σ (Except String Unit) :=
  Traced.step fun s =>
    match x.host.write s.session s.host with
    | (.written, h) => (.ok (), [], { s with host := h, file := some s.session })
    | (.failed message replaced, h) =>
        (.error message, [],
          { s with host := h, file := if replaced then some s.session else s.file })

/-- An event enters `pending`. -/
def receive (e : EngineEvent) : M σ Unit :=
  Traced.step fun s => ((), [.mark (.received e)], { s with pending := s.pending ++ [e] })

def synthesize (e : EngineEvent) : M σ Unit :=
  Traced.step fun s => ((), [.mark (.synthesized e)], { s with pending := s.pending ++ [e] })

end Steps

end RustyPhoton.SessionRunner.Engine
