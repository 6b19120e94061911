import RustyPhoton.SessionRunner.Engine.State

/-!
# The procedure-tree walk

After `engine/exec.rs`, function by function. Block execution re-enters itself through
containers, trigger actions and waits; each function that does takes the block execution `run` as a
parameter, and only `execBlock` ties the knot, on fuel. The fuel also bounds the rounds of the loops
that the outside can prolong (a wait, the intake drain). Running out of it is no interrupt: nothing
catches it, and the trace up to there is kept.
-/

namespace RustyPhoton.SessionRunner.Engine

open Lib Expr

/-- The synthetic `correction_requested` event of a tool result that carries a correction. -/
def correctionEvent (result : Value) : Option EngineEvent := do
  let status := (result.get "status").bind Value.asStr
  let (correction, delivery) ←
    if status = some "aborted" || status = some "blocked_by_correction" then
      (result.get "correction").map fun c => (c, "immediate")
    else (result.get "pending_correction").map fun c => (c, "after_current")
  let fields ← correction.asObject
  pure ⟨"correction_requested", .object (Assoc.insert "delivery" (.string delivery) fields)⟩

/-- A whole-number argument within the exact-integer range is sent as a JSON integer. -/
def integralArg (value : Value) : Value :=
  match value with
  | .number n =>
      if n.isI64 || n.isU64 then value
      else match exactInt n.asF64 with
        | some i => .number (Number.ofInt i)
        | none => value
  | _ => value

/-- A value as a loop bound. -/
def integerValue (value : Value) : Option Nat :=
  value.asF64.bind exactNat

section Instructions

variable [Crates] {σ : Type} (x : Exec σ)

/-- `Exec::ctx`: every evaluation reads the clock. -/
def ctx : M σ EvalContext := do
  let s ← Traced.read
  let t ← now x
  pure ⟨some x.params, some s.session, some s.result, s.event, s.error, t⟩

/-- Evaluate an expression; an error is a workflow error at this instruction. -/
def evalAt (ins : Instruction) (expr : Expression) (role : String) : M σ Value := do
  match expr.eval (← ctx x) with
  | .ok v => pure v
  | .error e => errorHere ins (role ++ " `" ++ expr.src ++ "` failed: " ++ e.toText)

/-- Evaluate an expression that must yield a boolean. -/
def condition (ins : Instruction) (expr : Expression) (role : String) : M σ Bool := do
  match ← evalAt x ins expr role with
  | .bool b => pure b
  | other => errorHere ins (role ++ " `" ++ expr.src ++ "` must yield a boolean, got " ++
      Crates.jsonText other)

/-! ## Tools -/

/-- The arguments of a call, in key order. -/
def toolArgs (ins : Instruction) : List (String × ArgValue) → M σ (List (String × Value))
  | [] => pure []
  | (name, .literal v) :: rest => do
      let tail ← toolArgs ins rest
      pure ((name, v) :: tail)
  | (name, .expr e) :: rest => do
      let v ← evalAt x ins e ("tool argument `" ++ name ++ "`")
      let tail ← toolArgs ins rest
      pure ((name, integralArg v) :: tail)

/-- A tool result: its correction is queued for the next safe point. -/
def acceptCorrection (result : Value) : M σ Unit :=
  match correctionEvent result with
  | some e => synthesize e
  | none => pure ()

def setResult (result : Value) : M σ Unit :=
  Traced.update fun s => { s with result := result }

/-- Call a tool; an answer that stops or loses `rp` pauses the run, an ordinary failure is handed
on. -/
def callOrPause (tool : String) (args : List (String × Value)) : M σ (Except String Value) := do
  match ← callTool x tool args with
  | .ok result => pure (.ok result)
  | .error (.safetyStopped message) => raise (.paused (.safety message))
  | .error (.unavailable message) => raise (.paused (.rpOutage message))
  | .error (.failed message) => pure (.error message)

/-- One attempt; an ordinary failure is left to the retry policy. -/
def callOnce (call : ToolCall) (args : List (String × Value)) (onFailed : String → M σ Unit) :
    M σ Unit := do
  match ← callOrPause x call.tool args with
  | .ok result => do
      acceptCorrection result
      setResult result
  | .error message => onFailed message

def backoff (call : ToolCall) : M σ Unit :=
  match call.retry with
  | some retry => sleep x retry.backoff
  | none => pure ()

/-- The attempts of a call, with this many retries left. -/
def callLoop (ins : Instruction) (call : ToolCall) (args : List (String × Value))
    (maxAttempts : Nat) : Nat → M σ Unit
  | 0 => callOnce x call args fun message =>
      let text := if 1 < maxAttempts then
          "tool `" ++ call.tool ++ "` failed after " ++ toString maxAttempts ++ " attempts: " ++
            message
        else "tool `" ++ call.tool ++ "` failed: " ++ message
      raise (.error ⟨text, ins.id, some call.tool⟩)
  | retries + 1 => callOnce x call args fun _ => do
      backoff x call
      callLoop ins call args maxAttempts retries

def execTool (ins : Instruction) (call : ToolCall) : M σ Unit := do
  let args ← toolArgs x ins call.args
  let maxAttempts := (call.retry.map Retry.maxAttempts).getD 1
  callLoop x ins call args maxAttempts (maxAttempts - 1)

/-! ## Loops -/

/-- The value of a loop bound. -/
def boundValue (ins : Instruction) (b : Bound) (role : String) : M σ Nat :=
  match b with
  | .literal n => pure n
  | .expr e => do
      let value ← evalAt x ins e role
      match integerValue value with
      | some n => pure n
      | none => errorHere ins (role ++ " `" ++ e.src ++
          "` must yield a non-negative integer, got " ++ Crates.jsonText value)

/-- `Exec::bound`. -/
def evalBound (ins : Instruction) (b : Bound) (role : String) (minimum : Nat) : M σ Nat := do
  let n ← boundValue x ins b role
  if n < minimum then
    errorHere ins (role ++ " must be at least " ++ toString minimum ++ ", got " ++ toString n)
  else pure n

/-- A block run by the walk that this one is nested in. -/
abbrev RunBlock (σ : Type) := List Instruction → M σ Unit

/-- A `repeat` `until`, checked after each pass: the passes made and whether it converged. -/
def repeatUntil (run : RunBlock σ) (ins : Instruction) (cond : Expression)
    (body : List Instruction) : Nat → Nat → M σ (Nat × Bool)
  | 0, iterations => pure (iterations, false)
  | left + 1, iterations => do
      run body
      if ← condition x ins cond "`repeat` `until` condition" then pure (iterations + 1, true)
      else repeatUntil run ins cond body left (iterations + 1)

/-- A `repeat` `while`, checked before each pass and once more when the budget is spent. -/
def repeatWhile (run : RunBlock σ) (ins : Instruction) (cond : Expression)
    (body : List Instruction) : Nat → Nat → M σ (Nat × Bool)
  | 0, iterations => do
      if ← condition x ins cond "`repeat` `while` condition" then pure (iterations, false)
      else pure (iterations, true)
  | left + 1, iterations => do
      if ← condition x ins cond "`repeat` `while` condition" then do
        run body
        repeatWhile run ins cond body left (iterations + 1)
      else pure (iterations, true)

def repeatCount (run : RunBlock σ) (body : List Instruction) : Nat → M σ Unit
  | 0 => pure ()
  | left + 1 => do
      run body
      repeatCount run body left

def repeatResult (outcome : Nat × Bool) : Value :=
  .object [("iterations", .nat outcome.1), ("converged", .bool outcome.2)]

/-- The optional guard of a `count` loop. -/
def checkGuard (ins : Instruction) (n : Nat) (guard_ : Option Bound) : M σ Unit :=
  match guard_ with
  | none => pure ()
  | some b => do
      let max ← evalBound x ins b "`max_iterations`" 1
      if max < n then
        errorHere ins ("`count` (" ++ toString n ++ ") exceeds `max_iterations` (" ++
          toString max ++ ")")
      else pure ()

def execRepeat (run : RunBlock σ) (ins : Instruction) (mode : RepeatMode)
    (body : List Instruction) : M σ Unit :=
  match mode with
  | .until_ cond maxIterations => do
      let max ← evalBound x ins maxIterations "`max_iterations`" 1
      let outcome ← repeatUntil x run ins cond body max 0
      setResult (repeatResult outcome)
  | .while_ cond maxIterations => do
      let max ← evalBound x ins maxIterations "`max_iterations`" 1
      let outcome ← repeatWhile x run ins cond body max 0
      setResult (repeatResult outcome)
  | .count count maxIterations => do
      let n ← evalBound x ins count "`count`" 0
      checkGuard x ins n maxIterations
      repeatCount run body n
      setResult (.object [("iterations", .nat n)])

/-! ## Writes -/

/-- The values of a `set`, all evaluated before any is written. -/
def setValues (ins : Instruction) : List SetEntry → M σ (List (SetEntry × Value))
  | [] => pure []
  | entry :: rest => do
      let value ← evalAt x ins entry.value ("`set` value for `" ++ entry.key ++ "`")
      let tail ← setValues ins rest
      pure ((entry, value) :: tail)

/-- One in-memory write. -/
def writeEntry (ins : Instruction) (entry : SetEntry) (value : Value) : M σ Unit := do
  match setPath entry.path value (← Traced.read).session with
  | .ok session => Traced.update fun s => { s with session := session }
  | .error e => errorHere ins e.toText

def writeEntries (ins : Instruction) : List (SetEntry × Value) → M σ Unit
  | [] => pure ()
  | (entry, value) :: rest => do
      writeEntry ins entry value
      writeEntries ins rest

/-- Persist; a failed write is the given workflow error. -/
def persistOr (onError : String → WorkflowError) : M σ Unit := do
  match ← persist x with
  | .ok () => pure ()
  | .error message => raise (.error (onError message))

/-- Change the engine's own bookkeeping, persist it and note what was recorded. -/
def record (f : Value → Value) (onError : String → WorkflowError) (m : Mark) : M σ Unit := do
  Traced.update fun s => { s with session := f s.session }
  persistOr x onError
  mark m

def announce (writes : List (SetEntry × Value)) : M σ Unit :=
  Traced.step fun s =>
    ((), [.mark (.writes (writes.map fun w => (w.1.path, w.2)) s.session)], s)

/-- Write the entries in order, then persist once. -/
def commit (ins : Instruction) (writes : List (SetEntry × Value)) : M σ Unit := do
  announce writes
  writeEntries ins writes
  persistOr x fun message => ⟨message, ins.id, none⟩

def execSet (ins : Instruction) (entries : List SetEntry) : M σ Unit := do
  let writes ← setValues x ins entries
  commit x ins writes

/-! ## `try` -/

/-- Run a stopped run's `finally` block: the stop token is not consulted until it is done. -/
def runIgnoringStop (run : RunBlock σ) (block : List Instruction) : M σ Unit := do
  let saved := (← Traced.read).honourStop
  Traced.update fun s => { s with honourStop := false }
  let outcome ← Traced.attempt (run block)
  Traced.update fun s => { s with honourStop := saved }
  Traced.ofExcept outcome

/-- Run a block with `error.*` bound, restoring the enclosing value afterwards. -/
def runWithErrorScope (run : RunBlock σ) (block : List Instruction) (error : Value) :
    M σ Unit := do
  let saved := (← Traced.read).error
  Traced.update fun s => { s with error := some error }
  let outcome ← Traced.attempt (run block)
  Traced.update fun s => { s with error := saved }
  Traced.ofExcept outcome

/-- The `catch` of a `try`, for the outcome of its body. -/
def runCatch (run : RunBlock σ) (catch_ : Option (List Instruction)) (guarded : Bool)
    (outcome : Except Halt Unit) : M σ (Except Halt Unit) :=
  match outcome, catch_ with
  | .error (.interrupt (.error e)), some block =>
      Traced.attempt (span (.catch_ guarded) (runWithErrorScope run block e.toValue))
  | other, _ => pure other

/-- The outcome of a `try` from the interrupt it unwinds for and the outcome of its `finally`. -/
def mergeFinally (interrupt : Interrupt) : Except Halt Unit → Halt
  | .ok () => .interrupt interrupt
  | .error .fuel => .fuel
  | .error (.interrupt (.paused reason)) =>
      -- a pause only ends a stopped run's block
      if interrupt = .stopped then .interrupt interrupt else .interrupt (.paused reason)
  | .error (.interrupt .stopped) => .interrupt .stopped
  | .error (.interrupt (.error _)) => .interrupt interrupt

/-- The `finally` of a `try`, for the outcome of its body and `catch`. -/
def runFinally (run : RunBlock σ) (block : List Instruction) (after : Except Halt Unit) :
    M σ Unit :=
  match after with
  | .ok () => span (.finally_ none block) (run block)
  | .error .fuel => Traced.halt .fuel
  | .error (.interrupt (.error e)) => do
      let outcome ← Traced.attempt
        (span (.finally_ (some (.error e)) block) (runWithErrorScope run block e.toValue))
      Traced.halt (mergeFinally (.error e) outcome)
  | .error (.interrupt interrupt) => do
      let outcome ← Traced.attempt
        (span (.finally_ (some interrupt) block) (runIgnoringStop run block))
      Traced.halt (mergeFinally interrupt outcome)

def execTry (run : RunBlock σ) (body : List Instruction)
    (catch_ finally_ : Option (List Instruction)) : M σ Unit :=
  span (.try_ finally_) do
    match ← Traced.attempt (span .body (run body)) with
    | .error (.interrupt (.paused reason)) => raise (.paused reason)
    | outcome => do
        let after ← runCatch run catch_ finally_.isSome outcome
        match finally_ with
        | none => Traced.ofExcept after
        | some block => runFinally run block after

def execFail (ins : Instruction) (message : Expression) : M σ Unit := do
  match ← evalAt x ins message "`fail` message" with
  | .string s => errorHere ins s
  | other => errorHere ins (Crates.jsonText other)

/-- The rendered values go to the log only. -/
def execLog (ins : Instruction) : List (String × Expression) → M σ Unit
  | [] => pure ()
  | (key, e) :: rest => do
      let _ ← evalAt x ins e ("`log` value `" ++ key ++ "`")
      execLog ins rest

end Instructions

end RustyPhoton.SessionRunner.Engine
