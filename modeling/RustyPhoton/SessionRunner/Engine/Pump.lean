import RustyPhoton.SessionRunner.Engine.Exec

/-!
# The trigger pump, the waits and a whole pass

The second half of `engine/exec.rs` (the safe point, the poll sources, the queued actions, the
waits), the block execution that ties the walk together, and `run_with_stop` of `engine/mod.rs`.
-/

namespace RustyPhoton.SessionRunner.Engine

open Lib Expr

/-- An occurrence counter is a saturating `u64`. -/
def maxCount : Nat := 2 ^ 64 - 1

/-- Count one occurrence. -/
def countOccurrence (name : String) (occurrences : List (String × Nat)) : List (String × Nat) :=
  Assoc.insertSorted name (min ((occurrences.lookup name).getD 0 + 1) maxCount) occurrences

/-- Use up one occurrence; a spent counter is removed. -/
def spendOccurrence (name : String) (n : Nat) (occurrences : List (String × Nat)) :
    List (String × Nat) :=
  if n - 1 = 0 then Assoc.erase name occurrences else Assoc.insertSorted name (n - 1) occurrences

/-- Take the first event of this name out of a buffer. -/
def takeEvent (name : String) : List EngineEvent → Option (List EngineEvent)
  | [] => none
  | e :: rest => if e.event = name then some rest else (takeEvent name rest).map (e :: ·)

/-- The greatest span `chrono` represents, in nanoseconds. -/
def chronoMax : Nat := (2 ^ 63 - 1) * 10 ^ 6

section Pump

variable [Crates] {σ : Type} (x : Exec σ)

/-! ## Gates -/

/-- The payload-independent fire gates: a queued firing, a spent `once`, an open cooldown. -/
def gated (index : Nat) (trigger : Trigger) : M σ Bool := do
  let s ← Traced.read
  if (s.queued.getD index none).isSome then pure true
  else if trigger.once && triggerFiredOnce s.session trigger.id then pure true
  else match trigger.cooldown, triggerLastFired s.session trigger.id with
    | some cooldown, some last => do
        let t ← now x
        pure (decide (t - last < min cooldown chronoMax))
    | _, _ => pure false

/-- Evaluate a gate with `event.*` bound to the firing's payload; an absent gate passes. -/
def gatePasses (trigger : Trigger) (gate : Option Expression) (payload : Value) (role : String) :
    M σ Bool :=
  match gate with
  | none => pure true
  | some gate => do
      let c ← ctx x
      match gate.eval { c with event := some payload } with
      | .ok (.bool b) => pure b
      | .ok other => raise (.error ⟨"trigger `" ++ trigger.id ++ "`: " ++ role ++ " gate `" ++
          gate.src ++ "` must yield a boolean, got " ++ Crates.jsonText other, none, none⟩)
      | .error e => raise (.error ⟨"trigger `" ++ trigger.id ++ "`: " ++ role ++ " gate `" ++
          gate.src ++ "` failed: " ++ e.toText, none, none⟩)

/-- Queue a firing. -/
def enqueue (index : Nat) (payload : Value) : M σ Unit :=
  Traced.step fun s =>
    ((), [.mark (.queued index (s.queued.getD index none).isSome)],
      { s with queued := s.queued.set index (some payload) })

/-- Queue the firing if its `when` gate passes. -/
def enqueueWhen (index : Nat) (trigger : Trigger) (payload : Value) : M σ Unit := do
  if ← gatePasses x trigger trigger.when_ payload "`when`" then enqueue index payload
  else pure ()

/-! ## Events -/

/-- One trigger's turn in `consider_event`. -/
def offer (e : EngineEvent) (index : Nat) (trigger : Trigger) : M σ Unit :=
  match trigger.on with
  | .poll _ _ _ => pure ()
  | .event name =>
      if name = e.event then do
        mark (.offered e index)
        if ← gated x index trigger then pure () else enqueueWhen x index trigger e.payload
      else pure ()

/-- `Exec::consider_event`, from the trigger at this index on. -/
def considerEvent (e : EngineEvent) : Nat → List Trigger → M σ Unit
  | _, [] => pure ()
  | index, trigger :: rest => do
      offer x e index trigger
      considerEvent e (index + 1) rest

/-- Move the buffered intake events into `pending`. -/
def drain : Nat → M σ Unit
  | 0 => Traced.halt .fuel
  | fuel + 1 => do
      match ← ask x.host.tryNext with
      | some e => do
          receive e
          drain fuel
      | none => pure ()

/-- Take the first pending event and count it. -/
def popPending : M σ (Option EngineEvent) :=
  Traced.step fun s =>
    match s.pending with
    | [] => (none, [], s)
    | e :: rest =>
        (some e, [.mark (.counted e)],
          { s with pending := rest, occurrences := countOccurrence e.event s.occurrences })

/-- Feed the first pending event to trigger evaluation; whether there was one. -/
def pumpOne : M σ Bool := do
  match ← popPending with
  | some e => do
      span (.considering e) (considerEvent x e 0 x.triggers)
      pure true
  | none => pure false

/-- Feed the pending events to trigger evaluation, at most this many. -/
def pumpPending : Nat → M σ Unit
  | 0 => pure ()
  | left + 1 => do
      if ← pumpOne x then pumpPending left else pure ()

/-! ## Polls -/

/-- Whether the poll at this index is due; one without a due time always is. -/
def pollIsDue (index : Nat) : M σ Bool := do
  match (← Traced.read).pollDue.getD index none with
  | some due => pure (decide (due ≤ (← monotonic x)))
  | none => pure true

def reschedule (index : Nat) (interval : Duration) : M σ Unit := do
  let t ← monotonic x
  Traced.update fun s => { s with pollDue := s.pollDue.set index (Duration.checkedAdd t interval) }

/-- The arguments of a poll; one that fails to evaluate skips the cycle. -/
def pollArgs : List (String × ArgValue) → M σ (Option (List (String × Value)))
  | [] => pure (some [])
  | (name, .literal v) :: rest => do
      let tail ← pollArgs rest
      pure (tail.map ((name, v) :: ·))
  | (name, .expr e) :: rest => do
      match e.eval (← ctx x) with
      | .ok v => do
          let tail ← pollArgs rest
          pure (tail.map ((name, integralArg v) :: ·))
      | .error _ => pure none

/-- Call a due poll's tool and queue the firing its result gates through; an ordinary failure
skips the cycle. -/
def pollCall (index : Nat) (trigger : Trigger) (tool : String) (args : List (String × Value)) :
    M σ Unit := do
  match ← callOrPause x tool args with
  | .ok payload => do
      acceptCorrection payload
      enqueueWhen x index trigger payload
  | .error _ => pure ()

/-- A due poll that is not gated: its arguments, then its call. -/
def pollDue (index : Nat) (trigger : Trigger) (tool : String) (args : List (String × ArgValue)) :
    M σ Unit := do
  if ← gated x index trigger then pure ()
  else
    match ← pollArgs x args with
    | some args => pollCall x index trigger tool args
    | none => pure ()

/-- One trigger's turn in `run_due_polls`. -/
def pollOne (index : Nat) (trigger : Trigger) : M σ Unit :=
  match trigger.on with
  | .event _ => pure ()
  | .poll tool args interval => do
      if ← pollIsDue x index then do
        reschedule x index interval
        pollDue x index trigger tool args
      else pure ()

/-- `Exec::run_due_polls`, from the trigger at this index on. -/
def runDuePolls : Nat → List Trigger → M σ Unit
  | _, [] => pure ()
  | index, trigger :: rest => do
      pollOne x index trigger
      runDuePolls (index + 1) rest

/-! ## Queued actions -/

/-- Take a queued firing out of its slot. -/
def takeQueued (index : Nat) : M σ (Option Value) :=
  Traced.step fun s => (s.queued.getD index none, [], { s with queued := s.queued.set index none })

/-- Run a trigger's block with its own `result`, `error.*` and `event.*`, restored at its end. -/
def runAction (run : RunBlock σ) (index : Nat) (trigger : Trigger) (payload : Value) :
    M σ Unit := do
  let saved ← Traced.read
  Traced.update fun s =>
    { s with result := .null, error := none, event := some payload, inTriggerAction := true }
  let outcome ← Traced.attempt (span (.action index) (run trigger.actions))
  Traced.update fun s =>
    { s with
      inTriggerAction := false, event := saved.event, error := saved.error
      result := saved.result }
  match outcome with
  | .error (.interrupt (.error e)) =>
      raise (.error { e with message := "trigger `" ++ trigger.id ++ "`: " ++ e.message })
  | other => Traced.ofExcept other

/-- Record a completed firing. -/
def completeFiring (index : Nat) (trigger : Trigger) : M σ Unit := do
  let at_ ← now x
  record x (markTriggerFired trigger.id at_ trigger.once)
    (fun message => ⟨"trigger `" ++ trigger.id ++ "`: " ++ message, none, none⟩)
    (.triggerCompleted index at_)

/-- Fire a queued trigger: the `while` gate, the action, the bookkeeping. -/
def fire (run : RunBlock σ) (index : Nat) (trigger : Trigger) (payload : Value) : M σ Unit := do
  if ← gatePasses x trigger trigger.whileGate payload "`while`" then do
    runAction run index trigger payload
    completeFiring x index trigger
  else pure ()

/-- One trigger's turn in `run_queued`. -/
def fireQueued (run : RunBlock σ) (index : Nat) (trigger : Trigger) : M σ Unit := do
  match ← takeQueued index with
  | some payload => fire x run index trigger payload
  | none => pure ()

/-- `Exec::run_queued`, from the trigger at this index on. -/
def runQueued (run : RunBlock σ) : Nat → List Trigger → M σ Unit
  | _, [] => pure ()
  | index, trigger :: rest => do
      fireQueued x run index trigger
      runQueued run (index + 1) rest

/-! ## Safe points -/

/-- The stop token, once seen cancelled, stays cancelled. -/
def stopRequested : M σ Bool :=
  Traced.step fun s =>
    if s.cancelled then (true, [], s)
    else
      ((x.host.stop s.host).1, [],
        { s with host := (x.host.stop s.host).2, cancelled := (x.host.stop s.host).1 })

/-- Raise the stop at a safe point that honours it. -/
def checkStop : M σ Unit := do
  if (← Traced.read).honourStop then do
    if ← stopRequested x then do
      mark .stopRaised
      raise .stopped
    else pure ()
  else pure ()

/-- The part of a safe point that only the procedure tree has. -/
def pump (run : RunBlock σ) : M σ Unit := do
  pumpPending x (← Traced.read).pending.length
  runDuePolls x 0 x.triggers
  runQueued x run 0 x.triggers

/-- `Exec::safe_point`. -/
def safePoint (fuel : Nat) (run : RunBlock σ) : M σ Unit :=
  span .safePoint do
    snapshot
    checkStop x
    drain x fuel
    if (← Traced.read).inTriggerAction then pure () else pump x run

/-! ## Waits -/

/-- The time until the earliest poll is due; none inside a trigger action. -/
def nextPollDueIn : M σ (Option Duration) := do
  let s ← Traced.read
  if s.inTriggerAction then pure none
  else do
    let t ← monotonic x
    pure ((s.pollDue.filterMap fun due => due.map (· - t)).min?)

/-- The select of a wait. -/
def select (d : Duration) : M σ Unit := do
  let honour := (← Traced.read).honourStop
  match ← ask (x.host.wait honour d) with
  | .stop => if honour then Traced.update fun s => { s with cancelled := true } else pure ()
  | .event e => receive e
  | .slept => pure ()

/-- One sleep segment of a wait: the monotonic time spent. -/
def waitSegment (remaining : Duration) : M σ Duration := do
  let due ← nextPollDueIn x
  let waitedFrom ← monotonic x
  select x (match due with
    | none => remaining
    | some untilDue => min remaining untilDue)
  let waitedTo ← monotonic x
  pure (waitedTo - waitedFrom)

/-- Satisfy an `until_event` from the occurrences, else straight from `pending`. -/
def consumeOccurrence (name : String) : M σ Bool :=
  Traced.step fun s =>
    match s.occurrences.lookup name with
    | some n =>
        (true, [.mark (.satisfied name false s.inTriggerAction)],
          { s with occurrences := spendOccurrence name n s.occurrences })
    | none =>
        match takeEvent name s.pending with
        | some rest =>
            (true, [.mark (.satisfied name true s.inTriggerAction)], { s with pending := rest })
        | none => (false, [], s)

def waitDuration (safe : M σ Unit) : Nat → Duration → M σ Unit
  | 0, _ => Traced.halt .fuel
  | fuel + 1, remaining => do
      safe
      if remaining = 0 then pure ()
      else do
        let spent ← waitSegment x remaining
        waitDuration safe fuel (remaining - spent)

def waitUntilEvent (safe : M σ Unit) (ins : Instruction) (event : String) (timeout : Duration) :
    Nat → Duration → M σ Unit
  | 0, _ => Traced.halt .fuel
  | fuel + 1, elapsed => do
      safe
      if ← consumeOccurrence event then pure ()
      else if timeout ≤ elapsed then
        errorHere ins ("`wait` `until_event` `" ++ event ++ "` did not arrive within " ++
          Crates.formatDuration timeout)
      else do
        let spent ← waitSegment x (timeout - elapsed)
        waitUntilEvent safe ins event timeout fuel (Duration.saturatingAdd elapsed spent)

def waitUntil (safe : M σ Unit) (ins : Instruction) (cond : Expression)
    (pollInterval timeout : Duration) : Nat → Duration → M σ Unit
  | 0, _ => Traced.halt .fuel
  | fuel + 1, elapsed => do
      safe
      if ← condition x ins cond "`wait` `until` condition" then pure ()
      else if timeout ≤ elapsed then
        errorHere ins ("`wait` `until` condition `" ++ cond.src ++
          "` did not become true within " ++ Crates.formatDuration timeout)
      else do
        let spent ← waitSegment x (min pollInterval (timeout - elapsed))
        waitUntil safe ins cond pollInterval timeout fuel (Duration.saturatingAdd elapsed spent)

/-- A `wait` is one long safe point. -/
def execWait (fuel : Nat) (run : RunBlock σ) (ins : Instruction) (wait : Wait) : M σ Unit :=
  match wait with
  | .duration d => waitDuration x (safePoint x fuel run) fuel d
  | .untilEvent event timeout => waitUntilEvent x (safePoint x fuel run) ins event timeout fuel 0
  | .until_ cond pollInterval timeout =>
      waitUntil x (safePoint x fuel run) ins cond pollInterval timeout fuel 0

/-! ## Instructions and blocks -/

def execKind (fuel : Nat) (run : RunBlock σ) (ins : Instruction) : M σ Unit :=
  match ins.kind with
  | .tool call => execTool x ins call
  | .sequence body => run body
  | .repeat_ mode body => execRepeat x run ins mode body
  | .if_ cond then_ otherwise => do
      if ← condition x ins cond "`if` condition" then run then_
      else match otherwise with
        | some block => run block
        | none => pure ()
  | .set entries => execSet x ins entries
  | .try_ body catch_ finally_ => execTry run body catch_ finally_
  | .fail message => execFail x ins message
  | .wait wait => execWait x fuel run ins wait
  | .log log => execLog x ins log.values

/-- Record the `once` key of a completed instruction. -/
def completeOnce (ins : Instruction) : M σ Unit :=
  match ins.once with
  | none => pure ()
  | some key =>
      record x (markOnce key) (fun message => ⟨message, ins.id, none⟩) (.onceCompleted key)

/-- Whether the instruction is skipped: its `once` key is already recorded. -/
def skipOnce (ins : Instruction) : M σ Bool := do
  match ins.once with
  | none => pure false
  | some key =>
      if onceDone (← Traced.read).session key then do
        mark (.onceSkipped key)
        pure true
      else pure false

/-- An instruction around the execution of its kind: skipped when already done, recorded when it
completes. -/
def instructionWith (ins : Instruction) (body : M σ Unit) : M σ Unit :=
  span (.instruction ins) do
    if ← skipOnce ins then pure ()
    else do
      body
      completeOnce x ins

def execInstruction (fuel : Nat) (run : RunBlock σ) (ins : Instruction) : M σ Unit :=
  instructionWith x ins (execKind x fuel run ins)

/-- A block in order, with a safe point after each instruction. -/
def execEach (one : Instruction → M σ Unit) (safe : M σ Unit) : List Instruction → M σ Unit
  | [] => pure ()
  | ins :: rest => do
      one ins
      safe
      execEach one safe rest

/-- `Exec::exec_block`, nested at most as deep as the fuel. -/
def execBlock : Nat → RunBlock σ
  | 0, _ => Traced.halt .fuel
  | fuel + 1, block =>
      execEach (execInstruction x fuel (execBlock fuel)) (safePoint x fuel (execBlock fuel)) block

end Pump

/-! ## A pass -/

/-- How a run ended. -/
inductive RunOutcome where
  | completed
  | failed (e : WorkflowError)
  | paused (reason : PauseReason)
  | stopped
  deriving DecidableEq

/-- The outcome of a pass that returned; none for one the fuel cut. -/
def runOutcome : Except Halt Unit → Option RunOutcome
  | .ok () => some .completed
  | .error (.interrupt (.error e)) => some (.failed e)
  | .error (.interrupt (.paused reason)) => some (.paused reason)
  | .error (.interrupt .stopped) => some .stopped
  | .error .fuel => none

section Pass

variable {σ : Type}

/-- The first due of each poll: one interval after the start. -/
def firstDue (host : Host σ) : List Trigger → σ → List (Option Duration) × σ
  | [], h => ([], h)
  | t :: rest, h =>
      match t.on with
      | .event _ =>
          let (due, h) := firstDue host rest h
          (none :: due, h)
      | .poll _ _ interval =>
          let (start, h) := host.monotonic h
          let (due, h) := firstDue host rest h
          (Duration.checkedAdd start interval :: due, h)

/-- `Exec::new`, on a blackboard and the content of its file. -/
def Exec.start (x : Exec σ) (session : Value) (file : Option Value) (h : σ) : State σ :=
  let (due, h) := firstDue x.host x.triggers h
  { host := h, session, file, result := .null, error := none, event := none
    inTriggerAction := false, pending := [], occurrences := []
    queued := x.triggers.map fun _ => none, pollDue := due, honourStop := true
    cancelled := false }

/-- `run_with_stop` on a blackboard loaded from its file. -/
def runWithStop [Crates] (fuel : Nat) (doc : Document) (params : Value) (host : Host σ)
    (file : Option Value) (h : σ) : Run (State σ) Halt Node Unit :=
  let x : Exec σ := ⟨params, doc.triggers, host⟩
  execBlock x fuel [doc.root] (x.start (loadSession file) file h)

end Pass

end RustyPhoton.SessionRunner.Engine
