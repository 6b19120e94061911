import RustyPhoton.SessionRunner.Engine.Trace

/-!
# What the parts of the walk do

One statement for each part that does more than sequence others: what it leaves in the trace, how it
ends and what state it leaves. `exec_try` is a relation between the runs of its blocks: where the
body's interrupt goes, which `finally` path is taken and which interrupt leaves. `exec_try_run` says
that the function takes one of these ways; the properties of interrupts are proved by cases over
them.
-/

set_option linter.unusedSectionVars false

namespace RustyPhoton.SessionRunner.Engine

open Lib Traced

variable {σ : Type}

/-- The node of a block run from a state. -/
def blockSpan (label : Label) (run : RunBlock σ) (block : List Instruction) (s : State σ) : Node :=
  .span label (run block s).log (run block s).halt

/-- A state with `error.*` bound. -/
def State.withError (s : State σ) (e : WorkflowError) : State σ :=
  { s with error := some e.toValue }

/-- A state in which the stop token is not consulted. -/
def State.ignoringStop (s : State σ) : State σ :=
  { s with honourStop := false }

section Ways

variable (run : RunBlock σ) (body : List Instruction) (catch_ finally_ : Option (List Instruction))
  (s : State σ)

/-- The body and, for a workflow error, the `catch`: the trace, the outcome and the state left. A
paused body gets no further. -/
inductive AfterCatch : Trace → Option Halt → State σ → Prop where
  | body (hpause : ∀ reason, (run body s).halt ≠ some (.interrupt (.paused reason))) :
      AfterCatch [blockSpan .body run body s] (run body s).halt (run body s).st
  | caught {e block t} (herror : (run body s).halt = some (.interrupt (.error e)))
      (hcatch : catch_ = some block) (ht : t = (run body s).st.withError e) :
      AfterCatch [blockSpan .body run body s, blockSpan (.catch_ finally_.isSome) run block t]
        (run block t).halt { (run block t).st with error := (run body s).st.error }

/-- The ways through a whole `try`. -/
inductive TryRun : Trace → Option Halt → State σ → Prop where
  | paused {reason} (hpause : (run body s).halt = some (.interrupt (.paused reason))) :
      TryRun [blockSpan .body run body s] (some (.interrupt (.paused reason))) (run body s).st
  | bare {l o t} (hafter : AfterCatch run body catch_ finally_ s l o t) (hnone : finally_ = none) :
      TryRun l o t
  | cut {l t block} (hafter : AfterCatch run body catch_ finally_ s l (some .fuel) t)
      (hfin : finally_ = some block) : TryRun l (some .fuel) t
  | success {l t block} (hafter : AfterCatch run body catch_ finally_ s l none t)
      (hfin : finally_ = some block) :
      TryRun (l ++ [blockSpan (.finally_ none block) run block t]) (run block t).halt
        (run block t).st
  | failed {l t t' block e}
      (hafter : AfterCatch run body catch_ finally_ s l (some (.interrupt (.error e))) t)
      (hfin : finally_ = some block) (ht : t' = t.withError e) :
      TryRun (l ++ [blockSpan (.finally_ (some (.error e)) block) run block t'])
        (some (mergeFinally (.error e) (run block t').out))
        { (run block t').st with error := t.error }
  | unwound {l t t' block i} (hafter : AfterCatch run body catch_ finally_ s l (some (.interrupt i)) t)
      (hfin : finally_ = some block) (hi : ∀ e, i ≠ .error e) (ht : t' = t.ignoringStop) :
      TryRun (l ++ [blockSpan (.finally_ (some i) block) run block t'])
        (some (mergeFinally i (run block t').out))
        { (run block t').st with honourStop := t.honourStop }

end Ways

section Equations

variable {run : RunBlock σ} {body block : List Instruction}
  {catch_ finally_ : Option (List Instruction)} {s : State σ}

theorem out_of_halt_some {r : Run (State σ) Halt Node Unit} {h : Halt} (hr : r.halt = some h) :
    r.out = .error h := by
  unfold Run.halt at hr
  split at hr
  · cases hr
  · next h' ho => rw [ho, Option.some.inj hr]

theorem run_with_error_scope_run (e : WorkflowError) :
    runWithErrorScope run block e.toValue s =
      ⟨(run block (s.withError e)).out, (run block (s.withError e)).log,
        { (run block (s.withError e)).st with error := s.error }⟩ := by
  unfold runWithErrorScope
  rw [read_bind_run, update_bind_run, attempt_bind_run, update_bind_run]
  simp [Traced.ofExcept, State.withError]

theorem run_ignoring_stop_run :
    runIgnoringStop run block s =
      ⟨(run block s.ignoringStop).out, (run block s.ignoringStop).log,
        { (run block s.ignoringStop).st with honourStop := s.honourStop }⟩ := by
  unfold runIgnoringStop
  rw [read_bind_run, update_bind_run, attempt_bind_run, update_bind_run]
  simp [Traced.ofExcept, State.ignoringStop]

theorem run_catch_uncaught {outcome : Except Halt Unit} {guarded : Bool}
    (h : ∀ e block, outcome = .error (.interrupt (.error e)) → catch_ ≠ some block) :
    runCatch run catch_ guarded outcome = pure outcome := by
  unfold runCatch
  split
  · next e block => exact absurd rfl (h e block rfl)
  · rfl

/-- The `catch` of a body that did not pause. -/
theorem run_catch_run (catch_ finally_ : Option (List Instruction))
    (hpause : ∀ reason, (run body s).halt ≠ some (.interrupt (.paused reason))) :
    ∃ (l : Trace) (after : Except Halt Unit) (t : State σ),
      runCatch run catch_ finally_.isSome (run body s).out (run body s).st = ⟨.ok after, l, t⟩ ∧
      AfterCatch run body catch_ finally_ s (blockSpan .body run body s :: l)
        (Run.halt ⟨after, l, t⟩) t := by
  -- only a workflow error with a `catch` to take it goes on
  by_cases hcaught : ∃ e block, (run body s).out = .error (.interrupt (.error e)) ∧
      catch_ = some block
  · obtain ⟨e, block, ho, rfl⟩ := hcaught
    refine ⟨_, _, _, ?_, .caught (e := e) (by simp [Run.halt, ho]) rfl rfl⟩
    simp only [ho, runCatch, Traced.attempt, span, Traced.span, run_with_error_scope_run,
      blockSpan]
    rfl
  · refine ⟨[], (run body s).out, (run body s).st, ?_, .body hpause⟩
    rw [run_catch_uncaught fun e block ho hblock => hcaught ⟨e, block, ho, hblock⟩]
    rfl

/-- The `finally` of a `try`, after its body and `catch`. -/
theorem run_finally_run {l l' : Trace} {after : Except Halt Unit} {t : State σ}
    (hafter : AfterCatch run body catch_ finally_ s l (Run.halt ⟨after, l', t⟩) t)
    (hfin : finally_ = some block) :
    TryRun run body catch_ finally_ s (l ++ (runFinally run block after t).log)
      (runFinally run block after t).halt (runFinally run block after t).st := by
  cases after with
  | ok u => exact .success hafter hfin
  | error h =>
    cases h with
    | fuel =>
      simp only [runFinally, Traced.halt, List.append_nil]
      exact .cut hafter hfin
    | interrupt i =>
      cases i with
      | error e =>
        have way := TryRun.failed hafter hfin rfl
        simpa [runFinally, attempt_bind_run, span, Traced.span, Traced.halt,
          run_with_error_scope_run, blockSpan, Run.halt] using way
      | paused reason | stopped =>
        have way := TryRun.unwound hafter hfin (by simp) rfl
        simpa [runFinally, attempt_bind_run, span, Traced.span, Traced.halt,
          run_ignoring_stop_run, blockSpan, Run.halt] using way

/-- The rest of a `try` whose body did not pause. -/
theorem after_body_run (hpause : ∀ reason, (run body s).halt ≠ some (.interrupt (.paused reason)))
    {rest : M σ Unit}
    (hrest : rest = do
      let after ← runCatch run catch_ finally_.isSome (run body s).out
      match finally_ with
      | none => Traced.ofExcept after
      | some block => runFinally run block after) :
    TryRun run body catch_ finally_ s
      (blockSpan .body run body s :: (rest (run body s).st).log) (rest (run body s).st).halt
      (rest (run body s).st).st := by
  obtain ⟨l, after, t, heq, hafter⟩ := run_catch_run catch_ finally_ hpause
  subst hrest
  rw [bind_run_of_ok heq]
  cases finally_ with
  | none =>
    simp only [Traced.ofExcept, List.append_nil]
    exact .bare hafter rfl
  | some block => exact run_finally_run hafter rfl

/-- A `try` goes one of these ways. -/
theorem exec_try_run (run : RunBlock σ) (body : List Instruction)
    (catch_ finally_ : Option (List Instruction)) (s : State σ) :
    ∃ l, (execTry run body catch_ finally_ s).log =
        [.span (.try_ finally_) l (execTry run body catch_ finally_ s).halt] ∧
      TryRun run body catch_ finally_ s l (execTry run body catch_ finally_ s).halt
        (execTry run body catch_ finally_ s).st := by
  unfold execTry span
  refine ⟨_, rfl, ?_⟩
  simp only [Traced.span, attempt_bind_run]
  by_cases hpause : ∃ reason, (run body s).out = .error (.interrupt (.paused reason))
  · obtain ⟨reason, ho⟩ := hpause
    have hhalt : (run body s).halt = some (.interrupt (.paused reason)) := by simp [Run.halt, ho]
    have way : TryRun run body catch_ finally_ s _ _ _ := .paused hhalt
    simpa [ho, raise, Traced.halt, Run.halt, blockSpan] using way
  · have hno : ∀ reason, (run body s).halt ≠ some (.interrupt (.paused reason)) := by
      intro reason hr
      exact hpause ⟨reason, out_of_halt_some hr⟩
    refine after_body_run hno ?_
    split
    · next reason ho => exact absurd ⟨reason, ho⟩ hpause
    · rfl

/-- The scope a trigger's action runs in. -/
def State.inAction (s : State σ) (payload : Value) : State σ :=
  { s with result := .null, error := none, event := some payload, inTriggerAction := true }

/-- A trigger's action: one block in its own scope; a workflow error leaves it renamed. -/
theorem run_action_run {i : Nat} {t : Trigger} {payload : Value} {a : Run (State σ) Halt Node Unit}
    (ha : run t.actions (s.inAction payload) = a) :
    (runAction run i t payload s).log = [.span (.action i) a.log a.halt] ∧
    (runAction run i t payload s).st =
      { a.st with
        inTriggerAction := false, event := s.event, error := s.error, result := s.result } ∧
    ((runAction run i t payload s).halt = a.halt ∨
      ∃ e e', a.halt = some (.interrupt (.error e)) ∧
        (runAction run i t payload s).halt = some (.interrupt (.error e'))) := by
  unfold runAction
  rw [read_bind_run, update_bind_run, attempt_bind_run]
  simp only [update_bind_run, span, Traced.span]
  rw [State.inAction] at ha
  rw [ha]
  obtain ⟨out, log, st⟩ := a
  cases out with
  | ok u => simp [Traced.ofExcept, Run.halt]
  | error h =>
    cases h with
    | fuel => simp [Traced.ofExcept, Run.halt]
    | interrupt i =>
      cases i with
      | error e => simp [raise, Traced.halt, Run.halt]
      | paused reason => simp [Traced.ofExcept, Run.halt]
      | stopped => simp [Traced.ofExcept, Run.halt]

/-- A call leaves the blackboard and its answer in the trace, and pauses if the answer says so. -/
theorem call_or_pause_run (x : Exec σ) (tool : String) (args : List (String × Value))
    (s : State σ) :
    (callOrPause x tool args s).log = [.mark (.snapshot s.session s.file),
      .mark (.call tool args (x.host.call tool args s.host).1 s.honourStop)] ∧
    (callOrPause x tool args s).halt =
      (pauseReason (x.host.call tool args s.host).1).map (fun r => .interrupt (.paused r)) ∧
    (callOrPause x tool args s).st = { s with host := (x.host.call tool args s.host).2 } := by
  have hcall : callTool x tool args s = ⟨.ok (x.host.call tool args s.host).1,
    [.mark (.snapshot s.session s.file),
      .mark (.call tool args (x.host.call tool args s.host).1 s.honourStop)],
    { s with host := (x.host.call tool args s.host).2 }⟩ := rfl
  unfold callOrPause
  rw [bind_run_of_ok hcall]
  cases (x.host.call tool args s.host).1 with
  | ok result => exact ⟨rfl, rfl, rfl⟩
  | error e =>
    cases e with
    | safetyStopped message => exact ⟨rfl, rfl, rfl⟩
    | unavailable message => exact ⟨rfl, rfl, rfl⟩
    | failed message => exact ⟨rfl, rfl, rfl⟩

/-- The stop token is asked at most once after it was seen cancelled. -/
theorem stop_requested_run (x : Exec σ) (s : State σ) :
    ∃ requested h c, stopRequested x s =
      ⟨.ok requested, [], { s with host := h, cancelled := c }⟩ := by
  by_cases hc : s.cancelled = true
  · refine ⟨true, s.host, s.cancelled, ?_⟩
    simp only [stopRequested, Traced.step, if_pos hc]
  · refine ⟨(x.host.stop s.host).1, (x.host.stop s.host).2, (x.host.stop s.host).1, ?_⟩
    simp [stopRequested, Traced.step, hc]

/-- The stop check: nothing, or the stop raised where it is honoured. -/
theorem check_stop_run (x : Exec σ) (s : State σ) :
    (∃ h c, (checkStop x s).st = { s with host := h, cancelled := c }) ∧
    ((checkStop x s).log = [] ∧ (checkStop x s).halt = none ∨
      s.honourStop = true ∧ (checkStop x s).log = [.mark .stopRaised] ∧
        (checkStop x s).halt = some (.interrupt .stopped)) := by
  unfold checkStop
  rw [read_bind_run]
  by_cases hs : s.honourStop = true
  · obtain ⟨requested, h, c, heq⟩ := stop_requested_run x s
    rw [if_pos hs, bind_run_of_ok heq]
    cases requested with
    | false => exact ⟨⟨h, c, rfl⟩, .inl ⟨rfl, rfl⟩⟩
    | true => exact ⟨⟨h, c, rfl⟩, .inr ⟨hs, rfl, rfl⟩⟩
  · rw [if_neg hs]
    exact ⟨⟨s.host, s.cancelled, rfl⟩, .inl ⟨rfl, rfl⟩⟩

/-- The in-memory writes of a `set`. -/
theorem write_entries_run (ins : Instruction) (writes : List (SetEntry × Value)) (s : State σ) :
    (writeEntries ins writes s).log = [] ∧
    (writeEntries ins writes s).halt =
      (writeAll (writes.map fun w => (w.1.path, w.2)) s.session).2.map
        (fun e => .interrupt (.error ⟨e.toText, ins.id, none⟩)) ∧
    (writeEntries ins writes s).st = { s with
      session := (writeAll (writes.map fun w => (w.1.path, w.2)) s.session).1 } := by
  induction writes generalizing s with
  | nil => exact ⟨rfl, rfl, rfl⟩
  | cons write rest ih =>
    obtain ⟨entry, value⟩ := write
    unfold writeEntries
    cases hp : setPath entry.path value s.session with
    | ok session =>
      have hone : writeEntry ins entry value s = ⟨.ok (), [], { s with session := session }⟩ := by
        unfold writeEntry
        rw [read_bind_run, hp]
        rfl
      rw [bind_run_of_ok hone]
      simpa [writeAll, hp, Run.halt] using ih { s with session := session }
    | error e =>
      have hone : writeEntry ins entry value s =
          ⟨.error (.interrupt (.error ⟨e.toText, ins.id, none⟩)), [], s⟩ := by
        unfold writeEntry
        rw [read_bind_run, hp]
        rfl
      rw [bind_run_of_error hone]
      simp [writeAll, hp, Run.halt]

/-- A write of the session: done, or a workflow error. -/
theorem persist_or_run (x : Exec σ) (onError : String → WorkflowError) (s : State σ) :
    ∃ h f, (persistOr x onError s).st = { s with host := h, file := f } ∧
      (persistOr x onError s).log = [] ∧ (f = some s.session ∨ f = s.file) ∧
      ((persistOr x onError s).halt = none ∧ f = some s.session ∨
        ∃ e, (persistOr x onError s).halt = some (.interrupt (.error e)) ∧
          ¬ x.host.WritesSucceed) := by
  rcases hw : x.host.write s.session s.host with ⟨result, h⟩
  cases result with
  | written =>
    have hone : persist x s = ⟨.ok (.ok ()), [], { s with host := h, file := some s.session }⟩ := by
      simp only [persist, Traced.step, hw]
    refine ⟨h, some s.session, ?_⟩
    unfold persistOr
    rw [bind_run_of_ok hone]
    exact ⟨rfl, rfl, .inl rfl, .inl ⟨rfl, rfl⟩⟩
  | failed message replaced =>
    have hone : persist x s = ⟨.ok (.error message), [],
        { s with host := h, file := if replaced then some s.session else s.file }⟩ := by
      simp only [persist, Traced.step, hw]
    have hfails : ¬ x.host.WritesSucceed := by
      intro hsucceed
      have hwritten := hsucceed s.session s.host
      rw [hw] at hwritten
      cases hwritten
    refine ⟨h, if replaced then some s.session else s.file, ?_⟩
    unfold persistOr
    rw [bind_run_of_ok hone]
    refine ⟨rfl, rfl, ?_, .inr ⟨onError message, rfl, hfails⟩⟩
    cases replaced with
    | false => exact .inr rfl
    | true => exact .inl rfl

/-- A `set` after its values: the writes in memory, then, if none failed, the file. -/
theorem commit_run (x : Exec σ) (ins : Instruction) (writes : List (SetEntry × Value))
    (s : State σ) {ws : List (List String × Value)}
    (hws : ws = writes.map fun w => (w.1.path, w.2)) :
    (commit x ins writes s).log = [.mark (.writes ws s.session)] ∧
    ∃ h f, (commit x ins writes s).st =
        { s with host := h, file := f, session := (writeAll ws s.session).1 } ∧
      (f = s.file ∧ (writeAll ws s.session).2 ≠ none ∨ (writeAll ws s.session).2 = none ∧
        (f = some (writeAll ws s.session).1 ∨ f = s.file ∧ ¬ x.host.WritesSucceed)) := by
  obtain ⟨hlog, hhalt, hst⟩ := write_entries_run ins writes s
  rw [← hws] at hhalt hst
  have hannounce : announce writes s = ⟨.ok (), [.mark (.writes ws s.session)], s⟩ := by
    rw [hws]
    rfl
  unfold commit
  rw [bind_run_of_ok hannounce]
  rcases halt_bind (writeEntries ins writes)
      (fun _ => persistOr x fun message => ⟨message, ins.id, none⟩) s with
    ⟨hne, hlog', -, hst'⟩ | ⟨⟨⟩, -, hnone, hlog', -, hst'⟩
  · rw [hlog', hst', hlog, hst]
    refine ⟨rfl, s.host, s.file, rfl, .inl ⟨rfl, fun hok => hne ?_⟩⟩
    rw [hhalt, hok]
    rfl
  · have hok : (writeAll ws s.session).2 = none := by
      rw [hhalt] at hnone
      exact Option.map_eq_none_iff.mp hnone
    rw [hlog', hst', hlog, hst]
    obtain ⟨h, f, hpst, hplog, hf, hdone⟩ := persist_or_run x
      (fun message => ⟨message, ins.id, none⟩)
      { s with session := (writeAll ws s.session).1 }
    rw [hpst, hplog]
    refine ⟨rfl, h, f, rfl, .inr ⟨hok, ?_⟩⟩
    rcases hdone with ⟨-, hwritten⟩ | ⟨e, -, hfails⟩
    · exact .inl hwritten
    · exact hf.imp id fun hkept => ⟨hkept, hfails⟩

/-- A change of the bookkeeping: recorded with the file written, or a workflow error. -/
theorem record_run (x : Exec σ) (f : Value → Value) (onError : String → WorkflowError) (m : Mark)
    (s : State σ) :
    ∃ h file, (record x f onError m s).st =
        { s with host := h, file := file, session := f s.session } ∧
      ((record x f onError m s).halt = none ∧ (record x f onError m s).log = [.mark m] ∧
          file = some (f s.session) ∨
        (∃ e, (record x f onError m s).halt = some (.interrupt (.error e))) ∧
          (record x f onError m s).log = [] ∧ (file = some (f s.session) ∨ file = s.file) ∧
          ¬ x.host.WritesSucceed) := by
  unfold record
  rw [update_bind_run]
  obtain ⟨h, file, hst, hlog, hfile, hdone⟩ :=
    persist_or_run x onError { s with session := f s.session }
  rcases halt_bind (persistOr x onError) (fun _ => mark m) { s with session := f s.session } with
    ⟨hne, hlog', hhalt', hst'⟩ | ⟨⟨⟩, -, hnone, hlog', hhalt', hst'⟩
  · refine ⟨h, file, by rw [hst', hst], .inr ?_⟩
    rcases hdone with ⟨hnone, -⟩ | ⟨e, he, hfails⟩
    · exact absurd hnone hne
    · exact ⟨⟨e, hhalt'.trans he⟩, hlog'.trans hlog, hfile, hfails⟩
  · refine ⟨h, file, by rw [hst', ← hst]; rfl, .inl ⟨hhalt', by rw [hlog', hlog]; rfl, ?_⟩⟩
    rcases hdone with ⟨-, hwritten⟩ | ⟨e, he, -⟩
    · exact hwritten
    · rw [hnone] at he
      cases he

/-- An instruction: skipped with everything left as it is; or its body, and where that returns the
record of its key. -/
theorem instruction_run (x : Exec σ) (ins : Instruction) (body : M σ Unit) (s : State σ) :
    (∃ key, ins.once = some key ∧ onceDone s.session key = true ∧
      instructionWith x ins body s =
        ⟨.ok (), [.span (.instruction ins) [.mark (.onceSkipped key)] none], s⟩) ∨
    (∀ key, ins.once = some key → onceDone s.session key = false) ∧
      ((instructionWith x ins body s).log =
          [.span (.instruction ins) (body s).log (instructionWith x ins body s).halt] ∧
        ((instructionWith x ins body s).halt = none → ins.once = none) ∧
        (instructionWith x ins body s).st = (body s).st ∨
      ∃ key onError, ins.once = some key ∧
        (instructionWith x ins body s).log = [.span (.instruction ins) ((body s).log ++
          (record x (markOnce key) onError (.onceCompleted key) (body s).st).log)
          (instructionWith x ins body s).halt] ∧
        (instructionWith x ins body s).halt =
          (record x (markOnce key) onError (.onceCompleted key) (body s).st).halt ∧
        (instructionWith x ins body s).st =
          (record x (markOnce key) onError (.onceCompleted key) (body s).st).st) := by
  by_cases hdone : ∃ key, ins.once = some key ∧ onceDone s.session key = true
  · obtain ⟨key, honce, hdone⟩ := hdone
    refine .inl ⟨key, honce, hdone, ?_⟩
    have hskip : skipOnce ins s = ⟨.ok true, [.mark (.onceSkipped key)], s⟩ := by
      simp only [skipOnce, honce]
      rw [read_bind_run, if_pos hdone]
      rfl
    unfold instructionWith span Traced.span
    rw [bind_run_of_ok hskip]
    rfl
  · have hskip : skipOnce ins s = ⟨.ok false, [], s⟩ := by
      cases honce : ins.once with
      | none =>
        simp only [skipOnce, honce]
        rfl
      | some key =>
        simp only [skipOnce, honce]
        rw [read_bind_run, if_neg fun h => hdone ⟨key, honce, h⟩]
        rfl
    refine .inr ⟨fun key honce => by simpa using fun h => hdone ⟨key, honce, h⟩, ?_⟩
    have heq : instructionWith x ins body s = Engine.span (.instruction ins) (do
        body
        completeOnce x ins) s := by
      unfold instructionWith span Traced.span
      rw [bind_run_of_ok hskip]
      rfl
    rw [heq]
    unfold span Traced.span
    rcases halt_bind body (fun _ => completeOnce x ins) s with
      ⟨hne, hlog, hhalt, hst⟩ | ⟨⟨⟩, -, -, hlog, hhalt, hst⟩
    · exact .inl ⟨congrArg (fun l => [Node.span _ l _]) hlog,
        fun hnone => absurd (hhalt.symm.trans hnone) hne, hst⟩
    · cases honce : ins.once with
      | none =>
        have hcomplete : completeOnce x ins (body s).st = ⟨.ok (), [], (body s).st⟩ := by
          simp only [completeOnce, honce]
          rfl
        rw [hcomplete, List.append_nil] at hlog
        rw [hcomplete] at hst
        exact .inl ⟨congrArg (fun l => [Node.span _ l _]) hlog, fun _ => rfl, hst⟩
      | some key =>
        have hcomplete : completeOnce x ins = record x (markOnce key)
            (fun message => ⟨message, ins.id, none⟩) (.onceCompleted key) := by
          simp only [completeOnce, honce]
        rw [hcomplete] at hlog hhalt hst ⊢
        exact .inr ⟨key, _, rfl, congrArg (fun l => [Node.span _ l _]) hlog, hhalt, hst⟩

end Equations

end RustyPhoton.SessionRunner.Engine
