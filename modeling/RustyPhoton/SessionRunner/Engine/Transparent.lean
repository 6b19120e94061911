import RustyPhoton.SessionRunner.Engine.Rules
import RustyPhoton.SessionRunner.Engine.Script

/-!
# Scopes are put back

Trigger actions, `catch` blocks and `finally` blocks rebind what expressions and safe points read:
`result`, `error.*`, `event.*`, whether a trigger action runs, whether the stop is honoured. The
rest of the walk sees none of it, however the block in question ended.
-/

set_option linter.unusedSectionVars false

namespace RustyPhoton.SessionRunner.Engine

open Lib Traced

variable [Crates] {σ α : Type}

/-- The bindings that a block of instructions puts back. `result` is not one of them: it is what the
block was run for. -/
structure Scope where
  error : Option Value
  event : Option Value
  inTriggerAction : Bool
  honourStop : Bool
  deriving DecidableEq

def State.scope (s : State σ) : Scope := ⟨s.error, s.event, s.inTriggerAction, s.honourStop⟩

/-- The bindings a trigger firing puts back, `result` included. -/
def State.bindings (s : State σ) : Value × Scope := (s.result, s.scope)

/-- A part of the state is after the run what it was before. -/
def Keeps (part : State σ → α) : Rel (State σ) Halt Node := fun s _ _ t => part t = part s

/-- A part of the state that the host, the files, the events and the polls are not in. -/
def Unmoved (part : State σ → α) : Prop :=
  ∀ (s : State σ) host session file pending occurrences queued pollDue cancelled,
    part { s with host, session, file, pending, occurrences, queued, pollDue, cancelled } = part s

theorem scope_unmoved : Unmoved (State.scope (σ := σ)) := fun _ _ _ _ _ _ _ _ _ => rfl

theorem bindings_unmoved : Unmoved (State.bindings (σ := σ)) := fun _ _ _ _ _ _ _ _ _ => rfl

theorem keeps_composes (part : State σ → α) : Composes (Keeps part) where
  refl _ := rfl
  trans h h' := by
    show part _ = part _
    exact Eq.trans h' h

section Unmoved

variable {part : State σ → α} (hpart : Unmoved part) {x : Exec σ} {run : RunBlock σ}

include hpart

theorem commit_keeps (ins : Instruction) (writes : List (SetEntry × Value)) :
    Sat (Keeps part) (commit x ins writes) := by
  intro s
  obtain ⟨-, h, f, hst, -⟩ := commit_run x ins writes s rfl
  show part _ = part s
  rw [hst]
  exact hpart s h _ f _ _ _ _ _

theorem record_keeps (f : Value → Value) (onError : String → WorkflowError) (m : Mark) :
    Sat (Keeps part) (record x f onError m) := by
  intro s
  obtain ⟨h, file, hst, -⟩ := record_run x f onError m s
  show part _ = part s
  rw [hst]
  exact hpart s h _ file _ _ _ _ _

theorem consumeOccurrence_keeps (name : String) : Sat (Keeps part) (consumeOccurrence name) := by
  intro s
  simp only [consumeOccurrence, Traced.step]
  split
  · exact hpart s _ _ _ _ _ _ _ _
  · split
    · exact hpart s _ _ _ _ _ _ _ _
    · rfl

theorem popPending_keeps : Sat (Keeps part) popPending := by
  intro s
  simp only [popPending, Traced.step]
  split
  · rfl
  · exact hpart s _ _ _ _ _ _ _ _

theorem keeps_turns : Turns x (Keeps part) where
  composes := keeps_composes part
  fuel _ := rfl
  error _ _ := rfl
  host s _ := hpart s _ _ _ _ _ _ _ _
  clock _ _ := rfl
  snapshot _ := rfl
  due s _ := hpart s _ _ _ _ _ _ _ _
  receive _ s := hpart s _ _ _ _ _ _ _ _
  synthesize _ s := hpart s _ _ _ _ _ _ _ _
  call tool args s := by
    show part _ = part s
    rw [(call_or_pause_run x tool args s).2.2]
    exact hpart s _ _ _ _ _ _ _ _
  checkStop s := by
    obtain ⟨⟨h, c, hst⟩, -⟩ := check_stop_run x s
    show part _ = part s
    rw [hst]
    exact hpart s _ _ _ _ _ _ _ _
  safePoint _ hm s := hm s

/-- A safe point keeps what the actions it fires on the tree put back. -/
theorem keeps_pumps (haction : ∀ i t payload (s : State σ), s.inTriggerAction = false →
      part (runAction run i t payload s).st = part s) : Pumps x (Keeps part) run where
  toTurns := keeps_turns hpart
  pumpOne s _ := (keeps_turns hpart).pumpOne_of (popPending_keeps hpart) (fun h => h)
    (fun _ _ _ => rfl) (fun _ _ s => hpart s _ _ _ _ _ _ _ _) s
  poll i t tool args _ s _ :=
    (keeps_turns hpart).poll_of (fun _ _ s => hpart s _ _ _ _ _ _ _ _) i t tool args s
  fireQueued i t _ s hs := by
    have hturns : Turns x (Keeps part) := keeps_turns hpart
    have htaken : SatAt (Keeps part) (takeQueued i) s := hpart s _ _ _ _ _ _ _ _
    refine SatAt.bind_tree hturns.composes hs htaken (fun _ hu => hu) fun payload t' ht' => ?_
    cases payload with
    | none => exact hturns.pure _ t'
    | some payload =>
      refine SatAt.bind_tree hturns.composes ht' (hturns.gatePasses t _ payload _ t')
        (tree_turns.gatePasses t _ payload _) fun passes u hu => ?_
      split
      · refine SatAt.bind hturns.composes (haction i t payload u hu) fun _ _ => ?_
        exact hturns.bind hturns.now (fun _ => record_keeps hpart _ _ _) _
      · exact hturns.pure _ u

end Unmoved

variable {x : Exec σ} {run : RunBlock σ}

/-- An action on the tree, whose block keeps the scope it runs in, puts every binding back. -/
theorem runAction_bindings (hrun : ∀ block, Sat (Keeps State.scope) (run block)) (i : Nat)
    (t : Trigger) (payload : Value) {s : State σ} (hs : s.inTriggerAction = false) :
    (runAction run i t payload s).st.bindings = s.bindings := by
  have hblock : (run t.actions (s.inAction payload)).st.scope = (s.inAction payload).scope :=
    hrun t.actions (s.inAction payload)
  have hhonour : (run t.actions (s.inAction payload)).st.honourStop = s.honourStop :=
    congrArg Scope.honourStop hblock
  rw [(run_action_run rfl).2.1]
  -- the action flag is lowered, not restored: on the tree that is the same
  simp only [State.bindings, State.scope, hhonour, hs]

section Try

variable {body : List Instruction} {catch_ finally_ : Option (List Instruction)}
  {s t : State σ} {l : Trace} {o : Option Halt}

/-- A block run with `error.*` bound, and the enclosing value put back. -/
theorem scope_withError (hrun : ∀ block, Sat (Keeps State.scope) (run block))
    (block : List Instruction) (t : State σ) (e : WorkflowError) :
    State.scope { (run block (t.withError e)).st with error := t.error } = t.scope := by
  have h : (run block (t.withError e)).st.scope = (t.withError e).scope := hrun block _
  simp only [State.scope, State.withError, Scope.mk.injEq] at h ⊢
  exact ⟨trivial, h.2⟩

/-- A block run without the stop, which is honoured again as before. -/
theorem scope_ignoringStop (hrun : ∀ block, Sat (Keeps State.scope) (run block))
    (block : List Instruction) (t : State σ) :
    State.scope { (run block t.ignoringStop).st with honourStop := t.honourStop } = t.scope := by
  have h : (run block t.ignoringStop).st.scope = t.ignoringStop.scope := hrun block _
  simp only [State.scope, State.ignoringStop, Scope.mk.injEq] at h ⊢
  exact ⟨h.1, h.2.1, h.2.2.1, trivial⟩

theorem afterCatch_scope (hrun : ∀ block, Sat (Keeps State.scope) (run block))
    (hway : AfterCatch run body catch_ finally_ s l o t) : t.scope = s.scope := by
  have hbody : (run body s).st.scope = s.scope := hrun body s
  cases hway with
  | body hpause => exact hbody
  | caught herror hblock ht =>
    subst ht
    exact (scope_withError hrun _ (run body s).st _).trans hbody

theorem tryRun_scope (hrun : ∀ block, Sat (Keeps State.scope) (run block))
    (hway : TryRun run body catch_ finally_ s l o t) : t.scope = s.scope := by
  cases hway with
  | paused hpause => exact hrun body s
  | bare hafter hnone => exact afterCatch_scope hrun hafter
  | cut hafter hfin => exact afterCatch_scope hrun hafter
  | success hafter hfin => exact (hrun _ _).trans (afterCatch_scope hrun hafter)
  | failed hafter hfin ht =>
    subst ht
    exact (scope_withError hrun _ _ _).trans (afterCatch_scope hrun hafter)
  | unwound hafter hfin hi ht =>
    subst ht
    exact (scope_ignoringStop hrun _ _).trans (afterCatch_scope hrun hafter)

end Try

theorem scope_steps : Steps x (fun _ => True) fun _ => Keeps State.scope where
  composes _ := keeps_composes _
  mono _ h := h
  fuel _ _ := rfl
  error _ _ _ := rfl
  host _ _ _ := rfl
  clock _ _ _ := rfl
  snapshot _ _ := rfl
  cancel _ _ := rfl
  due _ _ _ := rfl
  result _ _ _ := rfl
  receive _ := (keeps_turns (x := x) scope_unmoved).receive
  synthesize _ := (keeps_turns (x := x) scope_unmoved).synthesize
  call _ := (keeps_turns scope_unmoved).call
  commit _ ins writes _ _ := commit_keeps scope_unmoved ins writes
  consume _ name := consumeOccurrence_keeps scope_unmoved name
  checkStop _ := (keeps_turns scope_unmoved).checkStop
  safePoint _ _ hm s := hm s

theorem instruction_scope (ins : Instruction) {body : M σ Unit}
    (hbody : Sat (Keeps State.scope) body) :
    Sat (Keeps State.scope) (instructionWith x ins body) := by
  intro s
  show State.scope _ = s.scope
  rcases instruction_run x ins body s with ⟨key, -, -, heq⟩ | ⟨-, ⟨-, -, hst⟩ | hdone⟩
  · rw [heq]
  · rw [hst]
    exact hbody s
  · obtain ⟨key, onError, -, -, -, hst⟩ := hdone
    rw [hst]
    exact (record_keeps scope_unmoved _ onError _ (body s).st).trans (hbody s)

/-- Every block of instructions puts the scope back, however it ends. -/
theorem scope_rules (x : Exec σ) : Rules x (fun _ => True) fun _ => Keeps State.scope where
  toSteps := scope_steps
  pumpOne _ s _ := (keeps_turns scope_unmoved).pumpOne_of (popPending_keeps scope_unmoved)
    (fun h => h) (fun _ _ _ => rfl) (fun _ _ _ => rfl) s
  poll _ i t tool args _ s _ :=
    (keeps_turns scope_unmoved).poll_of (fun _ _ _ => rfl) i t tool args s
  fireQueued _ run i t hmem hrun s hs :=
    (keeps_pumps scope_unmoved fun i t payload s hs =>
      congrArg Prod.snd (runAction_bindings (fun block => hrun.sat block fun _ _ => trivial)
        i t payload hs)).fireQueued i t hmem s hs
  try_ run body catch_ finally_ hrun _ s := by
    obtain ⟨l, -, hway⟩ := exec_try_run run body catch_ finally_ s
    exact tryRun_scope (fun block => hrun.sat block fun _ _ => trivial) hway
  instruction ins _ _ hbody := instruction_scope ins hbody

theorem execBlock_scope (x : Exec σ) (depth : Nat) (block : List Instruction) :
    Sat (Keeps State.scope) (execBlock x depth block) :=
  ((scope_rules x).execBlock depth).sat block fun _ _ => trivial

/-- A safe point on the tree puts every binding back. -/
theorem safePoint_bindings (x : Exec σ) (fuel depth : Nat) {s : State σ}
    (hs : s.inTriggerAction = false) :
    (safePoint x fuel (execBlock x depth) s).st.bindings = s.bindings :=
  (keeps_pumps bindings_unmoved fun i t payload _ =>
    runAction_bindings (execBlock_scope x depth) i t payload).safe fuel s

theorem runCatch_scope (hrun : ∀ block, Sat (Keeps State.scope) (run block))
    (catch_ : Option (List Instruction)) (guarded : Bool) (outcome : Except Halt Unit)
    (s : State σ) : (runCatch run catch_ guarded outcome s).st.scope = s.scope := by
  unfold runCatch
  split
  · next e block =>
      show (runWithErrorScope run block e.toValue s).st.scope = s.scope
      rw [run_with_error_scope_run]
      exact scope_withError hrun block s e
  · rfl

theorem runFinally_scope (hrun : ∀ block, Sat (Keeps State.scope) (run block))
    (block : List Instruction) (after : Except Halt Unit) (s : State σ) :
    (runFinally run block after s).st.scope = s.scope := by
  unfold runFinally
  split
  · exact hrun block s
  · rfl
  · next e =>
      show (runWithErrorScope run block e.toValue s).st.scope = s.scope
      rw [run_with_error_scope_run]
      exact scope_withError hrun block s e
  · show (runIgnoringStop run block s).st.scope = s.scope
    rw [run_ignoring_stop_run]
    exact scope_ignoringStop hrun block s

/-- A safe point on the procedure tree leaves `result`, `error.*`, `event.*`, the action flag and the
stop as it found them, whatever it runs and however that ends; a `catch` and a `finally` leave the
enclosing scope. -/
theorem safe_point_transparent (x : Exec σ) (fuel depth : Nat) :
    (∀ s : State σ, s.inTriggerAction = false →
      (safePoint x fuel (execBlock x depth) s).st.bindings = s.bindings) ∧
    (∀ catch_ guarded outcome (t : State σ),
      (runCatch (execBlock x depth) catch_ guarded outcome t).st.scope = t.scope) ∧
    ∀ block after (t : State σ),
      (runFinally (execBlock x depth) block after t).st.scope = t.scope := by
  have hrun : ∀ block, Sat (Keeps State.scope) (execBlock x depth block) := execBlock_scope x depth
  exact ⟨fun s hs => safePoint_bindings x fuel depth hs, fun catch_ guarded outcome t =>
    runCatch_scope hrun catch_ guarded outcome t, fun block after t =>
    runFinally_scope hrun block after t⟩

/-- A queued trigger whose action first calls a tool and then fails. -/
def alarm : Trigger :=
  { id := "alarm", on := .event "cloud", when_ := none, whileGate := none, cooldown := none
    once := false, actions := [callTo "close_cover", callTo "capture"] }

/-- A safe point inside a `catch`, with the firing queued, after a tool that returned a frame. -/
def alarmed : State Script :=
  { Exec.start ⟨.null, [alarm], scripted⟩ (.object []) none
      { answers := [.ok (.bool true), .error (.failed "no frame")] } with
    result := .string "frame", error := some (.string "caught"), queued := [some .null] }

theorem alarmed_transparent :
    letI := Crates.wholeSeconds
    let r := safePoint ⟨.null, [alarm], scripted⟩ 3 (execBlock ⟨.null, [alarm], scripted⟩ 3) alarmed
    runOutcome r.out =
      some (.failed ⟨"trigger `alarm`: tool `capture` failed: no frame", none, some "capture"⟩) ∧
    r.st.result = .string "frame" ∧ r.st.error = some (.string "caught") := by
  let _ := Crates.wholeSeconds
  have h := (safe_point_transparent ⟨.null, [alarm], scripted⟩ 3 3).1 alarmed rfl
  refine ⟨by decide +kernel, ?_, ?_⟩
  · exact congrArg Prod.fst h
  · exact congrArg (fun b => b.2.error) h

end RustyPhoton.SessionRunner.Engine
