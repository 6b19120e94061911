import RustyPhoton.SessionRunner.Engine.Rules

/-!
# Control relations

A relation about interrupts looks at the calls, the stop and the blocks of a trace and at
`honour_stop`, at nothing else of the state. For such a relation only the call, the stop check and
the `try` are left to prove; `Control.rules` gives the rest.
-/

set_option linter.unusedSectionVars false

namespace RustyPhoton.SessionRunner.Engine

open Lib Expr Traced

/-- The marks a control relation looks at. -/
def Mark.isControl : Mark → Bool
  | .call _ _ _ _ | .stopRaised => true
  | _ => false

/-- The spans of a `try`. -/
def Label.isTry : Label → Bool
  | .instruction _ | .safePoint | .action _ | .considering _ => false
  | _ => true

variable [Crates] {σ : Type}

/-- What is left to prove of a relation about interrupts. -/
structure Control (x : Exec σ) (R : Rel (State σ) Halt Node) : Prop where
  composes : Composes R
  fuel : ∀ s, R s [] (some .fuel) s
  error : ∀ e s, R s [] (some (.interrupt (.error e))) s
  silent : ∀ {s t : State σ}, t.honourStop = s.honourStop → R s [] none t
  mark : ∀ {m} s, m.isControl = false → R s [.mark m] none s
  call : ∀ tool args, Sat R (callOrPause x tool args)
  checkStop : Sat R (checkStop x)
  /-- A workflow error may be reworded, and the state left only matters in `honour_stop`. -/
  reworded : ∀ {s l t e} e', R s l (some (.interrupt (.error e))) t →
    R s l (some (.interrupt (.error e'))) t
  settles : ∀ {s l o t t'}, t'.honourStop = t.honourStop → R s l o t → R s l o t'
  span : ∀ {label s l o t}, label.isTry = false → R s l o t → R s [.span label l o] o t
  try_ : ∀ {run : RunBlock σ}, (∀ block, Sat R (run block)) → Shaped run →
    ∀ body catch_ finally_, Sat R (execTry run body catch_ finally_)

namespace Control

variable {x : Exec σ} {R : Rel (State σ) Halt Node} (h : Control x R)

include h

/-- One step with a mark that is not about control. -/
theorem step {m : Mark} {s t : State σ} (hm : m.isControl = false)
    (ht : t.honourStop = s.honourStop) : R s [.mark m] none t :=
  h.composes.trans (h.mark s hm) (h.silent ht)

/-- The state a run starts from only matters in `honour_stop`. -/
theorem start {s s' t : State σ} {l : Trace} {o : Option Halt}
    (hs : s.honourStop = s'.honourStop) (hR : R s l o t) : R s' l o t :=
  h.composes.trans (h.silent hs) hR

theorem bind {α β : Type} {m : M σ α} {f : α → M σ β} (hm : Sat R m) (hf : ∀ a, Sat R (f a)) :
    Sat R (m >>= f) :=
  Sat.bind h.composes hm hf

theorem update {f : State σ → State σ} (hf : ∀ s, (f s).honourStop = s.honourStop) :
    Sat R (Traced.update f) :=
  fun s => h.silent (hf s)

theorem persistOr (onError : String → WorkflowError) : Sat R (persistOr x onError) := by
  intro s
  obtain ⟨host, file, hst, hlog, -, ⟨hhalt, -⟩ | ⟨e, hhalt, -⟩⟩ := persist_or_run x onError s
  · rw [hst, hlog, hhalt]
    exact h.silent rfl
  · rw [hst, hlog, hhalt]
    exact h.settles (t := s) rfl (h.error e s)

theorem writeEntries (ins : Instruction) (writes : List (SetEntry × Value)) :
    Sat R (writeEntries ins writes) := by
  intro s
  obtain ⟨hlog, hhalt, hst⟩ := write_entries_run ins writes s
  rw [hlog, hhalt, hst]
  cases (writeAll (writes.map fun w => (w.1.path, w.2)) s.session).2 with
  | none => exact h.silent rfl
  | some e => exact h.settles (t := s) rfl (h.error _ s)

theorem popPending : Sat R popPending := by
  intro s
  simp only [Engine.popPending, Traced.step]
  split
  · exact h.silent rfl
  · exact h.step rfl rfl

theorem consumeOccurrence (name : String) : Sat R (consumeOccurrence name) := by
  intro s
  simp only [Engine.consumeOccurrence, Traced.step]
  split
  · exact h.step rfl rfl
  · split
    · exact h.step rfl rfl
    · exact h.silent rfl

theorem steps : Steps x (fun _ => True) fun _ => R where
  composes _ := h.composes
  mono _ hR := hR
  fuel _ := h.fuel
  error _ := h.error
  host _ _ _ := h.silent rfl
  clock _ s _ := h.mark s rfl
  snapshot _ s := h.mark s rfl
  cancel _ _ := h.silent rfl
  due _ _ _ := h.silent rfl
  result _ _ _ := h.silent rfl
  receive _ _ _ := h.step rfl rfl
  synthesize _ _ _ := h.step rfl rfl
  call _ := h.call
  commit _ ins writes _ _ := h.bind (fun _ => h.step rfl rfl) fun _ =>
    h.bind (h.writeEntries ins writes) fun _ => h.persistOr _
  consume _ := h.consumeOccurrence
  checkStop _ := h.checkStop
  safePoint _ _ hm s := h.span rfl (hm s)

theorem runAction {run : RunBlock σ} (hrun : ∀ block, Sat R (run block)) (i : Nat) (t : Trigger)
    (payload : Value) : Sat R (runAction run i t payload) := by
  intro s
  generalize ha : run t.actions (s.inAction payload) = a
  have hspan : R (s.inAction payload) [.span (.action i) a.log a.halt] a.halt a.st := by
    rw [← ha]
    exact h.span rfl (hrun t.actions (s.inAction payload))
  obtain ⟨hlog, hst, hhalt⟩ := run_action_run (i := i) ha
  rw [hlog, hst]
  refine h.settles (t := a.st) rfl (h.start (s := s.inAction payload) rfl ?_)
  rcases hhalt with heq | ⟨e, e', he, heq⟩
  · rw [heq]
    exact hspan
  · rw [he] at hspan ⊢
    rw [heq]
    exact h.reworded e' hspan

theorem record (f : Value → Value) (onError : String → WorkflowError) {m : Mark}
    (hm : m.isControl = false) : Sat R (record x f onError m) :=
  h.bind (h.update fun _ => rfl) fun _ => h.bind (h.persistOr _) fun _ _ => h.step hm rfl

theorem completeFiring (i : Nat) (t : Trigger) : Sat R (completeFiring x i t) :=
  h.bind (h.steps.turns []).now fun _ => h.record _ _ rfl

theorem completeOnce (ins : Instruction) : Sat R (completeOnce x ins) := by
  unfold Engine.completeOnce
  split
  · exact Sat.pure h.composes ()
  · exact h.record _ _ rfl

theorem skipOnce (ins : Instruction) : Sat R (skipOnce ins) := by
  unfold Engine.skipOnce
  split
  · exact Sat.pure h.composes _
  · refine h.bind (Sat.read h.composes) fun s => ?_
    split
    · exact h.bind (fun _ => h.step rfl rfl) fun _ => Sat.pure h.composes _
    · exact Sat.pure h.composes _

/-- A control relation that passes through `try` holds of every run. -/
theorem rules : Rules x (fun _ => True) fun _ => R where
  toSteps := h.steps
  pumpOne ns s _ := (h.steps.turns ns).pumpOne_of h.popPending (h.span rfl) (fun _ _ _ => h.step rfl rfl)
    (fun _ _ _ => h.step rfl rfl) s
  poll ns i t tool args _ s _ :=
    (h.steps.turns ns).poll_of (fun _ _ _ => h.step rfl rfl) i t tool args s
  fireQueued ns run i t _ hrun s _ :=
    (h.steps.turns ns).fireQueued_of (fun _ _ => h.silent rfl) i t
      (h.runAction (fun block => hrun.sat block fun _ _ => trivial) i t) (h.completeFiring i t) s
  try_ run body catch_ finally_ hrun _ :=
    h.try_ (fun block => hrun.sat block fun _ _ => trivial) hrun.shaped body catch_ finally_
  instruction ins body _ hbody s := by
    refine h.span rfl (h.bind (h.skipOnce ins) (fun skipped => ?_) s)
    split
    · exact Sat.pure h.composes ()
    · exact h.bind hbody fun _ => h.completeOnce ins

end Control

/-- Every pass is in a control relation. -/
theorem Control.runWithStop {R : Rel (State σ) Halt Node} {doc : Document} {params : Value}
    {host : Host σ} (hR : Control ⟨params, doc.triggers, host⟩ R) (fuel : Nat)
    (file : Option Value) (h : σ) :
    R (Exec.start ⟨params, doc.triggers, host⟩ (loadSession file) file h)
      (runWithStop fuel doc params host file h).log (runWithStop fuel doc params host file h).halt
      (runWithStop fuel doc params host file h).st :=
  hR.rules.runWithStop (fun _ _ => trivial) fuel file h

end RustyPhoton.SessionRunner.Engine
