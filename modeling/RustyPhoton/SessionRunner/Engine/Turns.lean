import RustyPhoton.SessionRunner.Engine.Scopes

/-!
# What a safe point does by itself

A safe point asks the host, moves events and calls tools; instructions it runs only inside the
actions it fires. A relation that contains these primitive steps contains the whole of a safe
point, once each firing is in it. Nothing here asks whether the relation survives an instruction.
-/

set_option linter.unusedSectionVars false

namespace RustyPhoton.SessionRunner.Engine

open Lib Expr Traced

variable [Crates] {σ : Type}

variable {α : Type}

theorem drop_eq_cons {all : List α} {t : α} {rest : List α} {i : Nat}
    (h : t :: rest = all.drop i) : all[i]? = some t ∧ rest = all.drop (i + 1) := by
  have hget : (all.drop i)[0]? = some t := by rw [← h]; rfl
  have htail : (all.drop i).tail = rest := by rw [← h]; rfl
  exact ⟨by simpa using hget, by rw [← htail, List.tail_drop]⟩

/-- The primitive steps of the safe points. -/
structure Turns (x : Exec σ) (R : Rel (State σ) Halt Node) : Prop where
  composes : Composes R
  fuel : ∀ s, R s [] (some .fuel) s
  error : ∀ e s, R s [] (some (.interrupt (.error e))) s
  host : ∀ s h, R s [] none { s with host := h }
  clock : ∀ s t, R s [.mark (.clock t)] none s
  snapshot : ∀ s, R s [.mark (.snapshot s.session s.file)] none s
  due : ∀ s d, R s [] none { s with pollDue := d }
  receive : ∀ e, Sat R (receive e)
  synthesize : ∀ e, Sat R (synthesize e)
  call : ∀ tool args, Sat R (callOrPause x tool args)
  checkStop : Sat R (checkStop x)
  safePoint : ∀ (m : M σ Unit), Sat R m → Sat R (span .safePoint m)

variable {x : Exec σ} {R : Rel (State σ) Halt Node} {run : RunBlock σ}

namespace Turns

variable (h : Turns x R)

include h

variable {α : Type}

theorem bind {β : Type} {m : M σ α} {f : α → M σ β} (hm : Sat R m) (hf : ∀ a, Sat R (f a)) :
    Sat R (m >>= f) :=
  Sat.bind h.composes hm hf

theorem pure (a : α) : Sat R (Pure.pure a : M σ α) :=
  Sat.pure h.composes a

theorem read : Sat R (Traced.read : M σ (State σ)) :=
  Sat.read h.composes

theorem ask (f : σ → α × σ) : Sat R (ask f) :=
  fun s => h.host s (f s.host).2

theorem raiseError (e : WorkflowError) : Sat R (raise (.error e) : M σ α) :=
  fun s => h.error e s

theorem now : Sat R (now x) :=
  h.bind (h.ask _) fun t => h.bind (fun s => h.clock s t) fun _ => h.pure t

theorem ctx : Sat R (ctx x) :=
  h.bind h.read fun _ => h.bind h.now fun _ => h.pure _

theorem acceptCorrection (v : Value) : Sat R (acceptCorrection v) := by
  unfold Engine.acceptCorrection
  split
  · exact h.synthesize _
  · exact h.pure _

/-! ## The pump -/

theorem gated (i : Nat) (t : Trigger) : Sat R (gated x i t) := by
  refine h.bind h.read fun s => ?_
  split
  · exact h.pure _
  · split
    · exact h.pure _
    · split
      · exact h.bind h.now fun _ => h.pure _
      · exact h.pure _

theorem gatePasses (t : Trigger) (gate : Option Expression) (payload : Value) (role : String) :
    Sat R (gatePasses x t gate payload role) := by
  cases gate with
  | none => exact h.pure _
  | some gate =>
    refine h.bind h.ctx fun c => ?_
    split
    · exact h.pure _
    · exact h.raiseError _
    · exact h.raiseError _

theorem drain (fuel : Nat) : Sat R (drain x fuel) := by
  induction fuel with
  | zero => exact fun s => h.fuel s
  | succ fuel ih =>
    refine h.bind (h.ask _) fun e => ?_
    cases e with
    | some e => exact h.bind (h.receive e) fun _ => ih
    | none => exact h.pure _

theorem pollIsDue (i : Nat) : Sat R (pollIsDue x i) := by
  refine h.bind h.read fun s => ?_
  split
  · exact h.bind (h.ask _) fun _ => h.pure _
  · exact h.pure _

theorem pollArgs (args : List (String × ArgValue)) : Sat R (pollArgs x args) := by
  induction args with
  | nil => exact h.pure _
  | cons arg rest ih =>
    obtain ⟨name, arg⟩ := arg
    cases arg with
    | literal v => exact h.bind ih fun _ => h.pure _
    | expr e =>
      refine h.bind h.ctx fun c => ?_
      split
      · exact h.bind ih fun _ => h.pure _
      · exact h.pure _

theorem reschedule (i : Nat) (interval : Duration) : Sat R (reschedule x i interval) :=
  h.bind (h.ask _) fun _ s => h.due s _

/-! ## Constructs of simple relations -/

/-- An offer, for a relation that says nothing of the gates. -/
theorem offer_of (hoffered : ∀ s e i, R s [.mark (.offered e i)] none s)
    (henqueue : ∀ i payload, Sat R (enqueue i payload)) (e : EngineEvent) (i : Nat)
    (t : Trigger) : Sat R (offer x e i t) := by
  unfold Engine.offer
  split
  · exact h.pure _
  · split
    · refine h.bind (fun s => hoffered s e i) fun _ => h.bind (h.gated i t) fun closed => ?_
      split
      · exact h.pure _
      · refine h.bind (h.gatePasses t _ _ _) fun passes => ?_
        split
        · exact henqueue i _
        · exact h.pure _
    · exact h.pure _

theorem considerEvent_of (hoffered : ∀ s e i, R s [.mark (.offered e i)] none s)
    (henqueue : ∀ i payload, Sat R (enqueue i payload)) (e : EngineEvent) (i : Nat)
    (ts : List Trigger) : Sat R (considerEvent x e i ts) := by
  induction ts generalizing i with
  | nil => exact h.pure _
  | cons t rest ih =>
    exact h.bind (h.offer_of hoffered henqueue e i t) fun _ => ih (i + 1)

/-- A turn of the pump, for a relation that says nothing of the gates. -/
theorem pumpOne_of (hpop : Sat R popPending)
    (hspan : ∀ {s e l o t}, R s l o t → R s [.span (.considering e) l o] o t)
    (hoffered : ∀ s e i, R s [.mark (.offered e i)] none s)
    (henqueue : ∀ i payload, Sat R (enqueue i payload)) : Sat R (pumpOne x) := by
  refine h.bind hpop fun e => ?_
  cases e with
  | none => exact h.pure _
  | some e =>
    exact h.bind (fun s => hspan (h.considerEvent_of hoffered henqueue e 0 x.triggers s))
      fun _ => h.pure _

theorem poll_of (henqueue : ∀ i payload, Sat R (enqueue i payload)) (i : Nat) (t : Trigger)
    (tool : String) (args : List (String × ArgValue)) : Sat R (pollDue x i t tool args) := by
  refine h.bind (h.gated i t) fun closed => ?_
  split
  · exact h.pure _
  · refine h.bind (h.pollArgs args) fun args => ?_
    cases args with
    | none => exact h.pure _
    | some args =>
      refine h.bind (h.call tool args) fun answer => ?_
      cases answer with
      | error message => exact h.pure _
      | ok payload =>
        refine h.bind (h.acceptCorrection payload) fun _ =>
          h.bind (h.gatePasses t _ _ _) fun passes => ?_
        split
        · exact henqueue i _
        · exact h.pure _

theorem fireQueued_of (htake : ∀ i, Sat R (takeQueued i)) (i : Nat) (t : Trigger)
    (haction : ∀ payload, Sat R (runAction run i t payload))
    (hcomplete : Sat R (completeFiring x i t)) : Sat R (fireQueued x run i t) := by
  refine h.bind (htake i) fun payload => ?_
  cases payload with
  | none => exact h.pure _
  | some payload =>
    refine h.bind (h.gatePasses t _ _ _) fun passes => ?_
    split
    · exact h.bind (haction payload) fun _ => hcomplete
    · exact h.pure _

end Turns

/-! ## The tree

A run that is on the procedure tree, not inside a trigger action, is there again after each part of
the pump. -/

/-- A run on the tree stays there. -/
def TreeRel (s : State σ) (_ : Trace) (_ : Option Halt) (t : State σ) : Prop :=
  s.inTriggerAction = false → t.inTriggerAction = false

theorem treeRel_composes : Composes (TreeRel (σ := σ)) where
  refl _ hs := hs
  trans h h' hs := h' (h hs)

theorem tree_turns : Turns x TreeRel where
  composes := treeRel_composes
  fuel _ hs := hs
  error _ _ hs := hs
  host _ _ hs := hs
  clock _ _ hs := hs
  snapshot _ hs := hs
  due _ _ hs := hs
  receive _ _ hs := hs
  synthesize _ _ hs := hs
  call tool args s hs := by
    rw [(call_or_pause_run x tool args s).2.2]
    exact hs
  checkStop s hs := by
    obtain ⟨⟨h, c, hst⟩, -⟩ := check_stop_run x s
    rw [hst]
    exact hs
  safePoint _ hm s := hm s

theorem popPending_tree : Sat TreeRel (popPending (σ := σ)) := by
  intro s hs
  simp only [popPending, Traced.step]
  split
  · exact hs
  · exact hs

theorem pumpOne_tree : Sat TreeRel (pumpOne x) :=
  tree_turns.pumpOne_of popPending_tree (fun h => h) (fun _ _ _ hs => hs) fun _ _ _ hs => hs

theorem pollOne_tree (i : Nat) (t : Trigger) : Sat TreeRel (pollOne x i t) := by
  unfold pollOne
  split
  · exact Sat.pure treeRel_composes ()
  · refine Sat.bind treeRel_composes (tree_turns.pollIsDue i) fun isDue => ?_
    split
    · exact Sat.bind treeRel_composes (tree_turns.reschedule i _) fun _ =>
        tree_turns.poll_of (fun _ _ _ hs => hs) i t _ _
    · exact Sat.pure treeRel_composes ()

theorem pumpPending_tree (left : Nat) : Sat TreeRel (pumpPending x left) := by
  induction left with
  | zero => exact Sat.pure treeRel_composes ()
  | succ left ih =>
    refine Sat.bind treeRel_composes pumpOne_tree fun found => ?_
    split
    · exact ih
    · exact Sat.pure treeRel_composes ()

theorem runDuePolls_tree (i : Nat) (ts : List Trigger) : Sat TreeRel (runDuePolls x i ts) := by
  induction ts generalizing i with
  | nil => exact Sat.pure treeRel_composes ()
  | cons t rest ih => exact Sat.bind treeRel_composes (pollOne_tree i t) fun _ => ih (i + 1)

/-- A firing ends on the tree. -/
theorem fireQueued_tree (run : RunBlock σ) (i : Nat) (t : Trigger) :
    Sat TreeRel (fireQueued x run i t) := by
  refine tree_turns.fireQueued_of (fun _ _ hs => hs) i t (fun payload s _ => ?_) ?_
  · rw [(run_action_run rfl).2.1]
  · refine Sat.bind treeRel_composes tree_turns.now fun _ s hs => ?_
    obtain ⟨h, file, hst, -⟩ := record_run x _ _ _ s
    rw [hst]
    exact hs

/-- Sequencing on the tree. -/
theorem SatAt.bind_tree {R : Rel (State σ) Halt Node} {β : Type} {m : M σ α} {f : α → M σ β}
    {s : State σ} (hR : Composes R) (hs : s.inTriggerAction = false) (hm : SatAt R m s)
    (htree : Sat TreeRel m) (hf : ∀ a t, t.inTriggerAction = false → SatAt R (f a) t) :
    SatAt R (m >>= f) s :=
  SatAt.bind hR hm fun a _ => hf a _ (htree s hs)

/-! ## The whole of a safe point -/

/-- The steps of a safe point and what it does on the procedure tree, never inside a trigger
action: a turn of the pump, a due poll, a firing. -/
structure Pumps (x : Exec σ) (R : Rel (State σ) Halt Node) (run : RunBlock σ) : Prop
    extends Turns x R where
  pumpOne : ∀ s : State σ, s.inTriggerAction = false → SatAt R (pumpOne x) s
  poll : ∀ i t tool args, x.triggers[i]? = some t → ∀ s : State σ, s.inTriggerAction = false →
    SatAt R (pollDue x i t tool args) s
  fireQueued : ∀ i t, x.triggers[i]? = some t → ∀ s : State σ, s.inTriggerAction = false →
    SatAt R (fireQueued x run i t) s

namespace Pumps

variable (h : Pumps x R run)

include h

variable {s : State σ}

theorem pumpPending (left : Nat) (hs : s.inTriggerAction = false) :
    SatAt R (pumpPending x left) s := by
  induction left generalizing s with
  | zero => exact h.pure _ s
  | succ left ih =>
    refine SatAt.bind_tree h.composes hs (h.pumpOne s hs) pumpOne_tree fun found t ht => ?_
    split
    · exact ih ht
    · exact h.pure _ t

theorem pollOne (i : Nat) (t : Trigger) (hmem : x.triggers[i]? = some t)
    (hs : s.inTriggerAction = false) : SatAt R (pollOne x i t) s := by
  unfold Engine.pollOne
  split
  · exact h.pure _ s
  · refine SatAt.bind_tree h.composes hs (h.pollIsDue i s) (tree_turns.pollIsDue i)
      fun isDue u hu => ?_
    split
    · exact SatAt.bind_tree h.composes hu (h.reschedule i _ u) (tree_turns.reschedule i _)
        fun _ => h.poll i t _ _ hmem
    · exact h.pure _ u

/-- A turn for every poll from an index on. -/
theorem runDuePolls (i : Nat) (ts : List Trigger) (hts : ts = x.triggers.drop i)
    (hs : s.inTriggerAction = false) : SatAt R (runDuePolls x i ts) s := by
  induction ts generalizing i s with
  | nil => exact h.pure _ s
  | cons t rest ih =>
    obtain ⟨ht, hrest⟩ := drop_eq_cons hts
    exact SatAt.bind_tree h.composes hs (h.pollOne i t ht hs) (pollOne_tree i t)
      fun _ _ => ih (i + 1) hrest

theorem runQueued (i : Nat) (ts : List Trigger) (hts : ts = x.triggers.drop i)
    (hs : s.inTriggerAction = false) : SatAt R (runQueued x run i ts) s := by
  induction ts generalizing i s with
  | nil => exact h.pure _ s
  | cons t rest ih =>
    obtain ⟨ht, hrest⟩ := drop_eq_cons hts
    exact SatAt.bind_tree h.composes hs (h.fireQueued i t ht s hs) (fireQueued_tree run i t)
      fun _ _ => ih (i + 1) hrest

theorem pump (hs : s.inTriggerAction = false) : SatAt R (pump x run) s := by
  refine SatAt.bind h.composes (h.read s) fun _ _ =>
    SatAt.bind_tree h.composes hs (h.pumpPending _ hs) (pumpPending_tree _) fun _ t ht =>
      SatAt.bind_tree h.composes ht (h.runDuePolls 0 _ rfl ht) (runDuePolls_tree 0 _)
        fun _ _ => h.runQueued 0 _ rfl

/-- A safe point is in the relation, on the tree or inside an action. -/
theorem safe (fuel : Nat) : Sat R (Engine.safePoint x fuel run) := by
  refine h.safePoint _ ?_
  refine h.bind (fun s => h.snapshot s) fun _ => h.bind h.checkStop fun _ =>
    h.bind (h.drain fuel) fun _ s => ?_
  rw [read_bind_run]
  split
  · exact h.pure _ s
  · next hs => exact h.pump (by simpa using hs)

end Pumps

end RustyPhoton.SessionRunner.Engine
