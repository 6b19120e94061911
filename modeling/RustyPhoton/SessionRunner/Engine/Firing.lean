import RustyPhoton.SessionRunner.Document.Accepted
import RustyPhoton.SessionRunner.Engine.Gates
import RustyPhoton.SessionRunner.Engine.Script
import RustyPhoton.SessionRunner.Engine.Session

/-!
# Trigger firings

A firing is queued when its event or poll passes the gates, taken at a later moment of the same or
a later safe point, and recorded when its action completes. Nothing that could fire the trigger a
second time happens in between: a queued firing closes the gates, and inside an action nothing is
queued. So the facts that the gates read when the firing was queued (no completion for `once`, the
last one far enough back for `cooldown`) still hold when it is recorded.
-/

set_option linter.unusedSectionVars false

namespace RustyPhoton.SessionRunner.Engine

open Lib Traced

/-! ## Turns -/

section Turns

variable [Crates] {σ : Type}

/-- However a run goes: an action runs no other one, inside an action nothing fires, and a firing is
queued in an empty slot only. -/
structure TurnRel (s : State σ) (l : Trace) (t : State σ) : Prop where
  scope : t.inTriggerAction = s.inTriggerAction
  inside : s.inTriggerAction = true → NoFiring s l t
  nested : ∀ j sub halt, Occurs (.span (.action j) sub halt) l → ActionFree sub
  fresh : ∀ j, .queued j true ∉ marks l

variable {x : Exec σ} {s t u : State σ} {l l' : Trace}

theorem TurnRel.of_noFiring (h : NoFiring s l t) (hscope : t.inTriggerAction = s.inTriggerAction) :
    TurnRel s l t :=
  ⟨hscope, fun _ => h, fun j sub halt hocc => absurd hocc (h.free j sub halt),
    fun j hmem => by cases h.marks _ hmem⟩

theorem TurnRel.of_idle (h : Idle s l t) : TurnRel s l t := .of_noFiring h.toNoFiring h.scope

theorem TurnRel.trans (h : TurnRel s l t) (h' : TurnRel t l' u) : TurnRel s (l ++ l') u where
  scope := h'.scope.trans h.scope
  inside hs := (h.inside hs).trans (h'.inside (h.scope.trans hs))
  nested j sub halt hocc :=
    (occurs_append.mp hocc).elim (h.nested j sub halt) (h'.nested j sub halt)
  fresh j hmem := by
    rw [marks_append] at hmem
    exact (List.mem_append.mp hmem).elim (h.fresh j) (h'.fresh j)

theorem TurnRel.span {label : Label} {o : Option Halt} (h : TurnRel s l t)
    (hlabel : ∀ j, label ≠ .action j) : TurnRel s [.span label l o] t where
  scope := h.scope
  inside hs := (h.inside hs).span hlabel
  nested j sub halt hocc := by
    rcases occurs_span.mp hocc with heq | hocc
    · exact absurd (Node.span.inj heq).1.symm (hlabel j)
    · exact h.nested j sub halt hocc
  fresh j := by rw [marks_span]; exact h.fresh j

theorem turnRel_composes : Composes fun (s : State σ) l (_ : Option Halt) t => TurnRel s l t where
  refl _ := .of_idle (.still rfl rfl rfl rfl)
  trans := .trans

/-- A firing is queued on the tree, where its slot was empty. -/
theorem TurnRel.queued {j : Nat} {payload : Value} (hs : s.inTriggerAction = false)
    (hslot : s.queued.getD j none = none) (h : Idle s l u)
    (ht : t = { u with queued := u.queued.set j (some payload) }) :
    TurnRel s (l ++ [.mark (.queued j (u.queued.getD j none).isSome)]) t := by
  have hreplaced : (u.queued.getD j none).isSome = false := by rw [h.queued, hslot]; rfl
  subst ht
  rw [hreplaced]
  refine (TurnRel.of_idle h).trans ⟨rfl, fun hu => ?_, fun j sub halt hocc => ?_, fun k hmem => ?_⟩
  · rw [h.scope, hs] at hu
    cases hu
  · exact absurd hocc (actionFree_mark _ j sub halt)
  · cases List.mem_singleton.mp hmem

/-- An action is one block in which nothing fires. -/
theorem runAction_turns {run : RunBlock σ} {trigger : Trigger}
    (hrun : ∀ s, TurnRel s (run trigger.actions s).log (run trigger.actions s).st) (j : Nat)
    (payload : Value) {s : State σ} (hs : s.inTriggerAction = false) :
    TurnRel s (runAction run j trigger payload s).log (runAction run j trigger payload s).st := by
  generalize ha : run trigger.actions (s.inAction payload) = a
  obtain ⟨hlog, hst, -⟩ := run_action_run (i := j) ha
  have hturns : TurnRel (s.inAction payload) a.log a.st := ha ▸ hrun (s.inAction payload)
  have hfree : NoFiring (s.inAction payload) a.log a.st := hturns.inside rfl
  rw [hlog, hst]
  refine ⟨hs.symm, fun hin => ?_, fun k sub halt hocc => ?_, fun k => ?_⟩
  · rw [hs] at hin
    cases hin
  · rcases occurs_span.mp hocc with heq | hocc
    · obtain ⟨-, rfl, -⟩ := Node.span.inj heq
      exact hfree.free
    · exact absurd hocc (hfree.free k sub halt)
  · rw [marks_span]
    exact hturns.fresh k

theorem record_turns (f : Value → Value) (onError : String → WorkflowError) {m : Mark}
    (hm : ∀ j, m ≠ .queued j true) {s : State σ}
    (hs : s.inTriggerAction = true → m.isFiring = false) :
    TurnRel s (record x f onError m s).log (record x f onError m s).st := by
  obtain ⟨h, file, hst, ⟨-, hlog, -⟩ | ⟨-, hlog, -⟩⟩ := record_run x f onError m s
  · rw [hst, hlog]
    exact ⟨rfl, fun hin => .of_mark (hs hin) rfl,
      fun j sub halt hocc => absurd hocc (actionFree_mark m j sub halt),
      fun j hmem => hm j (List.mem_singleton.mp hmem).symm⟩
  · rw [hst, hlog]
    exact .of_noFiring (.still rfl) rfl


theorem takeQueued_turns (j : Nat) {s : State σ} (hs : s.inTriggerAction = false) :
    TurnRel s (takeQueued j s).log (takeQueued j s).st := by
  refine ⟨rfl, fun hin => ?_, fun _ _ _ hocc => absurd hocc not_occurs_nil,
    fun _ => List.not_mem_nil⟩
  rw [hs] at hin
  cases hin

/-- A turn of `run_queued`, on the tree. -/
theorem fireQueued_turns {run : RunBlock σ} {trigger : Trigger}
    (hrun : ∀ s, TurnRel s (run trigger.actions s).log (run trigger.actions s).st) (j : Nat)
    {s : State σ} (hs : s.inTriggerAction = false) :
    TurnRel s (fireQueued x run j trigger s).log (fireQueued x run j trigger s).st := by
  have hidle := (idle_ledger x).steps
  show SatAt (fun s l _ t => TurnRel s l t) (fireQueued x run j trigger) s
  refine SatAt.bind_tree turnRel_composes hs (takeQueued_turns j hs) (fun _ hs => hs)
    fun queued t ht => ?_
  cases queued with
  | none => exact turnRel_composes.refl t
  | some payload =>
    refine SatAt.bind_tree turnRel_composes ht
      (.of_idle ((hidle.turns []).gatePasses trigger _ payload _ t))
      (tree_turns.gatePasses trigger _ payload _) fun passes u hu => ?_
    split
    · refine SatAt.bind_tree turnRel_composes hu (runAction_turns hrun j payload hu)
        (fun s _ => by rw [(run_action_run rfl).2.1]) fun _ v hv => ?_
      refine SatAt.bind_tree turnRel_composes hv (.of_idle ((hidle.turns []).now v))
        tree_turns.now fun at_ w hw => record_turns _ _ (by simp) fun hin => ?_
      rw [hw] at hin
      cases hin
    · exact turnRel_composes.refl u

end Turns

/-! ## The relation -/

section Relation

variable [Crates] {σ : Type}

/-- A run takes its turns and keeps what is held of the trigger at an index. -/
structure FiringRel (clocked : Prop) (i : Nat) (trigger : Trigger) (s : State σ) (l : Trace)
    (t : State σ) : Prop extends TurnRel s l t where
  held : ∀ {done now}, Held clocked i trigger done now s → (clocked → Ticks now (readings l)) →
    Held clocked i trigger (done ++ firingsOf i l) (latest now (readings l)) t

variable {clocked : Prop} {i j : Nat} {trigger trigger' : Trigger} {x : Exec σ} {s t u : State σ}
  {l l' : Trace} {done : List DateTime} {now : DateTime}

theorem FiringRel.of_idle (h : Idle s l t) : FiringRel clocked i trigger s l t := by
  refine ⟨.of_idle h, fun hheld hticks => ?_⟩
  rw [h.firings, List.append_nil]
  exact hheld.idle h hticks

theorem FiringRel.trans (h : FiringRel clocked i trigger s l t)
    (h' : FiringRel clocked i trigger t l' u) : FiringRel clocked i trigger s (l ++ l') u := by
  refine ⟨h.toTurnRel.trans h'.toTurnRel, fun hheld hticks => ?_⟩
  rw [readings_append] at hticks ⊢
  rw [firingsOf_append, latest_append, ← List.append_assoc]
  exact h'.held (h.held hheld fun hc => (ticks_append.mp (hticks hc)).1)
    fun hc => (ticks_append.mp (hticks hc)).2

theorem FiringRel.span {label : Label} {o : Option Halt} (h : FiringRel clocked i trigger s l t)
    (hlabel : ∀ j, label ≠ .action j) : FiringRel clocked i trigger s [.span label l o] t := by
  refine ⟨h.toTurnRel.span hlabel, ?_⟩
  rw [readings_span, firingsOf_span]
  exact h.held

theorem firingRel_composes (clocked : Prop) (i : Nat) (trigger : Trigger) :
    Composes fun (s : State σ) l (_ : Option Halt) t => FiringRel clocked i trigger s l t where
  refl _ := .of_idle (.still rfl rfl rfl rfl)
  trans := .trans

theorem firingRel_ledger (clocked : Prop) (i : Nat) (trigger : Trigger) (x : Exec σ) :
    Ledger x (fun _ => True) fun _ s l _ t => FiringRel clocked i trigger s l t where
  composes _ := firingRel_composes clocked i trigger
  mono _ h := h
  any _ h := h
  silent ht := .of_idle (@Ledger.silent _ _ _ _ (idle_ledger x) [] _ _ ht)
  span hlabel h := h.span fun j hj => by
    subst hj
    cases hlabel
  clock ns s t := .of_idle ((idle_ledger x).clock ns s t)
  snapshot ns s := .of_idle ((idle_ledger x).snapshot ns s)
  called ns s tool args answer honoured :=
    .of_idle ((idle_ledger x).called ns s tool args answer honoured)
  stopRaised ns s := .of_idle ((idle_ledger x).stopRaised ns s)
  receive ns e s := .of_idle ((idle_ledger x).receive ns e s)
  synthesize ns e s := .of_idle ((idle_ledger x).synthesize ns e s)
  consume ns name s := .of_idle ((idle_ledger x).consume ns name s)
  commit ns ins writes hins hkind s := .of_idle ((idle_ledger x).commit ns ins writes hins hkind s)

/-! ## Queueing -/

theorem isSome_getD_set {queued : List (Option Value)} {v : Option Value} (hne : j ≠ i) :
    ((queued.set j v).getD i none).isSome = (queued.getD i none).isSome := by
  rw [List.getD_eq_getElem?_getD, List.getD_eq_getElem?_getD, List.getElem?_set_ne hne]

theorem getD_set_none {queued : List (Option Value)} : (queued.set i none).getD i none = none := by
  rw [List.getD_eq_getElem?_getD, List.getElem?_set_self']
  cases queued[i]? with
  | none => rfl
  | some v => rfl

/-- A firing is queued; the trigger's own one was due. -/
theorem FiringRel.queued {payload : Value} (hs : s.inTriggerAction = false)
    (hslot : s.queued.getD j none = none) (h : Idle s l u)
    (hdue : j = i → ∀ {done now}, Held clocked i trigger done now s →
      (clocked → Ticks now (readings l)) → Due clocked trigger done (latest now (readings l)))
    (ht : t = { u with queued := u.queued.set j (some payload) }) :
    FiringRel clocked i trigger s
      (l ++ [.mark (.queued j (u.queued.getD j none).isSome)]) t := by
  refine ⟨.queued hs hslot h ht, fun {done now} hheld hticks => ?_⟩
  generalize (u.queued.getD j none).isSome = replaced at hticks
  have hreadings : readings (l ++ [.mark (.queued j replaced)]) = readings l := by
    rw [readings_append]
    exact List.append_nil _
  have hfirings : firingsOf i (l ++ [.mark (.queued j replaced)]) = [] := by
    rw [firingsOf_append, h.firings]
    rfl
  rw [hreadings] at hticks
  rw [hreadings, hfirings, List.append_nil, ht]
  have hkept := hheld.idle h hticks
  refine hkept.withQueued fun hsome => ?_
  by_cases hji : j = i
  · exact hdue hji hheld hticks
  · rw [isSome_getD_set hji] at hsome
    exact hkept.slot hsome

/-- Behind its gates a trigger queues a firing that is due. -/
theorem guarded_firing (hi : x.triggers[i]? = some trigger) (hj : x.triggers[j]? = some trigger')
    {rest : M σ Unit} (hrest : Sat (fun s l _ t => Queues j s l t) rest)
    (hs : s.inTriggerAction = false) :
    SatAt (fun s l _ t => FiringRel clocked i trigger s l t)
      (do if ← gated x j trigger' then Pure.pure () else rest) s := by
  have hgate : Idle s (gated x j trigger' s).log (gated x j trigger' s).st :=
    ((idle_ledger x).steps.turns []).gated j trigger' s
  show FiringRel clocked i trigger s _ _
  rcases halt_bind (gated x j trigger') (fun closed => if closed then Pure.pure () else rest) s with
    ⟨-, hlog, -, hst⟩ | ⟨closed, hopen, -, hlog, -, hst⟩
  · rw [hlog, hst]
    exact .of_idle hgate
  · rw [hlog, hst]
    cases closed with
    | true => exact .of_idle (hgate.trans (.still rfl rfl rfl rfl))
    | false =>
      rw [if_neg (by simp)]
      rcases hrest (gated x j trigger' s).st with h | ⟨h, hl, ht⟩
      · exact .of_idle (hgate.trans h)
      · rw [hl, ← List.append_assoc]
        refine .queued hs (gated_open x j trigger' hopen).1 (hgate.trans h)
          (fun hji done now hheld hticks => ?_) ht
        -- the trigger's own gates were read on the way
        subst hji
        obtain rfl : trigger = trigger' := Option.some.inj (hi.symm.trans hj)
        rw [readings_append] at hticks ⊢
        rw [latest_append]
        exact (hheld.due hopen fun hc => (ticks_append.mp (hticks hc)).1).mono
          fun hc => (ticks_append.mp (hticks hc)).2.le_latest

theorem offer_firing (hi : x.triggers[i]? = some trigger) (hj : x.triggers[j]? = some trigger')
    (e : EngineEvent) (hs : s.inTriggerAction = false) :
    SatAt (fun s l _ t => FiringRel clocked i trigger s l t) (offer x e j trigger') s := by
  unfold offer
  split
  · exact .of_idle (.still rfl rfl rfl rfl)
  · split
    · exact SatAt.bind (firingRel_composes clocked i trigger)
        (.of_idle (.of_mark rfl rfl rfl rfl rfl)) fun _ _ =>
          guarded_firing hi hj (enqueueWhen_queues j trigger' e.payload) hs
    · exact .of_idle (.still rfl rfl rfl rfl)

theorem considerEvent_firing (hi : x.triggers[i]? = some trigger) (e : EngineEvent) (j : Nat)
    (ts : List Trigger) (hts : ts = x.triggers.drop j) (hs : s.inTriggerAction = false) :
    SatAt (fun s l _ t => FiringRel clocked i trigger s l t) (considerEvent x e j ts) s := by
  induction ts generalizing j s with
  | nil => exact .of_idle (.still rfl rfl rfl rfl)
  | cons trigger' rest ih =>
    obtain ⟨hj, hrest⟩ := drop_eq_cons hts
    exact SatAt.bind_tree (firingRel_composes clocked i trigger) hs (offer_firing hi hj e hs)
      (tree_turns.offer_of (fun _ _ _ hs => hs) (fun _ _ _ hs => hs) e j trigger')
      fun _ _ => ih (j + 1) hrest

/-- A turn of the pump. -/
theorem pumpOne_firing (hi : x.triggers[i]? = some trigger) (hs : s.inTriggerAction = false) :
    SatAt (fun s l _ t => FiringRel clocked i trigger s l t) (pumpOne x) s := by
  have hcomposes := firingRel_composes (σ := σ) clocked i trigger
  have hpop : Sat (fun s l _ t => FiringRel clocked i trigger s l t) (popPending (σ := σ)) := by
    intro s
    simp only [popPending, Traced.step]
    split
    · exact .of_idle (.still rfl rfl rfl rfl)
    · exact .of_idle (.of_mark rfl rfl rfl rfl rfl)
  refine SatAt.bind_tree hcomposes hs (hpop s) popPending_tree fun e t ht => ?_
  cases e with
  | none => exact hcomposes.refl t
  | some e =>
    have hconsider : SatAt (fun s l _ t => FiringRel clocked i trigger s l t)
        (Engine.span (.considering e) (considerEvent x e 0 x.triggers)) t :=
      FiringRel.span (considerEvent_firing hi e 0 x.triggers rfl ht) (by simp)
    exact SatAt.bind hcomposes hconsider fun _ _ => hcomposes.refl _

/-! ## Completing -/

/-- The bookkeeping of a firing is read back. -/
theorem recorded_markTriggerFired {session : Value} (hsession : IsSession session) {at_ : DateTime}
    (hat : clocked → Readable at_ ∧ ∀ before ∈ done, before ≤ at_) :
    Recorded clocked trigger done (markTriggerFired trigger.id at_ trigger.once session) := by
  obtain ⟨entry, hentry⟩ : ∃ entry,
      triggerEntry (markTriggerFired trigger.id at_ trigger.once session) trigger.id =
        some (.object (firedEntry at_ trigger.once entry)) :=
    triggerEntry_markTriggerFired_self hsession
  refine ⟨fun honce _ => ?_, fun hc before hbefore => ⟨at_, ?_, (hat hc).2 before hbefore⟩⟩
  · rw [triggerFiredOnce, hentry, honce]
    simp [firedEntry, Value.asBool]
  · have hdate : (firedEntry at_ trigger.once entry).lookup "last_fired" =
        some (.string (Crates.toRfc3339 at_)) := by
      unfold firedEntry
      split
      · rw [Assoc.lookup_insert_of_ne _ _ (by decide), Assoc.lookup_insert_self]
      · rw [Assoc.lookup_insert_self]
    rw [triggerLastFired, hentry, Option.bind_some, Value.get_object, hdate]
    simp [Value.asStr, (hat hc).1.roundTrip, Except.toOption]

/-- A record that leaves the trigger's entry alone. -/
theorem record_firing {f : Value → Value} (onError : String → WorkflowError) {m : Mark}
    (hf : ∀ session, IsSession session → IsSession (f session) ∧
      triggerEntry (f session) trigger.id = triggerEntry session trigger.id)
    (hm : ∀ k, m ≠ .queued k true) (hreading : m.reading = none) (hfiring : m.firing i = none)
    (hs : s.inTriggerAction = true → m.isFiring = false) :
    SatAt (fun s l _ t => FiringRel clocked i trigger s l t) (record x f onError m) s := by
  refine ⟨record_turns f onError hm hs, fun {done now} hheld _ => ?_⟩
  obtain ⟨hsession, hentry⟩ := hf s.session hheld.session
  have hreadings : readings [.mark m] = [] := by simp [readings, hreading]
  have hfirings : firingsOf i [.mark m] = [] := by simp [firingsOf, hfiring]
  have hempty : readings [] = [] ∧ firingsOf i [] = [] := ⟨rfl, rfl⟩
  obtain ⟨h, file, hst, ⟨-, hlog, hfile⟩ | ⟨-, hlog, hfile, -⟩⟩ := record_run x f onError m s
  · rw [hst, hlog, hreadings, hfirings, List.append_nil]
    subst hfile
    exact hheld.keep (fun _ => le_rfl) rfl hsession hsession hentry (.inr hentry)
  · rw [hst, hlog, hempty.1, hempty.2, List.append_nil]
    rcases hfile with rfl | rfl
    · exact hheld.keep (fun _ => le_rfl) rfl hsession hsession hentry (.inr hentry)
    · exact hheld.keep (fun _ => le_rfl) rfl hsession hheld.content hentry (.inl rfl)

/-- The end of another trigger's firing. -/
theorem completeFiring_other (hids : trigger.id ≠ trigger'.id) (hne : j ≠ i)
    (hs : s.inTriggerAction = false) :
    SatAt (fun s l _ t => FiringRel clocked i trigger s l t) (completeFiring x j trigger') s := by
  refine SatAt.bind_tree (firingRel_composes clocked i trigger) hs
    (((firingRel_ledger clocked i trigger x).steps.turns []).now s)
    tree_turns.now fun at_ t ht => ?_
  refine record_firing _ (fun session hsession => ?_) (by simp) rfl (by simp [Mark.firing, hne]) ?_
  · exact ⟨updateRoot_isSession hsession, triggerEntry_markTriggerFired_of_ne hsession hids⟩
  · rw [ht]
    intro hin
    cases hin

/-- The end of a firing: its time, the bookkeeping in memory and, if written, in the file. -/
theorem complete_firing_run (x : Exec σ) (i : Nat) (trigger : Trigger) (s : State σ) :
    ∃ at_ h file, (completeFiring x i trigger s).st =
        { s with host := h, file := file,
                 session := markTriggerFired trigger.id at_ trigger.once s.session } ∧
      ((completeFiring x i trigger s).log =
          [.mark (.clock at_), .mark (.triggerCompleted i at_)] ∧
          file = some (markTriggerFired trigger.id at_ trigger.once s.session) ∨
        (completeFiring x i trigger s).log = [.mark (.clock at_)] ∧
          (file = some (markTriggerFired trigger.id at_ trigger.once s.session) ∨
            file = s.file) ∧ ¬ x.host.WritesSucceed) := by
  have hnow : Engine.now x s = ⟨.ok (x.host.now s.host).1,
    [.mark (.clock (x.host.now s.host).1)], { s with host := (x.host.now s.host).2 }⟩ := rfl
  refine ⟨(x.host.now s.host).1, ?_⟩
  unfold completeFiring
  rw [bind_run_of_ok hnow]
  obtain ⟨h, file, hst, hcase⟩ := record_run x
    (markTriggerFired trigger.id (x.host.now s.host).1 trigger.once)
    (fun message => ⟨"trigger `" ++ trigger.id ++ "`: " ++ message, none, none⟩)
    (.triggerCompleted i (x.host.now s.host).1) { s with host := (x.host.now s.host).2 }
  refine ⟨h, file, hst, ?_⟩
  rcases hcase with ⟨-, hlog, hfile⟩ | ⟨-, hlog, hfile, hfails⟩
  · exact .inl ⟨congrArg _ hlog, hfile⟩
  · exact .inr ⟨congrArg _ hlog, hfile, hfails⟩

/-- The trigger's own firing is recorded: one that was due, and none is queued. -/
theorem Held.fired {at_ : DateTime} (h : Held clocked i trigger done now s)
    (hdue : Due clocked trigger done now) (hat : clocked → now ≤ at_ ∧ Readable at_)
    (hslot : t.queued.getD i none = none)
    (hsession : t.session = markTriggerFired trigger.id at_ trigger.once s.session)
    (hfile : t.file = some t.session) : Held clocked i trigger (done ++ [at_]) at_ t := by
  have hpast : clocked → ∀ before ∈ done ++ [at_], yearZero ≤ before ∧ before ≤ at_ := by
    intro hc before hbefore
    rcases List.mem_append.mp hbefore with hbefore | hbefore
    · exact ⟨(h.past hc before hbefore).1, (h.past hc before hbefore).2.trans (hat hc).1⟩
    · rw [List.mem_singleton.mp hbefore]
      exact ⟨(hat hc).2.fromYearZero, le_rfl⟩
  have hobject : IsSession t.session := hsession ▸ updateRoot_isSession h.session
  have hrecorded : Recorded clocked trigger (done ++ [at_]) t.session := by
    rw [hsession]
    exact recorded_markTriggerFired h.session fun hc =>
      ⟨(hat hc).2, fun before hbefore => (hpast hc before hbefore).2⟩
  have hload : loadSession t.file = t.session := by rw [hfile]; rfl
  refine ⟨hobject, hload ▸ hobject, fun honce => ?_, fun hc c hcool => ?_, hpast, hrecorded,
    hload ▸ hrecorded, fun hsome => ?_⟩
  · rw [hdue.once honce]
    exact le_rfl
  · refine List.pairwise_append.mpr ⟨h.spaced hc c hcool, List.pairwise_singleton _ _, ?_⟩
    intro before hbefore after hafter
    rw [List.mem_singleton.mp hafter]
    exact (hdue.cooled hc c hcool before hbefore).trans (hat hc).1
  · rw [hslot] at hsome
    cases hsome

/-- A firing whose record failed: known in memory, and in the file if it was replaced. -/
theorem Held.unrecorded {at_ : DateTime} (h : Held clocked i trigger done now s)
    (hat : clocked → now ≤ at_ ∧ Readable at_) (hslot : t.queued.getD i none = none)
    (hsession : t.session = markTriggerFired trigger.id at_ trigger.once s.session)
    (hfile : t.file = some t.session ∨ t.file = s.file) : Held clocked i trigger done at_ t := by
  have hpast : clocked → ∀ before ∈ done, yearZero ≤ before ∧ before ≤ at_ := fun hc before hbefore =>
    ⟨(h.past hc before hbefore).1, (h.past hc before hbefore).2.trans (hat hc).1⟩
  have hobject : IsSession t.session := hsession ▸ updateRoot_isSession h.session
  have hrecorded : Recorded clocked trigger done t.session := by
    rw [hsession]
    exact recorded_markTriggerFired h.session fun hc =>
      ⟨(hat hc).2, fun before hbefore => (hpast hc before hbefore).2⟩
  have hcontent : IsSession (loadSession t.file) ∧ Recorded clocked trigger done (loadSession t.file) := by
    rcases hfile with hfile | hfile
    · rw [hfile]
      exact ⟨hobject, hrecorded⟩
    · rw [hfile]
      exact ⟨h.content, h.file⟩
  refine ⟨hobject, hcontent.1, h.single, h.spaced, hpast, hrecorded, hcontent.2, fun hsome => ?_⟩
  rw [hslot] at hsome
  cases hsome

/-- The end of the trigger's own firing. -/
theorem Held.completed (h : Held clocked i trigger done now s)
    (hdue : Due clocked trigger done now) (hslot : s.queued.getD i none = none)
    (hticks : clocked → Ticks now (readings (completeFiring x i trigger s).log)) :
    Held clocked i trigger (done ++ firingsOf i (completeFiring x i trigger s).log)
      (latest now (readings (completeFiring x i trigger s).log))
      (completeFiring x i trigger s).st := by
  obtain ⟨at_, host, file, hst, ⟨hlog, hfile⟩ | ⟨hlog, hfile, -⟩⟩ :=
    complete_firing_run x i trigger s
  · have hfirings : firingsOf i [.mark (.clock at_), .mark (.triggerCompleted i at_)] = [at_] := by
      show List.filterMap (Mark.firing i) [.clock at_, .triggerCompleted i at_] = [at_]
      simp [List.filterMap_cons, Mark.firing]
    rw [hlog] at hticks ⊢
    rw [hst, hfirings]
    exact h.fired hdue (fun hc => ⟨(hticks hc).1, (hticks hc).2.1⟩) hslot rfl hfile
  · have hfirings : firingsOf i [.mark (.clock at_)] = [] := rfl
    rw [hlog] at hticks ⊢
    rw [hst, hfirings, List.append_nil]
    exact h.unrecorded (fun hc => ⟨(hticks hc).1, (hticks hc).2.1⟩) hslot rfl hfile

/-! ## Firing -/

/-- A firing is taken out of its slot, on the tree. -/
theorem takeQueued_firing (j : Nat) (hs : s.inTriggerAction = false) :
    SatAt (fun s l _ t => FiringRel clocked i trigger s l t) (takeQueued j) s := by
  refine ⟨takeQueued_turns j hs, fun {done now} hheld _ => ?_⟩
  have hempty : firingsOf i (takeQueued j s).log = [] := rfl
  rw [hempty, List.append_nil]
  refine hheld.withQueued fun hsome => ?_
  by_cases hji : j = i
  · subst hji
    rw [getD_set_none] at hsome
    cases hsome
  · rw [isSome_getD_set hji] at hsome
    exact hheld.slot hsome

section Action

variable {run : RunBlock σ}
  (hrun : ∀ s, FiringRel clocked i trigger s (run trigger'.actions s).log
    (run trigger'.actions s).st)

include hrun

/-- An action on the tree: it leaves the slots alone and records no firing. -/
theorem runAction_firing (j : Nat) (payload : Value) (hs : s.inTriggerAction = false) :
    SatAt (fun s l _ t => FiringRel clocked i trigger s l t) (runAction run j trigger' payload) s ∧
      (runAction run j trigger' payload s).st.queued = s.queued ∧
      firingsOf i (runAction run j trigger' payload s).log = [] := by
  have hturns := runAction_turns (fun s => (hrun s).toTurnRel) j payload hs
  generalize ha : run trigger'.actions (s.inAction payload) = a
  have haction : FiringRel clocked i trigger (s.inAction payload) a.log a.st :=
    ha ▸ hrun (s.inAction payload)
  have hfree : NoFiring (s.inAction payload) a.log a.st := haction.inside rfl
  obtain ⟨hlog, hst, -⟩ := run_action_run (i := j) ha
  refine ⟨⟨hturns, fun {done now} hheld hticks => ?_⟩, ?_, ?_⟩
  · rw [hlog, readings_span] at hticks
    rw [hlog, hst, readings_span, firingsOf_span]
    have hinner : Held clocked i trigger done now (s.inAction payload) :=
      hheld.keep (fun _ => le_rfl) rfl hheld.session hheld.content rfl (.inl rfl)
    have hafter := haction.held hinner hticks
    exact hafter.keep (fun _ => le_rfl) rfl hafter.session hafter.content rfl (.inl rfl)
  · rw [hst]
    exact hfree.queued
  · rw [hlog, firingsOf_span]
    exact hfree.firings i

/-- Another trigger's firing. -/
theorem fireQueued_other (hids : trigger.id ≠ trigger'.id) (hne : j ≠ i)
    (hs : s.inTriggerAction = false) :
    SatAt (fun s l _ t => FiringRel clocked i trigger s l t) (fireQueued x run j trigger') s := by
  have hcomposes := firingRel_composes (σ := σ) clocked i trigger
  have hsteps := (firingRel_ledger clocked i trigger x).steps
  refine SatAt.bind_tree hcomposes hs (takeQueued_firing j hs) (fun _ hs => hs) fun queued t ht => ?_
  cases queued with
  | none => exact hcomposes.refl t
  | some payload =>
    refine SatAt.bind_tree hcomposes ht
      ((hsteps.turns []).gatePasses trigger' _ payload _ t)
      (tree_turns.gatePasses trigger' _ payload _) fun passes u hu => ?_
    split
    · refine SatAt.bind_tree hcomposes hu (runAction_firing hrun j payload hu).1 (fun s _ => ?_)
        fun _ v hv => completeFiring_other hids hne hv
      rw [(run_action_run rfl).2.1]
    · exact hcomposes.refl u

end Action

section Own

variable {run : RunBlock σ}
  (hrun : ∀ s, FiringRel clocked i trigger s (run trigger.actions s).log
    (run trigger.actions s).st)

include hrun

/-- The trigger's own firing, once it is out of its slot: due then, due at its end. -/
theorem Held.fire (payload : Value) (h : Held clocked i trigger done now s) (hdue : Due clocked trigger done now)
    (hslot : s.queued.getD i none = none) (hs : s.inTriggerAction = false)
    (hticks : clocked → Ticks now (readings (fire x run i trigger payload s).log)) :
    Held clocked i trigger (done ++ firingsOf i (fire x run i trigger payload s).log)
      (latest now (readings (fire x run i trigger payload s).log))
      (fire x run i trigger payload s).st := by
  unfold Engine.fire at hticks ⊢
  have hgate := ((idle_ledger x).steps.turns []).gatePasses trigger trigger.whileGate payload
    "`while`" s
  generalize hg : gatePasses x trigger trigger.whileGate payload "`while`" s = g at hgate
  rcases halt_bind (gatePasses x trigger trigger.whileGate payload "`while`") (fun passes =>
      if passes then do
        runAction run i trigger payload
        completeFiring x i trigger
      else Pure.pure ()) s with ⟨-, hlog, -, hst⟩ | ⟨passes, -, -, hlog, -, hst⟩
  · rw [hlog, hg] at hticks ⊢
    rw [hst, hg, hgate.firings, List.append_nil]
    exact h.idle hgate hticks
  · rw [hlog, hg, readings_append] at hticks
    rw [hlog, hst, hg, readings_append, firingsOf_append, hgate.firings, List.nil_append,
      latest_append]
    have hheld := h.idle hgate fun hc => (ticks_append.mp (hticks hc)).1
    have hdue' := hdue.mono fun hc => ((ticks_append.mp (hticks hc)).1).le_latest
    have hrest := fun hc => (ticks_append.mp (hticks hc)).2
    cases passes with
    | false =>
      have hempty : firingsOf i ((Pure.pure () : M σ Unit) g.st).log = [] := rfl
      rw [if_neg (by simp), hempty, List.append_nil]
      exact hheld
    | true =>
      rw [if_pos rfl] at hrest ⊢
      obtain ⟨haction, hqueued, hnone⟩ :=
        runAction_firing hrun i payload (hgate.scope.trans hs)
      rcases halt_bind (runAction run i trigger payload) (fun _ => completeFiring x i trigger) g.st
        with ⟨-, hlog', -, hst'⟩ | ⟨⟨⟩, -, -, hlog', -, hst'⟩
      · rw [hlog'] at hrest ⊢
        rw [hst']
        exact haction.held hheld hrest
      · rw [hlog', readings_append] at hrest
        rw [hlog', hst', readings_append, firingsOf_append, hnone, List.nil_append, latest_append]
        have hafter := haction.held hheld fun hc => (ticks_append.mp (hrest hc)).1
        rw [hnone, List.append_nil] at hafter
        refine hafter.completed (hdue'.mono fun hc => (ticks_append.mp (hrest hc)).1.le_latest) ?_
          fun hc => (ticks_append.mp (hrest hc)).2
        rw [hqueued, hgate.queued, hslot]

/-- The trigger's own turn. -/
theorem fireQueued_own (hs : s.inTriggerAction = false) :
    SatAt (fun s l _ t => FiringRel clocked i trigger s l t) (fireQueued x run i trigger) s := by
  refine ⟨fireQueued_turns (fun s => (hrun s).toTurnRel) i hs, fun {done now} hheld hticks => ?_⟩
  have htake : takeQueued i s =
      ⟨.ok (s.queued.getD i none), [], { s with queued := s.queued.set i none }⟩ := rfl
  have htaken : Held clocked i trigger done now { s with queued := s.queued.set i none } :=
    hheld.withQueued fun hsome => by
      rw [getD_set_none] at hsome
      cases hsome
  unfold fireQueued at hticks ⊢
  rw [bind_run_of_ok htake] at hticks ⊢
  cases hslot : s.queued.getD i none with
  | none =>
    show Held clocked i trigger (done ++ []) now { s with queued := s.queued.set i none }
    rw [List.append_nil]
    exact htaken
  | some payload =>
    rw [hslot] at hticks
    exact htaken.fire hrun payload (hheld.slot (by rw [hslot]; rfl)) getD_set_none hs hticks

end Own

/-- Triggers at different indices have different ids. -/
theorem ids_ne (hids : (x.triggers.map Trigger.id).Nodup) (hi : x.triggers[i]? = some trigger)
    (hj : x.triggers[j]? = some trigger') (hne : j ≠ i) : trigger.id ≠ trigger'.id := by
  intro heq
  have hi' : (x.triggers.map Trigger.id)[i]? = some trigger.id := by simp [hi]
  have hj' : (x.triggers.map Trigger.id)[j]? = some trigger.id := by simp [hj, heq]
  obtain ⟨hlt, -⟩ := List.getElem?_eq_some_iff.mp hi'
  exact hne ((List.getElem?_inj hlt hids).mp (hi'.trans hj'.symm)).symm

/-- The family of the firings. -/
theorem firingRel_rules (hi : x.triggers[i]? = some trigger)
    (hids : (x.triggers.map Trigger.id).Nodup) :
    Rules x (fun _ => True) fun _ s l _ t => FiringRel clocked i trigger s l t where
  toSteps := (firingRel_ledger clocked i trigger x).steps
  pumpOne _ _ hs := pumpOne_firing hi hs
  poll _ j t tool args hj s hs := guarded_firing hi hj (pollCall_queues j t tool args) hs
  fireQueued ns run j t hj hrun s hs := by
    by_cases hji : j = i
    · subst hji
      obtain rfl : trigger = t := Option.some.inj (hi.symm.trans hj)
      exact fireQueued_own (hrun.sat trigger.actions fun _ _ => trivial) hs
    · exact fireQueued_other (hrun.sat t.actions fun _ _ => trivial) (ids_ne hids hi hj hji) hji hs
  try_ := (firingRel_ledger clocked i trigger x).try_
  instruction ins _ _ := (firingRel_ledger clocked i trigger x).instruction_of ins
    (fun h => h.span (by simp)) (fun _ _ => .of_idle (.of_mark rfl rfl rfl rfl rfl)) fun key onError s =>
      record_firing onError (fun session hsession =>
        ⟨updateRoot_isSession hsession, triggerEntry_markOnce trigger.id⟩) (by simp) rfl rfl fun _ => rfl

end Relation

/-! ## Completed actions -/

def Step.completesAction (i : Nat) : Step → Bool
  | .leave (.action j) none => j = i
  | _ => false

/-- How many actions of the trigger at an index ran to their end. -/
def actionsCompleted (i : Nat) (l : Trace) : Nat := (steps l).countP (Step.completesAction i)

section Completed

variable [Crates] {σ : Type} {x : Exec σ} {l l' : Trace}

/-- Every completed action is recorded. -/
def AllRecorded (l : Trace) : Prop := ∀ i, actionsCompleted i l = (firingsOf i l).length

theorem allRecorded_nil : AllRecorded [] := fun _ => rfl

theorem AllRecorded.append (h : AllRecorded l) (h' : AllRecorded l') : AllRecorded (l ++ l') := by
  intro i
  rw [actionsCompleted, steps_append, List.countP_append, firingsOf_append, List.length_append]
  exact congrArg₂ (· + ·) (h i) (h' i)

theorem allRecorded_mark {m : Mark} (hm : m.isFiring = false) : AllRecorded [.mark m] := by
  intro i
  cases m with
  | triggerCompleted j at_ => cases hm
  | _ => rfl

theorem actionsCompleted_span (i : Nat) (label : Label) (l : Trace) (o : Option Halt) :
    actionsCompleted i [.span label l o] =
      actionsCompleted i l + if Step.completesAction i (.leave label o) then 1 else 0 := by
  simp [actionsCompleted, Step.completesAction, List.countP_cons]

/-- A span that is not a completed action's. -/
theorem AllRecorded.span {label : Label} {o : Option Halt} (h : AllRecorded l)
    (hlabel : ∀ j, label = .action j → o ≠ none) : AllRecorded [.span label l o] := by
  intro i
  have hno : Step.completesAction i (.leave label o) = false := by
    cases label with
    | action j =>
      cases o with
      | none => exact absurd rfl (hlabel j rfl)
      | some halt => rfl
    | _ => rfl
  rw [actionsCompleted_span, hno, firingsOf_span]
  exact h i

theorem allRecorded_ledger (x : Exec σ) :
    Ledger x (fun _ => True) fun _ _ l _ _ => AllRecorded l where
  composes _ := ⟨fun _ => allRecorded_nil, AllRecorded.append⟩
  mono _ h := h
  any _ h := h
  silent _ := allRecorded_nil
  span hlabel h := h.span fun j hj => by
    subst hj
    cases hlabel
  clock _ _ _ := allRecorded_mark rfl
  snapshot _ _ := allRecorded_mark rfl
  called _ _ _ _ _ _ := allRecorded_mark rfl
  stopRaised _ _ := allRecorded_mark rfl
  receive _ _ _ := allRecorded_mark rfl
  synthesize _ _ _ := allRecorded_mark rfl
  consume _ name s := by
    simp only [consumeOccurrence, Traced.step]
    split
    · exact allRecorded_mark rfl
    · split
      · exact allRecorded_mark rfl
      · exact allRecorded_nil
  commit _ ins writes _ _ s := by
    rw [(commit_run x ins writes s rfl).1]
    exact allRecorded_mark rfl

/-- A completed action is recorded, if the write succeeds. -/
theorem action_recorded (hw : x.host.WritesSucceed) {run : RunBlock σ} {trigger : Trigger}
    (hrun : ∀ s, AllRecorded (run trigger.actions s).log) (j : Nat) (payload : Value) (s : State σ) :
    AllRecorded ((do
      runAction run j trigger payload
      completeFiring x j trigger : M σ Unit) s).log := by
  generalize ha : run trigger.actions (s.inAction payload) = a
  obtain ⟨hlog, -, hhalt⟩ := run_action_run (i := j) ha
  have hinner : AllRecorded a.log := ha ▸ hrun (s.inAction payload)
  rcases halt_bind (runAction run j trigger payload) (fun _ => completeFiring x j trigger) s with
    ⟨hne, hlog', -, -⟩ | ⟨⟨⟩, -, hnone, hlog', -, -⟩
  · rw [hlog', hlog]
    refine hinner.span fun _ _ hnone => hne ?_
    rcases hhalt with heq | ⟨e, e', he, -⟩
    · rw [heq, hnone]
    · rw [hnone] at he
      cases he
  · have hend : a.halt = none := by
      rcases hhalt with heq | ⟨e, e', -, he⟩
      · rw [← heq, hnone]
      · rw [hnone] at he
        cases he
    obtain ⟨at_, h, file, -, ⟨hclog, -⟩ | ⟨-, -, hfails⟩⟩ := complete_firing_run x j trigger
      (runAction run j trigger payload s).st
    · rw [hlog', hlog, hclog, hend]
      intro i
      have hfirings : firingsOf i [.mark (.clock at_), .mark (.triggerCompleted j at_)] =
          if j = i then [at_] else [] := by
        show List.filterMap (Mark.firing i) [.clock at_, .triggerCompleted j at_] = _
        by_cases hji : j = i
        · simp [List.filterMap_cons, Mark.firing, hji]
        · simp [List.filterMap_cons, Mark.firing, hji]
      have hmarks : actionsCompleted i [.mark (.clock at_), .mark (.triggerCompleted j at_)] = 0 :=
        rfl
      have hsplit : actionsCompleted i ([.span (.action j) a.log none] ++
          [.mark (.clock at_), .mark (.triggerCompleted j at_)]) =
          actionsCompleted i [.span (.action j) a.log none] := by
        rw [actionsCompleted, steps_append, List.countP_append]
        exact congrArg _ hmarks
      rw [hsplit, actionsCompleted_span, firingsOf_append, firingsOf_span, hfirings,
        List.length_append, hinner i]
      by_cases hji : j = i
      · simp [Step.completesAction, hji]
      · simp [Step.completesAction, hji]
    · exact absurd hw hfails

theorem record_allRecorded (f : Value → Value) (onError : String → WorkflowError) {m : Mark}
    (hm : m.isFiring = false) (s : State σ) : AllRecorded (record x f onError m s).log := by
  obtain ⟨h, file, -, ⟨-, hlog, -⟩ | ⟨-, hlog, -⟩⟩ := record_run x f onError m s
  · rw [hlog]
    exact allRecorded_mark hm
  · rw [hlog]
    exact allRecorded_nil

theorem allRecorded_rules (hw : x.host.WritesSucceed) :
    Rules x (fun _ => True) fun _ _ l _ _ => AllRecorded l where
  toSteps := (allRecorded_ledger x).steps
  pumpOne ns s _ := by
    refine ((allRecorded_ledger x).steps.turns ns).pumpOne_of (fun s => ?_) (fun h => h.span (by simp))
      (fun _ _ _ => allRecorded_mark rfl) (fun _ _ _ _ => rfl) s
    simp only [popPending, Traced.step]
    split
    · exact allRecorded_nil
    · exact allRecorded_mark rfl
  poll ns i t tool args _ s _ := ((allRecorded_ledger x).steps.turns ns).poll_of (fun _ _ _ _ => rfl) i t tool
    args s
  fireQueued ns run j t _ hrun s _ := by
    have hsteps := (allRecorded_ledger x).steps
    have hcomposes := hsteps.composes ns
    refine Sat.bind hcomposes (fun _ => allRecorded_nil) (fun queued => ?_) s
    cases queued with
    | none => exact Sat.pure hcomposes ()
    | some payload =>
      refine Sat.bind hcomposes ((hsteps.turns ns).gatePasses t _ payload _)
        fun passes => ?_
      split
      · exact action_recorded hw (hrun.sat t.actions fun _ _ => trivial) j payload
      · exact Sat.pure hcomposes ()
  try_ := (allRecorded_ledger x).try_
  instruction ins _ _ := (allRecorded_ledger x).instruction_of ins (fun h => h.span (by simp))
    (fun _ _ => allRecorded_mark rfl) fun _ _ => record_allRecorded _ _ rfl

end Completed

/-! ## Sessions -/

section Sessions

variable [Crates] {doc : Document}

/-- What the file of a session holds of a trigger between two passes. -/
structure HeldIn (clocked : Prop) (trigger : Trigger) (done : List DateTime) (now : DateTime)
    (file : Option Value) : Prop where
  content : IsSession (loadSession file)
  single : trigger.once = true → done.length ≤ 1
  spaced : clocked → ∀ c : Nat, trigger.cooldown = some c → done.Pairwise fun a b => a + (c : Int) ≤ b
  past : clocked → ∀ at_ ∈ done, yearZero ≤ at_ ∧ at_ ≤ now
  recorded : Recorded clocked trigger done (loadSession file)

variable {clocked : Prop} {i : Nat} {trigger : Trigger} {done : List DateTime} {now : DateTime}
  {file : Option Value}

/-- A pass starts with nothing queued. -/
theorem HeldIn.start {σ : Type} (h : HeldIn clocked trigger done now file) (x : Exec σ) (hs : σ) :
    Held clocked i trigger done now (x.start (loadSession file) file hs) := by
  refine ⟨h.content, h.content, h.single, h.spaced, h.past, h.recorded, h.recorded, fun hsome => ?_⟩
  have hqueued : (x.start (loadSession file) file hs).queued = x.triggers.map fun _ => none := rfl
  have hnone : ((x.triggers.map fun _ => (none : Option Value)).getD i none) = none := by
    rw [List.getD_eq_getElem?_getD, List.getElem?_map]
    cases x.triggers[i]? with
    | none => rfl
    | some t => rfl
  rw [hqueued, hnone] at hsome
  cases hsome

/-- Over the passes of a session: the turns, and what is held of a trigger. -/
theorem session_firings (hdoc : doc.Accepted) (hi : doc.triggers[i]? = some trigger)
    (passes : List Pass) (h : HeldIn clocked trigger done now file)
    (hticks : clocked → Ticks now (readings (runSession doc file passes).1)) :
    HeldIn clocked trigger (done ++ firingsOf i (runSession doc file passes).1)
        (latest now (readings (runSession doc file passes).1)) (runSession doc file passes).2 ∧
      (∀ j, .queued j true ∉ marks (runSession doc file passes).1) ∧
      ∀ j sub halt, Occurs (.span (.action j) sub halt) (runSession doc file passes).1 →
        ActionFree sub := by
  induction passes generalizing file done now with
  | nil =>
    refine ⟨?_, fun _ => List.not_mem_nil, fun _ _ _ hocc => absurd hocc not_occurs_nil⟩
    show HeldIn clocked trigger (done ++ []) now file
    rw [List.append_nil]
    exact h
  | cons p rest ih =>
    have hrules : Rules ⟨p.params, doc.triggers, p.host⟩ (fun _ => True)
        fun _ s l _ t => FiringRel clocked i trigger s l t := firingRel_rules hi hdoc.ids
    have hrun := hrules.runWithStop (fun _ _ => trivial) p.fuel file p.start
    have hlog : (runSession doc file (p :: rest)).1 =
        (p.run doc file).log ++ (runSession doc (p.run doc file).st.file rest).1 := rfl
    have hlast : (runSession doc file (p :: rest)).2 =
        (runSession doc (p.run doc file).st.file rest).2 := rfl
    rw [hlog, readings_append] at hticks
    have hheld := hrun.held (h.start _ p.start) fun hc => (ticks_append.mp (hticks hc)).1
    obtain ⟨hrest, hfresh, hnested⟩ := ih
      ⟨hheld.content, hheld.single, hheld.spaced, hheld.past, hheld.file⟩
      fun hc => (ticks_append.mp (hticks hc)).2
    rw [hlog, hlast, firingsOf_append, readings_append, latest_append, ← List.append_assoc]
    refine ⟨hrest, fun j hmem => ?_, fun j sub halt hocc => ?_⟩
    · rw [marks_append] at hmem
      exact (List.mem_append.mp hmem).elim (hrun.fresh j) (hfresh j)
    · exact (occurs_append.mp hocc).elim (hrun.nested j sub halt) (hnested j sub halt)

theorem session_allRecorded (passes : List Pass) (hw : ∀ p ∈ passes, p.host.WritesSucceed) :
    AllRecorded (runSession doc file passes).1 := by
  induction passes generalizing file with
  | nil => exact allRecorded_nil
  | cons p rest ih =>
    have hrules : Rules ⟨p.params, doc.triggers, p.host⟩ (fun _ => True)
        fun _ _ l _ _ => AllRecorded l := allRecorded_rules (hw p List.mem_cons_self)
    have hrun := hrules.runWithStop (fun _ _ => trivial) p.fuel file p.start
    exact AllRecorded.append hrun (ih fun q hq => hw q (List.mem_cons_of_mem p hq))

/-- Over the passes of a session of an accepted document: a firing is queued in an empty slot only
and no action runs inside another; a completed action is recorded if the writes succeed; a trigger
with `once` is recorded at most once; and if the clock does not step back, the records of a trigger
with a cooldown are at least the cooldown apart. -/
theorem triggers_fire_in_turn {value : Value} (hbuild : build value = .ok doc)
    (hfile : IsSession (loadSession file)) (passes : List Pass)
    (hi : doc.triggers[i]? = some trigger) {l : Trace} (hl : (runSession doc file passes).1 = l) :
    (∀ j, .queued j true ∉ marks l) ∧
    (∀ j sub halt, Occurs (.span (.action j) sub halt) l → ActionFree sub) ∧
    ((∀ p ∈ passes, p.host.WritesSucceed) → actionsCompleted i l = (firingsOf i l).length) ∧
    (trigger.once = true → (firingsOf i l).length ≤ 1) ∧
    ((readings l).Pairwise (· ≤ ·) → (∀ t ∈ readings l, Readable t) →
      ∀ c : Nat, trigger.cooldown = some c →
        (firingsOf i l).Pairwise fun a b => a + (c : Int) ≤ b) := by
  have hdoc := (accepted_of_build hbuild).2
  have hstart : ∀ clocked : Prop, HeldIn clocked trigger [] yearZero file := fun _ =>
    ⟨hfile, fun _ => Nat.zero_le 1, fun _ _ _ => .nil,
      fun _ _ hmem => absurd hmem List.not_mem_nil,
      ⟨fun _ hne => absurd rfl hne, fun _ _ hmem => absurd hmem List.not_mem_nil⟩⟩
  subst hl
  obtain ⟨hheld, hfresh, hnested⟩ := session_firings hdoc hi passes (hstart False)
    fun hc => absurd hc id
  refine ⟨hfresh, hnested, fun hw => session_allRecorded passes hw i, hheld.single,
    fun hsorted hreadable => ?_⟩
  have hticks : Ticks yearZero (readings (runSession doc file passes).1) :=
    ticks_of_pairwise hreadable
      (List.pairwise_cons.mpr ⟨fun t ht => (hreadable t ht).fromYearZero, hsorted⟩)
  exact (session_firings hdoc hi passes (hstart True) fun _ => hticks).1.spaced trivial

end Sessions

/-- A document that nudges the mount when it drifts, at most every five seconds. -/
def nudgeOnDrift : Value :=
  documentWith [.object [("id", .string "nudge"), ("on", .object [("event", .string "drift")]),
      ("cooldown", .string "5s"), ("do", .array [toolStep "nudge"])]]
    [("sequence", .array [toolStep "capture", toolStep "capture", toolStep "capture"])]

def drift : Option EngineEvent := some ⟨"drift", .null⟩

/-- A pass with three drifts: ten, twelve and twenty seconds into the epoch. -/
def driftPass : Pass where
  σ := Script
  fuel := 4
  params := .null
  host := scripted
  start :=
    { arrivals := [drift, none, none, drift, none, drift]
      clock := [10000000000, 12000000000, 20000000000, 21000000000] }

/-- The second drift is inside the cooldown of the first, the third is not. -/
theorem nudges_in_turn :
    letI := Crates.wholeSeconds
    ∃ doc trigger, build nudgeOnDrift = .ok doc ∧ doc.triggers[0]? = some trigger ∧
      trigger.cooldown = some 5000000000 ∧
      firingsOf 0 (runSession doc none [driftPass]).1 = [10000000000, 21000000000] ∧
      (firingsOf 0 (runSession doc none [driftPass]).1).Pairwise
        fun a b => a + (5000000000 : Int) ≤ b := by
  let _ := Crates.wholeSeconds
  have hrun : (build nudgeOnDrift).toOption.map (fun doc =>
      (readings (runSession doc none [driftPass]).1, firingsOf 0 (runSession doc none [driftPass]).1,
        doc.triggers.map Trigger.cooldown)) =
      some ([10000000000, 12000000000, 20000000000, 21000000000], [10000000000, 21000000000],
        [some 5000000000]) := by decide +kernel
  have hreadable : ∀ t ∈ ([10000000000, 12000000000, 20000000000, 21000000000] : List DateTime),
      Readable t := by
    simp only [List.forall_mem_cons, List.not_mem_nil, false_imp_iff, implies_true, and_true]
    refine ⟨⟨?_, ?_, ?_⟩, ⟨?_, ?_, ?_⟩, ⟨?_, ?_, ?_⟩, ?_, ?_, ?_⟩ <;> decide +kernel
  cases hbuild : build nudgeOnDrift with
  | error issues =>
    rw [hbuild] at hrun
    cases hrun
  | ok doc =>
    rw [hbuild] at hrun
    obtain ⟨hreadings, hrest⟩ := Prod.mk.inj (Option.some.inj hrun)
    obtain ⟨hfirings, hcooldown⟩ := Prod.mk.inj hrest
    obtain ⟨trigger, htriggers, htrigger⟩ := List.map_eq_singleton_iff.mp hcooldown
    have hi : doc.triggers[0]? = some trigger := by rw [htriggers]; rfl
    refine ⟨doc, trigger, rfl, hi, htrigger, hfirings, ?_⟩
    exact (triggers_fire_in_turn hbuild ⟨[], rfl⟩ [driftPass] hi rfl).2.2.2.2
      (by rw [hreadings]; decide) (by rw [hreadings]; exact hreadable) _ htrigger

/-- A document that gives notice of dawn once, and goes on if that fails. -/
def noticeOnDawn : Value :=
  documentWith [.object [("id", .string "notice"), ("on", .object [("event", .string "dawn")]),
      ("once", .bool true), ("do", .array [toolStep "notify"])]]
    [("sequence", .array [.object [("try", .array [toolStep "capture"]),
      ("catch", .array [toolStep "abort"])], toolStep "expose"])]

/-- A pass in which the record of the firing cannot be written and that pauses later, and the pass
that resumes. -/
def dawnPasses : List Pass :=
  [⟨Script, 5, .null, scripted,
      { arrivals := [some ⟨"dawn", .null⟩]
        writes := [.failed "disk full" false]
        answers := [.ok .null, .ok .null, .ok .null, .error (.unavailable "no route")] }⟩,
    ⟨Script, 5, .null, scripted, { arrivals := [some ⟨"dawn", .null⟩] }⟩]

/-- The record of a completed action is lost with its write: the resumed pass completes the action of
a `once` trigger again. -/
theorem lost_record_fires_again :
    letI := Crates.wholeSeconds
    (build noticeOnDawn).toOption.map (fun doc =>
      (doc.triggers.map Trigger.once, actionsCompleted 0 (runSession doc none dawnPasses).1,
        (callsOf (runSession doc none dawnPasses).1).map Prod.fst)) =
    some ([true], 2,
      ["capture", "notify", "abort", "expose", "capture", "notify", "expose"]) := by
  decide +kernel

end RustyPhoton.SessionRunner.Engine
