import RustyPhoton.SessionRunner.Engine.Ledger
import RustyPhoton.SessionRunner.Engine.Script

/-!
# Events

An event enters `pending` from the intake or from the engine itself. The pump counts it and offers
it to the triggers; an `until_event` wait consumes one counted occurrence, or an event straight from
`pending`. The counts balance. What goes wrong is the offer: a `when` gate that fails cuts it short,
and a wait on the procedure tree that takes its event from `pending` forestalls it.
-/

set_option linter.unusedSectionVars false

namespace RustyPhoton.SessionRunner.Engine

open Lib Traced

def Mark.arrival : Mark → Option EngineEvent
  | .received e | .synthesized e => some e
  | _ => none

def Mark.counting : Mark → Option EngineEvent
  | .counted e => some e
  | _ => none

def Mark.offering : Mark → Option (EngineEvent × Nat)
  | .offered e i => some (e, i)
  | _ => none

/-- A satisfied wait: its event name and whether the event came straight from `pending`. -/
def Mark.satisfying : Mark → Option (String × Bool)
  | .satisfied name direct _ => some (name, direct)
  | _ => none

/-- The events that entered `pending`. -/
def arrivals (l : Trace) : List EngineEvent := (marks l).filterMap Mark.arrival

/-- The events the pump took out of `pending`. -/
def countedIn (l : Trace) : List EngineEvent := (marks l).filterMap Mark.counting

def offersIn (l : Trace) : List (EngineEvent × Nat) := (marks l).filterMap Mark.offering

def satisfiedIn (l : Trace) : List (String × Bool) := (marks l).filterMap Mark.satisfying

/-- How many of these events have this name. -/
def named (name : String) (es : List EngineEvent) : Nat := es.countP fun e => e.event = name

/-- How many waits for this name were satisfied. -/
def waitsSatisfied (name : String) (l : Trace) : Nat :=
  (satisfiedIn l).countP fun w => w.1 = name

/-- How many of them straight from `pending`. -/
def waitsDirect (name : String) (l : Trace) : Nat :=
  (satisfiedIn l).countP fun w => w.1 = name && w.2

/-- The event triggers of an event's name, from an index on. -/
def matching (e : EngineEvent) : Nat → List Trigger → List (EngineEvent × Nat)
  | _, [] => []
  | i, t :: rest =>
      match t.on with
      | .event name =>
          if name = e.event then (e, i) :: matching e (i + 1) rest else matching e (i + 1) rest
      | .poll _ _ _ => matching e (i + 1) rest

/-- No trigger evaluation of an event of this name was cut short. -/
def GatesEvaluate (name : String) (l : Trace) : Prop :=
  ∀ e sub halt, e.event = name → Occurs (.span (.considering e) sub halt) l → halt = none

/-- The events of a name that the pump took out of `pending`. -/
def countedOf (name : String) (l : Trace) : List EngineEvent :=
  (countedIn l).filter fun e => e.event = name

def offersOf (name : String) (l : Trace) : List (EngineEvent × Nat) :=
  (offersIn l).filter fun o => o.1.event = name

theorem named_append (name : String) (es es' : List EngineEvent) :
    named name (es ++ es') = named name es + named name es' := List.countP_append

variable {name : String} {l : Trace}

theorem gatesEvaluate_append {l' : Trace} :
    GatesEvaluate name (l ++ l') ↔ GatesEvaluate name l ∧ GatesEvaluate name l' := by
  simp only [GatesEvaluate, occurs_append, or_imp, forall_and]

theorem gatesEvaluate_span {label : Label} {o : Option Halt}
    (h : GatesEvaluate name [.span label l o]) : GatesEvaluate name l :=
  fun e sub halt hname hocc => h e sub halt hname (occurs_span.mpr (.inr hocc))

/-- The offers of an event are of that event. -/
theorem event_of_mem_matching {e : EngineEvent} {i : Nat} {ts : List Trigger}
    {o : EngineEvent × Nat} (h : o ∈ matching e i ts) : o.1 = e := by
  induction ts generalizing i with
  | nil => cases h
  | cons t rest ih =>
    unfold matching at h
    split at h
    · split at h
      · rcases List.mem_cons.mp h with rfl | h
        · rfl
        · exact ih h
      · exact ih h
    · exact ih h

/-- Taking an event out of a buffer keeps the order of the rest. -/
theorem takeEvent_spec {es rest : List EngineEvent} (h : takeEvent name es = some rest) :
    rest.Sublist es ∧ ∀ other, named other es = named other rest + if name = other then 1 else 0 := by
  induction es generalizing rest with
  | nil => cases h
  | cons e es ih =>
    unfold takeEvent at h
    split at h
    · next heq =>
        obtain rfl := Option.some.inj h
        refine ⟨List.sublist_cons_self _ _, fun other => ?_⟩
        subst heq
        simp [named, List.countP_cons]
    · next hne =>
        obtain ⟨rest', hrest, rfl⟩ := Option.map_eq_some_iff.mp h
        obtain ⟨hsub, hcount⟩ := ih hrest
        refine ⟨hsub.cons_cons e, fun other => ?_⟩
        have hother := hcount other
        simp only [named, List.countP_cons] at hother ⊢
        omega

section Relation

variable [Crates] {σ : Type}

/-- The unconsumed occurrences of a name. -/
def occurrencesOf (name : String) (s : State σ) : Nat := (s.occurrences.lookup name).getD 0

/-- The events of a name that no wait has consumed. -/
def unconsumed (name : String) (s : State σ) : Nat :=
  occurrencesOf name s + named name s.pending

/-- A counter is removed when it is spent. -/
def CountersPositive (name : String) (s : State σ) : Prop :=
  ∀ n, s.occurrences.lookup name = some n → 0 < n

/-- What a run does to the events of a name. -/
structure EventRel (name : String) (s : State σ) (l : Trace) (t : State σ) : Prop where
  /-- The counts balance, as long as the counter does not saturate. -/
  balance : CountersPositive name s → unconsumed name s + named name (arrivals l) ≤ maxCount →
    unconsumed name s + named name (arrivals l) = waitsSatisfied name l + unconsumed name t ∧
      CountersPositive name t
  /-- Events leave `pending` in their order. -/
  order : (countedIn l ++ t.pending).Sublist (s.pending ++ arrivals l)
  /-- An event that left was counted or taken by a wait. -/
  leaves : named name (s.pending ++ arrivals l) =
    named name (countedIn l ++ t.pending) + waitsDirect name l

/-- The marks that tell of the way of an event. -/
def Mark.isEvent : Mark → Bool
  | .received _ | .synthesized _ | .counted _ | .satisfied _ _ _ => true
  | _ => false

variable {name : String} {s t u : State σ} {l l' : Trace}

theorem EventRel.quiet (hl : ∀ m ∈ marks l, m.isEvent = false) (hpending : t.pending = s.pending)
    (hoccurrences : t.occurrences = s.occurrences) : EventRel name s l t := by
  have hnone : ∀ {β : Type} (f : Mark → Option β), (∀ m, m.isEvent = false → f m = none) →
      (marks l).filterMap f = [] :=
    fun f hf => List.filterMap_eq_nil_iff.mpr fun m hm => hf m (hl m hm)
  have harrivals : arrivals l = [] := hnone _ fun m hm => by cases m <;> first | rfl | cases hm
  have hcounted : countedIn l = [] := hnone _ fun m hm => by cases m <;> first | rfl | cases hm
  have hsatisfied : satisfiedIn l = [] := hnone _ fun m hm => by cases m <;> first | rfl | cases hm
  refine ⟨fun hs _ => ⟨?_, ?_⟩, ?_, ?_⟩
  · simp [harrivals, waitsSatisfied, hsatisfied, unconsumed, occurrencesOf, hpending, hoccurrences,
      named]
  · unfold CountersPositive
    rw [hoccurrences]
    exact hs
  · simp [harrivals, hcounted, hpending]
  · simp [harrivals, hcounted, hpending, waitsDirect, hsatisfied]

theorem EventRel.trans (h : EventRel name s l t) (h' : EventRel name t l' u) :
    EventRel name s (l ++ l') u := by
  have harrivals : arrivals (l ++ l') = arrivals l ++ arrivals l' := by simp [arrivals]
  have hcounted : countedIn (l ++ l') = countedIn l ++ countedIn l' := by simp [countedIn]
  have hsatisfied : satisfiedIn (l ++ l') = satisfiedIn l ++ satisfiedIn l' := by
    simp [satisfiedIn]
  refine ⟨fun hs hmax => ?_, ?_, ?_⟩
  · rw [harrivals, named_append] at hmax ⊢
    obtain ⟨heq, ht⟩ := h.balance hs (by omega)
    obtain ⟨heq', hu⟩ := h'.balance ht (by omega)
    refine ⟨?_, hu⟩
    have hsum : waitsSatisfied name (l ++ l') = waitsSatisfied name l + waitsSatisfied name l' := by
      simp [waitsSatisfied, hsatisfied]
    omega
  · rw [harrivals, hcounted, List.append_assoc, ← List.append_assoc s.pending]
    refine (h'.order.append_left (countedIn l)).trans ?_
    rw [← List.append_assoc]
    exact h.order.append_right (arrivals l')
  · have hleft := h.leaves
    have hright := h'.leaves
    have hsum : waitsDirect name (l ++ l') = waitsDirect name l + waitsDirect name l' := by
      simp [waitsDirect, hsatisfied]
    simp only [harrivals, hcounted, named_append] at hleft hright ⊢
    omega

variable {m : Mark}

/-- An event enters `pending`. -/
theorem EventRel.arrived {e : EngineEvent} (hm : m = .received e ∨ m = .synthesized e) :
    EventRel name s [.mark m] { s with pending := s.pending ++ [e] } := by
  have harrivals : arrivals [.mark m] = [e] := by
    rcases hm with rfl | rfl
    · rfl
    · rfl
  have hcounted : countedIn [.mark m] = [] := by
    rcases hm with rfl | rfl
    · rfl
    · rfl
  have hsatisfied : satisfiedIn [.mark m] = [] := by
    rcases hm with rfl | rfl
    · rfl
    · rfl
  refine ⟨fun hs _ => ⟨?_, hs⟩, ?_, ?_⟩
  · simp only [unconsumed, occurrencesOf, waitsSatisfied, harrivals, hsatisfied, named_append,
      List.countP_nil]
    omega
  · simp [harrivals, hcounted]
  · simp [harrivals, hcounted, waitsDirect, hsatisfied]

/-- The pump counts the first pending event. -/
theorem popPending_events : ∀ s : State σ,
    EventRel name s (popPending s).log (popPending s).st := by
  intro s
  simp only [popPending, Traced.step]
  split
  · exact .quiet (by simp) rfl rfl
  · next e rest hpending =>
      have hcounted : countedIn [.mark (.counted e)] = [e] := rfl
      have harrivals : arrivals [.mark (.counted e)] = [] := rfl
      have hsatisfied : satisfiedIn [.mark (.counted e)] = [] := rfl
      refine ⟨fun hs hmax => ?_, ?_, ?_⟩
      · rw [harrivals] at hmax ⊢
        simp only [unconsumed, occurrencesOf, hpending, named, List.countP_cons, List.countP_nil,
          CountersPositive, countOccurrence, Assoc.lookup_insertSorted, waitsSatisfied, hsatisfied]
          at hmax hs ⊢
        by_cases heq : name = e.event
        · subst heq
          simp only [decide_true, if_true, Option.getD_some, Option.some.injEq] at hmax ⊢
          refine ⟨by omega, ?_⟩
          rintro n rfl
          simp only [maxCount]
          omega
        · have hne : ¬ e.event = name := fun h => heq h.symm
          simp only [heq, hne, decide_false, if_false, Bool.false_eq_true] at hmax ⊢
          exact ⟨by omega, hs⟩
      · simp [harrivals, hcounted, hpending]
      · simp [harrivals, hcounted, hpending, waitsDirect, hsatisfied]

theorem lookup_spendOccurrence (wanted name : String) (n : Nat)
    (occurrences : List (String × Nat)) :
    (spendOccurrence wanted n occurrences).lookup name =
      if name = wanted then (if n - 1 = 0 then none else some (n - 1))
      else occurrences.lookup name := by
  unfold spendOccurrence
  by_cases heq : name = wanted
  · subst heq
    split
    · simp
    · simp [Assoc.lookup_insertSorted]
  · split
    · rw [Assoc.lookup_erase_of_ne _ heq]
    · rw [Assoc.lookup_insertSorted, if_neg heq]

/-- A wait consumes one event of its name. -/
theorem consumeOccurrence_events (wanted : String) : ∀ s : State σ,
    EventRel name s (consumeOccurrence wanted s).log (consumeOccurrence wanted s).st := by
  intro s
  simp only [consumeOccurrence, Traced.step]
  split
  · next n hn =>
      have harrivals : arrivals [.mark (.satisfied wanted false s.inTriggerAction)] = [] := rfl
      have hcounted : countedIn [.mark (.satisfied wanted false s.inTriggerAction)] = [] := rfl
      have hsatisfied : satisfiedIn [.mark (.satisfied wanted false s.inTriggerAction)] =
        [(wanted, false)] := rfl
      refine ⟨fun hs _ => ?_, by simp [harrivals, hcounted], ?_⟩
      · simp only [unconsumed, occurrencesOf, harrivals, waitsSatisfied, hsatisfied,
          CountersPositive, lookup_spendOccurrence, named, List.countP_cons, List.countP_nil]
          at hs ⊢
        by_cases heq : name = wanted
        · subst heq
          have hpos := hs n hn
          simp only [hn, if_true, decide_true, Option.getD_some]
          split
          · exact ⟨by simp; omega, by simp⟩
          · refine ⟨by simp; omega, ?_⟩
            rintro m hm
            obtain rfl := Option.some.inj hm
            omega
        · have hne : ¬ wanted = name := fun h => heq h.symm
          simp only [heq, hne, if_false, decide_false, Bool.false_eq_true]
          exact ⟨by omega, hs⟩
      · simp [harrivals, hcounted, waitsDirect, hsatisfied]
  · split
    · next rest hrest =>
        obtain ⟨hsub, hcount⟩ := takeEvent_spec hrest
        have harrivals : arrivals [.mark (.satisfied wanted true s.inTriggerAction)] = [] := rfl
        have hcounted : countedIn [.mark (.satisfied wanted true s.inTriggerAction)] = [] := rfl
        have hsatisfied : satisfiedIn [.mark (.satisfied wanted true s.inTriggerAction)] =
          [(wanted, true)] := rfl
        have hname := hcount name
        refine ⟨fun hs _ => ⟨?_, hs⟩, ?_, ?_⟩
        · simp only [unconsumed, occurrencesOf, harrivals, waitsSatisfied, hsatisfied,
            List.countP_cons, List.countP_nil, decide_eq_true_eq] at hname ⊢
          have hnil : named name [] = 0 := rfl
          omega
        · simpa [harrivals, hcounted] using hsub
        · simp only [harrivals, hcounted, List.append_nil, List.nil_append, waitsDirect, hsatisfied,
            List.countP_cons, List.countP_nil, Bool.and_true, decide_eq_true_eq]
          omega
    · exact .quiet (by simp) rfl rfl

theorem EventRel.span (label : Label) (o : Option Halt) (h : EventRel name s l t) :
    EventRel name s [.span label l o] t := by
  obtain ⟨hbalance, horder, hleaves⟩ := h
  have hmarks : marks [.span label l o] = marks l := marks_span label l o
  refine ⟨?_, ?_, ?_⟩
  · simpa only [arrivals, waitsSatisfied, satisfiedIn, hmarks] using hbalance
  · simpa only [arrivals, countedIn, hmarks] using horder
  · simpa only [arrivals, countedIn, waitsDirect, satisfiedIn, hmarks] using hleaves

theorem EventRel.of_mark (hm : m.isEvent = false) (hpending : t.pending = s.pending)
    (hoccurrences : t.occurrences = s.occurrences) : EventRel name s [.mark m] t :=
  .quiet (by simpa using hm) hpending hoccurrences

theorem EventRel.still (hpending : t.pending = s.pending)
    (hoccurrences : t.occurrences = s.occurrences) : EventRel name s [] t :=
  .quiet (by simp) hpending hoccurrences

variable {x : Exec σ} {ns : List Instruction}

theorem runAction_events {run : RunBlock σ} {t : Trigger}
    (hrun : ∀ s, EventRel name s (run t.actions s).log (run t.actions s).st) (i : Nat)
    (payload : Value) (s : State σ) :
    EventRel name s (runAction run i t payload s).log (runAction run i t payload s).st := by
  have hbody : run t.actions (s.inAction payload) = run t.actions (s.inAction payload) := rfl
  obtain ⟨hlog, hst, -⟩ := run_action_run (i := i) hbody
  have hscope : EventRel name s [] (s.inAction payload) := .still rfl rfl
  rw [hlog, hst]
  exact hscope.trans (((hrun (s.inAction payload)).span _ _).trans (.still rfl rfl))

theorem record_events (f : Value → Value) (onError : String → WorkflowError)
    (hm : m.isEvent = false) (s : State σ) :
    EventRel name s (record x f onError m s).log (record x f onError m s).st := by
  obtain ⟨h, file, hst, ⟨-, hlog, -⟩ | ⟨-, hlog, -⟩⟩ := record_run x f onError m s
  · rw [hst, hlog]
    exact .of_mark hm rfl rfl
  · rw [hst, hlog]
    exact .quiet (by simp) rfl rfl

theorem eventRel_ledger (x : Exec σ) (name : String) :
    Ledger x (fun _ => True) fun _ s l _ t => EventRel name s l t where
  composes _ := ⟨fun _ => .still rfl rfl, EventRel.trans⟩
  mono _ h := h
  any _ h := h
  silent ht := .still (congrArg Books.pending ht) (congrArg Books.occurrences ht)
  span _ h := h.span _ _
  clock _ _ _ := .of_mark rfl rfl rfl
  snapshot _ _ := .of_mark rfl rfl rfl
  called _ _ _ _ _ _ := .of_mark rfl rfl rfl
  stopRaised _ _ := .of_mark rfl rfl rfl
  receive _ _ _ := .arrived (.inl rfl)
  synthesize _ _ _ := .arrived (.inr rfl)
  consume _ wanted := consumeOccurrence_events wanted
  commit _ ins writes _ _ s := by
    obtain ⟨hlog, h, f, hst, -⟩ := commit_run x ins writes s rfl
    rw [hlog, hst]
    exact .of_mark rfl rfl rfl

theorem eventRel_rules (x : Exec σ) (name : String) :
    Rules x (fun _ => True) fun _ s l _ t => EventRel name s l t where
  toSteps := (eventRel_ledger x name).steps
  pumpOne ns s _ := ((eventRel_ledger x name).steps.turns ns).pumpOne_of popPending_events
    (fun h => h.span _ _) (fun _ _ _ => .of_mark rfl rfl rfl) (fun _ _ _ => .of_mark rfl rfl rfl) s
  poll ns i t tool args _ s _ := ((eventRel_ledger x name).steps.turns ns).poll_of
    (fun _ _ _ => .of_mark rfl rfl rfl) i t tool args s
  fireQueued ns run i t _ hrun s _ := by
    refine ((eventRel_ledger x name).steps.turns ns).fireQueued_of (fun _ _ => .still rfl rfl) i t
      (runAction_events (hrun.sat t.actions fun _ _ => trivial) i) ?_ s
    exact (eventRel_ledger x name).completeFiring_of ns i t fun _ _ => record_events _ _ rfl
  try_ := (eventRel_ledger x name).try_
  instruction ins _ _ := (eventRel_ledger x name).instruction_of ins (fun h => h.span _ _)
    (fun _ _ => .of_mark rfl rfl rfl) fun _ _ => record_events _ _ rfl

/-! ## Offers -/

/-- No event was counted or offered. -/
def OfferFree (l : Trace) : Prop := ∀ m ∈ marks l, m.counting = none ∧ m.offering = none

theorem offerFree_append : OfferFree (l ++ l') ↔ OfferFree l ∧ OfferFree l' := by
  simp only [OfferFree, marks_append, List.forall_mem_append]

theorem OfferFree.offers (h : OfferFree l) : offersIn l = [] :=
  List.filterMap_eq_nil_iff.mpr fun m hm => (h m hm).2

theorem OfferFree.counted (h : OfferFree l) : countedIn l = [] :=
  List.filterMap_eq_nil_iff.mpr fun m hm => (h m hm).1

theorem offerFree_mark (hc : m.counting = none) (ho : m.offering = none) :
    OfferFree [.mark m] := by
  simpa [OfferFree] using ⟨hc, ho⟩

theorem offerFree_nil : OfferFree [] := by simp [OfferFree]

theorem consumeOccurrence_offerFree (wanted : String) (s : State σ) :
    OfferFree (consumeOccurrence wanted s).log := by
  simp only [consumeOccurrence, Traced.step]
  split
  · exact offerFree_mark rfl rfl
  · split
    · exact offerFree_mark rfl rfl
    · exact offerFree_nil

/-- Everything but the pump is free of offers. -/
theorem offerFree_ledger (x : Exec σ) :
    Ledger x (fun _ => True) fun _ _ l _ _ => OfferFree l where
  composes _ := ⟨fun _ => offerFree_nil, fun h h' => offerFree_append.mpr ⟨h, h'⟩⟩
  mono _ h := h
  any _ h := h
  silent _ := offerFree_nil
  span _ h := by simpa [OfferFree] using h
  clock _ _ _ := offerFree_mark rfl rfl
  snapshot _ _ := offerFree_mark rfl rfl
  called _ _ _ _ _ _ := offerFree_mark rfl rfl
  stopRaised _ _ := offerFree_mark rfl rfl
  receive _ _ _ := offerFree_mark rfl rfl
  synthesize _ _ _ := offerFree_mark rfl rfl
  consume _ wanted := consumeOccurrence_offerFree wanted
  commit _ ins writes _ _ s := by
    rw [(commit_run x ins writes s rfl).1]
    exact offerFree_mark rfl rfl

/-- The gates of an offer are free of offers. -/
theorem gates_offerFree (x : Exec σ) (payload : Value) (i : Nat) (t : Trigger) (s : State σ) :
    OfferFree ((do if ← gated x i t then Pure.pure () else enqueueWhen x i t payload :
      M σ Unit) s).log := by
  have hfree := (offerFree_ledger x).steps
  have hcomposes := hfree.composes []
  refine Sat.bind hcomposes ((hfree.turns []).gated i t) (fun closed => ?_) s
  split
  · exact Sat.pure hcomposes ()
  · refine Sat.bind hcomposes ((hfree.turns []).gatePasses t _ payload _) fun passes => ?_
    split
    · exact fun _ => offerFree_mark rfl rfl
    · exact Sat.pure hcomposes ()

/-- An offer to a trigger of the event's name, and nothing to another. -/
theorem offer_offers (x : Exec σ) (e : EngineEvent) (i : Nat) (t : Trigger) (s : State σ) :
    offersIn (offer x e i t s).log = matching e i [t] ∧ countedIn (offer x e i t s).log = [] := by
  cases hon : t.on with
  | poll tool args interval =>
    simp only [offer, matching, hon]
    exact ⟨rfl, rfl⟩
  | event name =>
    simp only [offer, matching, hon]
    by_cases hname : name = e.event
    · have hmark : (mark (.offered e i) : M σ Unit) s = ⟨.ok (), [.mark (.offered e i)], s⟩ := rfl
      have hfree := gates_offerFree x e.payload i t s
      rw [if_pos hname, if_pos hname, bind_run_of_ok hmark]
      refine ⟨?_, ?_⟩
      · rw [offersIn, marks_append, List.filterMap_append]
        exact congrArg ([(e, i)] ++ ·) hfree.offers
      · rw [countedIn, marks_append, List.filterMap_append]
        exact hfree.counted
    · rw [if_neg hname, if_neg hname]
      exact ⟨rfl, rfl⟩

/-- An event is offered to the triggers of its name in order, and considered to the end to all. -/
theorem considerEvent_offers (x : Exec σ) (e : EngineEvent) (i : Nat) (ts : List Trigger)
    (s : State σ) :
    countedIn (considerEvent x e i ts s).log = [] ∧
      offersIn (considerEvent x e i ts s).log <+: matching e i ts ∧
      ((considerEvent x e i ts s).halt = none →
        offersIn (considerEvent x e i ts s).log = matching e i ts) := by
  induction ts generalizing i s with
  | nil => exact ⟨rfl, List.prefix_refl _, fun _ => rfl⟩
  | cons t rest ih =>
    obtain ⟨hoffers, hcounted⟩ := offer_offers x e i t s
    have hsplit : matching e i (t :: rest) = matching e i [t] ++ matching e (i + 1) rest := by
      simp only [matching]
      split
      · split
        · rfl
        · rfl
      · rfl
    unfold considerEvent
    rcases halt_bind (offer x e i t) (fun _ => considerEvent x e (i + 1) rest) s with
      ⟨hne, hlog, hhalt, -⟩ | ⟨⟨⟩, -, -, hlog, hhalt, -⟩
    · rw [hlog, hhalt, hsplit, hoffers]
      exact ⟨hcounted, List.prefix_append _ _, fun hnone => absurd hnone hne⟩
    · obtain ⟨hrest, hpre, hall⟩ := ih (i + 1) (offer x e i t s).st
      have happend : offersIn ((offer x e i t s).log ++
          (considerEvent x e (i + 1) rest (offer x e i t s).st).log) =
          matching e i [t] ++
            offersIn (considerEvent x e (i + 1) rest (offer x e i t s).st).log := by
        rw [← hoffers, offersIn, marks_append, List.filterMap_append]
        rfl
      rw [hlog, hhalt, hsplit, happend]
      refine ⟨?_, List.prefix_append_right_inj _ |>.mpr hpre, fun hnone => by rw [hall hnone]⟩
      rw [countedIn, marks_append, List.filterMap_append]
      exact List.append_eq_nil_iff.mpr ⟨hcounted, hrest⟩

/-- Each counted event of this name was offered to the event triggers of it, if no evaluation was
cut short. -/
def OfferRel (x : Exec σ) (name : String) (l : Trace) : Prop :=
  GatesEvaluate name l →
    offersOf name l = (countedOf name l).flatMap fun e => matching e 0 x.triggers

theorem OfferRel.of_free (h : OfferFree l) : OfferRel x name l := by
  intro _
  rw [offersOf, countedOf, h.offers, h.counted]
  rfl

theorem OfferRel.append (h : OfferRel x name l) (h' : OfferRel x name l') :
    OfferRel x name (l ++ l') := by
  intro hgates
  obtain ⟨hl, hl'⟩ := gatesEvaluate_append.mp hgates
  have hoffers : offersOf name (l ++ l') = offersOf name l ++ offersOf name l' := by
    simp [offersOf, offersIn]
  have hcounted : countedOf name (l ++ l') = countedOf name l ++ countedOf name l' := by
    simp [countedOf, countedIn]
  rw [hoffers, hcounted, List.flatMap_append, h hl, h' hl']

theorem OfferRel.span {label : Label} {o : Option Halt} (h : OfferRel x name l) :
    OfferRel x name [.span label l o] := by
  intro hgates
  have hinner := h (gatesEvaluate_span hgates)
  simpa only [offersOf, countedOf, offersIn, countedIn, marks_span] using hinner

theorem offerRel_ledger (x : Exec σ) (name : String) :
    Ledger x (fun _ => True) fun _ _ l _ _ => OfferRel x name l where
  composes _ := ⟨fun _ => .of_free offerFree_nil, OfferRel.append⟩
  mono _ h := h
  any _ h := h
  silent _ := .of_free offerFree_nil
  span _ h := h.span
  clock _ _ _ := .of_free (offerFree_mark rfl rfl)
  snapshot _ _ := .of_free (offerFree_mark rfl rfl)
  called _ _ _ _ _ _ := .of_free (offerFree_mark rfl rfl)
  stopRaised _ _ := .of_free (offerFree_mark rfl rfl)
  receive _ _ _ := .of_free (offerFree_mark rfl rfl)
  synthesize _ _ _ := .of_free (offerFree_mark rfl rfl)
  consume _ wanted s := .of_free (consumeOccurrence_offerFree wanted s)
  commit ns ins writes hV hkind s := .of_free ((offerFree_ledger x).commit ns ins writes hV hkind s)

/-- The offers of one event's turn. -/
theorem considering_offers (x : Exec σ) (name : String) (e : EngineEvent) (s : State σ)
    (hgates : e.event = name → (considerEvent x e 0 x.triggers s).halt = none) :
    offersOf name (considerEvent x e 0 x.triggers s).log =
      ([e].filter fun e => e.event = name).flatMap fun e => matching e 0 x.triggers := by
  obtain ⟨-, hpre, hall⟩ := considerEvent_offers x e 0 x.triggers s
  unfold offersOf
  by_cases hname : e.event = name
  · rw [hall (hgates hname), List.filter_eq_self.mpr]
    · simp [hname]
    · intro o ho
      simp [event_of_mem_matching ho, hname]
  · rw [List.filter_eq_nil_iff.mpr]
    · simp [hname]
    · intro o ho
      simp [event_of_mem_matching (hpre.subset ho), hname]

/-- A turn of the pump offers the event it counts. -/
theorem pumpOne_offers (x : Exec σ) (name : String) (s : State σ) :
    OfferRel x name (pumpOne x s).log := by
  unfold pumpOne
  cases hpending : s.pending with
  | nil =>
    have hpop : popPending s = ⟨.ok none, [], s⟩ := by
      simp only [popPending, Traced.step, hpending]
    rw [bind_run_of_ok hpop]
    exact .of_free offerFree_nil
  | cons e rest =>
    have hpop : popPending s = ⟨.ok (some e), [.mark (.counted e)],
        { s with pending := rest, occurrences := countOccurrence e.event s.occurrences }⟩ := by
      simp only [popPending, Traced.step, hpending]
    rw [bind_run_of_ok hpop]
    generalize { s with pending := rest, occurrences := countOccurrence e.event s.occurrences } = t
    have hcounted := (considerEvent_offers x e 0 x.triggers t).1
    have hlog : ((do
        Engine.span (.considering e) (considerEvent x e 0 x.triggers)
        Pure.pure true : M σ Bool) t).log =
        [.span (.considering e) (considerEvent x e 0 x.triggers t).log
          (considerEvent x e 0 x.triggers t).halt] := by
      rcases halt_bind (Engine.span (.considering e) (considerEvent x e 0 x.triggers))
          (fun _ => (Pure.pure true : M σ Bool)) t with ⟨-, hlog, -⟩ | ⟨_, -, -, hlog, -⟩
      · rw [hlog]
        rfl
      · rw [hlog]
        rfl
    intro hgates
    rw [hlog] at hgates ⊢
    have hoffers := considering_offers x name e t fun hname =>
      hgates e _ _ hname (.here (List.mem_cons_of_mem _ (List.mem_singleton_self _)))
    simp only [offersOf, countedOf, offersIn, countedIn, marks_append, marks_span, marks_mark,
      List.filterMap_append] at hoffers hcounted ⊢
    have hmark : List.filterMap Mark.offering [.counted e] = [] := rfl
    rw [hcounted, hmark]
    exact hoffers

theorem record_offerFree (f : Value → Value) (onError : String → WorkflowError)
    (hc : m.counting = none) (ho : m.offering = none) (s : State σ) :
    OfferFree (record x f onError m s).log := by
  obtain ⟨h, file, -, ⟨-, hlog, -⟩ | ⟨-, hlog, -⟩⟩ := record_run x f onError m s
  · rw [hlog]
    exact offerFree_mark hc ho
  · rw [hlog]
    exact offerFree_nil

theorem offerRel_rules (x : Exec σ) (name : String) :
    Rules x (fun _ => True) fun _ _ l _ _ => OfferRel x name l where
  toSteps := (offerRel_ledger x name).steps
  pumpOne _ s _ := pumpOne_offers x name s
  poll ns i t tool args _ s _ := ((offerRel_ledger x name).steps.turns ns).poll_of
    (fun _ _ _ => .of_free (offerFree_mark rfl rfl)) i t tool args s
  fireQueued ns run i t _ hrun s _ := by
    refine ((offerRel_ledger x name).steps.turns ns).fireQueued_of (fun _ _ => .of_free offerFree_nil) i t
      (fun payload s => ?_) ?_ s
    · rw [(run_action_run rfl).1]
      exact (hrun.sat t.actions (fun _ _ => trivial) _).span
    · exact (offerRel_ledger x name).completeFiring_of ns i t fun _ _ s =>
        .of_free (record_offerFree _ _ rfl rfl s)
  try_ := (offerRel_ledger x name).try_
  instruction ins _ _ := (offerRel_ledger x name).instruction_of ins OfferRel.span
    (fun _ _ => .of_free (offerFree_mark rfl rfl)) fun _ _ s =>
      .of_free (record_offerFree _ _ rfl rfl s)

/-- A wait inside a trigger action that took an event of this name straight from `pending`. -/
def Mark.takesInAction (name : String) : Mark → Bool
  | .satisfied wanted true true => wanted = name
  | _ => false

def waitsInAction (name : String) (l : Trace) : Nat := (marks l).countP (Mark.takesInAction name)

/-- If no wait on the tree takes an event of this name from `pending`, those that do are inside
actions. -/
theorem waitsDirect_eq (htree : .mark (.satisfied name true false) ∉ steps l) :
    waitsDirect name l = waitsInAction name l := by
  unfold waitsDirect waitsInAction satisfiedIn
  rw [List.countP_filterMap]
  refine List.countP_congr fun m hm => ?_
  cases m with
  | satisfied wanted direct inAction =>
    cases direct with
    | false => simp [Mark.satisfying, Mark.takesInAction]
    | true =>
      cases inAction with
      | true => simp [Mark.satisfying, Mark.takesInAction]
      | false =>
        have hne : wanted ≠ name := by
          rintro rfl
          exact htree (mem_marks.mp hm)
        simp [Mark.satisfying, Mark.takesInAction, hne]
  | _ => simp [Mark.satisfying, Mark.takesInAction]

/-- For every pass and event name: if the counter of the name does not saturate, the counts balance;
events leave `pending` in their order; if no wait on the procedure tree takes an event of the name
straight from `pending`, each leaves it counted or taken by a wait inside an action; and if the
gates evaluate, each counted event of the name is offered once to every event trigger of the name,
in order. -/
theorem every_event_accounted_for (fuel : Nat) (doc : Document) (params : Value) (host : Host σ)
    (file : Option Value) (h : σ) {r : Run (State σ) Halt Node Unit}
    (hr : runWithStop fuel doc params host file h = r) (name : String) :
    (named name (arrivals r.log) < 2 ^ 64 → named name (arrivals r.log) =
      waitsSatisfied name r.log + occurrencesOf name r.st + named name r.st.pending) ∧
    (countedIn r.log ++ r.st.pending).Sublist (arrivals r.log) ∧
    (.mark (.satisfied name true false) ∉ steps r.log → named name (arrivals r.log) =
      named name (countedIn r.log ++ r.st.pending) + waitsInAction name r.log) ∧
    (GatesEvaluate name r.log →
      offersOf name r.log = (countedOf name r.log).flatMap fun e => matching e 0 doc.triggers) := by
  subst hr
  have hevents := (eventRel_rules ⟨params, doc.triggers, host⟩ name).runWithStop
    (fun _ _ => trivial) fuel file h
  have hoffers := (offerRel_rules ⟨params, doc.triggers, host⟩ name).runWithStop
    (fun _ _ => trivial) fuel file h
  refine ⟨fun hfew => ?_, hevents.order, fun htree => ?_, hoffers⟩
  · -- a pass starts with nothing counted and nothing pending
    have hstart : unconsumed name
        (Exec.start ⟨params, doc.triggers, host⟩ (loadSession file) file h) = 0 := rfl
    have hbalance := hevents.balance (fun n hn => by cases hn)
      (by rw [hstart, maxCount]; omega)
    rw [hstart] at hbalance
    have heq := hbalance.1
    simp only [unconsumed] at heq
    omega
  · rw [← waitsDirect_eq htree]
    exact hevents.leaves

end Relation

/-- A document that waits for dawn, with a trigger for it. -/
def waitForDawn : Document :=
  { rootDocument (.mk none none (.wait (.untilEvent "dawn" 30000000000))) with
    triggers := [⟨"park", .event "dawn", none, none, none, false, [callTo "park"]⟩] }

/-- Its pass, when dawn has come. -/
def dawn : Run (State Script) Halt Node Unit :=
  letI := Crates.wholeSeconds
  runWithStop 3 waitForDawn .null scripted none { arrivals := [some ⟨"dawn", .null⟩] }

/-- Dawn is offered to its trigger, once. -/
theorem dawn_accounted_for : offersOf "dawn" dawn.log = [(⟨"dawn", .null⟩, 0)] := by
  have hgates : GatesEvaluate "dawn" dawn.log := by
    intro e sub halt _ hocc
    have hall : ((steps dawn.log).all fun
        | .leave (.considering _) halt => halt.isNone
        | _ => true) = true := by decide +kernel
    exact Option.isNone_iff_eq_none.mp (List.all_eq_true.mp hall _ hocc.leave)
  have hcounted : countedOf "dawn" dawn.log = [⟨"dawn", .null⟩] := by decide +kernel
  let _ := Crates.wholeSeconds
  have hoffers : offersOf "dawn" dawn.log = (countedOf "dawn" dawn.log).flatMap _ :=
    (every_event_accounted_for 3 waitForDawn .null scripted none _ rfl "dawn").2.2.2 hgates
  rw [hoffers, hcounted]
  rfl

/-- Two triggers for dawn, the first with a gate that does not evaluate. -/
def dawnTriggers : List Value :=
  [.object [("id", .string "close"), ("on", .object [("event", .string "dawn")]),
      ("when", .string "event.altitude > 0"), ("do", .array [toolStep "close_cover"])],
    .object [("id", .string "park"), ("on", .object [("event", .string "dawn")]),
      ("do", .array [toolStep "park"])]]

/-- A gate error ends the turn of its event; caught, the run goes on and the second trigger was
never offered the event. -/
theorem gate_error_ends_offers :
    (passOf 4 (documentWith dawnTriggers [("try", .array [toolStep "capture"]),
        ("catch", .array [toolStep "abort"])])
      none { arrivals := [some ⟨"dawn", .object []⟩] }).map
      (fun r => ((arrivals r.log).map EngineEvent.event, (offersIn r.log).map Prod.snd,
        runOutcome r.out)) =
    some (["dawn"], [0], some .completed) := by
  decide +kernel

/-- A poll whose result asks for a correction, and a trigger for corrections. -/
def correctionTriggers : List Value :=
  [.object [("id", .string "watch"), ("on", .object [("poll", .object
      [("tool", .string "get_status"), ("interval", .string "1s")])]),
      ("when", .string "false"), ("do", .array [toolStep "park"])],
    .object [("id", .string "correct"), ("on", .object
      [("event", .string "correction_requested")]), ("do", .array [toolStep "dither"])]]

-- a wait on the tree takes the correction that the poll of its own safe point asks for straight
-- from `pending`, and the trigger for corrections never sees it
example :
    (passOf 4 (documentWith correctionTriggers [("wait", .object
        [("until_event", .string "correction_requested"), ("timeout", .string "30s")])])
      none { answers := [.ok (.object [("pending_correction", .object [])])],
             time := [0, 2000000000, 2000000000] }).map
      (fun r => ((arrivals r.log).map EngineEvent.event, satisfiedIn r.log,
        (offersIn r.log).length, runOutcome r.out)) =
    some (["correction_requested"], [("correction_requested", true)], 0, some .completed) := by
  decide +kernel

end RustyPhoton.SessionRunner.Engine
