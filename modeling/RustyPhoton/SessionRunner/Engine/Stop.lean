import RustyPhoton.SessionRunner.Engine.Control
import RustyPhoton.SessionRunner.Engine.Script

/-!
# Stops

A safe point that honours the stop token raises the stop. From there on the run unwinds: spans end,
and on the way out the `finally` of every `try` it passes runs with the token ignored. The pass then
returns stopped. A `finally` block that runs for another reason, on the success or the error path,
honours the token like any other block.
-/

set_option linter.unusedSectionVars false

namespace RustyPhoton.SessionRunner.Engine

open Lib Traced

def Step.isStop : Step → Bool
  | .mark .stopRaised => true
  | _ => false

def Step.entersCatch : Step → Bool
  | .enter (.catch_ _) => true
  | _ => false

/-- No safe point in this trace raised the stop. -/
def Unstopped (l : Trace) : Prop := ∀ st ∈ steps l, st.isStop = false

def NotStopped (o : Option Halt) : Prop := o ≠ some (.interrupt .stopped)

/-- What may follow a stop: ends of spans, and the `finally` blocks that run for it. -/
inductive Cleanup : List Step → Prop where
  | done : Cleanup []
  | leave {label halt rest} (h : Cleanup rest) : Cleanup (.leave label halt :: rest)
  | block {block sub halt rest} (hsub : Unstopped sub) (h : Cleanup rest) :
      Cleanup ((Node.span (.finally_ (some .stopped) block) sub halt).steps ++ rest)

/-- The outcome of a stopped run, but for a `finally` block that the fuel cut. -/
def StoppedOutcome (l : Trace) (o : Option Halt) : Prop :=
  o = some (.interrupt .stopped) ∨ o = some .fuel ∧
    ∃ block sub, Occurs (.span (.finally_ (some .stopped) block) sub (some .fuel)) l

/-- A trace that ends with a stop. -/
def EndsStopped (l : Trace) (o : Option Halt) : Prop :=
  (∃ before after, steps l = before ++ .mark .stopRaised :: after ∧
    (∀ b ∈ before, b.isStop = false) ∧ Cleanup after) ∧ StoppedOutcome l o

/-- The outcome tells of the stop. -/
def Stops (l : Trace) (o : Option Halt) : Prop :=
  (Unstopped l ∧ NotStopped o) ∨ EndsStopped l o

/-- A body or a `catch` of this `try` raised the stop. -/
def RaisedStop (sub : Trace) : Prop :=
  ∃ label part, .span label part (some (.interrupt .stopped)) ∈ sub ∧
    (label = .body ∨ ∃ guarded, label = .catch_ guarded)

/-- What holds of the spans of a `try`: a stop runs the `finally`; a `finally` runs its instructions
in order, is never stopped when it runs for a stop, and otherwise only by one of its safe points. -/
def Node.StopOk : Node → Prop
  | .span (.try_ (some block)) sub _ =>
      RaisedStop sub → ∃ f halt, .span (.finally_ (some .stopped) block) f halt ∈ sub
  | .span (.finally_ cause block) f halt =>
      Ran block f halt ∧ (cause = some .stopped → Unstopped f ∧ NotStopped halt) ∧
        (halt = some (.interrupt .stopped) → .mark .stopRaised ∈ Engine.steps f)
  | _ => True

/-! ## Traces -/

theorem unstopped_nil : Unstopped [] := by simp [Unstopped]

variable {l l' : Trace}

theorem unstopped_append : Unstopped (l ++ l') ↔ Unstopped l ∧ Unstopped l' := by
  simp only [Unstopped, steps_append, List.forall_mem_append]

variable {label : Label} {o : Option Halt}

theorem unstopped_span :
    Unstopped [.span label l o] ↔ Unstopped l := by
  simp [Unstopped, Step.isStop, or_imp, forall_and]

theorem unstopped_mark {m : Mark} (h : m.isControl = false) : Unstopped [.mark m] := by
  intro st hst
  obtain rfl : st = .mark m := by simpa using hst
  cases m with
  | stopRaised => cases h
  | _ => rfl

variable {a : List Step}

theorem Cleanup.append {b : List Step} (ha : Cleanup a) (hb : Cleanup b) : Cleanup (a ++ b) := by
  induction ha with
  | done => exact hb
  | leave _ ih => exact .leave ih
  | block hsub _ ih =>
    rw [List.append_assoc]
    exact .block hsub ih

/-- No second stop follows. -/
theorem Cleanup.unstopped (h : Cleanup a) : ∀ st ∈ a, st.isStop = false := by
  induction h with
  | done => simp
  | leave _ ih => simpa [Step.isStop] using ih
  | block hsub _ ih =>
    refine List.forall_mem_append.mpr ⟨?_, ih⟩
    simpa [Unstopped, Step.isStop, or_imp, forall_and] using hsub

theorem StoppedOutcome.mono (h : StoppedOutcome l o)
    (hl : ∀ n, Occurs n l → Occurs n l') : StoppedOutcome l' o :=
  h.imp id fun ⟨ho, block, sub, hocc⟩ => ⟨ho, block, sub, hl _ hocc⟩

theorem EndsStopped.span {o' : Option Halt} (h : EndsStopped l o) :
    EndsStopped [.span label l o'] o := by
  obtain ⟨⟨before, after, hl, hbefore, hafter⟩, ho⟩ := h
  refine ⟨⟨.enter label :: before, after ++ [.leave label o'], ?_, ?_, ?_⟩, ho.mono ?_⟩
  · simp [hl]
  · simpa [Step.isStop] using hbefore
  · exact hafter.append (.leave .done)
  · exact fun n hn => occurs_span.mpr (.inr hn)

theorem EndsStopped.append (hl : Unstopped l) (h : EndsStopped l' o) : EndsStopped (l ++ l') o := by
  obtain ⟨⟨before, after, hl', hbefore, hafter⟩, ho⟩ := h
  refine ⟨⟨steps l ++ before, after, by simp [hl'], ?_, hafter⟩, ho.mono ?_⟩
  · exact List.forall_mem_append.mpr ⟨hl, hbefore⟩
  · exact fun n hn => occurs_append.mpr (.inr hn)

/-- The `finally` of a `try` that a stop passes. -/
theorem EndsStopped.finally_ {f : Trace} {fh : Option Halt} {block : List Instruction}
    (h : EndsStopped l (some (.interrupt .stopped))) (hf : Unstopped f)
    (ho : StoppedOutcome [.span (.finally_ (some .stopped) block) f fh] o) :
    EndsStopped (l ++ [.span (.finally_ (some .stopped) block) f fh]) o := by
  obtain ⟨⟨before, after, hl, hbefore, hafter⟩, -⟩ := h
  refine ⟨⟨before, after ++ steps [.span (.finally_ (some .stopped) block) f fh], by simp [hl],
    hbefore, ?_⟩, ho.mono ?_⟩
  · rw [steps_cons]
    exact hafter.append (.block hf .done)
  · exact fun n hn => occurs_append.mpr (.inr hn)

theorem Stops.unstopped (h : Stops l o) (ho : NotStopped o)
    (hfuel : o ≠ some .fuel) : Unstopped l := by
  rcases h with ⟨hl, -⟩ | ⟨-, hstop | ⟨hcut, -⟩⟩
  · exact hl
  · exact absurd hstop ho
  · exact absurd hcut hfuel

theorem Stops.span {o' : Option Halt} (h : Stops l o) :
    Stops [.span label l o'] o :=
  h.imp (fun ⟨hl, ho⟩ => ⟨unstopped_span.mpr hl, ho⟩) EndsStopped.span

theorem Stops.append (hl : Unstopped l) (h : Stops l' o) :
    Stops (l ++ l') o :=
  h.imp (fun ⟨hl', ho⟩ => ⟨unstopped_append.mpr ⟨hl, hl'⟩, ho⟩) (EndsStopped.append hl)

/-- The stop that ends a trace is its only one. -/
theorem EndsStopped.only (h : EndsStopped l o)
    {before after : List Step} (hl : steps l = before ++ .mark .stopRaised :: after) :
    Cleanup after := by
  obtain ⟨⟨before', after', hl', hbefore', hafter'⟩, -⟩ := h
  have hbefore : ∀ b ∈ before', ¬ b.isStop = true := fun b hb => by simp [hbefore' b hb]
  have hafter : ∀ a ∈ after', ¬ a.isStop = true := fun a ha => by simp [hafter'.unstopped a ha]
  obtain ⟨-, rfl⟩ := split_unique (p := fun st => st.isStop = true) (hl ▸ hl') rfl hbefore hafter
  exact hafter'

/-! ## The relation -/

section Relation

variable [Crates] {σ : Type}

/-- `honour_stop` is as before; a run that ignores the stop raises none; any other ends with its
stop; and the spans of every `try` are as they should be. -/
structure StopRel (s : State σ) (l : Trace) (o : Option Halt) (t : State σ) : Prop where
  honour : t.honourStop = s.honourStop
  ignored : s.honourStop = false → Unstopped l ∧ NotStopped o
  ends : s.honourStop = true → Stops l o
  nodes : ∀ n, Occurs n l → n.StopOk

variable {s t : State σ} {o : Option Halt}

theorem StopRel.quiet (ht : t.honourStop = s.honourStop) (ho : NotStopped o) : StopRel s [] o t :=
  ⟨ht, fun _ => ⟨unstopped_nil, ho⟩, fun _ => .inl ⟨unstopped_nil, ho⟩, by simp⟩

theorem StopRel.marked {m : Mark} (hm : m.isControl = false)
    (ht : t.honourStop = s.honourStop) : StopRel s [.mark m] none t :=
  ⟨ht, fun _ => ⟨unstopped_mark hm, by simp [NotStopped]⟩,
    fun _ => .inl ⟨unstopped_mark hm, by simp [NotStopped]⟩,
    fun n hn => by rw [occurs_mark.mp hn]; trivial⟩

variable {l : Trace}

theorem StopRel.span {label : Label} (h : StopRel s l o t) (hself : (Node.span label l o).StopOk) :
    StopRel s [.span label l o] o t where
  honour := h.honour
  ignored hs := ⟨unstopped_span.mpr (h.ignored hs).1, (h.ignored hs).2⟩
  ends hs := (h.ends hs).span
  nodes n hn := by
    rcases occurs_span.mp hn with rfl | hn
    · exact hself
    · exact h.nodes n hn

theorem StopRel.trans {u : State σ} {l' : Trace} {o' : Option Halt}
    (h : StopRel s l o t) (ho : NotStopped o) (hfuel : o ≠ some .fuel)
    (h' : StopRel t l' o' u) : StopRel s (l ++ l') o' u where
  honour := h'.honour.trans h.honour
  ignored hs :=
    have h₁ := h.ignored hs
    have h₂ := h'.ignored (h.honour.trans hs)
    ⟨unstopped_append.mpr ⟨h₁.1, h₂.1⟩, h₂.2⟩
  ends hs := (h'.ends (h.honour.trans hs)).append ((h.ends hs).unstopped ho hfuel)
  nodes n hn := (occurs_append.mp hn).elim (h.nodes n) (h'.nodes n)

theorem stopRel_composes : Composes (StopRel (σ := σ)) where
  refl _ := .quiet rfl (by simp [NotStopped])
  trans h h' := h.trans (by simp [NotStopped]) (by simp) h'

theorem call_unstopped (x : Exec σ) (tool : String) (args : List (String × Value)) :
    Sat StopRel (callOrPause x tool args) := by
  intro s
  obtain ⟨hlog, hhalt, hst⟩ := call_or_pause_run x tool args s
  rw [hlog, hhalt, hst]
  generalize (x.host.call tool args s.host).1 = answer
  have hl : Unstopped [.mark (.snapshot s.session s.file),
      .mark (.call tool args answer s.honourStop)] := by simp [Unstopped, Step.isStop]
  have ho : NotStopped ((pauseReason answer).map fun r => .interrupt (.paused r)) := by
    cases pauseReason answer with
    | none => simp [NotStopped]
    | some reason => simp [NotStopped]
  refine ⟨rfl, fun _ => ⟨hl, ho⟩, fun _ => .inl ⟨hl, ho⟩, fun n hn => ?_⟩
  rcases occurs_cons_cons.mp hn with hn | hn
  · rw [occurs_mark.mp hn]
    trivial
  · rw [occurs_mark.mp hn]
    trivial

/-- A safe point that raises the stop ends its trace with it. -/
theorem checkStop_stops (x : Exec σ) : Sat StopRel (checkStop x) := by
  intro s
  obtain ⟨⟨h, c, hst⟩, hquiet | ⟨hs, hlog, hhalt⟩⟩ := check_stop_run x s
  · rw [hst, hquiet.1, hquiet.2]
    exact .quiet rfl (by simp [NotStopped])
  · rw [hst, hlog, hhalt]
    refine ⟨rfl, fun hs' => absurd (hs.symm.trans hs') (by simp), fun _ => .inr ⟨?_, .inl rfl⟩, ?_⟩
    · exact ⟨[], [], rfl, by simp, .done⟩
    · intro n hn
      rw [occurs_mark.mp hn]
      trivial

/-! ## `try` -/

section Try

variable {run : RunBlock σ} {body block : List Instruction}
  {catch_ finally_ : Option (List Instruction)} {s t : State σ} {l : Trace} {o : Option Halt}

/-- A block run from a state that agrees on `honour_stop`. -/
theorem block_stops (hrun : ∀ block, Sat StopRel (run block)) {label : Label} {t' u : State σ}
    (ht : t'.honourStop = t.honourStop) (hu : u.honourStop = (run block t').st.honourStop)
    (hself : (blockSpan label run block t').StopOk) :
    StopRel t [blockSpan label run block t'] (run block t').halt u := by
  obtain ⟨hhonour, hignored, hends, hnodes⟩ := (hrun block t').span hself
  exact ⟨by rw [hu, hhonour, ht], fun h => hignored (ht.trans h), fun h => hends (ht.trans h),
    hnodes⟩

/-- What a stopped block leaves in its trace. -/
theorem block_raised (hrun : ∀ block, Sat StopRel (run block))
    (hstop : (run block t).halt = some (.interrupt .stopped)) :
    .mark .stopRaised ∈ steps (run block t).log := by
  have hrel := hrun block t
  cases hs : t.honourStop with
  | false => exact absurd hstop (hrel.ignored hs).2
  | true =>
    rcases hrel.ends hs with ⟨-, hnot⟩ | ⟨⟨before, after, hl, -⟩, -⟩
    · exact absurd hstop hnot
    · simp [hl]

/-- A `finally` block is as it should be. -/
theorem finally_stopOk (hrun : ∀ block, Sat StopRel (run block)) (hshaped : Shaped run)
    {cause : Option Interrupt} (hcause : cause = some .stopped → t.honourStop = false) :
    (blockSpan (.finally_ cause block) run block t).StopOk :=
  ⟨hshaped block t, fun hc => (hrun block t).ignored (hcause hc), block_raised hrun⟩

theorem after_catch_stops (hrun : ∀ block, Sat StopRel (run block))
    (h : AfterCatch run body catch_ finally_ s l o t) : StopRel s l o t := by
  cases h with
  | body hpause => exact block_stops hrun rfl rfl trivial
  | caught herror hcatch ht =>
    subst ht
    have hbody : StopRel s [blockSpan .body run body s] (run body s).halt (run body s).st :=
      block_stops hrun rfl rfl trivial
    refine hbody.trans ?_ ?_ (block_stops hrun rfl rfl trivial)
    · simp [herror, NotStopped]
    · simp [herror]

/-- The stop a body or a `catch` raised is what the `finally` gets. -/
theorem after_catch_raised (h : AfterCatch run body catch_ finally_ s l o t)
    (hraised : RaisedStop l) : o = some (.interrupt .stopped) := by
  obtain ⟨label, part, hmem, -⟩ := hraised
  cases h with
  | body hpause =>
    have heq := List.mem_singleton.mp hmem
    exact (Node.span.inj heq).2.2.symm
  | caught herror hcatch ht =>
    rcases List.mem_cons.mp hmem with heq | hmem
    · have hhalt := (Node.span.inj heq).2.2
      rw [herror] at hhalt
      cases hhalt
    · exact (Node.span.inj (List.mem_singleton.mp hmem)).2.2.symm

variable {r : Run (State σ) Halt Node Unit}

theorem merge_notStopped {i : Interrupt} (hi : i ≠ .stopped)
    (ho : NotStopped r.halt) : NotStopped (some (mergeFinally i r.out)) := by
  cases hr : r.out with
  | ok u => simp [mergeFinally, NotStopped, hi]
  | error h =>
    cases h with
    | fuel => simp [mergeFinally, NotStopped]
    | interrupt i' =>
      cases i' with
      | error e' => simp [mergeFinally, NotStopped, hi]
      | paused reason => simp [mergeFinally, NotStopped, hi]
      | stopped => exact absurd (by simp [Run.halt, hr]) ho

/-- What a `finally` makes of the error it runs for. -/
theorem merge_error_stops {e : WorkflowError}
    (h : Stops l r.halt) : Stops l (some (mergeFinally (.error e) r.out)) := by
  rcases h with ⟨hl, ho⟩ | ⟨hends, ho | ⟨ho, hcut⟩⟩
  · refine .inl ⟨hl, merge_notStopped (by simp) ho⟩
  · refine .inr ⟨hends, .inl ?_⟩
    simp [out_of_halt_some ho, mergeFinally]
  · refine .inr ⟨hends, .inr ⟨?_, hcut⟩⟩
    simp [out_of_halt_some ho, mergeFinally]

theorem StopRel.merged (e : WorkflowError)
    (h : StopRel s l r.halt t) : StopRel s l (some (mergeFinally (.error e) r.out)) t :=
  ⟨h.honour, fun hs => ⟨(h.ignored hs).1, merge_notStopped (by simp) (h.ignored hs).2⟩,
    fun hs => merge_error_stops (h.ends hs), h.nodes⟩

/-- A stop stays a stop after the `finally` it runs. -/
theorem merge_stopped :
    StoppedOutcome [.span (.finally_ (some .stopped) block) r.log r.halt]
      (some (mergeFinally .stopped r.out)) := by
  cases hr : r.out with
  | ok u => exact .inl rfl
  | error h =>
    cases h with
    | fuel =>
      have hhalt : r.halt = some .fuel := by simp [Run.halt, hr]
      exact .inr ⟨rfl, block, r.log, occurs_span.mpr (.inl (by rw [hhalt]))⟩
    | interrupt i =>
      cases i with
      | error e => exact .inl rfl
      | paused reason => exact .inl rfl
      | stopped => exact .inl rfl

theorem try_stops (hrun : ∀ block, Sat StopRel (run block)) (hshaped : Shaped run)
    (h : TryRun run body catch_ finally_ s l o t) : StopRel s l o t := by
  cases h with
  | paused hpause =>
    rw [← hpause]
    exact block_stops hrun rfl rfl trivial
  | bare hafter hnone => exact after_catch_stops hrun hafter
  | cut hafter hfin => exact after_catch_stops hrun hafter
  | success hafter hfin =>
    refine (after_catch_stops hrun hafter).trans (by simp [NotStopped]) (by simp) ?_
    exact block_stops hrun rfl rfl (finally_stopOk hrun hshaped (by simp))
  | @failed l t t' block e hafter hfin ht =>
    subst ht
    have hblock : StopRel t [blockSpan (.finally_ (some (.error e)) block) run block (t.withError e)]
        (run block (t.withError e)).halt { (run block (t.withError e)).st with error := t.error } :=
      block_stops hrun rfl rfl (finally_stopOk hrun hshaped (by simp))
    exact (after_catch_stops hrun hafter).trans (by simp [NotStopped]) (by simp) (hblock.merged e)
  | @unwound l t t' block i hafter hfin hi ht =>
    subst ht
    have hbefore := after_catch_stops hrun hafter
    obtain ⟨hf, hfo⟩ := (hrun block t.ignoringStop).ignored rfl
    have hself : (blockSpan (.finally_ (some i) block) run block t.ignoringStop).StopOk :=
      finally_stopOk hrun hshaped fun _ => rfl
    have hspan : Unstopped [blockSpan (.finally_ (some i) block) run block t.ignoringStop] :=
      unstopped_span.mpr hf
    refine ⟨hbefore.honour, fun hs => ?_, fun hs => ?_, fun n hn => ?_⟩
    · obtain ⟨hl, ho⟩ := hbefore.ignored hs
      have hne : i ≠ .stopped := fun heq => ho (by rw [heq])
      exact ⟨unstopped_append.mpr ⟨hl, hspan⟩, merge_notStopped hne hfo⟩
    · by_cases hstop : i = .stopped
      · subst hstop
        rcases hbefore.ends hs with ⟨-, ho⟩ | hends
        · exact absurd rfl ho
        · exact .inr (hends.finally_ hf merge_stopped)
      · have hl := (hbefore.ends hs).unstopped (by simpa [NotStopped] using hstop) (by simp)
        exact .inl ⟨unstopped_append.mpr ⟨hl, hspan⟩, merge_notStopped hstop hfo⟩
    · rcases occurs_append.mp hn with hn | hn
      · exact hbefore.nodes n hn
      · rcases occurs_span.mp hn with rfl | hn
        · exact hself
        · exact (hrun block t.ignoringStop).nodes n hn

/-- A `try` runs its `finally` for a stop of its body or `catch`. -/
theorem try_stopOk (h : TryRun run body catch_ finally_ s l o t) :
    (Node.span (.try_ finally_) l o).StopOk := by
  cases finally_ with
  | none => trivial
  | some block =>
    rintro ⟨label, part, hmem, hlabel⟩
    -- the span is one of the body and the `catch`, not of the `finally`
    have hpart : ∀ {l' cause f fh}, l = l' ++ [.span (.finally_ cause block) f fh] →
        RaisedStop l' := by
      rintro l' cause f fh rfl
      rcases List.mem_append.mp hmem with hmem | hmem
      · exact ⟨label, part, hmem, hlabel⟩
      · obtain ⟨rfl, -⟩ := Node.span.inj (List.mem_singleton.mp hmem)
        simp at hlabel
    cases h with
    | paused hpause =>
      have hhalt := (Node.span.inj (List.mem_singleton.mp hmem)).2.2
      rw [hpause] at hhalt
      cases hhalt
    | bare hafter hnone => cases hnone
    | cut hafter hfin =>
      cases after_catch_raised hafter ⟨label, part, hmem, hlabel⟩
    | success hafter hfin =>
      obtain rfl := Option.some.inj hfin
      cases after_catch_raised hafter (hpart rfl)
    | failed hafter hfin ht =>
      obtain rfl := Option.some.inj hfin
      cases after_catch_raised hafter (hpart rfl)
    | unwound hafter hfin hi ht =>
      obtain rfl := Option.some.inj hfin
      cases after_catch_raised hafter (hpart rfl)
      exact ⟨_, _, List.mem_append_right _ (List.mem_singleton_self _)⟩

end Try

theorem stopRel_control (x : Exec σ) : Control x StopRel where
  composes := stopRel_composes
  fuel _ := .quiet rfl (by simp [NotStopped])
  error _ _ := .quiet rfl (by simp [NotStopped])
  silent ht := .quiet ht (by simp [NotStopped])
  mark _ hm := .marked hm rfl
  call := call_unstopped x
  checkStop := checkStop_stops x
  reworded e' h := by
    refine ⟨h.honour, fun hs => ⟨(h.ignored hs).1, by simp [NotStopped]⟩, fun hs => ?_, h.nodes⟩
    exact .inl ⟨(h.ends hs).unstopped (by simp [NotStopped]) (by simp), by simp [NotStopped]⟩
  settles ht h := ⟨ht.trans h.honour, h.ignored, h.ends, h.nodes⟩
  span {label} _ _ _ _ hlabel h := h.span (by
    cases label with
    | instruction | safePoint | action | considering => trivial
    | try_ | body | catch_ | finally_ => cases hlabel)
  try_ hrun hshaped body catch_ finally_ s := by
    obtain ⟨l, hlog, hway⟩ := exec_try_run _ body catch_ finally_ s
    rw [hlog]
    exact (try_stops hrun hshaped hway).span (try_stopOk hway)

/-- Once a safe point raises the stop, spans end and `finally` blocks run for it, and the pass
returns stopped (a model run may be cut in such a block). Every `try` whose body or `catch` raised
the stop runs its `finally`, from the first instruction to the end or to the first workflow error or
pause. -/
theorem stop_ends_the_pass (fuel : Nat) (doc : Document) (params : Value) (host : Host σ)
    (file : Option Value) (h : σ) :
    let r := runWithStop fuel doc params host file h
    (∀ before after, steps r.log = before ++ .mark .stopRaised :: after →
      Cleanup after ∧ (runOutcome r.out = some .stopped ∨ r.out = .error .fuel ∧
        ∃ block sub, Occurs (.span (.finally_ (some .stopped) block) sub (some .fuel)) r.log)) ∧
    ∀ block sub halt, Occurs (.span (.try_ (some block)) sub halt) r.log → RaisedStop sub →
      ∃ f fhalt, .span (.finally_ (some .stopped) block) f fhalt ∈ sub ∧ Ran block f fhalt ∧
        fhalt ≠ some (.interrupt .stopped) := by
  intro r
  have hrel := (stopRel_control ⟨params, doc.triggers, host⟩).runWithStop fuel file h
  refine ⟨fun before after hl => ?_, fun block sub halt hocc hraised => ?_⟩
  · rcases hrel.ends rfl with ⟨hun, -⟩ | hends
    · exact absurd (hun (.mark .stopRaised) (hl ▸ by simp)) (by simp [Step.isStop])
    · refine ⟨hends.only hl, hends.2.imp (fun ho => ?_) fun ⟨ho, hcut⟩ => ⟨?_, hcut⟩⟩
      · rw [out_of_halt_some ho]
        rfl
      · exact out_of_halt_some ho
  · obtain ⟨f, fhalt, hmem⟩ := hrel.nodes _ hocc hraised
    obtain ⟨hran, hstop, -⟩ := hrel.nodes _ (hocc.trans (.here hmem))
    exact ⟨f, fhalt, hmem, hran, (hstop rfl).2⟩

/-- Every `finally` block runs its instructions in order, to the end or to the first that raised,
itself or at the safe point after it. One that runs for a stop is not stopped; another one is
stopped only by one of its own safe points. -/
theorem finally_runs_in_order (fuel : Nat) (doc : Document) (params : Value) (host : Host σ)
    (file : Option Value) (h : σ) {cause : Option Interrupt} {block : List Instruction}
    {f : Trace} {halt : Option Halt}
    (hocc : Occurs (.span (.finally_ cause block) f halt)
      (runWithStop fuel doc params host file h).log) :
    Ran block f halt ∧
      (cause = some .stopped →
        .mark .stopRaised ∉ steps f ∧ halt ≠ some (.interrupt .stopped)) ∧
      (halt = some (.interrupt .stopped) → .mark .stopRaised ∈ steps f) := by
  have hrel := (stopRel_control ⟨params, doc.triggers, host⟩).runWithStop fuel file h
  obtain ⟨hran, hstop, hraised⟩ := hrel.nodes _ hocc
  refine ⟨hran, fun hcause => ⟨fun hmem => ?_, (hstop hcause).2⟩, hraised⟩
  exact absurd ((hstop hcause).1 _ hmem) (by simp [Step.isStop])

end Relation

/-- A capture whose cover is closed in the end. -/
def coveredCapture : Instruction :=
  .mk none none (.try_ [callTo "capture"] none (some [callTo "close_cover"]))

/-- The pass of the covered capture that the operator stops after the capture. -/
def stoppedCover : Run (State Script) Halt Node Unit :=
  letI := Crates.wholeSeconds
  runWithStop 3 (rootDocument coveredCapture) .null scripted none { stops := [true] }

/-- What the `finally` of that pass did. -/
def coverTrace : Trace :=
  [.span (.instruction (callTo "close_cover"))
      [.mark (.snapshot (.object []) none), .mark (.call "close_cover" [] (.ok .null) false)] none,
    .span .safePoint [.mark (.snapshot (.object []) none)] none]

example : (steps coverTrace).any Step.isStop = false := by decide +kernel

theorem stoppedCover_log (h : Option Halt) (hh : h = some (.interrupt .stopped)) :
    stoppedCover.log =
      [.span (.instruction coveredCapture)
        [.span (.try_ (some [callTo "close_cover"]))
          [.span .body
            [.span (.instruction (callTo "capture"))
              [.mark (.snapshot (.object []) none), .mark (.call "capture" [] (.ok .null) true)]
              none,
              .span .safePoint [.mark (.snapshot (.object []) none), .mark .stopRaised] h] h,
            .span (.finally_ (some .stopped) [callTo "close_cover"]) coverTrace none] h] h] := by
  subst hh
  rfl

/-- A stop after the capture ends the pass. -/
theorem cover_stop_ends_the_pass : runOutcome stoppedCover.out = some .stopped := by
  have hmem : .mark .stopRaised ∈ steps stoppedCover.log := by simp [stoppedCover_log _ rfl]
  obtain ⟨before, after, hl⟩ := List.append_of_mem hmem
  let _ := Crates.wholeSeconds
  have hstop := stop_ends_the_pass 3 (rootDocument coveredCapture) .null scripted none
    { stops := [true] }
  have hreturns : runOutcome stoppedCover.out ≠ none := by decide +kernel
  rcases (hstop.1 before after hl).2 with ho | ⟨hcut, -⟩
  · exact ho
  · exact absurd (congrArg runOutcome hcut) hreturns

/-- The `finally` of the stopped pass closes the cover. -/
theorem stopped_cover_runs_in_order : Ran [callTo "close_cover"] coverTrace none := by
  have hocc : Occurs (.span (.finally_ (some .stopped) [callTo "close_cover"]) coverTrace none)
      stoppedCover.log := by
    simp [stoppedCover_log _ rfl, occurs_span, occurs_cons_cons]
  let _ := Crates.wholeSeconds
  exact (finally_runs_in_order 3 (rootDocument coveredCapture) .null scripted none
    { stops := [true] } hocc).1

/-- A `try` inside the `finally` that runs for a stop catches its own error: a `catch` is entered
after the stop. -/
theorem catch_entered_after_stop :
    (passOf 7 (documentOf
        [("try", .array [toolStep "capture"]),
          ("finally", .array [.object
            [("try", .array [.object [("fail", .object [("message", .string "'no flats'")])]]),
              ("catch", .array [toolStep "close_cover"])]])])
      none { stops := [true] }).map
        (fun r => ((steps r.log).dropWhile fun st => !st.isStop).any Step.entersCatch) =
    some true := by
  decide +kernel

/-- A stop after the first instruction of a `finally` on the success path: the second is left
out. -/
theorem stop_cuts_finally :
    (passOf 5 (documentOf
        [("try", .array [toolStep "capture"]),
          ("finally", .array [toolStep "close_cover", toolStep "warm_camera"])])
      none { stops := [false, true] }).map (fun r => (callsOf r.log, runOutcome r.out)) =
    some ([("capture", .ok .null, true), ("close_cover", .ok .null, true)], some .stopped) := by
  decide +kernel

end RustyPhoton.SessionRunner.Engine
