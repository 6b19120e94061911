import RustyPhoton.SessionRunner.Engine.Control
import RustyPhoton.SessionRunner.Engine.Script

/-!
# Pauses

A call that `rp` answers with a safety stop or that does not reach it pauses the run. Unless the run
is already unwinding a stop, nothing is to happen after it: the spans end, and the pass returns
paused. The code keeps to this except in a `catch` block whose `try` has a `finally`: there the
pause takes the path of a stop, and the `finally` runs.
-/

set_option linter.unusedSectionVars false

namespace RustyPhoton.SessionRunner.Engine

open Lib Traced

/-- The reason a step pauses the run: an answered call, with the stop still honoured. -/
def Step.pauses : Step → Option PauseReason
  | .mark (.call _ _ answer true) => pauseReason answer
  | _ => none

def Step.isLeave : Step → Bool
  | .leave _ _ => true
  | _ => false

/-- Nothing in this trace pauses the run. -/
def Unpaused (l : Trace) : Prop := ∀ st ∈ steps l, st.pauses = none

/-- The last thing in this trace pauses the run: after it, spans only end. -/
def EndsPaused (l : Trace) (reason : PauseReason) : Prop :=
  ∃ before st after, steps l = before ++ st :: after ∧ (∀ b ∈ before, b.pauses = none) ∧
    st.pauses = some reason ∧ ∀ a ∈ after, a.isLeave

def NotPaused (o : Option Halt) : Prop := ∀ reason, o ≠ some (.interrupt (.paused reason))

/-- The outcome tells of the pause. -/
def Pauses (l : Trace) (o : Option Halt) : Prop :=
  (Unpaused l ∧ NotPaused o) ∨
    ∃ reason, EndsPaused l reason ∧ o = some (.interrupt (.paused reason))

/-- Nothing in a `catch` block whose `try` has a `finally` pauses the run. -/
def CatchUnpaused (l : Trace) : Prop :=
  ∀ sub halt, Occurs (.span (.catch_ true) sub halt) l → Unpaused sub

theorem unpaused_nil : Unpaused [] := by simp [Unpaused]

variable {l l' : Trace}

theorem unpaused_append : Unpaused (l ++ l') ↔ Unpaused l ∧ Unpaused l' := by
  simp only [Unpaused, steps_append, List.forall_mem_append]

variable {label : Label} {o : Option Halt}

theorem unpaused_span :
    Unpaused [.span label l o] ↔ Unpaused l := by
  simp [Unpaused, Step.pauses, or_imp, forall_and]

theorem unpaused_mark {m : Mark} (h : m.isControl = false) : Unpaused [.mark m] := by
  intro st hst
  obtain rfl : st = .mark m := by simpa using hst
  cases m with
  | call => cases h
  | _ => rfl

variable {reason : PauseReason}

theorem EndsPaused.span (h : EndsPaused l reason) : EndsPaused [.span label l o] reason := by
  obtain ⟨before, st, after, hl, hbefore, hst, hafter⟩ := h
  refine ⟨.enter label :: before, st, after ++ [.leave label o], ?_, ?_, hst, ?_⟩
  · simp [hl]
  · simpa [Step.pauses] using hbefore
  · simpa [List.forall_mem_append, or_imp, forall_and, Step.isLeave] using hafter

theorem EndsPaused.append (hl : Unpaused l)
    (h : EndsPaused l' reason) : EndsPaused (l ++ l') reason := by
  obtain ⟨before, st, after, hl', hbefore, hst, hafter⟩ := h
  refine ⟨steps l ++ before, st, after, ?_, ?_, hst, hafter⟩
  · simp [hl']
  · exact List.forall_mem_append.mpr ⟨hl, hbefore⟩

theorem EndsPaused.not_unpaused (h : EndsPaused l reason) :
    ¬ Unpaused l := by
  obtain ⟨before, st, after, hl, -, hst, -⟩ := h
  intro hun
  have hnone := hun st (by simp [hl])
  rw [hst] at hnone
  cases hnone

/-- The step that pauses a run is the only one, and only ends of spans follow it. -/
theorem EndsPaused.only {reason' : PauseReason} (h : EndsPaused l reason)
    {before after : List Step} {st : Step} (hl : steps l = before ++ st :: after)
    (hst : st.pauses = some reason') :
    reason' = reason ∧ ∀ a ∈ after, a.isLeave := by
  obtain ⟨before', st', after', hl', hbefore', hst', hafter'⟩ := h
  have hbefore : ∀ b ∈ before', ¬ b.pauses ≠ none := fun b hb => by simp [hbefore' b hb]
  have hafter : ∀ a ∈ after', ¬ a.pauses ≠ none := by
    intro a ha
    have hleave := hafter' a ha
    cases a with
    | leave label halt => simp [Step.pauses]
    | _ => cases hleave
  obtain ⟨rfl, rfl⟩ := split_unique (hl ▸ hl') (by simp [hst]) hbefore hafter
  rw [hst] at hst'
  exact ⟨Option.some.inj hst', hafter'⟩

theorem Pauses.unpaused (h : Pauses l o) (ho : NotPaused o) :
    Unpaused l := by
  rcases h with ⟨hl, -⟩ | ⟨reason, -, rfl⟩
  · exact hl
  · exact absurd rfl (ho reason)

theorem Pauses.notPaused (h : Pauses l o) (hl : Unpaused l) :
    NotPaused o := by
  rcases h with ⟨-, ho⟩ | ⟨reason, hends, -⟩
  · exact ho
  · exact absurd hl hends.not_unpaused

theorem Pauses.span {o' : Option Halt} (h : Pauses l o) :
    Pauses [.span label l o'] o := by
  rcases h with ⟨hl, ho⟩ | ⟨reason, hends, ho⟩
  · exact .inl ⟨unpaused_span.mpr hl, ho⟩
  · exact .inr ⟨reason, hends.span, ho⟩

theorem Pauses.append (hl : Unpaused l) (h : Pauses l' o) :
    Pauses (l ++ l') o := by
  rcases h with ⟨hl', ho⟩ | ⟨reason, hends, ho⟩
  · exact .inl ⟨unpaused_append.mpr ⟨hl, hl'⟩, ho⟩
  · exact .inr ⟨reason, hends.append hl, ho⟩

theorem catchUnpaused_append :
    CatchUnpaused (l ++ l') ↔ CatchUnpaused l ∧ CatchUnpaused l' := by
  simp only [CatchUnpaused, occurs_append, or_imp, forall_and]

theorem catchUnpaused_span (h : CatchUnpaused [.span label l o]) : CatchUnpaused l :=
  fun sub halt hocc => h sub halt (occurs_span.mpr (.inr hocc))

/-! ## The relation -/

section Relation

variable [Crates] {σ : Type}

/-- `honour_stop` is as before; a run that ignores the stop has no pause of its own; any other ends
with its pause, if the `catch` blocks keep clear of it. -/
structure PauseRel (s : State σ) (l : Trace) (o : Option Halt) (t : State σ) : Prop where
  honour : t.honourStop = s.honourStop
  ignored : s.honourStop = false → Unpaused l
  ends : s.honourStop = true → CatchUnpaused l → Pauses l o

variable {s t : State σ} {l : Trace} {o : Option Halt}

theorem PauseRel.quiet
    (ht : t.honourStop = s.honourStop) (hl : Unpaused l) (ho : NotPaused o) : PauseRel s l o t :=
  ⟨ht, fun _ => hl, fun _ _ => .inl ⟨hl, ho⟩⟩

theorem notPaused_none : NotPaused none := by simp [NotPaused]

theorem PauseRel.span (label : Label)
    (h : PauseRel s l o t) : PauseRel s [.span label l o] o t where
  honour := h.honour
  ignored hs := unpaused_span.mpr (h.ignored hs)
  ends hs hl := (h.ends hs (catchUnpaused_span hl)).span

theorem PauseRel.trans {u : State σ} {l' : Trace} {o' : Option Halt}
    (h : PauseRel s l o t) (ho : NotPaused o) (h' : PauseRel t l' o' u) :
    PauseRel s (l ++ l') o' u where
  honour := h'.honour.trans h.honour
  ignored hs := unpaused_append.mpr ⟨h.ignored hs, h'.ignored (h.honour.trans hs)⟩
  ends hs hl := by
    obtain ⟨hl, hl'⟩ := catchUnpaused_append.mp hl
    exact (h'.ends (h.honour.trans hs) hl').append ((h.ends hs hl).unpaused ho)

theorem pauseRel_composes : Composes (PauseRel (σ := σ)) where
  refl _ := .quiet rfl unpaused_nil notPaused_none
  trans h h' := h.trans notPaused_none h'

/-- A call pauses the run exactly when its answer says so. -/
theorem call_pauses (x : Exec σ) (tool : String) (args : List (String × Value)) :
    Sat PauseRel (callOrPause x tool args) := by
  intro s
  obtain ⟨hlog, hhalt, hst⟩ := call_or_pause_run x tool args s
  rw [hlog, hhalt, hst]
  generalize (x.host.call tool args s.host).1 = answer
  refine ⟨rfl, fun hs => ?_, fun hs _ => ?_⟩
  · simp [Unpaused, Step.pauses, hs]
  · rw [hs]
    cases hr : pauseReason answer with
    | none => exact .inl ⟨by simp [Unpaused, Step.pauses, hr], by simp [NotPaused]⟩
    | some reason =>
      refine .inr ⟨reason, ⟨[.mark (.snapshot s.session s.file)], _, [], rfl, ?_, hr, ?_⟩, rfl⟩
      · simp [Step.pauses]
      · simp

/-- The stop check does not pause. -/
theorem checkStop_unpaused (x : Exec σ) : Sat PauseRel (checkStop x) := by
  intro s
  obtain ⟨⟨h, c, hst⟩, hquiet | ⟨-, hlog, hhalt⟩⟩ := check_stop_run x s
  · rw [hst, hquiet.1, hquiet.2]
    exact .quiet rfl unpaused_nil notPaused_none
  · rw [hst, hlog, hhalt]
    exact .quiet rfl (by simp [Unpaused, Step.pauses]) (by simp [NotPaused])

/-! ## `try` -/

section Try

variable {run : RunBlock σ} {body block : List Instruction}
  {catch_ finally_ : Option (List Instruction)} {s t : State σ} {l : Trace} {o : Option Halt}

/-- A block run from a state that agrees on `honour_stop`. -/
theorem block_pauses (hrun : ∀ block, Sat PauseRel (run block)) (label : Label) {t' u : State σ}
    (ht : t'.honourStop = t.honourStop) (hu : u.honourStop = (run block t').st.honourStop) :
    PauseRel t [blockSpan label run block t'] (run block t').halt u := by
  obtain ⟨hhonour, hignored, hends⟩ := (hrun block t').span label
  exact ⟨by rw [hu, hhonour, ht], fun h => hignored (ht.trans h), fun h => hends (ht.trans h)⟩

theorem after_catch_pauses (hrun : ∀ block, Sat PauseRel (run block))
    (h : AfterCatch run body catch_ finally_ s l o t) : PauseRel s l o t := by
  cases h with
  | body hpause => exact block_pauses hrun .body rfl rfl
  | caught herror hcatch ht =>
    subst ht
    have hbody : PauseRel s [blockSpan .body run body s] (run body s).halt (run body s).st :=
      block_pauses hrun .body rfl rfl
    refine hbody.trans ?_ (block_pauses hrun _ rfl rfl)
    rw [herror]
    simp [NotPaused]

/-- Before a `finally` the run is not paused, if the `catch` blocks keep clear of it. -/
theorem after_catch_unpaused (hrun : ∀ block, Sat PauseRel (run block))
    (h : AfterCatch run body catch_ (some block) s l o t) (hs : s.honourStop = true)
    (hl : CatchUnpaused l) : NotPaused o := by
  cases h with
  | body hpause => exact hpause
  | @caught e block t' herror hcatch ht =>
    have hcaught : Unpaused (run block t').log := hl _ _ (.here (List.mem_cons_of_mem _ (.head _)))
    have ht' : t'.honourStop = true := by rw [ht]; exact (hrun body s).honour.trans hs
    have hinner : CatchUnpaused (run block t').log :=
      catchUnpaused_span (catchUnpaused_append (l := [_]).mp hl).2
    exact ((hrun block t').ends ht' hinner).notPaused hcaught

variable {r : Run (State σ) Halt Node Unit}

/-- What a `finally` makes of the error it runs for. -/
theorem merge_error_pauses {e : WorkflowError}
    (h : Pauses l r.halt) : Pauses l (some (mergeFinally (.error e) r.out)) := by
  rcases h with ⟨hl, ho⟩ | ⟨reason, hends, ho⟩
  · refine .inl ⟨hl, ?_⟩
    cases hr : r.out with
    | ok u => simp [mergeFinally, NotPaused]
    | error h =>
      cases h with
      | fuel => simp [mergeFinally, NotPaused]
      | interrupt i =>
        cases i with
        | error e' => simp [mergeFinally, NotPaused]
        | paused reason => exact absurd (by simp [Run.halt, hr]) (ho reason)
        | stopped => simp [mergeFinally, NotPaused]
  · refine .inr ⟨reason, hends, ?_⟩
    simp [out_of_halt_some ho, mergeFinally]

theorem PauseRel.merged (e : WorkflowError)
    (h : PauseRel s l r.halt t) : PauseRel s l (some (mergeFinally (.error e) r.out)) t :=
  ⟨h.honour, h.ignored, fun hs hl => merge_error_pauses (h.ends hs hl)⟩

/-- A `finally` that runs for a stop never pauses the run. -/
theorem merge_stopped_notPaused (out : Except Halt Unit) :
    NotPaused (some (mergeFinally .stopped out)) := by
  cases out with
  | ok u => simp [mergeFinally, NotPaused]
  | error h =>
    cases h with
    | fuel => simp [mergeFinally, NotPaused]
    | interrupt i =>
      cases i with
      | error e => simp [mergeFinally, NotPaused]
      | paused reason => simp [mergeFinally, NotPaused]
      | stopped => simp [mergeFinally, NotPaused]

theorem try_pauses (hrun : ∀ block, Sat PauseRel (run block))
    (h : TryRun run body catch_ finally_ s l o t) : PauseRel s l o t := by
  cases h with
  | paused hpause =>
    rw [← hpause]
    exact block_pauses hrun .body rfl rfl
  | bare hafter hnone => exact after_catch_pauses hrun hafter
  | cut hafter hfin => exact after_catch_pauses hrun hafter
  | success hafter hfin =>
    exact (after_catch_pauses hrun hafter).trans notPaused_none (block_pauses hrun _ rfl rfl)
  | @failed l t t' block e hafter hfin ht =>
    subst ht
    have hblock : PauseRel t [blockSpan (.finally_ (some (.error e)) block) run block (t.withError e)]
        (run block (t.withError e)).halt { (run block (t.withError e)).st with error := t.error } :=
      block_pauses hrun _ rfl rfl
    exact (after_catch_pauses hrun hafter).trans (by simp [NotPaused]) (hblock.merged e)
  | @unwound l t t' block i hafter hfin hi ht =>
    subst ht hfin
    have hbefore := after_catch_pauses hrun hafter
    have hfinally : Unpaused [blockSpan (.finally_ (some i) block) run block t.ignoringStop] :=
      unpaused_span.mpr ((hrun block t.ignoringStop).ignored rfl)
    refine ⟨hbefore.honour, fun hs => ?_, fun hs hl => ?_⟩
    · exact unpaused_append.mpr ⟨hbefore.ignored hs, hfinally⟩
    · have hclear := (catchUnpaused_append.mp hl).1
      have hi' := after_catch_unpaused hrun hafter hs hclear
      -- neither an error nor a pause is unwound here: what is left is the stop
      obtain rfl : i = .stopped := by
        cases i with
        | error e => exact absurd rfl (hi e)
        | paused reason => exact absurd rfl (hi' reason)
        | stopped => rfl
      exact .inl ⟨unpaused_append.mpr ⟨(hbefore.ends hs hclear).unpaused hi', hfinally⟩,
        merge_stopped_notPaused _⟩

end Try

theorem pauseRel_control (x : Exec σ) : Control x PauseRel where
  composes := pauseRel_composes
  fuel _ := .quiet rfl unpaused_nil (by simp [NotPaused])
  error _ _ := .quiet rfl unpaused_nil (by simp [NotPaused])
  silent ht := .quiet ht unpaused_nil notPaused_none
  mark _ hm := .quiet rfl (unpaused_mark hm) notPaused_none
  call := call_pauses x
  checkStop := checkStop_unpaused x
  reworded e' h := by
    refine ⟨h.honour, h.ignored, fun hs hl => ?_⟩
    rcases h.ends hs hl with ⟨hl, -⟩ | ⟨reason, -, ho⟩
    · exact .inl ⟨hl, by simp [NotPaused]⟩
    · cases ho
  settles ht h := ⟨ht.trans h.honour, h.ignored, h.ends⟩
  span _ h := h.span _
  try_ hrun _ body catch_ finally_ s := by
    obtain ⟨l, hlog, hway⟩ := exec_try_run _ body catch_ finally_ s
    rw [hlog]
    exact (try_pauses hrun hway).span _

/-- In a pass in which no call made inside a `catch` block whose `try` has a `finally` pauses the
run, a call that does is the last thing that happens: after it spans only end, and the pass returns
paused for its reason. -/
theorem pause_ends_the_pass (fuel : Nat) (doc : Document) (params : Value) (host : Host σ)
    (file : Option Value) (h : σ) {r : Run (State σ) Halt Node Unit}
    (hr : runWithStop fuel doc params host file h = r) (hcatch : CatchUnpaused r.log)
    {before after : List Step} {tool : String} {args : List (String × Value)} {answer : Answer}
    {reason : PauseReason}
    (hcall : steps r.log = before ++ .mark (.call tool args answer true) :: after)
    (hanswer : pauseReason answer = some reason) :
    (∀ st ∈ after, ∃ label halt, st = .leave label halt) ∧
      runOutcome r.out = some (.paused reason) := by
  subst hr
  have hrel := (pauseRel_control ⟨params, doc.triggers, host⟩).runWithStop fuel file h
  have hpauses : (Step.mark (.call tool args answer true)).pauses = some reason := hanswer
  rcases hrel.ends rfl hcatch with ⟨hun, -⟩ | ⟨reason', hends, ho⟩
  · have hnone := hun (.mark (.call tool args answer true)) (hcall ▸ by simp)
    rw [hpauses] at hnone
    cases hnone
  · obtain ⟨rfl, hafter⟩ := hends.only hcall hpauses
    refine ⟨fun st hst => ?_, ?_⟩
    · have hleave := hafter st hst
      cases st with
      | leave label halt => exact ⟨label, halt, rfl⟩
      | _ => cases hleave
    · rw [out_of_halt_some ho]
      rfl

end Relation

/-- A capture with a `catch` and a `finally`. -/
def guardedCapture : Instruction :=
  .mk none none
    (.try_ [callTo "capture"] (some [callTo "close_cover"]) (some [callTo "warm_camera"]))

/-- The pass of the guarded capture that `rp` stops. -/
def stoppedCapture : Run (State Script) Halt Node Unit :=
  letI := Crates.wholeSeconds
  runWithStop 3 (rootDocument guardedCapture) .null scripted none
    { answers := [.error (.safetyStopped "unsafe")] }

theorem stoppedCapture_log (h : Option Halt)
    (hh : h = some (.interrupt (.paused (.safety "unsafe")))) :
    stoppedCapture.log =
      [.span (.instruction guardedCapture)
        [.span (.try_ (some [callTo "warm_camera"]))
          [.span .body
            [.span (.instruction (callTo "capture"))
              [.mark (.snapshot (.object []) none),
                .mark (.call "capture" [] (.error (.safetyStopped "unsafe")) true)] h] h]
          h] h] := by
  subst hh
  rfl

/-- A safety stop of the guarded capture ends the pass. -/
theorem capture_pause_ends_the_pass :
    runOutcome stoppedCapture.out = some (.paused (.safety "unsafe")) := by
  have hcatch : CatchUnpaused stoppedCapture.log := by
    intro sub halt hocc
    rw [stoppedCapture_log _ rfl] at hocc
    simp [occurs_cons_cons, occurs_span, occurs_mark] at hocc
  have hmem : .mark (.call "capture" [] (.error (.safetyStopped "unsafe")) true) ∈
      steps stoppedCapture.log := by
    simp [stoppedCapture_log _ rfl]
  obtain ⟨before, after, hcall⟩ := List.append_of_mem hmem
  let _ := Crates.wholeSeconds
  exact (pause_ends_the_pass 3 _ .null scripted none _ rfl hcatch hcall rfl).2

/-- A safety stop inside a `catch` block whose `try` has a `finally`: the pass goes on to call the
tool of the `finally`. -/
theorem catch_pause_runs_finally :
    (passOf 5 (documentOf
        [("try", .array [.object [("fail", .object [("message", .string "'no flats'")])]]),
          ("catch", .array [toolStep "close_cover"]), ("finally", .array [toolStep "warm_camera"])])
      none { answers := [.error (.safetyStopped "unsafe")] }).map (fun r => callsOf r.log) =
    some [("close_cover", .error (.safetyStopped "unsafe"), true),
      ("warm_camera", .ok .null, false)] := by
  decide +kernel

end RustyPhoton.SessionRunner.Engine
