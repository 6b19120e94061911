import RustyPhoton.SessionRunner.Runs.Active

/-!
# Stopping a paused run

A paused run's supervisor consults the stop token only in the selects of its two waits. A stop
that is accepted while it is on the way round these waits ends the run at the next select, as long
as no answer takes it out of them: a safe status before the token was seen starts a pass, and a
document that no longer validates or a spent grace fails the run. `stop_ends_a_waiting_run` is the
result for every continuation without such an answer.
-/

namespace RustyPhoton.SessionRunner.Runs

open Lib Engine Service RunRegistry

/-! ## Waiting -/

/-- How many steps the task is from its end when every select takes the stop branch; none where the
task is on its way to a pass or ends in another state. -/
def Task.distance (t : Task) : Option Nat :=
  match t.control with
  | .connect _ => some 7
  | .readSafety _ => some 6
  | .backoff _ _ | .awaitSafe _ => some 5
  | .report state _ => if state = .stopped then some 4 else none
  | .unlinkManifest state _ => if state = .stopped then some 3 else none
  | .unlinkBlackboard state _ => if state = .stopped then some 2 else none
  | .record state _ => if state = .stopped then some 1 else none
  | .writeManifest _ | .prepare _ | .subscribe _ _ _ | .execute _ _ _ _ => none

/-- The task is in one of the waits, or already ends its run as stopped. -/
def Task.Waits (t : Task) : Prop := t.distance.isSome = true

theorem Task.distance_bounds {t : Task} {d : Nat} (h : t.distance = some d) : 0 < d ∧ d ≤ 7 := by
  unfold distance at h
  split at h <;> first | cases h | skip
  all_goals first | simp | (split at h <;> cases h; simp)

/-- A task in the waits resumes its run. -/
def Task.Resumes (t : Task) : Prop :=
  match t.control with
  | .connect _ | .backoff _ _ | .readSafety _ | .awaitSafe _ => t.recovery.isSome = true
  | _ => True

/-- The answers that leave a task in the waits. -/
def Task.Harmless (t : Task) : Answered → Prop
  | .attempt (.invalid _) _ => False
  | .attempt (.unreachable _) now => ∀ deadline ∈ t.graceDeadline, now < deadline
  | .safetyStatus (.ok status) _ => isSafe status = false
  | _ => True

/-- The process lives on, and a run's task gets harmless answers. -/
def Service.Harmless (runId : String) (s : Service) : Input → Prop
  | .crash _ => False
  | .advance index answer =>
      ∀ p ∈ s.process, ∀ t ∈ p.tasks[index]?, t.runId = runId → t.Harmless answer
  | _ => True

/-- The answers that send a waiting task round once more. -/
def Answered.goesRound : Answered → Bool
  | .safetyStatus (.error (.unavailable _)) _ | .select .timer | .select (.event _) => true
  | _ => false

/-- A pass of a run gets its blackboard, or has run. -/
def Event.isPassOf (runId : String) : Event → Bool
  | .began id _ | .ran id _ => id = runId
  | _ => false

def Input.isAdvance : Input → Bool
  | .advance _ _ => true
  | _ => false

def Input.goesRound : Input → Bool
  | .advance _ answer => answer.goesRound
  | _ => false

section

variable [Crates] {config : Config} {registry : RunRegistry} {dir : Dir} {t : Task}
  {answer : Answered} {m : Move}

omit [Crates] in
theorem Task.supervise_resumes (manifest : RunManifest) (launch : Option Document) :
    (supervise config manifest launch).Resumes := by
  unfold supervise
  split
  · trivial
  · trivial
  · rfl

theorem Task.Goes.resumes (h : t.Goes config registry dir answer m) (ht : t.Resumes) :
    ∀ t' ∈ m.task, t'.Resumes := by
  rintro t' ht'
  cases h with
  | notLaunched | recorded => cases ht'
  | launched => exact Option.some.inj ht' ▸ supervise_resumes _ _
  | connected at_ =>
    obtain rfl := Option.some.inj ht'
    have hrecovery : t.recovery.isSome = true := by simpa [Resumes, at_] using ht
    simp [Resumes, goto, hrecovery]
  | unreachable at_ inTime | notSafe at_ | noStatus at_ | slept at_ | reread at_ =>
    obtain rfl := Option.some.inj ht'
    simpa [Resumes, goto, at_] using ht
  | ignored at_ => exact Option.some.inj ht' ▸ ht
  | unavailable at_ | paused at_ =>
    obtain rfl := Option.some.inj ht'
    rfl
  | ended at_ ending =>
    obtain rfl := Option.some.inj ht'
    rcases ending with ⟨state, outcome, rfl⟩ | ⟨state, error, rfl⟩ <;> trivial
  | _ =>
    obtain rfl := Option.some.inj ht'
    trivial

variable {runId : String}

/-- A task logs passes of its own run. -/
theorem Task.Goes.isPassOf (h : t.Goes config registry dir answer m) :
    ∀ e ∈ m.events, e.isPassOf runId = true → t.runId = runId := by
  intro e he hpass
  cases h with
  | loaded | replaced | ended | paused =>
    obtain rfl := List.mem_singleton.mp he
    simpa [Event.isPassOf] using hpass
  | manifestGone =>
    obtain rfl := List.mem_singleton.mp he
    cases hpass
  | _ => cases he

variable {d : Nat}

/-- A harmless step of a waiting task logs nothing about a pass and comes one step closer to the
end, unless it goes round once more; only the last step changes its record from paused. -/
theorem Task.Goes.waits (h : t.Goes config registry dir answer m) (ht : t.Resumes)
    (hd : t.distance = some d) (hharmless : t.Harmless answer) :
    (∀ e ∈ m.events, e = .unlinked t.runId) ∧
      ((∃ outcome at_, m.task = none ∧ m.note = some (.ended .stopped outcome at_)) ∨
        ∃ t' d', m.task = some t' ∧ t'.distance = some d' ∧
          d' + 1 ≤ d + 3 * (if answer.goesRound then 1 else 0) ∧
          (m.note = none ∨ ∃ reason detail, m.note = some (.paused reason detail))) := by
  cases h with
  | launched at_ | notLaunched at_ | notBegun at_ | loaded at_ | replaced at_ | began at_
  | ended at_ | paused at_ => simp [distance, at_] at hd
  | invalid at_ => exact hharmless.elim
  | graceSpent at_ spent late => exact absurd (hharmless _ spent) (Nat.not_lt.mpr late)
  | safe at_ safe =>
    rw [Harmless, safe] at hharmless
    cases hharmless
  | connected at_ =>
    obtain rfl : 7 = d := by simpa [distance, at_] using hd
    have hrecovery : t.recovery.isSome = true := by simpa [Resumes, at_] using ht
    exact ⟨by simp, .inr ⟨_, 6, rfl, by simp [distance, goto, hrecovery], by simp, .inl rfl⟩⟩
  | unreachable at_ =>
    obtain rfl : 7 = d := by simpa [distance, at_] using hd
    exact ⟨by simp, .inr ⟨_, 5, rfl, rfl, Nat.le_add_right_of_le (by decide), .inr ⟨_, _, rfl⟩⟩⟩
  | stoppedBackoff at_ | stoppedWait at_ =>
    obtain rfl : 5 = d := by simpa [distance, at_] using hd
    exact ⟨by simp, .inr ⟨_, 4, rfl, rfl, by simp, .inl rfl⟩⟩
  | slept at_ =>
    obtain rfl : 5 = d := by simpa [distance, at_] using hd
    exact ⟨by simp, .inr ⟨_, 7, rfl, rfl, by decide, .inl rfl⟩⟩
  | notSafe at_ =>
    obtain rfl : 6 = d := by simpa [distance, at_] using hd
    exact ⟨by simp, .inr ⟨_, 5, rfl, rfl, by simp, .inr ⟨_, _, rfl⟩⟩⟩
  | unavailable at_ =>
    obtain rfl : 6 = d := by simpa [distance, at_] using hd
    exact ⟨by simp, .inr ⟨_, 7, rfl, rfl, by simp [Answered.goesRound], .inr ⟨_, _, rfl⟩⟩⟩
  | noStatus at_ =>
    obtain rfl : 6 = d := by simpa [distance, at_] using hd
    exact ⟨by simp, .inr ⟨_, 5, rfl, rfl, by simp, .inl rfl⟩⟩
  | @reread _ branch at_ other =>
    obtain rfl : 5 = d := by simpa [distance, at_] using hd
    refine ⟨by simp, .inr ⟨_, 6, rfl, rfl, ?_, .inl rfl⟩⟩
    cases branch with
    | stop => exact absurd rfl other
    | timer => decide
    | event e => simp [Answered.goesRound]
  | ignored at_ =>
    exact ⟨by simp, .inr ⟨t, d, rfl, hd, by simp [Answered.goesRound], .inl rfl⟩⟩
  | @reported state _ _ _ at_ =>
    by_cases hstate : state = .stopped
    · obtain rfl : 4 = d := by simpa [distance, at_, hstate] using hd
      exact ⟨by simp, .inr ⟨_, 3, rfl, by simp [distance, goto, hstate], by simp, .inl rfl⟩⟩
    · simp [distance, at_, hstate] at hd
  | @manifestGone state _ at_ | @manifestKept state _ at_ =>
    by_cases hstate : state = .stopped
    · obtain rfl : 3 = d := by simpa [distance, at_, hstate] using hd
      exact ⟨by simp, .inr ⟨_, 2, rfl, by simp [distance, goto, hstate], by simp, .inl rfl⟩⟩
    · simp [distance, at_, hstate] at hd
  | @blackboardGone state _ at_ | @blackboardKept state _ at_ =>
    by_cases hstate : state = .stopped
    · obtain rfl : 2 = d := by simpa [distance, at_, hstate] using hd
      exact ⟨by simp, .inr ⟨_, 1, rfl, by simp [distance, goto, hstate], by simp, .inl rfl⟩⟩
    · simp [distance, at_, hstate] at hd
  | @recorded state outcome now at_ =>
    by_cases hstate : state = .stopped
    · subst hstate
      exact ⟨by simp, .inl ⟨_, _, rfl, rfl⟩⟩
    · simp [distance, at_, hstate] at hd

/-! ## Runs -/

/-- Every task in the waits resumes its run. -/
def Service.Resumes (s : Service) : Prop := ∀ p ∈ s.process, ∀ t ∈ p.tasks, t.Resumes

variable {i : Input} {events : List Event}

theorem Transition.resumes {s s' : Service} (howned : s.Owned)
    (h : s.Resumes) (ht : Transition s i s' events) : s'.Resumes := by
  cases ht with
  | restarted =>
    rintro p ⟨⟩ t ht
    cases ht
  | crashed => rintro p ⟨⟩
  | resumed next started =>
    rintro p ⟨⟩ t ht
    rcases List.mem_append.mp ht with ht | ht
    · exact h _ rfl t ht
    · exact List.mem_singleton.mp ht ▸ Task.supervise_resumes _ _
  | passedOver next =>
    rintro p ⟨⟩ t ht
    exact h _ rfl t ht
  | posted serving valid started =>
    rintro p ⟨⟩ t ht
    rcases List.mem_append.mp ht with ht | ht
    · exact h _ rfl t ht
    · exact List.mem_singleton.mp ht ▸ trivial
  | refused | stopRefused => exact h
  | stopped fired =>
    rintro p ⟨⟩ t ht
    exact h _ rfl t ht
  | @advanced _ p _ _ t m at_ moved =>
    rintro p' ⟨⟩ t' ht'
    obtain ⟨rfl, htasks, -⟩ := (howned _ rfl).of_task at_
    have hmem : t' ∈ m.task := by simpa [htasks] using ht'
    exact (Task.step_cases moved).resumes (h _ rfl t (List.mem_of_getElem? at_)) t' hmem

/-- What a stopped run's supervisor is up to: it waits, and the record is paused; or it is gone, and
the record is stopped. -/
def Process.Stopping (runId : String) (advances rounds : Nat) (p : Process) : Prop :=
  ∃ r, p.registry.get runId = some r ∧
    (r.state = .stopped ∨
      r.state = .paused ∧ ∃ t d, p.tasks = [t] ∧ t.runId = runId ∧ t.distance = some d ∧
        d + advances ≤ 7 + 3 * rounds)

variable {r : RunRecord}

omit [Crates] in
/-- An ended run's record stays the one that is found. -/
theorem RunRegistry.EndedIn.get {registry registry' : RunRegistry}
    (h : registry.EndedIn registry') (hdistinct : registry'.ids.Nodup)
    (hget : registry.get runId = some r) (hended : r.isActive = false) :
    registry'.get runId = some r := by
  obtain ⟨k, hk⟩ := List.mem_iff_getElem?.mp (List.mem_of_find?_eq_some hget)
  rw [← runId_of_get hget]
  exact get_eq_some_of_mem hdistinct (List.mem_of_getElem? (h k r hk hended))

variable {p : Process} {index : Nat}

omit [Crates] in
/-- The record of the task's run after a move. -/
theorem get_apply {dir : Dir} {p' : Process} {t : Task} {m : Move}
    (hget : p.registry.get t.runId = some r)
    (hp : (apply dir p index t m).process = some p') :
    p'.registry.get t.runId = some (m.note.elim r (·.change r)) := by
  obtain rfl := Option.some.inj hp
  show get t.runId ((m.note.map (Note.apply t.runId)).elim p.registry (· p.registry)) = _
  cases m.note with
  | none => exact hget
  | some note =>
    simp only [Option.map_some, Option.elim_some, note.apply_eq]
    rw [get_update_self note.change_runId, hget]
    rfl

/-- A harmless step of a stopped run's waiting task. -/
theorem Process.Owned.stopping_advance {dir : Dir} {p' : Process} {t : Task}
    {m : Move} {answer : Answered} {advances rounds : Nat} (howned : p.Owned)
    (at_ : p.tasks[index]? = some t) (hgoes : t.Goes p.config p.registry dir answer m)
    (ht : t.Resumes) (hget : p.registry.get t.runId = some r) (hpaused : r.state = .paused)
    (hd : t.distance = some d) (hbound : d + advances ≤ 7 + 3 * rounds)
    (hharmless : t.Harmless answer) (hp : (apply dir p index t m).process = some p') :
    p'.Stopping t.runId (advances + 1) (rounds + if answer.goesRound then 1 else 0) := by
  obtain ⟨rfl, htasks, -⟩ := howned.of_task at_
  refine ⟨_, get_apply hget hp, ?_⟩
  obtain ⟨-, ⟨outcome, now, -, hnote⟩ | ⟨t', d', htask, hd', hcloser, hnote⟩⟩ :=
    hgoes.waits ht hd hharmless
  · left
    rw [hnote]
    rfl
  · have htasks' : p'.tasks = [t'] := by
      obtain rfl := Option.some.inj hp
      simp [htasks, htask]
    have hrun : t'.runId = t.runId := by
      rw [Task.runId, hgoes.ofRun.manifest t' htask, Task.runId]
    refine .inr ⟨?_, t', d', htasks', hrun, hd', ?_⟩
    · rcases hnote with hnote | ⟨reason, detail, hnote⟩ <;> rw [hnote]
      · exact hpaused
      · rfl
    · have : 3 * (rounds + if answer.goesRound then 1 else 0) =
          3 * rounds + 3 * if answer.goesRound then 1 else 0 := Nat.mul_add ..
      omega

/-- A harmless step keeps a stopped run on its way to its end, and logs no pass of it. -/
theorem Transition.stopping {s s' : Service}
    {advances rounds : Nat} (howned : s.Owned) (hresumes : s.Resumes)
    (hfresh : s.FreshId i) (hharmless : s.Harmless runId i) (hp : s.process = some p)
    (h : p.Stopping runId advances rounds) (ht : Transition s i s' events) :
    (∀ e ∈ events, e.isPassOf runId = false) ∧
      ∃ p', s'.process = some p' ∧
        p'.Stopping runId (advances + if i.isAdvance then 1 else 0)
          (rounds + if i.goesRound then 1 else 0) := by
  obtain ⟨r, hget, hstate⟩ := h
  have howned' := ht.owned howned hfresh
  rcases hstate with hstopped | ⟨hpaused, t, d, htasks, hrun, hd, hbound⟩
  · -- the run has ended: its record stays, and no task is left to run a pass of it
    have hended : r.isActive = false := by rw [RunRecord.isActive, hstopped]; rfl
    obtain ⟨p', hp', hkept⟩ := ht.keeps_ended howned hp fun written he => by
      rw [he] at hharmless
      exact hharmless
    refine ⟨fun e he => ?_, p', hp', r, hkept.get (howned' p' hp').distinct hget hended,
      .inl hstopped⟩
    cases ht with
    | @advanced _ p _ _ t m at_ moved =>
      obtain rfl := Option.some.inj hp
      by_contra hpass
      have hrun := (Task.step_cases moved).isPassOf e he (by simpa using hpass)
      have hactive := ((howned _ rfl).of_task at_).2.2
      obtain ⟨r', hget', hactive'⟩ := (mem_activeIds (howned _ rfl).distinct).mp
        (hactive ▸ List.mem_singleton.mpr rfl)
      rw [hrun, hget] at hget'
      rw [← Option.some.inj hget', hended] at hactive'
      cases hactive'
    | posted | stopped | stopRefused =>
      obtain rfl := List.mem_singleton.mp he
      rfl
    | _ => cases he
  · have hbusy : p.registry.activeIds ≠ [] := by
      rw [(howned p hp).owners, htasks]
      simp
    cases ht with
    | restarted => cases hp
    | crashed => exact hharmless.elim
    | resumed next started =>
      obtain rfl := Option.some.inj hp
      exact absurd (start_ok started).1 hbusy
    | posted serving valid started =>
      obtain rfl := Option.some.inj hp
      exact absurd (start_ok started).1 hbusy
    | passedOver next =>
      obtain rfl := Option.some.inj hp
      exact ⟨by simp, _, rfl, r, hget, .inr ⟨hpaused, t, d, htasks, hrun, hd, hbound⟩⟩
    | refused =>
      exact ⟨by simp, p, hp, r, hget, .inr ⟨hpaused, t, d, htasks, hrun, hd, hbound⟩⟩
    | stopRefused =>
      exact ⟨by simp [Event.isPassOf], p, hp, r, hget,
        .inr ⟨hpaused, t, d, htasks, hrun, hd, hbound⟩⟩
    | @stopped _ _ other _ fired =>
      obtain rfl := Option.some.inj hp
      obtain ⟨rfl, -⟩ := stop_ok fired
      refine ⟨by simp [Event.isPassOf], _, rfl, ?_⟩
      by_cases hother : runId = other
      · subst hother
        refine ⟨r.cancel, ?_, .inr ⟨hpaused, t, d, htasks, hrun, hd, hbound⟩⟩
        exact (get_update_self RunRecord.cancel_runId _).trans (by rw [hget]; rfl)
      · refine ⟨r, ?_, .inr ⟨hpaused, t, d, htasks, hrun, hd, hbound⟩⟩
        exact (get_update_of_ne RunRecord.cancel_runId hother _).trans hget
    | @advanced _ _ index answer t' m at_ moved =>
      obtain rfl := Option.some.inj hp
      obtain rfl : t' = t := by
        obtain ⟨rfl, htasks', -⟩ := (howned _ rfl).of_task at_
        simpa [htasks] using htasks'.symm
      subst hrun
      have hgoes := Task.step_cases moved
      have hsafe : t'.Harmless answer := hharmless _ rfl _ at_ rfl
      have hresume := hresumes _ rfl t' (List.mem_of_getElem? at_)
      refine ⟨fun e he => ?_, _, rfl, (howned _ rfl).stopping_advance at_ hgoes hresume hget
        hpaused hd hbound hsafe rfl⟩
      rw [(hgoes.waits hresume hd hsafe).1 e he]
      rfl

/-- A stop that is accepted while a run is paused and its supervisor waits: as long as the process
lives and no answer takes the supervisor out of its waits, no pass of the run begins, and the run
ends as stopped after at most seven steps of its supervisor and three more for each time it is sent
round the waits again. -/
theorem stop_ends_a_waiting_run {dir : Dir} {runId : String} {inputs inputs' : List Input}
    {log log' : List Event} {s s₁ s' : Service} {p : Process} {r : RunRecord}
    {events : List Event}
    (h : History step (fun _ s i => s.FreshId i) ⟨dir, none⟩ inputs log s)
    (hp : s.process = some p) (hget : p.registry.get runId = some r) (hpaused : r.state = .paused)
    (hstop : s.step (.stop runId) = some (s₁, events))
    (hwaits : ∀ t ∈ p.tasks, t.runId = runId → t.Waits)
    (hafter : History step (fun _ s i => s.FreshId i ∧ s.Harmless runId i) s₁ inputs' log'
      s') :
    events = [.stopAnswered runId (.ok ())] ∧ (∀ e ∈ log', e.isPassOf runId = false) ∧
      ∃ p' r', s'.process = some p' ∧ p'.registry.get runId = some r' ∧
        (r'.state = .stopped ∨
          r'.state = .paused ∧ (∃ t ∈ p'.tasks, t.runId = runId ∧ t.Waits) ∧
            inputs'.countP Input.isAdvance < 7 + 3 * inputs'.countP Input.goesRound) := by
  obtain ⟨howned, hresumes⟩ : s.Owned ∧ s.Resumes :=
    h.invariant (fun _ s => s.Owned ∧ s.Resumes) ⟨by rintro p ⟨⟩, by rintro p ⟨⟩⟩
      fun ⟨howned, hresumes⟩ hfresh hstep =>
        have ht := step_cases hstep
        ⟨ht.owned howned hfresh, ht.resumes howned hresumes⟩
  have hactive : r.isActive = true := by rw [RunRecord.isActive, hpaused]; rfl
  obtain ⟨t, htasks, hrun⟩ := (howned p hp).of_active
    ((mem_activeIds (howned p hp).distinct).mpr ⟨r, hget, hactive⟩)
  obtain ⟨d, hd⟩ := Option.isSome_iff_exists.mp (hwaits t (by simp [htasks]) hrun)
  have hstart : p.Stopping runId 0 0 :=
    ⟨r, hget, .inr ⟨hpaused, t, d, htasks, hrun, hd, (Task.distance_bounds hd).2⟩⟩
  have hfired := step_cases hstop
  have hfresh : s.FreshId (.stop runId) := trivial
  have hharmless : s.Harmless runId (.stop runId) := trivial
  have hevents : events = [.stopAnswered runId (.ok ())] := by
    cases hfired with
    | stopped => rfl
    | stopRefused notFired =>
      obtain rfl := Option.some.inj hp
      rw [stop_error notFired r hget] at hactive
      cases hactive
  -- from the stop on, every step keeps the run on its way to its end
  have hinv : s'.Owned ∧ s'.Resumes ∧ (∀ e ∈ log', e.isPassOf runId = false) ∧
      ∃ p', s'.process = some p' ∧
        p'.Stopping runId (inputs'.countP Input.isAdvance) (inputs'.countP Input.goesRound) := by
    induction hafter with
    | nil =>
      obtain ⟨-, p', hp', hstopping⟩ := hfired.stopping howned hresumes hfresh hharmless hp hstart
      exact ⟨hfired.owned howned hfresh, hfired.resumes howned hresumes, by simp, p', hp',
        hstopping⟩
    | @snoc inputs' log' s i s' events before ok taken ih =>
      obtain ⟨howned, hresumes, hlog, p', hp', hstopping⟩ := ih
      have ht := step_cases taken
      obtain ⟨hevents, p'', hp'', hstopping'⟩ :=
        ht.stopping howned hresumes ok.1 ok.2 hp' hstopping
      refine ⟨ht.owned howned ok.1, ht.resumes howned hresumes, ?_, p'', hp'', ?_⟩
      · intro e he
        rcases List.mem_append.mp he with he | he
        · exact hlog e he
        · exact hevents e he
      · rw [List.countP_append, List.countP_append, List.countP_singleton, List.countP_singleton]
        exact hstopping'
  obtain ⟨-, -, hlog, p', hp', r', hget', hstate⟩ := hinv
  refine ⟨hevents, hlog, p', r', hp', hget', ?_⟩
  rcases hstate with hstopped | ⟨hpaused', t', d', htasks', hrun', hd', hbound⟩
  · exact .inl hstopped
  · have hpositive := (Task.distance_bounds hd').1
    exact .inr ⟨hpaused', ⟨t', by simp [htasks'], hrun', by rw [Task.Waits, hd']; rfl⟩, by omega⟩

end

/-! ## A night of clouds -/

instance (t : Task) (answer : Answered) : Decidable (t.Harmless answer) :=
  match answer with
  | .attempt (.invalid _) _ => .isFalse id
  | .attempt (.unreachable _) now =>
      inferInstanceAs (Decidable (∀ deadline ∈ t.graceDeadline, now < deadline))
  | .safetyStatus (.ok status) _ => inferInstanceAs (Decidable (isSafe status = false))
  | .attempt (.connected _) _ | .safetyStatus (.error _) _ | .manifestWrite _ _ | .select _
  | .bound _ _ | .subscribed | .passed _ _ | .reportRead _ | .unlinked _ | .recorded _ =>
      .isTrue trivial

instance (runId : String) (s : Service) (i : Input) : Decidable (s.Harmless runId i) :=
  match i with
  | .crash _ => .isFalse id
  | .advance index answer => inferInstanceAs
      (Decidable (∀ p ∈ s.process, ∀ t ∈ p.tasks[index]?, t.runId = runId → t.Harmless answer))
  | .post _ | .stop _ | .resume | .restart _ _ => .isTrue trivial

/-- Capture, and warm the camera whatever happens. -/
def warmedDocument : Document :=
  rootDocument (.mk none none (.try_ [callTo "capture"] none (some [callTo "warm_camera"])))

/-- A pass whose calls are answered with these. -/
def passAgainst (answers : List Answer) : Answered :=
  .passed ⟨Script, 8, .null, reliable, { answers }⟩ 0

def statusOf (overall : String) : Answered :=
  .safetyStatus (.ok (.object [("overall", .string overall)])) 0

/-- A run whose first call is refused for safety: the run is paused. -/
def cloudedNight : List Input :=
  [.restart benchConfig [], .post (requestFor "run-1" "night" warmedDocument),
    .advance 0 (.manifestWrite .written 0), .advance 0 (.bound (.ok (.object [])) none),
    .advance 0 .subscribed, .advance 0 (passAgainst [.error (.safetyStopped "clouds")])]

/-- The sky clears before the supervisor has looked at the stop token. -/
def clearedSky : List Input :=
  [.advance 0 (.attempt (.connected warmedDocument) 0), .advance 0 (statusOf "safe"),
    .advance 0 (.bound (.ok (.object [])) none), .advance 0 .subscribed,
    .advance 0 (passAgainst []), .advance 0 (.reportRead none), .advance 0 (.unlinked true),
    .advance 0 (.unlinked true), .advance 0 (.recorded 0)]

/-- The sky stays clouded. -/
def cloudedSky : List Input :=
  [.advance 0 (.attempt (.connected warmedDocument) 0), .advance 0 (statusOf "unsafe"),
    .advance 0 (.select .stop), .advance 0 (.reportRead none), .advance 0 (.unlinked true),
    .advance 0 (.unlinked true), .advance 0 (.recorded 0)]

/-- The state of a run in a service. -/
def Service.stateOf (runId : String) (s : Service) : Option RunState :=
  (s.process.bind fun p => p.registry.get runId).map RunRecord.state

/-- The calls of the passes of a log. -/
def callsIn (log : List Event) : List String :=
  log.flatMap fun
    | .ran _ trace => (callsOf trace).map Prod.fst
    | _ => []

/-- Whether every task waits. -/
def Service.waits (s : Service) : Bool :=
  s.process.all fun p => p.tasks.all fun t => t.distance.isSome

def Event.isAccepted (runId : String) : Event → Bool
  | .stopAnswered id (.ok _) => id = runId
  | _ => false

/-- The run before the stop and whether its supervisor waits, whether the stop was accepted, what
was called after it, and the run at the end. -/
def stopReport [Crates] (allowed : Service → Input → Prop) [∀ s i, Decidable (allowed s i)]
    (runId : String) (before after : List Input) :
    Option (Option RunState × Bool × Bool × List String × Option RunState) := do
  let (_, s) ← History.play step (fun _ s i => s.FreshId i) [] .initial before
  let (s₁, events) ← s.step (.stop runId)
  let (log, s') ← History.play step (fun _ => allowed) [] s₁ after
  some (s.stateOf runId, s.waits, events.any (Event.isAccepted runId), callsIn log,
    s'.stateOf runId)

/-- A report of a stop comes from a history with the stop in it. -/
theorem stopReport_eq_some [Crates] {allowed : Service → Input → Prop}
    [∀ s i, Decidable (allowed s i)] {runId : String} {before after : List Input}
    {state state' : Option RunState} {waits accepted : Bool} {calls : List String}
    (h : stopReport allowed runId before after =
      some (state, waits, accepted, calls, state')) :
    ∃ log s s₁ events log' s',
      History step (fun _ s i => s.FreshId i) .initial before log s ∧
      s.step (.stop runId) = some (s₁, events) ∧
      History step (fun _ => allowed) s₁ after log' s' ∧
      s.stateOf runId = state ∧ s.waits = waits ∧ events.any (Event.isAccepted runId) = accepted ∧
      callsIn log' = calls ∧ s'.stateOf runId = state' := by
  obtain ⟨⟨log, s⟩, hbefore, h⟩ := Option.bind_eq_some_iff.mp h
  obtain ⟨⟨s₁, events⟩, hstop, h⟩ := Option.bind_eq_some_iff.mp h
  obtain ⟨⟨log', s'⟩, hafter, h⟩ := Option.bind_eq_some_iff.mp h
  simp only [Option.some.injEq, Prod.mk.injEq] at h
  exact ⟨log, s, s₁, events, log', s', .of_play hbefore, hstop, .of_play hafter, h⟩

/-- A stop accepted in a paused run, and the status is safe before the token is seen: another pass
calls the tool, then its `finally` block, and only then the run ends as stopped. -/
theorem stop_after_a_pause_runs_a_pass :
    letI := Crates.wholeSeconds
    ∃ log s s₁ events log' s',
      History step (fun _ s i => s.FreshId i) .initial cloudedNight log s ∧
      s.step (.stop "run-1") = some (s₁, events) ∧
      History step (fun _ s i => s.FreshId i) s₁ clearedSky log' s' ∧
      s.stateOf "run-1" = some .paused ∧ s.waits = true ∧
      events.any (Event.isAccepted "run-1") = true ∧
      callsIn log' = ["capture", "warm_camera"] ∧ s'.stateOf "run-1" = some .stopped := by
  let _ := Crates.wholeSeconds
  exact stopReport_eq_some (by decide +kernel)

/-- Under a clouded sky the stop ends the run without another pass. -/
theorem stop_under_clouds :
    letI := Crates.wholeSeconds
    ∃ log s s₁ events log' s',
      History step (fun _ s i => s.FreshId i) .initial cloudedNight log s ∧
      s.step (.stop "run-1") = some (s₁, events) ∧
      History step (fun _ s i => s.FreshId i ∧ s.Harmless "run-1" i) s₁ cloudedSky log' s' ∧
      (∀ e ∈ log', e.isPassOf "run-1" = false) ∧ s'.stateOf "run-1" = some .stopped := by
  let _ := Crates.wholeSeconds
  have hreport : stopReport (fun s i => s.FreshId i ∧ s.Harmless "run-1" i) "run-1" cloudedNight
      cloudedSky = some (some .paused, true, true, [], some .stopped) := by decide +kernel
  obtain ⟨log, s, s₁, events, log', s', h, hstop, h', hpaused, hwaits, -, -, hstate⟩ :=
    stopReport_eq_some hreport
  obtain ⟨r, hr, hrstate⟩ := Option.map_eq_some_iff.mp hpaused
  obtain ⟨p, hp, hget⟩ := Option.bind_eq_some_iff.mp hr
  simp only [waits, hp, Option.all_some, List.all_eq_true] at hwaits
  obtain ⟨-, hlog, -⟩ := stop_ends_a_waiting_run h hp hget hrstate hstop
    (fun t ht _ => hwaits t ht) h'
  exact ⟨log, s, s₁, events, log', s', h, hstop, h', hlog, hstate⟩

end RustyPhoton.SessionRunner.Runs
