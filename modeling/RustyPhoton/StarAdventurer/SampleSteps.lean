import RustyPhoton.StarAdventurer.Samples

/-!
# What one step keeps of the samples

What the log says of the cached samples, of the commanded periods and of the tasks under way, kept by
every step of a task. A stop raises the barrier before it re-reads, so a sample whose count was read
before the barrier loses its period, and one whose count was read after it took a period that was in
force after the stop.
-/

namespace RustyPhoton.StarAdventurer.Samples

open RustyPhoton.Lib

variable {S : Type}

def Note.time : Note → ℕ
  | tracking _ time | ended _ time | period _ _ time | copied _ _ time | read _ _ time
  | wrote _ _ time | seeded _ time | returned _ time => time

/-! ## What the log says of a period and of a sample -/

/-- The period is that of an `:I` after a tracking-mode `:G`, and nothing has ended it. -/
def InForce (log : List Note) (axis : Axis) (period : ℕ) : Prop :=
  ∃ mode sent, .tracking axis mode ∈ log ∧ .period axis period sent ∈ log ∧ mode < sent ∧
    ∀ time, .ended axis time ∈ log → time ≤ sent

/-- The period was in force when a sample took it at the time. -/
def Copied (log : List Note) (axis : Axis) (period : ℕ) (time : ℕ) : Prop :=
  ∃ mode sent, .tracking axis mode ∈ log ∧ .period axis period sent ∈ log ∧
    .copied axis period time ∈ log ∧ mode < sent ∧ sent < time ∧
    ∀ t, .ended axis t ∈ log → ¬ (sent < t ∧ t < time)

/-- The count was read on the wire at the time of the sample. -/
def Counted (log : List Note) (axis : Axis) (sample : AxisSnapshot S) : Prop :=
  ∃ time : ℕ, sample.sampledAt = time ∧ .read axis sample.positionTicks time ∈ log

/-- A sample of a poll: its period was copied after its count was read. -/
def Sampled (log : List Note) (axis : Axis) (sample : AxisSnapshot S) : Prop :=
  ∃ time : ℕ, sample.sampledAt = time ∧ .read axis sample.positionTicks time ∈ log ∧
    (sample.stepPeriod ≠ 0 → ∃ later, time < later ∧ Copied log axis sample.stepPeriod later)

/-- What holds of the published sample of an axis. -/
structure Cached (log : List Note) (axis : Axis) (cached : AxisSnapshot S) : Prop where
  period : cached.stepPeriod ≠ 0 → ∃ time, Copied log axis cached.stepPeriod time
  count : ∀ time : ℕ, cached.sampledAt = time →
    .read axis cached.positionTicks time ∈ log ∨ .wrote axis cached.positionTicks time ∈ log

/-- The stop recorded at the time has reached the published sample of its axis. -/
structure Barred (log : List Note) (axis : Axis) (time : ℕ) (cached : AxisSnapshot S) :
    Prop where
  recorded : .ended axis time ∈ log
  barrier : (time : WithBot ℕ) ≤ cached.rateBarrier
  period : cached.stepPeriod ≠ 0 → ∃ sent, time ≤ sent ∧ .period axis cached.stepPeriod sent ∈ log

/-! ## Merging -/

variable {log : List Note} {axis : Axis}

theorem Cached.merge {cached fresh : AxisSnapshot S}
    (h : Cached log axis cached) (hfresh : Sampled log axis fresh) :
    Cached log axis (cached.mergeIfNewer fresh) := by
  unfold AxisSnapshot.mergeIfNewer
  split
  · exact h
  · obtain ⟨time, hat, hread, hperiod⟩ := hfresh
    constructor
    · intro hne
      have hnot : ¬ fresh.sampledAt < max cached.rateBarrier fresh.rateBarrier := by
        intro hlt
        exact hne (if_pos hlt)
      simp only [if_neg hnot] at hne ⊢
      obtain ⟨later, _, hcopied⟩ := hperiod hne
      exact ⟨later, hcopied⟩
    · intro t ht
      have : time = t := WithBot.coe_injective (hat.symm.trans ht)
      rw [← this]
      exact .inl hread

theorem Barred.merge {time : ℕ} {cached fresh : AxisSnapshot S} (h : Barred log axis time cached)
    (hfresh : Sampled log axis fresh) : Barred log axis time (cached.mergeIfNewer fresh) := by
  unfold AxisSnapshot.mergeIfNewer
  split
  · exact h
  · obtain ⟨read, hat, _, hperiod⟩ := hfresh
    have hbarrier : (time : WithBot ℕ) ≤ max cached.rateBarrier fresh.rateBarrier :=
      h.barrier.trans (le_max_left _ _)
    refine ⟨h.recorded, hbarrier, ?_⟩
    intro hne
    have hnot : ¬ fresh.sampledAt < max cached.rateBarrier fresh.rateBarrier := by
      intro hlt
      exact hne (if_pos hlt)
    simp only [if_neg hnot] at hne ⊢
    obtain ⟨later, hlater, _, sent, _, hsent, _, _, _, hended⟩ := hperiod hne
    -- the count was read at the barrier or after it, and the period was copied after that
    have hread : time ≤ read := by
      have := hbarrier.trans (not_lt.mp hnot)
      rw [hat] at this
      exact WithBot.coe_le_coe.mp this
    have := hended time h.recorded
    exact ⟨sent, by omega, hsent⟩

theorem AxisSnapshot.le_sampledAt_mergeIfNewer (cached fresh : AxisSnapshot S) :
    cached.sampledAt ≤ (cached.mergeIfNewer fresh).sampledAt := by
  unfold AxisSnapshot.mergeIfNewer
  split
  · exact le_rfl
  · next h => exact not_lt.mp h

/-! ## A longer log -/

/-- The notes say of no stop at the time or before. -/
def NoneEnded (now : ℕ) (notes : List Note) : Prop :=
  ∀ axis time, .ended axis time ∈ notes → now < time

section

variable {now : ℕ} {log notes : List Note} {axis : Axis}

variable {period time : ℕ}

theorem Copied.append (h : Copied log axis period time)
    (hdated : ∀ note ∈ log, note.time ≤ now) (hnotes : NoneEnded now notes) :
    Copied (log ++ notes) axis period time := by
  obtain ⟨mode, sent, hmode, hsent, hcopied, hlt, hlt', hended⟩ := h
  refine ⟨mode, sent, List.mem_append_left _ hmode, List.mem_append_left _ hsent,
    List.mem_append_left _ hcopied, hlt, hlt', ?_⟩
  intro t ht
  rcases List.mem_append.mp ht with ht | ht
  · exact hended t ht
  · have hnow : time ≤ now := hdated _ hcopied
    have := hnotes axis t ht
    omega

variable {sample : AxisSnapshot S}

theorem Counted.append (h : Counted log axis sample) :
    Counted (log ++ notes) axis sample := by
  obtain ⟨time, hat, hread⟩ := h
  exact ⟨time, hat, List.mem_append_left _ hread⟩

theorem Sampled.append (h : Sampled log axis sample)
    (hdated : ∀ note ∈ log, note.time ≤ now) (hnotes : NoneEnded now notes) :
    Sampled (log ++ notes) axis sample := by
  obtain ⟨time, hat, hread, hperiod⟩ := h
  refine ⟨time, hat, List.mem_append_left _ hread, ?_⟩
  intro hne
  obtain ⟨later, hlt, hcopied⟩ := hperiod hne
  exact ⟨later, hlt, hcopied.append hdated hnotes⟩

variable {cached : AxisSnapshot S}

theorem Cached.append (h : Cached log axis cached)
    (hdated : ∀ note ∈ log, note.time ≤ now) (hnotes : NoneEnded now notes) :
    Cached (log ++ notes) axis cached := by
  constructor
  · intro hne
    obtain ⟨time, hcopied⟩ := h.period hne
    exact ⟨time, hcopied.append hdated hnotes⟩
  · intro time hat
    exact (h.count time hat).imp (List.mem_append_left _) (List.mem_append_left _)

theorem Barred.append
    (h : Barred log axis time cached) : Barred (log ++ notes) axis time cached := by
  refine ⟨List.mem_append_left _ h.recorded, h.barrier, ?_⟩
  intro hne
  obtain ⟨sent, hle, hsent⟩ := h.period hne
  exact ⟨sent, hle, List.mem_append_left _ hsent⟩

theorem InForce.append (h : InForce log axis period)
    (hnotes : ∀ time, .ended axis time ∉ notes) : InForce (log ++ notes) axis period := by
  obtain ⟨mode, sent, hmode, hsent, hlt, hended⟩ := h
  refine ⟨mode, sent, List.mem_append_left _ hmode, List.mem_append_left _ hsent, hlt, ?_⟩
  intro time ht
  rcases List.mem_append.mp ht with ht | ht
  · exact hended time ht
  · exact absurd ht (hnotes time)

end

/-! ## What the tasks share -/

/-- What holds of the shared state under the log. -/
structure Books (now : ℕ) (log : List Note) (m : Shared S) : Prop where
  dated : ∀ note ∈ log, note.time ≤ now
  cached : ∀ axis, Cached log axis (m.snapshot axis)
  inForce : ∀ axis, m.stepPeriods.period axis ≠ 0 → InForce log axis (m.stepPeriods.period axis)
  tracking : ∀ axis, m.stepPeriods.tracking axis = true → ∃ time, .tracking axis time ∈ log

/-- What a step that leads from one shared state to another keeps. -/
structure Leads (now : ℕ) (log : List Note) (m : Shared S) (notes : List Note)
    (m' : Shared S) : Prop where
  books : Books (now + 1) (log ++ notes) m'
  noneEnded : NoneEnded now notes
  barred : ∀ axis time, Barred log axis time (m.snapshot axis) →
    Barred (log ++ notes) axis time (m'.snapshot axis)

section

variable {now : ℕ} {log notes : List Note} {m m' : Shared S}

theorem dated_append (h : ∀ note ∈ log, note.time ≤ now) (hnotes : ∀ note ∈ notes, note.time ≤ now + 1) :
    ∀ note ∈ log ++ notes, note.time ≤ now + 1 := by
  intro note hnote
  rcases List.mem_append.mp hnote with hnote | hnote
  · exact (h note hnote).trans (Nat.le_succ now)
  · exact hnotes note hnote

/-- A step that leaves the table and, in the snapshot, what a merge leaves. -/
theorem Leads.of_snapshot (h : Books now log m) (htable : m'.stepPeriods = m.stepPeriods)
    (hnotes : ∀ note ∈ notes, note.time ≤ now + 1)
    (hended : ∀ axis time, .ended axis time ∉ notes)
    (hcached : ∀ axis, Cached (log ++ notes) axis (m'.snapshot axis))
    (hbarred : ∀ axis time, Barred log axis time (m.snapshot axis) →
      Barred (log ++ notes) axis time (m'.snapshot axis)) : Leads now log m notes m' := by
  refine ⟨⟨dated_append h.dated hnotes, hcached, ?_, ?_⟩, ?_, hbarred⟩
  · intro axis hne
    rw [htable] at hne ⊢
    exact (h.inForce axis hne).append (hended axis)
  · intro axis hon
    rw [htable] at hon
    obtain ⟨time, htime⟩ := h.tracking axis hon
    exact ⟨time, List.mem_append_left _ htime⟩
  · intro axis time ht
    exact absurd ht (hended axis time)

/-- A step that leaves all that is shared. -/
theorem Leads.same (h : Books now log m) (hnotes : ∀ note ∈ notes, note.time ≤ now + 1)
    (hended : ∀ axis time, .ended axis time ∉ notes) : Leads now log m notes m := by
  refine .of_snapshot h rfl hnotes hended ?_ fun _ _ hbarred => hbarred.append
  intro axis
  exact (h.cached axis).append h.dated fun a t ht => absurd ht (hended a t)

/-- A step that leaves the snapshot. -/
theorem Leads.of_table (h : Books now log m) (hsnapshot : m'.snapshot = m.snapshot)
    (hnotes : ∀ note ∈ notes, note.time ≤ now + 1) (hended : NoneEnded now notes)
    (hinForce : ∀ axis, m'.stepPeriods.period axis ≠ 0 →
      InForce (log ++ notes) axis (m'.stepPeriods.period axis))
    (htracking : ∀ axis, m'.stepPeriods.tracking axis = true →
      ∃ time, .tracking axis time ∈ log ++ notes) : Leads now log m notes m' := by
  refine ⟨⟨dated_append h.dated hnotes, ?_, hinForce, htracking⟩, hended, ?_⟩
  · intro axis
    rw [hsnapshot]
    exact (h.cached axis).append h.dated hended
  · intro axis time hbarred
    rw [hsnapshot]
    exact hbarred.append

/-- The flag is stored: set up to track. -/
theorem Leads.track (h : Books now log m) (axis : Axis) :
    Leads now log m [.tracking axis (now + 1)] (m.setTracking axis true) := by
  refine .of_table h rfl (by simp [Note.time]) (by simp [NoneEnded]) ?_ ?_
  · intro other hne
    exact (h.inForce other hne).append (by simp)
  · intro other hon
    by_cases hother : other = axis
    · exact ⟨now + 1, by simp [hother]⟩
    · have hon' : m.stepPeriods.tracking other = true := by
        simpa [Shared.setTracking, Function.update_of_ne hother] using hon
      obtain ⟨time, htime⟩ := h.tracking other hon'
      exact ⟨time, List.mem_append_left _ htime⟩

/-- The flag is stored: not set up to track. -/
theorem Leads.untrack (h : Books now log m) (axis : Axis) :
    Leads now log m [] (m.setTracking axis false) := by
  refine .of_table h rfl (by simp) (by simp [NoneEnded]) ?_ ?_
  · intro other hne
    exact (h.inForce other hne).append (by simp)
  · intro other hon
    by_cases hother : other = axis
    · simp [Shared.setTracking, hother] at hon
    · have hon' : m.stepPeriods.tracking other = true := by
        simpa [Shared.setTracking, Function.update_of_ne hother] using hon
      obtain ⟨time, htime⟩ := h.tracking other hon'
      exact ⟨time, List.mem_append_left _ htime⟩

/-- The period is forgotten: a goto `:G` or a stop is recorded. -/
theorem Leads.forget (h : Books now log m) (axis : Axis) :
    Leads now log m [.ended axis (now + 1)] (m.setPeriod axis 0) := by
  refine .of_table h rfl (by simp [Note.time]) (by simp [NoneEnded]) ?_ ?_
  · intro other hne
    by_cases hother : other = axis
    · simp [Shared.setPeriod, hother] at hne
    · simp only [Shared.setPeriod, Function.update_of_ne hother] at hne ⊢
      exact (h.inForce other hne).append (by simp [hother])
  · intro other hon
    obtain ⟨time, htime⟩ := h.tracking other hon
    exact ⟨time, List.mem_append_left _ htime⟩

/-- The period of an `:I` is stored, if its axis was found set up to track. -/
theorem Leads.store (h : Books now log m) (axis : Axis) (period : ℕ) (tracking : Bool)
    (htracking : tracking = true → ∃ time, .tracking axis time ∈ log) :
    Leads now log m (if tracking then [.period axis period (now + 1)] else [])
      (m.setPeriod axis (if tracking then period else 0)) := by
  refine .of_table h rfl ?_ ?_ ?_ ?_
  · cases tracking <;> simp [Note.time]
  · cases tracking <;> simp [NoneEnded]
  · intro other hne
    by_cases hother : other = axis
    · subst hother
      cases tracking with
      | false => simp [Shared.setPeriod] at hne
      | true =>
        obtain ⟨mode, hmode⟩ := htracking rfl
        have hlt : mode ≤ now := h.dated _ hmode
        refine ⟨mode, now + 1, List.mem_append_left _ hmode, by simp [Shared.setPeriod], by omega, ?_⟩
        intro time htime
        have : .ended other time ∈ log := by simpa using htime
        exact (h.dated _ this).trans (Nat.le_succ now)
    · simp only [Shared.setPeriod, Function.update_of_ne hother] at hne ⊢
      exact (h.inForce other hne).append (by cases tracking <;> simp)
  · intro other hon
    obtain ⟨time, htime⟩ := h.tracking other hon
    exact ⟨time, List.mem_append_left _ htime⟩

/-- The sample of one axis is published as another, and the rest is left. -/
theorem Leads.publish (h : Books now log m) (axis : Axis) (sample : AxisSnapshot S)
    (hnotes : ∀ note ∈ notes, note.time ≤ now + 1)
    (hended : ∀ other time, .ended other time ∉ notes)
    (hcached : Cached log axis sample)
    (hbarred : ∀ time, Barred log axis time (m.snapshot axis) → Barred log axis time sample) :
    Leads now log m notes (m.publish axis sample) := by
  have hnone : NoneEnded now notes := fun a t ht => absurd ht (hended a t)
  refine .of_snapshot h rfl hnotes hended ?_ ?_
  · intro other
    by_cases hother : other = axis
    · subst hother
      simpa [Shared.publish] using hcached.append h.dated hnone
    · simpa [Shared.publish, Function.update_of_ne hother] using
        (h.cached other).append h.dated hnone
  · intro other time hother'
    by_cases hother : other = axis
    · subst hother
      simpa [Shared.publish] using (hbarred time hother').append
    · simpa [Shared.publish, Function.update_of_ne hother] using hother'.append

/-- Notes without a stop may follow. -/
theorem Leads.append (h : Leads now log m notes m') {more : List Note}
    (hmore : ∀ note ∈ more, note.time ≤ now + 1) (hended : ∀ axis time, .ended axis time ∉ more) :
    Leads now log m (notes ++ more) m' := by
  have hassoc : log ++ (notes ++ more) = log ++ notes ++ more := (List.append_assoc _ _ _).symm
  refine ⟨⟨?_, ?_, ?_, ?_⟩, ?_, ?_⟩
  · rw [hassoc]
    intro note hnote
    rcases List.mem_append.mp hnote with hnote | hnote
    · exact h.books.dated note hnote
    · exact hmore note hnote
  · intro axis
    rw [hassoc]
    exact (h.books.cached axis).append h.books.dated fun a t ht => absurd ht (hended a t)
  · intro axis hne
    rw [hassoc]
    exact (h.books.inForce axis hne).append (hended axis)
  · intro axis hon
    rw [hassoc]
    obtain ⟨time, htime⟩ := h.books.tracking axis hon
    exact ⟨time, List.mem_append_left _ htime⟩
  · intro axis time ht
    rcases List.mem_append.mp ht with ht | ht
    · exact h.noneEnded axis time ht
    · exact absurd ht (hended axis time)
  · intro axis time hbarred
    rw [hassoc]
    exact (h.barred axis time hbarred).append

end

/-! ## The tasks -/

/-- The stop of a target is in the log. -/
def Target.Recorded (log : List Note) (target : Target) : Prop :=
  ∀ time, target.stoppedAt = some time → .ended target.axis time ∈ log

/-- The stop of a target has reached the published sample. -/
def Target.Through (log : List Note) (snapshot : MountSnapshot S) (target : Target) : Prop :=
  ∀ time, target.stoppedAt = some time → Barred log target.axis time (snapshot target.axis)

def Poll.Keeps (log : List Note) (axis : Axis) : Poll S → Prop
  | position => True
  | status sample | stepPeriod sample _ => Counted log axis sample

/-- What holds of a task under way. -/
def Task.Keeps (log : List Note) (snapshot : MountSnapshot S) : Task S → Prop
  | setMode _ _ stopping | forget _ _ stopping =>
      ∀ targets, stopping = some targets → ∀ target ∈ targets, target.Recorded log
  | store _ _ axis tracking _ _ => tracking = true → ∃ time, .tracking axis time ∈ log
  | mark target left done =>
      target.Recorded log ∧ (∀ other ∈ left, other.Recorded log) ∧
        ∀ other ∈ done, other.Through log snapshot
  | reread target left done poll =>
      target.Through log snapshot ∧ (∀ other ∈ left, other.Recorded log) ∧
        (∀ other ∈ done, other.Through log snapshot) ∧ poll.Keeps log target.axis
  | merge target left done sample =>
      target.Through log snapshot ∧ (∀ other ∈ left, other.Recorded log) ∧
        (∀ other ∈ done, other.Through log snapshot) ∧ Sampled log target.axis sample
  | pollRa poll => poll.Keeps log .ra
  | pollDec ra poll => Sampled log .ra ra ∧ poll.Keeps log .dec
  | publish ra dec => Sampled log .ra ra ∧ Sampled log .dec dec
  | send _ | record _ _ _ _ | write _ _ _ | seed _ _ _ _ => True

section

variable {now : ℕ} {log notes : List Note} {m m' : Shared S}

variable {target : Target}

theorem Target.Recorded.append (h : target.Recorded log) :
    target.Recorded (log ++ notes) :=
  fun time htime => List.mem_append_left _ (h time htime)

theorem Target.Through.leads (h : target.Through log m.snapshot)
    (hleads : Leads now log m notes m') : target.Through (log ++ notes) m'.snapshot :=
  fun time htime => hleads.barred _ _ (h time htime)

theorem Target.Through.append (h : target.Through log m.snapshot) :
    target.Through (log ++ notes) m.snapshot :=
  fun time htime => (h time htime).append

variable {axis : Axis} {poll : Poll S}

theorem Poll.Keeps.append (h : poll.Keeps log axis) :
    poll.Keeps (log ++ notes) axis := by
  cases poll with
  | position => trivial
  | status sample => exact Counted.append h
  | stepPeriod sample _ => exact Counted.append h

variable {task : Task S}

/-- What holds of a task holds after a step of another. -/
theorem Task.Keeps.leads (h : task.Keeps log m.snapshot)
    (hbooks : Books now log m) (hleads : Leads now log m notes m') :
    task.Keeps (log ++ notes) m'.snapshot := by
  cases task with
  | setMode _ _ stopping | forget _ _ stopping => exact fun targets hs target ht => (h targets hs target ht).append

  | store _ _ axis tracking _ _ =>
    intro hon
    obtain ⟨time, htime⟩ := h hon
    exact ⟨time, List.mem_append_left _ htime⟩
  | mark target left done =>
    obtain ⟨htarget, hleft, hdone⟩ := h
    exact ⟨htarget.append, fun other ho => (hleft other ho).append,
      fun other ho => (hdone other ho).leads hleads⟩
  | reread target left done poll =>
    obtain ⟨htarget, hleft, hdone, hpoll⟩ := h
    exact ⟨htarget.leads hleads, fun other ho => (hleft other ho).append,
      fun other ho => (hdone other ho).leads hleads, hpoll.append⟩
  | merge target left done sample =>
    obtain ⟨htarget, hleft, hdone, hsample⟩ := h
    exact ⟨htarget.leads hleads, fun other ho => (hleft other ho).append,
      fun other ho => (hdone other ho).leads hleads, hsample.append hbooks.dated hleads.noneEnded⟩
  | pollRa poll => exact Poll.Keeps.append h
  | pollDec ra poll =>
    exact ⟨h.1.append hbooks.dated hleads.noneEnded, h.2.append⟩
  | publish ra dec =>
    exact ⟨h.1.append hbooks.dated hleads.noneEnded, h.2.append hbooks.dated hleads.noneEnded⟩
  | send _ => trivial
  | record _ _ _ _ => trivial
  | write _ _ _ => trivial
  | seed _ _ _ _ => trivial

/-! ## One step of a task -/

/-- What a step of a task leaves. -/
structure Advance.Keeps (now : ℕ) (log : List Note) (m : Shared S) (after : Advance S) : Prop where
  leads : Leads now log m after.notes after.shared
  returned : ∀ axis time, .returned axis time ∈ after.notes →
    Barred (log ++ after.notes) axis time (after.shared.snapshot axis)
  next : ∀ task, after.next = some task → task.Keeps (log ++ after.notes) after.shared.snapshot

variable {note : Note}

theorem Target.mem_notes (h : note ∈ target.notes) :
    ∃ time, target.stoppedAt = some time ∧ note = .returned target.axis time := by
  unfold Target.notes at h
  split at h
  · next time htime => exact ⟨time, htime, List.mem_singleton.mp h⟩
  · cases h

/-- The sends that return note nothing but that. -/
theorem mem_flatMap_notes {targets : List Target} (h : note ∈ targets.flatMap Target.notes) :
    ∃ target ∈ targets, ∃ time, target.stoppedAt = some time ∧
      note = .returned target.axis time := by
  obtain ⟨target, htarget, hnote⟩ := List.mem_flatMap.mp h
  exact ⟨target, htarget, Target.mem_notes hnote⟩

/-- A step ends the task, and nothing returns. -/
theorem Advance.Keeps.finish (hleads : Leads now log m notes m')
    (hquiet : ∀ axis time, .returned axis time ∉ notes) :
    (Advance.mk m' none notes).Keeps now log m :=
  ⟨hleads, fun axis time ht => absurd ht (hquiet axis time), fun _ h => by cases h⟩

/-- A step leaves the task another one, and nothing returns. -/
theorem Advance.Keeps.go (hleads : Leads now log m notes m')
    (hquiet : ∀ axis time, .returned axis time ∉ notes)
    (htask : task.Keeps (log ++ notes) m'.snapshot) :
    (Advance.mk m' (some task) notes).Keeps now log m := by
  refine ⟨hleads, fun axis time ht => absurd ht (hquiet axis time), ?_⟩
  intro next h
  rw [← Option.some.inj h]
  exact htask

theorem refresh_keeps {left done : List Target} (hleads : Leads now log m notes m')
    (hquiet : ∀ axis time, .returned axis time ∉ notes)
    (hleft : ∀ target ∈ left, target.Recorded (log ++ notes))
    (hdone : ∀ target ∈ done, target.Through (log ++ notes) m'.snapshot) :
    (m'.refresh notes left done).Keeps now log m := by
  cases left with
  | nil =>
    have hnote : ∀ note ∈ done.flatMap Target.notes, note.time ≤ now + 1 := by
      intro note hnote
      obtain ⟨target, htarget, time, htime, rfl⟩ := mem_flatMap_notes hnote
      show time ≤ now + 1
      exact hleads.books.dated (.ended target.axis time) (hdone target htarget time htime).recorded
    have hended : ∀ axis time, Note.ended axis time ∉ done.flatMap Target.notes := by
      intro axis time hnote
      obtain ⟨_, _, _, _, heq⟩ := mem_flatMap_notes hnote
      cases heq
    refine ⟨hleads.append hnote hended, ?_, fun _ h => by cases h⟩
    intro axis time ht
    rcases List.mem_append.mp ht with ht | ht
    · exact absurd ht (hquiet axis time)
    · obtain ⟨target, htarget, stopped, htime, heq⟩ := mem_flatMap_notes ht
      cases heq
      show Barred (log ++ (notes ++ done.flatMap Target.notes)) _ _ _
      rw [← List.append_assoc]
      exact (hdone target htarget time htime).append
  | cons target left =>
    have hfirst := hleft target List.mem_cons_self
    have hrest : ∀ other ∈ left, other.Recorded (log ++ notes) :=
      fun other ho => hleft other (List.mem_cons_of_mem _ ho)
    simp only [Shared.refresh]
    split
    · exact .go hleads hquiet ⟨hfirst, hrest, hdone⟩
    · next hstart =>
        refine .go hleads hquiet ⟨?_, hrest, hdone, trivial⟩
        intro time htime
        rw [hstart] at htime
        cases htime

variable {left : List Axis}

theorem afterMode_keeps {kind : ModeKind} {stopping : Option (List Target)}
    (hleads : Leads now log m notes m') (hquiet : ∀ axis time, .returned axis time ∉ notes)
    (hstopping : ∀ targets, stopping = some targets →
      ∀ target ∈ targets, target.Recorded (log ++ notes)) :
    (m'.afterMode notes kind left stopping).Keeps now log m := by
  cases left with
  | nil =>
    cases stopping with
    | none => exact .finish hleads hquiet
    | some stopped => exact refresh_keeps hleads hquiet (hstopping stopped rfl) (by simp)
  | cons axis left => exact .go hleads hquiet hstopping

/-- Axes of a command that stops none. -/
theorem recorded_of_start (log : List Note) (axes : Axes) :
    ∀ target ∈ axes.each.map (Target.mk · none), target.Recorded log := by
  intro target htarget time htime
  obtain ⟨axis, _, rfl⟩ := List.mem_map.mp htarget
  cases htime

theorem afterRecord_keeps {axes : Axes} {period : ℕ} {recorded : Bool}
    (hleads : Leads now log m notes m') (hquiet : ∀ axis time, .returned axis time ∉ notes) :
    (m'.afterRecord notes axes period left recorded).Keeps now log m := by
  cases left with
  | nil =>
    simp only [Shared.afterRecord]
    split
    · exact refresh_keeps hleads hquiet (recorded_of_start _ axes) (by simp)
    · exact .finish hleads hquiet
  | cons axis left => exact .go hleads hquiet trivial

theorem afterSeed_keeps {left : List (Axis × ℤ)} (hleads : Leads now log m notes m')
    (hquiet : ∀ axis time, .returned axis time ∉ notes) :
    (m'.afterSeed notes left).Keeps now log m := by
  cases left with
  | nil => exact .finish hleads hquiet
  | cons first left => exact .go hleads hquiet trivial

theorem acknowledged_keeps (h : Books now log m) (command : Command) :
    (m.acknowledged command).Keeps now log m := by
  have hleads : Leads now log m [] m := .same h (by simp) (by simp)
  cases command with
  | setMotionMode axes kind | stopMotion axes | instantStop axes => exact afterMode_keeps hleads (by simp) (by simp)

  | setStepPeriod axes period => exact afterRecord_keeps hleads (by simp)
  | startMotion axes =>
    exact refresh_keeps hleads (by simp) (recorded_of_start _ axes) (by simp)

/-- A poll that goes on, or has its sample. -/
def Polled.Keeps (log : List Note) (axis : Axis) : Polled S → Prop
  | failed => True
  | polling poll => poll.Keeps log axis
  | sampled sample => Sampled log axis sample

/-- One step of a poll: what it notes and what it comes to. -/
theorem poll_step_keeps (h : Books now log m)
    (hpoll : poll.Keeps log axis) (reply : Reply S) {polled : Polled S} {notes : List Note}
    (hstep : poll.step m.stepPeriods axis (now + 1) reply = (polled, notes)) :
    Leads now log m notes m ∧ (∀ other time, .returned other time ∉ notes) ∧
      polled.Keeps (log ++ notes) axis := by
  cases poll with
  | position =>
    cases reply with
    | position ticks =>
      cases hstep
      refine ⟨.same h (by simp [Note.time]) (by simp), by simp, ?_⟩
      exact ⟨now + 1, rfl, by simp [AxisSnapshot.recordPosition]⟩
    | failed | acked | status _ => cases hstep; exact ⟨.same h (by simp) (by simp), by simp, trivial⟩

  | status sample =>
    cases reply with
    | status read =>
      cases hstep
      exact ⟨.same h (by simp) (by simp), by simp, Counted.append hpoll⟩
    | failed | acked | position _ => cases hstep; exact ⟨.same h (by simp) (by simp), by simp, trivial⟩

  | stepPeriod sample read =>
    cases hstep
    refine ⟨.same h (by simp [Note.time]) (by simp), by simp, ?_⟩
    obtain ⟨time, hat, hread⟩ := hpoll
    refine ⟨time, hat, List.mem_append_left _ hread, ?_⟩
    intro hne
    obtain ⟨mode, sent, hmode, hsent, hlt, hended⟩ := h.inForce axis hne
    have htime : time ≤ now := h.dated _ hread
    have hsent' : sent ≤ now := h.dated _ hsent
    refine ⟨now + 1, by omega, mode, sent, List.mem_append_left _ hmode,
      List.mem_append_left _ hsent, ?_, hlt, by omega, ?_⟩
    · exact List.mem_append_right _ (List.mem_singleton.mpr rfl)
    · intro t ht
      have : .ended axis t ∈ log := by simpa using ht
      have := hended t this
      omega

variable {cached : AxisSnapshot S}

/-- Marking raises the barrier to now and clears the period. -/
theorem Barred.mark {time : ℕ} (now : ℕ) (hrecorded : .ended axis time ∈ log) (hle : time ≤ now) :
    Barred log axis time (cached.markRateUnknown now) := by
  refine ⟨hrecorded, ?_, fun hne => absurd rfl hne⟩
  exact (WithBot.coe_le_coe.mpr hle).trans (le_max_right _ _)

theorem Cached.mark (h : Cached log axis cached) (now : ℕ) :
    Cached log axis (cached.markRateUnknown now) :=
  ⟨fun hne => absurd rfl hne, h.count⟩

theorem Sampled.stop {sample : AxisSnapshot S} (h : Sampled log axis sample) (stopping : Bool) :
    Sampled log axis (if stopping then { sample with stepPeriod := 0 } else sample) := by
  cases stopping with
  | false => exact h
  | true =>
    obtain ⟨time, hat, hread, _⟩ := h
    exact ⟨time, hat, hread, fun hne => absurd rfl hne⟩

/-- What one step of any task keeps. The seed of a sync must be for a write in the log. -/
theorem advance_keeps (h : Books now log m) (reply : Reply S) (htask : task.Keeps log m.snapshot)
    (hseed : ∀ axis ticks sentAt left, task = .seed axis ticks sentAt left →
      .wrote axis ticks sentAt ∈ log) :
    (m.advance (now + 1) reply task).Keeps now log m := by
  have hsame : Leads now log m [] m := .same h (by simp) (by simp)
  cases task with
  | send command =>
    cases reply with
    | acked => exact acknowledged_keeps h command
    | failed => exact .finish hsame (by simp)
    | position _ => exact .finish hsame (by simp)
    | status _ => exact .finish hsame (by simp)
  | setMode kind left stopping =>
    cases left with
    | nil => cases kind <;> exact .finish hsame (by simp)
    | cons axis left =>
      cases kind with
      | tracking =>
        refine afterMode_keeps (Leads.track h axis) (by simp) ?_
        intro targets hs target ht
        exact (htask targets hs target ht).append
      | goto =>
        refine .go (Leads.untrack h axis) (by simp) ?_
        intro targets hs target ht
        exact (htask targets hs target ht).append
  | forget axis left stopping =>
    refine afterMode_keeps (Leads.forget h axis) (by simp) ?_
    intro targets hs target ht
    cases stopping with
    | none => cases hs
    | some stopped =>
      cases hs
      rcases List.mem_append.mp ht with ht | ht
      · exact (htask stopped rfl target ht).append
      · obtain rfl := List.mem_singleton.mp ht
        intro time htime
        cases htime
        exact List.mem_append_right _ (List.mem_singleton.mpr rfl)
  | record axes period left recorded =>
    cases left with
    | nil => exact .finish hsame (by simp)
    | cons axis left =>
      refine .go hsame (by simp) ?_
      intro hon
      obtain ⟨time, htime⟩ := h.tracking axis hon
      exact ⟨time, List.mem_append_left _ htime⟩
  | store axes period axis tracking left recorded =>
    refine afterRecord_keeps (Leads.store h axis period tracking htask) ?_
    cases tracking <;> simp
  | mark target left done =>
    obtain ⟨htarget, hleft, hdone⟩ := htask
    have hleads : Leads now log m []
        (m.publish target.axis ((m.snapshot target.axis).markRateUnknown (now + 1))) := by
      refine .publish h _ _ (by simp) (by simp) ((h.cached _).mark _) ?_
      intro time hbarred
      exact .mark _ hbarred.recorded ((h.dated _ hbarred.recorded).trans (Nat.le_succ now))
    refine .go hleads (by simp) ⟨?_, fun other ho => (hleft other ho).append,
      fun other ho => (hdone other ho).leads hleads, trivial⟩
    -- the barrier is raised here, so the stop is through with its axis
    intro time htime
    have hrecorded := htarget time htime
    have hle : time ≤ now := h.dated _ hrecorded
    simpa [Shared.publish] using
      (Barred.mark (now + 1) hrecorded (by omega) :
        Barred log target.axis time ((m.snapshot target.axis).markRateUnknown (now + 1)))
  | reread target left done poll =>
    obtain ⟨htarget, hleft, hdone, hpoll⟩ := htask
    simp only [Shared.advance]
    split
    · next notes hstep =>
        obtain ⟨hleads, hquiet, _⟩ := poll_step_keeps h hpoll reply hstep
        refine refresh_keeps hleads hquiet (fun other ho => (hleft other ho).append) ?_
        intro other ho
        rcases List.mem_append.mp ho with ho | ho
        · exact (hdone other ho).append
        · rw [List.mem_singleton.mp ho]
          exact htarget.append
    · next next notes hstep =>
        obtain ⟨hleads, hquiet, hnext⟩ := poll_step_keeps h hpoll reply hstep
        exact .go hleads hquiet ⟨htarget.append, fun other ho => (hleft other ho).append,
          fun other ho => (hdone other ho).append, hnext⟩
    · next sample notes hstep =>
        obtain ⟨hleads, hquiet, hsample⟩ := poll_step_keeps h hpoll reply hstep
        exact .go hleads hquiet ⟨htarget.append, fun other ho => (hleft other ho).append,
          fun other ho => (hdone other ho).append, hsample.stop _⟩
  | merge target left done sample =>
    obtain ⟨htarget, hleft, hdone, hsample⟩ := htask
    have hleads : Leads now log m []
        (m.publish target.axis ((m.snapshot target.axis).mergeIfNewer sample)) :=
      .publish h _ _ (by simp) (by simp) ((h.cached _).merge hsample) fun _ hb => hb.merge hsample
    refine refresh_keeps hleads (by simp) (fun other ho => (hleft other ho).append) ?_
    intro other ho
    rcases List.mem_append.mp ho with ho | ho
    · exact (hdone other ho).leads hleads
    · rw [List.mem_singleton.mp ho]
      exact htarget.leads hleads
  | pollRa poll =>
    simp only [Shared.advance]
    split
    · next notes hstep =>
        obtain ⟨hleads, hquiet, _⟩ := poll_step_keeps h htask reply hstep
        exact .finish hleads hquiet
    · next next notes hstep =>
        obtain ⟨hleads, hquiet, hnext⟩ := poll_step_keeps h htask reply hstep
        exact .go hleads hquiet hnext
    · next ra notes hstep =>
        obtain ⟨hleads, hquiet, hra⟩ := poll_step_keeps h htask reply hstep
        exact .go hleads hquiet ⟨hra, trivial⟩
  | pollDec ra poll =>
    obtain ⟨hra, hpoll⟩ := htask
    simp only [Shared.advance]
    split
    · next notes hstep =>
        obtain ⟨hleads, hquiet, _⟩ := poll_step_keeps h hpoll reply hstep
        exact .finish hleads hquiet
    · next next notes hstep =>
        obtain ⟨hleads, hquiet, hnext⟩ := poll_step_keeps h hpoll reply hstep
        exact .go hleads hquiet ⟨hra.append h.dated hleads.noneEnded, hnext⟩
    · next dec notes hstep =>
        obtain ⟨hleads, hquiet, hdec⟩ := poll_step_keeps h hpoll reply hstep
        exact .go hleads hquiet ⟨hra.append h.dated hleads.noneEnded, hdec⟩
  | publish ra dec =>
    obtain ⟨hra, hdec⟩ := htask
    refine .finish (.of_snapshot h rfl (by simp) (by simp) ?_ ?_) (by simp)
    · intro axis
      rw [List.append_nil]
      cases axis with
      | ra => exact (h.cached .ra).merge hra
      | dec => exact (h.cached .dec).merge hdec
    · intro axis time hbarred
      rw [List.append_nil]
      cases axis with
      | ra => exact hbarred.merge hra
      | dec => exact hbarred.merge hdec
  | write axis ticks left =>
    cases reply with
    | acked => exact .go (.same h (by simp [Note.time]) (by simp)) (by simp) trivial
    | failed => exact .finish hsame (by simp)
    | position _ => exact .finish hsame (by simp)
    | status _ => exact .finish hsame (by simp)
  | seed axis ticks sentAt left =>
    have hwrote := hseed axis ticks sentAt left rfl
    refine afterSeed_keeps (.publish h _ _ ?_ (by simp) ⟨(h.cached axis).period, ?_⟩ ?_) (by simp)
    · have : sentAt ≤ now := h.dated _ hwrote
      simp only [List.mem_singleton, forall_eq, Note.time]
      omega
    · intro time hat
      obtain rfl : sentAt = time := WithBot.coe_injective hat
      exact .inr hwrote
    · intro time hbarred
      exact ⟨hbarred.recorded, hbarred.barrier, hbarred.period⟩

end

end RustyPhoton.StarAdventurer.Samples
