import RustyPhoton.StarAdventurer.SampleSteps

/-!
# No published sample carries a rate its axis has left

Only a sync takes a sample back in time, to a count that it has written, and no two syncs overlap.
The run keeps what each step keeps, for the shared state and for every task under way.
-/

namespace RustyPhoton.StarAdventurer.Samples

open RustyPhoton.Lib

variable {S : Type}

section

variable {now : ℕ} {log notes : List Note} {m m' : Shared S}

/-! ## Seeds -/

/-- A step that seeds nothing: no sample goes back in time. -/
structure Advance.Unseeded (m : Shared S) (after : Advance S) : Prop where
  sampledAt : ∀ axis, (m.snapshot axis).sampledAt ≤ (after.shared.snapshot axis).sampledAt
  notes : ∀ axis time, .seeded axis time ∉ after.notes
  next : ∀ task, after.next = some task → task.isSync = false

theorem refresh_unseeded {left done : List Target}
    (hsampled : ∀ axis, (m.snapshot axis).sampledAt ≤ (m'.snapshot axis).sampledAt)
    (hquiet : ∀ axis time, .seeded axis time ∉ notes) : (m'.refresh notes left done).Unseeded m := by
  cases left with
  | nil =>
    refine ⟨hsampled, ?_, fun _ h => by cases h⟩
    intro axis time ht
    rcases List.mem_append.mp ht with ht | ht
    · exact hquiet axis time ht
    · obtain ⟨_, _, _, _, heq⟩ := mem_flatMap_notes ht
      cases heq
  | cons target left =>
    simp only [Shared.refresh]
    split <;> exact ⟨hsampled, hquiet, fun _ h => by cases h; rfl⟩

variable {left : List Axis}

theorem afterMode_unseeded {kind : ModeKind} {stopping : Option (List Target)}
    (hsampled : ∀ axis, (m.snapshot axis).sampledAt ≤ (m'.snapshot axis).sampledAt)
    (hquiet : ∀ axis time, .seeded axis time ∉ notes) :
    (m'.afterMode notes kind left stopping).Unseeded m := by
  cases left with
  | nil =>
    cases stopping with
    | none => exact ⟨hsampled, hquiet, fun _ h => by cases h⟩
    | some stopped => exact refresh_unseeded hsampled hquiet
  | cons axis left => exact ⟨hsampled, hquiet, fun _ h => by cases h; rfl⟩

theorem afterRecord_unseeded {axes : Axes} {period : ℕ} {recorded : Bool}
    (hsampled : ∀ axis, (m.snapshot axis).sampledAt ≤ (m'.snapshot axis).sampledAt)
    (hquiet : ∀ axis time, .seeded axis time ∉ notes) :
    (m'.afterRecord notes axes period left recorded).Unseeded m := by
  cases left with
  | nil =>
    simp only [Shared.afterRecord]
    split
    · exact refresh_unseeded hsampled hquiet
    · exact ⟨hsampled, hquiet, fun _ h => by cases h⟩
  | cons axis left => exact ⟨hsampled, hquiet, fun _ h => by cases h; rfl⟩

theorem acknowledged_unseeded (m : Shared S) (command : Command) :
    (m.acknowledged command).Unseeded m := by
  cases command with
  | setMotionMode axes kind | stopMotion axes | instantStop axes => exact afterMode_unseeded (fun _ => le_rfl) (by simp)

  | setStepPeriod axes period => exact afterRecord_unseeded (fun _ => le_rfl) (by simp)
  | startMotion axes => exact refresh_unseeded (fun _ => le_rfl) (by simp)

variable {axis : Axis}

theorem poll_step_unseeded {periods : CommandedStepPeriods} {poll : Poll S}
    {reply : Reply S} {polled : Polled S} {notes : List Note}
    (hstep : poll.step periods axis now reply = (polled, notes)) :
    ∀ other time, .seeded other time ∉ notes := by
  cases poll <;> cases reply <;> cases hstep <;> simp

theorem le_sampledAt_publish {sample : AxisSnapshot S}
    (h : (m.snapshot axis).sampledAt ≤ sample.sampledAt) (other : Axis) :
    (m.snapshot other).sampledAt ≤ ((m.publish axis sample).snapshot other).sampledAt := by
  by_cases hother : other = axis
  · subst hother
    simpa [Shared.publish] using h
  · simp [Shared.publish, Function.update_of_ne hother]

/-- Nothing but a sync takes a sample back in time. -/
theorem advance_unseeded (m : Shared S) (now : ℕ) (reply : Reply S) {task : Task S}
    (htask : task.isSync = false) : (m.advance now reply task).Unseeded m := by
  have hsame : ∀ axis, (m.snapshot axis).sampledAt ≤ (m.snapshot axis).sampledAt := fun _ => le_rfl
  have hends : ∀ {m' : Shared S} {notes : List Note},
      (∀ axis, (m.snapshot axis).sampledAt ≤ (m'.snapshot axis).sampledAt) →
      (∀ axis time, .seeded axis time ∉ notes) → (Advance.mk m' none notes).Unseeded m :=
    fun hsampled hquiet => ⟨hsampled, hquiet, fun _ h => by cases h⟩
  have hgoes : ∀ {m' : Shared S} {notes : List Note} {next : Task S},
      (∀ axis, (m.snapshot axis).sampledAt ≤ (m'.snapshot axis).sampledAt) →
      (∀ axis time, .seeded axis time ∉ notes) → next.isSync = false →
      (Advance.mk m' (some next) notes).Unseeded m := by
    intro m' notes next hsampled hquiet hnext
    refine ⟨hsampled, hquiet, fun task h => ?_⟩
    rwa [← Option.some.inj h]
  cases task with
  | send command =>
    cases reply with
    | acked => exact acknowledged_unseeded m command
    | failed => exact hends hsame (by simp)
    | position _ => exact hends hsame (by simp)
    | status _ => exact hends hsame (by simp)
  | setMode kind left stopping =>
    cases left with
    | nil => cases kind <;> exact hends hsame (by simp)
    | cons axis left =>
      cases kind with
      | tracking => exact afterMode_unseeded hsame (by simp)
      | goto => exact hgoes hsame (by simp) rfl
  | forget axis left stopping => exact afterMode_unseeded hsame (by simp)
  | record axes period left recorded =>
    cases left with
    | nil => exact hends hsame (by simp)
    | cons axis left => exact hgoes hsame (by simp) rfl
  | store axes period axis tracking left recorded =>
    refine afterRecord_unseeded hsame ?_
    cases tracking <;> simp
  | mark target left done => exact hgoes (le_sampledAt_publish le_rfl) (by simp) rfl
  | reread target left done poll =>
    simp only [Shared.advance]
    split
    · next hstep => exact refresh_unseeded hsame (poll_step_unseeded hstep)
    · next hstep => exact hgoes hsame (poll_step_unseeded hstep) rfl
    · next hstep => exact hgoes hsame (poll_step_unseeded hstep) rfl
  | merge target left done sample =>
    exact refresh_unseeded (le_sampledAt_publish (AxisSnapshot.le_sampledAt_mergeIfNewer _ _))
      (by simp)
  | pollRa poll | pollDec ra poll =>
    simp only [Shared.advance]
    split
    · next hstep => exact hends hsame (poll_step_unseeded hstep)
    · next hstep => exact hgoes hsame (poll_step_unseeded hstep) rfl
    · next hstep => exact hgoes hsame (poll_step_unseeded hstep) rfl
  | publish ra dec => exact hends (fun _ => AxisSnapshot.le_sampledAt_mergeIfNewer _ _) (by simp)
  | write axis ticks left => cases htask
  | seed axis ticks sentAt left => cases htask

end

/-! ## Runs -/

/-- What every interleaving keeps. -/
structure Driver.Keeps (log : List Note) (s : Driver S) : Prop where
  books : Books s.now log s.shared
  returned : ∀ axis time, .returned axis time ∈ log → Barred log axis time (s.shared.snapshot axis)
  seeded : ∀ axis (sentAt : ℕ), .seeded axis sentAt ∈ log →
    (sentAt : WithBot ℕ) ≤ (s.shared.snapshot axis).sampledAt
  tasks : ∀ number task, s.tasks number = some task → task.Keeps log s.shared.snapshot
  syncing : ∀ number task, s.tasks number = some task → task.isSync = true →
    s.syncing = some number
  seeding : ∀ number axis ticks sentAt left, s.tasks number = some (.seed axis ticks sentAt left) →
    .wrote axis ticks sentAt ∈ log ∧ ∀ time, .seeded axis time ∈ log → time ≤ sentAt

namespace Driver.Keeps

variable {log : List Note} {s : Driver S}

theorem fresh : (Driver.fresh : Driver S).Keeps [] where
  books :=
    ⟨by simp, fun _ => ⟨fun h => absurd rfl h, fun _ h => by cases h⟩, fun _ h => absurd rfl h,
      fun _ h => by cases h⟩
  returned := by simp
  seeded := by simp
  tasks := by
    intro _ _ h
    cases h
  syncing := by
    intro _ _ h
    cases h
  seeding := by
    intro _ _ _ _ _ h
    cases h

theorem wait (h : s.Keeps log) (time : ℕ) : Driver.Keeps log { s with now := s.now + time } where
  books := ⟨fun note hnote => (h.books.dated note hnote).trans (Nat.le_add_right _ _),
    h.books.cached, h.books.inForce, h.books.tracking⟩
  returned := h.returned
  seeded := h.seeded
  tasks := h.tasks
  syncing := h.syncing
  seeding := h.seeding

theorem start (h : s.Keeps log) (number : ℕ) (job : Job)
    (hfree : ¬ ((job.task : Task S).isSync = true ∧ s.syncing.isSome = true)) :
    Driver.Keeps log { s with
      tasks := Function.update s.tasks number (some job.task)
      syncing := if (job.task : Task S).isSync then some number else s.syncing } where
  books := h.books
  returned := h.returned
  seeded := h.seeded
  tasks := by
    intro other task htask
    by_cases hother : other = number
    · simp only [hother, Function.update_self, Option.some.injEq] at htask
      rw [← htask]
      cases job <;> trivial
    · exact h.tasks other task (by simpa [Function.update_of_ne hother] using htask)
  syncing := by
    intro other task htask hsync
    by_cases hother : other = number
    · simp only [hother, Function.update_self, Option.some.injEq] at htask
      rw [← htask] at hsync
      simp [hsync, hother]
    · have hold := h.syncing other task (by simpa [Function.update_of_ne hother] using htask) hsync
      -- another sync holds the axes, so this job is none
      have hnot : (job.task : Task S).isSync = false := by
        rw [hold] at hfree
        simpa using hfree
      simp [hnot, hold]
  seeding := by
    intro other axis ticks sentAt left htask
    by_cases hother : other = number
    · simp only [hother, Function.update_self, Option.some.injEq] at htask
      cases job <;> cases htask
    · exact h.seeding other axis ticks sentAt left
        (by simpa [Function.update_of_ne hother] using htask)

variable {number : ℕ}

/-- Whoever still syncs keeps the axes when another task ends. -/
theorem release_other {other : ℕ} {syncing : Option ℕ} (next : Option (Task S))
    (hsyncing : syncing = some other) (hne : other ≠ number) :
    release syncing number next = some other := by
  have : ¬ (next.isNone = true ∧ syncing = some number) := by
    rintro ⟨_, heq⟩
    rw [hsyncing] at heq
    exact hne (Option.some.inj heq)
  rw [release, if_neg this, hsyncing]

theorem drop (h : s.Keeps log) (number : ℕ) :
    Driver.Keeps log { s with
      tasks := Function.update s.tasks number none
      syncing := release s.syncing number (none : Option (Task S)) } := by
  have hold : ∀ other task, Function.update s.tasks number none other = some task →
      other ≠ number ∧ s.tasks other = some task := by
    intro other task htask
    by_cases hother : other = number
    · simp [hother] at htask
    · exact ⟨hother, by simpa [Function.update_of_ne hother] using htask⟩
  refine ⟨h.books, h.returned, h.seeded, ?_, ?_, ?_⟩
  · intro other task htask
    exact h.tasks other task (hold other task htask).2
  · intro other task htask hsync
    obtain ⟨hne, htask⟩ := hold other task htask
    exact release_other none (h.syncing other task htask hsync) hne
  · intro other axis ticks sentAt left htask
    exact h.seeding other axis ticks sentAt left (hold other _ htask).2

variable {task : Task S}

/-- Another sync cannot be under way beside the one that holds the axes. -/
theorem sync_unique (h : s.Keeps log) {other : ℕ} {task' : Task S}
    (htask : s.tasks number = some task) (hsync : task.isSync = true)
    (htask' : s.tasks other = some task') (hsync' : task'.isSync = true) : other = number := by
  have := h.syncing number task htask hsync
  rw [h.syncing other task' htask' hsync'] at this
  exact Option.some.inj this

/-- The samples are at every seed or after it, once more after a step. -/
theorem seeded_advance (h : s.Keeps log) (reply : Reply S)
    (htask : s.tasks number = some task) (axis : Axis) (sentAt : ℕ)
    (hseeded : .seeded axis sentAt ∈ log ++ (s.shared.advance (s.now + 1) reply task).notes) :
    (sentAt : WithBot ℕ) ≤
      ((s.shared.advance (s.now + 1) reply task).shared.snapshot axis).sampledAt := by
  by_cases hsync : task.isSync = true
  · cases task with
    | write other ticks left =>
      have hlog : .seeded axis sentAt ∈ log := by
        cases reply <;> simpa [Shared.advance] using hseeded
      cases reply <;> exact h.seeded axis sentAt hlog
    | seed other ticks sent left =>
      have hbefore := (h.seeding number other ticks sent left htask).2
      have hshared : (s.shared.advance (s.now + 1) reply (.seed other ticks sent left)).shared =
          s.shared.publish other ((s.shared.snapshot other).seed ticks sent) := by
        cases left <;> rfl
      have hnotes : (s.shared.advance (s.now + 1) reply (.seed other ticks sent left)).notes =
          [.seeded other sent] := by
        cases left <;> rfl
      rw [hnotes] at hseeded
      rw [hshared]
      by_cases hother : axis = other
      · subst hother
        have hle : sentAt ≤ sent := by
          rcases List.mem_append.mp hseeded with hlog | hnew
          · exact hbefore sentAt hlog
          · cases List.mem_singleton.mp hnew
            exact le_rfl
        simpa [Shared.publish, AxisSnapshot.seed] using hle
      · have hlog : .seeded axis sentAt ∈ log := by simpa [hother] using hseeded
        simpa [Shared.publish, Function.update_of_ne hother] using h.seeded axis sentAt hlog
    | _ => cases hsync
  · have hquiet := advance_unseeded s.shared (s.now + 1) reply (by simpa using hsync)
    rcases List.mem_append.mp hseeded with hlog | hnew
    · exact (h.seeded axis sentAt hlog).trans (hquiet.sampledAt axis)
    · exact absurd hnew (hquiet.notes axis sentAt)

/-- A step leaves a sync a sync, and no other task becomes one. -/
theorem isSync_next (m : Shared S) (now : ℕ) (reply : Reply S) {next : Task S}
    (hnext : (m.advance now reply task).next = some next) (hsync : next.isSync = true) :
    task.isSync = true := by
  by_contra hnot
  have := (advance_unseeded m now reply (by simpa using hnot)).next next hnext
  rw [hsync] at this
  cases this

/-- A seed is due for a write that was just made. -/
theorem seed_next (m : Shared S) (now : ℕ) (reply : Reply S) {axis : Axis} {ticks : ℤ}
    {sentAt : ℕ} {left : List (Axis × ℤ)}
    (hnext : (m.advance now reply task).next = some (.seed axis ticks sentAt left)) :
    (m.advance now reply task).notes = [.wrote axis ticks sentAt] ∧ sentAt = now := by
  have hsync := isSync_next m now reply hnext rfl
  cases task with
  | write other count rest =>
    cases reply <;> cases hnext
    exact ⟨rfl, rfl⟩
  | seed other count sent rest => cases rest <;> cases hnext
  | _ => cases hsync

theorem step (h : s.Keeps log) (reply : Reply S) (htask : s.tasks number = some task) :
    Driver.Keeps (log ++ (s.shared.advance (s.now + 1) reply task).notes)
      ⟨s.now + 1, (s.shared.advance (s.now + 1) reply task).shared,
        Function.update s.tasks number (s.shared.advance (s.now + 1) reply task).next,
        release s.syncing number (s.shared.advance (s.now + 1) reply task).next⟩ := by
  have hkeeps : (s.shared.advance (s.now + 1) reply task).Keeps s.now log s.shared := by
    refine advance_keeps h.books reply (h.tasks number task htask) ?_
    intro axis ticks sentAt left heq
    exact (h.seeding number axis ticks sentAt left (heq ▸ htask)).1
  refine ⟨hkeeps.leads.books, ?_, h.seeded_advance reply htask, ?_, ?_, ?_⟩
  · intro axis time hreturned
    rcases List.mem_append.mp hreturned with hlog | hnew
    · exact hkeeps.leads.barred axis time (h.returned axis time hlog)
    · exact hkeeps.returned axis time hnew
  · intro other task' htask'
    by_cases hother : other = number
    · exact hkeeps.next task' (by simpa [hother] using htask')
    · exact (h.tasks other task' (by simpa [Function.update_of_ne hother] using htask')).leads
        h.books hkeeps.leads
  · intro other task' htask' hsync
    by_cases hother : other = number
    · have hnext : (s.shared.advance (s.now + 1) reply task).next = some task' := by
        simpa [hother] using htask'
      have hheld := h.syncing number task htask (isSync_next _ _ reply hnext hsync)
      simp [release, hnext, hheld, hother]
    · exact release_other _
        (h.syncing other task' (by simpa [Function.update_of_ne hother] using htask') hsync) hother
  · intro other axis ticks sentAt left htask'
    by_cases hother : other = number
    · have hnext : (s.shared.advance (s.now + 1) reply task).next =
          some (.seed axis ticks sentAt left) := by
        simpa [hother] using htask'
      obtain ⟨hnotes, hsent⟩ := seed_next _ _ reply hnext
      rw [hnotes]
      refine ⟨List.mem_append_right _ (List.mem_singleton.mpr rfl), ?_⟩
      intro time hseeded
      have hlog : .seeded axis time ∈ log := by simpa using hseeded
      have : time ≤ s.now := h.books.dated _ hlog
      omega
    · have hold : s.tasks other = some (.seed axis ticks sentAt left) := by
        simpa [Function.update_of_ne hother] using htask'
      obtain ⟨hwrote, hbefore⟩ := h.seeding other axis ticks sentAt left hold
      refine ⟨List.mem_append_left _ hwrote, ?_⟩
      intro time hseeded
      rcases List.mem_append.mp hseeded with hlog | hnew
      · exact hbefore time hlog
      · -- only a sync seeds, and this one holds the axes
        have hnot : task.isSync = false := by
          by_contra hsync
          exact hother (h.sync_unique htask (by simpa using hsync) hold rfl)
        exact absurd hnew ((advance_unseeded s.shared (s.now + 1) reply hnot).notes axis time)

theorem run {moves : List (Move S)} (h : Driver.Run moves log s) : s.Keeps log := by
  refine History.invariant h Driver.Keeps fresh ?_
  intro log s move s' notes hkeeps _ hstep
  cases move with
  | wait time =>
    cases hstep
    rw [List.append_nil]
    exact hkeeps.wait time
  | start number job =>
    simp only [Driver.step] at hstep
    split at hstep
    · cases hstep
    · split at hstep
      · cases hstep
      · next hfree =>
          cases hstep
          rw [List.append_nil]
          exact hkeeps.start number job hfree
  | step number reply =>
    simp only [Driver.step] at hstep
    split at hstep
    · cases hstep
    · next task htask =>
        cases hstep
        exact hkeeps.step reply htask
  | drop number =>
    cases hstep
    rw [List.append_nil]
    exact hkeeps.drop number

end Driver.Keeps

/-- No published sample carries a rate its axis has left: after the send of a stop returned and until
a later `:I` is recorded the period is 0; a period that is not 0 is that of an `:I` after a
tracking-mode `:G`, with no goto `:G` and no stop between the `:I` and the copy; and after a seed
returned, the count is one that a later `:j` read, or that this or a later `:E` wrote. -/
theorem published_of_run {moves : List (Move S)} {log : List Note} {s : Driver S}
    (h : Driver.Run moves log s) (axis : Axis) :
    (∀ stopped, .returned axis stopped ∈ log →
      (∀ period sent, .period axis period sent ∈ log → sent < stopped) →
      (s.shared.snapshot axis).stepPeriod = 0) ∧
    ((s.shared.snapshot axis).stepPeriod ≠ 0 →
      ∃ mode sent copied, .tracking axis mode ∈ log ∧
        .period axis (s.shared.snapshot axis).stepPeriod sent ∈ log ∧
        .copied axis (s.shared.snapshot axis).stepPeriod copied ∈ log ∧
        mode < sent ∧ sent < copied ∧
        ∀ ended, .ended axis ended ∈ log → ¬ (sent < ended ∧ ended < copied)) ∧
    ∀ sentAt, .seeded axis sentAt ∈ log →
      ∃ time : ℕ, (s.shared.snapshot axis).sampledAt = time ∧ sentAt ≤ time ∧
        (.read axis (s.shared.snapshot axis).positionTicks time ∈ log ∨
          .wrote axis (s.shared.snapshot axis).positionTicks time ∈ log) := by
  have hkeeps := Driver.Keeps.run h
  refine ⟨?_, ?_, ?_⟩
  · intro stopped hreturned hlater
    by_contra hne
    obtain ⟨sent, hle, hsent⟩ := (hkeeps.returned axis stopped hreturned).period hne
    have := hlater _ sent hsent
    omega
  · intro hne
    obtain ⟨copied, mode, sent, hcopied⟩ := (hkeeps.books.cached axis).period hne
    exact ⟨mode, sent, copied, hcopied⟩
  · intro sentAt hseeded
    have hle := hkeeps.seeded axis sentAt hseeded
    obtain ⟨time, htime⟩ := WithBot.ne_bot_iff_exists.mp
      (ne_bot_of_le_ne_bot WithBot.coe_ne_bot hle)
    refine ⟨time, htime.symm, ?_, (hkeeps.books.cached axis).count time htime.symm⟩
    rw [← htime] at hle
    exact WithBot.coe_le_coe.mp hle

/-- RA is stopped, and read once more. -/
def stopping : List (Move Unit) :=
  [.start 0 (.send (.stopMotion .ra)), .step 0 .acked, .step 0 .acked, .step 0 .acked, .step 0 .acked,
    .step 0 (.position 7), .step 0 (.status ()), .step 0 .acked, .step 0 .acked]

theorem published_of_run_stopping : ∃ log s,
    Driver.Run stopping log s ∧ (s.shared.snapshot .ra).stepPeriod = 0 := by
  have hrun : Driver.Run stopping [.ended .ra 3, .read .ra 7 5, .copied .ra 0 7, .returned .ra 3] _ :=
    History.of_play rfl
  exact ⟨_, _, hrun, (published_of_run hrun .ra).1 3 (by decide) (by simp)⟩

end RustyPhoton.StarAdventurer.Samples
