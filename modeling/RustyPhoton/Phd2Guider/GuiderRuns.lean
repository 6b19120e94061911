import RustyPhoton.Phd2Guider.Exclusion

/-!
# Runs of the guider

One task at most holds the lock, and every mutation that holds it sees no hold of the camera from
its check on. Renewals, releases, the stop, the timers and the reports run beside it without the
lock.
-/

namespace RustyPhoton.Phd2Guider

open LeaseBook

variable {rfc3339 : Nat → String} {wall : Nat → Nat → String} {grace stopTimeout : Nat}
  {stopTimeoutText : String}

/-- What holds after every step. -/
structure Guider.Excludes (s : Guider) : Prop where
  bounded : ∀ number, s.ops.opLock = some number → number < s.tasks.length
  holder : ∀ (number : Nat) (task : Task), s.tasks[number]? = some task →
    (task.holds = true ↔ s.ops.opLock = some number)
  clear : ∀ (number : Nat) (task : Task), s.tasks[number]? = some task → task.Clear s.ops s.clock

namespace Guider

variable {s s' : Guider}

theorem excludes_new : new.Excludes :=
  ⟨nofun, fun number task h => by simp [new] at h, fun number task h => by simp [new] at h⟩

/-- A step beside the tasks. -/
theorem Excludes.beside (h : s.Excludes) (htasks : s'.tasks = s.tasks)
    (hlock : s'.ops.opLock = s.ops.opLock) (hle : s.clock ≤ s'.clock)
    (hslot : s.ops.SlotClear s.clock → s'.ops.SlotClear s'.clock)
    (hlease : s.ops.LeaseClear s.clock → s'.ops.LeaseClear s'.clock) : s'.Excludes := by
  refine ⟨?_, ?_, ?_⟩
  · rw [hlock, htasks]
    exact h.bounded
  · rw [hlock, htasks]
    exact h.holder
  · rw [htasks]
    intro number task hin
    exact (h.clear number task hin).keep hle hslot hlease

/-- A step that only changes the lease, and makes none live. -/
theorem Excludes.lease (h : s.Excludes) {book : LeaseBook}
    (hbook : ∀ token, book.Live token s.clock → s.ops.lease.Live token s.clock) :
    Excludes { s with ops := { s.ops with lease := book } } :=
  h.beside rfl rfl (Nat.le_refl _) id fun hclear token hlive => hclear token (hbook token hlive)

variable {task : Task}

theorem Excludes.spawn (h : s.Excludes) (hholds : task.holds = false) :
    Excludes { s with tasks := s.tasks ++ [task] } := by
  refine ⟨?_, ?_, ?_⟩
  · intro number hlock
    show number < (s.tasks ++ [task]).length
    rw [List.length_append]
    exact Nat.lt_of_lt_of_le (h.bounded number hlock) (Nat.le_add_right _ _)
  · intro number other hin
    rw [List.getElem?_append] at hin
    split at hin
    · exact h.holder number other hin
    · rename_i hnot
      have hother := List.mem_singleton.mp (List.mem_of_getElem? hin)
      rw [hother, hholds]
      exact ⟨nofun, fun hlock => absurd (h.bounded number hlock) hnot⟩
  · intro number other hin
    rw [List.getElem?_append] at hin
    split at hin
    · exact h.clear number other hin
    · rw [List.mem_singleton.mp (List.mem_of_getElem? hin)]
      exact clear_of_not_holds hholds

/-- A task is dropped. -/
theorem Excludes.drop (h : s.Excludes) (dropped : Nat) :
    Excludes { s with
      ops := if s.ops.opLock = some dropped then s.ops.unlock else s.ops
      tasks := s.tasks.set dropped (.done .nothing) } := by
  have hkept : ∀ number task, (s.tasks.set dropped (.done .nothing))[number]? = some task →
      (number = dropped ∧ task = .done .nothing) ∨
        (number ≠ dropped ∧ s.tasks[number]? = some task) := by
    intro number task hin
    rw [List.getElem?_set] at hin
    by_cases heq : dropped = number
    · rw [if_pos heq] at hin
      split at hin <;> cases hin
      exact .inl ⟨heq.symm, rfl⟩
    · rw [if_neg heq] at hin
      exact .inr ⟨Ne.symm heq, hin⟩
  by_cases hlock : s.ops.opLock = some dropped
  · rw [if_pos hlock]
    refine ⟨nofun, ?_, ?_⟩
    · intro number task hin
      rcases hkept number task hin with ⟨rfl, rfl⟩ | ⟨hne, hin⟩
      · exact ⟨nofun, nofun⟩
      · refine ⟨fun hholds => ?_, nofun⟩
        have hmine := (h.holder number task hin).mp hholds
        rw [hlock] at hmine
        exact absurd (Option.some.inj hmine).symm hne
    · intro number task hin
      rcases hkept number task hin with ⟨rfl, rfl⟩ | ⟨hne, hin⟩
      · trivial
      · exact (h.clear number task hin).keep (Nat.le_refl _) id id
  · rw [if_neg hlock]
    refine ⟨?_, ?_, ?_⟩
    · intro number hnumber
      show number < (s.tasks.set dropped _).length
      rw [List.length_set]
      exact h.bounded number hnumber
    · intro number task hin
      rcases hkept number task hin with ⟨rfl, rfl⟩ | ⟨hne, hin⟩
      · exact ⟨nofun, fun hmine => absurd hmine hlock⟩
      · exact h.holder number task hin
    · intro number task hin
      rcases hkept number task hin with ⟨rfl, rfl⟩ | ⟨hne, hin⟩
      · trivial
      · exact h.clear number task hin

/-- A task takes a step. -/
theorem Excludes.advance (h : s.Excludes) {number : Nat} {stage : Task} {input : TaskInput}
    {after : Advance} (hstage : s.tasks[number]? = some stage)
    (hafter : s.ops.advance rfc3339 wall grace stopTimeout stopTimeoutText s.clock number stage
      input = some after) :
    Excludes { s with ops := after.ops, tasks := s.tasks.set number after.task ++ after.spawned } := by
  have hsound := GuiderOps.advance_sound hafter (h.holder number stage hstage).mp
  obtain ⟨hlt, -⟩ := List.getElem?_eq_some_iff.mp hstage
  have hkept : ∀ other task, (s.tasks.set number after.task ++ after.spawned)[other]? = some task →
      (other = number ∧ task = after.task) ∨
        (other ≠ number ∧ s.tasks[other]? = some task) ∨
        (s.tasks.length ≤ other ∧ task.holds = false) := by
    intro other task hin
    rw [List.getElem?_append, List.length_set] at hin
    split at hin
    · rw [List.getElem?_set] at hin
      by_cases heq : number = other
      · rw [if_pos heq, if_pos hlt] at hin
        exact .inl ⟨heq.symm, (Option.some.inj hin).symm⟩
      · rw [if_neg heq] at hin
        exact .inr (.inl ⟨Ne.symm heq, hin⟩)
    · rename_i hnot
      exact .inr (.inr ⟨Nat.le_of_not_lt hnot, (hsound.spawned task (List.mem_of_getElem? hin)).1⟩)
  -- a lock that another task holds is neither given up nor taken
  have hothers : ∀ other, other ≠ number →
      (after.ops.opLock = some other ↔ s.ops.opLock = some other) := by
    intro other hne
    rw [hsound.lock]
    cases hholds : after.task.holds with
    | true =>
      cases hbefore : stage.holds with
      | true =>
        have hmine := (h.holder number stage hstage).mp hbefore
        rw [hmine]
        simp
      | false =>
        rw [hsound.free hholds hbefore]
        simp [Ne.symm hne]
    | false =>
      cases hbefore : stage.holds with
      | true =>
        have hmine := (h.holder number stage hstage).mp hbefore
        rw [hmine]
        simp [Ne.symm hne]
      | false => rfl
  refine ⟨?_, ?_, ?_⟩
  · intro other hlock
    show other < (s.tasks.set number after.task ++ after.spawned).length
    rw [List.length_append, List.length_set]
    by_cases heq : other = number
    · omega
    · have hbound := h.bounded other ((hothers other heq).mp hlock)
      omega
  · intro other task hin
    show task.holds = true ↔ after.ops.opLock = some other
    rcases hkept other task hin with ⟨rfl, rfl⟩ | ⟨hne, hin⟩ | ⟨hbeyond, hholds⟩
    · rw [hsound.lock]
      cases hholds : after.task.holds with
      | true => simp
      | false =>
        cases hbefore : stage.holds with
        | true => simp
        | false =>
          have hnot := (h.holder other stage hstage).not.mp (by rw [hbefore]; decide)
          simpa using hnot
    · rw [hothers other hne]
      exact h.holder other task hin
    · rw [hholds, hothers other (by omega)]
      exact ⟨nofun, fun hlock => absurd (h.bounded other hlock) (by omega)⟩
  · intro other task hin
    rcases hkept other task hin with ⟨rfl, rfl⟩ | ⟨hne, hin⟩ | ⟨hbeyond, hholds⟩
    · cases hmutating : after.task.mutating with
      | false => exact clear_of_not_mutating hmutating
      | true =>
        have hkind := hsound.kind hmutating
        cases stage with
        | mutation operation mutationStage =>
          exact mutate_clear hafter (h.clear other _ hstage)
        | _ => cases hkind
    · cases hholds : task.holds with
      | false => exact clear_of_not_holds hholds
      | true =>
        -- another task holds the lock, so this one grants nothing
        have hlock := (h.holder other task hin).mp hholds
        have hnot : after.effect.grants ≠ true := by
          intro hgrants
          have hmine := (h.holder number stage hstage).mp (hsound.grants hgrants).1
          rw [hlock] at hmine
          exact hne (Option.some.inj hmine)
        refine (h.clear other task hin).keep (Nat.le_refl _) (hsound.slot ?_ _) ?_
        · intro heffect
          rw [heffect] at hnot
          exact hnot rfl
        · intro hclear token hlive
          refine hclear token (hsound.lease token ?_ hlive)
          intro heffect
          rw [heffect] at hnot
          exact hnot rfl
    · exact clear_of_not_holds hholds

variable {event : GuiderEvent} {effect : Effect}

theorem Excludes.step (h : s.Excludes)
    (hstep : s.step rfc3339 wall grace stopTimeout stopTimeoutText event = some (effect, s')) :
    s'.Excludes := by
  cases event with
  | tick elapsed =>
    cases hstep
    have hle : s.clock ≤ s.clock + elapsed := Nat.le_add_right _ _
    exact h.beside rfl rfl hle (fun hclear => slotClear_later hclear hle)
      (fun hclear => leaseClear_later hclear hle)
  | spawn request =>
    cases hstep
    refine h.spawn ?_
    cases request <;> rfl
  | advance number input =>
    obtain ⟨stage, hstage, hnext⟩ := Option.bind_eq_some_iff.mp hstep
    obtain ⟨after, hafter, hdone⟩ := Option.bind_eq_some_iff.mp hnext
    cases hdone
    exact h.advance hstage hafter
  | drop dropped =>
    cases hstep
    exact h.drop dropped
  | renew token =>
    have hrenew : ∀ other,
        (s.ops.lease.renew wall token s.clock).2.Live other s.clock →
          s.ops.lease.Live other s.clock := fun other => live_of_renew
    simp only [Guider.step] at hstep
    split at hstep
    all_goals
      rename_i heq
      rw [heq] at hrenew
      cases hstep
      exact h.lease hrenew
  | release token =>
    cases hstep
    exact h.lease fun other hlive => (live_of_release hlive).2
  | disconnect =>
    cases hstep
    exact h.lease fun other hlive => absurd hlive (not_live_endLease .disconnected)

variable {events : List GuiderEvent} {effects : List Effect}

theorem Excludes.run (h : s.Excludes)
    (hrun : s.run rfc3339 wall grace stopTimeout stopTimeoutText events = some (effects, s')) :
    s'.Excludes := by
  induction events generalizing s effects with
  | nil =>
    cases hrun
    exact h
  | cons event rest ih =>
    obtain ⟨⟨effect, mid⟩, hstep, hnext⟩ := Option.bind_eq_some_iff.mp hrun
    obtain ⟨⟨more, last⟩, hrest, hdone⟩ := Option.bind_eq_some_iff.mp hnext
    cases hdone
    exact ih (h.step hstep) hrest

/-- A mutation sends its requests while no camera hold is live. -/
theorem Excludes.rpc (h : s.Excludes)
    (hstep : s.step rfc3339 wall grace stopTimeout stopTimeoutText event =
      some (.mutationRpc, s')) : s.ops.SlotClear s.clock ∧ s.ops.LeaseClear s.clock := by
  cases event with
  | advance number input =>
    obtain ⟨stage, hstage, hnext⟩ := Option.bind_eq_some_iff.mp hstep
    obtain ⟨after, hafter, hdone⟩ := Option.bind_eq_some_iff.mp hnext
    obtain ⟨heffect, -⟩ := Prod.mk.inj (Option.some.inj hdone)
    have hsound := GuiderOps.advance_sound hafter (h.holder number stage hstage).mp
    obtain ⟨operation, rpc, rfl⟩ := hsound.rpc heffect
    exact h.clear number _ hstage
  | renew token =>
    simp only [Guider.step] at hstep
    split at hstep <;> cases hstep
  | _ => cases hstep

/-- Whoever is granted a hold of the camera holds the lock, and is no mutation. -/
theorem Excludes.granted (h : s.Excludes)
    (hstep : s.step rfc3339 wall grace stopTimeout stopTimeoutText event = some (effect, s'))
    (hgrants : effect.grants = true) (hin : task ∈ s.tasks) :
    task.underway = false := by
  obtain ⟨other, hother⟩ := List.mem_iff_getElem?.mp hin
  cases event with
  | advance number input =>
    obtain ⟨stage, hstage, hnext⟩ := Option.bind_eq_some_iff.mp hstep
    obtain ⟨after, hafter, hdone⟩ := Option.bind_eq_some_iff.mp hnext
    obtain ⟨heffect, -⟩ := Prod.mk.inj (Option.some.inj hdone)
    have hsound := GuiderOps.advance_sound hafter (h.holder number stage hstage).mp
    rw [← heffect] at hgrants
    obtain ⟨hholds, hmutating⟩ := hsound.grants hgrants
    unfold Task.underway
    cases htask : task.holds with
    | false => rw [Bool.and_false]
    | true =>
      have hmine := (h.holder number stage hstage).mp hholds
      rw [(h.holder other task hother).mp htask] at hmine
      cases hmine
      rw [hother] at hstage
      rw [Option.some.inj hstage, hmutating]
      rfl
  | renew token =>
    simp only [Guider.step] at hstep
    split at hstep <;> cases hstep <;> cases hgrants
  | _ => cases hstep; cases hgrants

variable {token : Token}

/-- A lease that is not live is only live again once it is granted, and cannot be renewed before. -/
theorem Excludes.dead (h : s.Excludes)
    (hstep : s.step rfc3339 wall grace stopTimeout stopTimeoutText event = some (effect, s'))
    (hdead : ¬ s.ops.lease.Live token s.clock) (hgrant : effect ≠ .leaseGranted token) :
    effect ≠ .leaseRenewed token ∧ ¬ s'.ops.lease.Live token s'.clock := by
  cases event with
  | tick elapsed =>
    cases hstep
    exact ⟨nofun, fun hlive => hdead (hlive.mono (Nat.le_add_right _ _))⟩
  | spawn request =>
    cases hstep
    exact ⟨nofun, hdead⟩
  | advance number input =>
    obtain ⟨stage, hstage, hnext⟩ := Option.bind_eq_some_iff.mp hstep
    obtain ⟨after, hafter, hdone⟩ := Option.bind_eq_some_iff.mp hnext
    have hsound := GuiderOps.advance_sound hafter (h.holder number stage hstage).mp
    cases hdone
    exact ⟨hsound.renews token, fun hlive => hdead (hsound.lease token hgrant hlive)⟩
  | drop dropped =>
    cases hstep
    refine ⟨nofun, fun hlive => hdead ?_⟩
    dsimp only at hlive
    split at hlive <;> exact hlive
  | renew other =>
    have hrenew : (s.ops.lease.renew wall other s.clock).2.Live token s.clock →
          s.ops.lease.Live token s.clock := live_of_renew
    simp only [Guider.step] at hstep
    split at hstep
    all_goals
      rename_i heq
      rw [heq] at hrenew
      cases hstep
    · refine ⟨fun heffect => hdead ?_, fun hlive => hdead (hrenew hlive)⟩
      cases heffect
      exact live_of_renewed heq
    · exact ⟨nofun, fun hlive => hdead (hrenew hlive)⟩
  | release other =>
    cases hstep
    exact ⟨nofun, fun hlive => hdead (live_of_release hlive).2⟩
  | disconnect =>
    cases hstep
    exact ⟨nofun, not_live_endLease .disconnected⟩

theorem Excludes.dead_run (h : s.Excludes)
    (hrun : s.run rfc3339 wall grace stopTimeout stopTimeoutText events = some (effects, s'))
    (hdead : ¬ s.ops.lease.Live token s.clock) (hgrant : Effect.leaseGranted token ∉ effects) :
    Effect.leaseRenewed token ∉ effects ∧ ¬ s'.ops.lease.Live token s'.clock := by
  induction events generalizing s effects with
  | nil =>
    cases hrun
    exact ⟨nofun, hdead⟩
  | cons event rest ih =>
    obtain ⟨⟨effect, mid⟩, hstep, hnext⟩ := Option.bind_eq_some_iff.mp hrun
    obtain ⟨⟨more, last⟩, hrest, hdone⟩ := Option.bind_eq_some_iff.mp hnext
    cases hdone
    rw [List.mem_cons, not_or] at hgrant
    obtain ⟨hrenew, hstill⟩ := h.dead hstep hdead (Ne.symm hgrant.1)
    obtain ⟨hnone, hlast⟩ := ih (h.step hstep) hrest hstill hgrant.2
    exact ⟨fun hin => (List.mem_cons.mp hin).elim (fun heq => hrenew heq.symm) hnone, hlast⟩

/-- A release and the ends of a lease leave it not live. -/
theorem ends_of_step
    (hstep : s.step rfc3339 wall grace stopTimeout stopTimeoutText event = some (effect, s'))
    (hends : event = .release token ∨ event = .disconnect ∨
      ∃ number, s.tasks[number]? = some (.stop .endingLease) ∧ event = .advance number .next) :
    ¬ s'.ops.lease.Live token s'.clock := by
  rcases hends with rfl | rfl | ⟨number, hstage, rfl⟩
  · cases hstep
    exact fun hlive => (live_of_release hlive).1 rfl
  · cases hstep
    exact not_live_endLease .disconnected
  · obtain ⟨stage, hfound, hnext⟩ := Option.bind_eq_some_iff.mp hstep
    rw [hstage] at hfound
    cases hfound
    cases hnext
    exact not_live_endLease .stopped

end Guider

/-- In every run, a mutation sends its requests only while no unexpired frame claim and no lease is
held; a capture or a lease is granted only while no mutation is between its check and its return;
and a lease that was released, ended by a stop or a disconnect, or has expired, is neither renewed
nor live again unless its token is granted again. -/
theorem excludes_of_run (rfc3339 : Nat → String) (wall : Nat → Nat → String)
    (grace stopTimeout : Nat) (stopTimeoutText : String) (events : List GuiderEvent)
    (effects : List Effect) (s : Guider)
    (hrun : Guider.new.run rfc3339 wall grace stopTimeout stopTimeoutText events =
      some (effects, s)) :
    (∀ event effect s',
      s.step rfc3339 wall grace stopTimeout stopTimeoutText event = some (effect, s') →
      (effect = .mutationRpc → s.ops.captureClaim s.clock = none ∧
        ∀ token, ¬ s.ops.lease.Live token s.clock) ∧
      (effect.grants = true → ∀ task ∈ s.tasks, task.underway = false) ∧
      ∀ token, (event = .release token ∨ event = .disconnect ∨
        ∃ number, s.tasks[number]? = some (.stop .endingLease) ∧ event = .advance number .next) →
          ¬ s'.ops.lease.Live token s'.clock) ∧
    ∀ more effects' s' token,
      s.run rfc3339 wall grace stopTimeout stopTimeoutText more = some (effects', s') →
      ¬ s.ops.lease.Live token s.clock → Effect.leaseGranted token ∉ effects' →
        Effect.leaseRenewed token ∉ effects' ∧ ¬ s'.ops.lease.Live token s'.clock := by
  have h := Guider.excludes_new.run hrun
  refine ⟨?_, ?_⟩
  · intro event effect s' hstep
    refine ⟨?_, ?_, ?_⟩
    · rintro rfl
      exact h.rpc hstep
    · intro hgrants task hin
      exact h.granted hstep hgrants hin
    · intro token hends
      exact Guider.ends_of_step hstep hends
  · intro more effects' s' token hmore hdead hgrant
    exact h.dead_run hmore hdead hgrant

/-- An acquire that is granted, and released at once. -/
def releasedAtOnce : List GuiderEvent :=
  [.spawn (.acquire ⟨sweepToken, 60⟩), .advance 0 .next, .advance 0 .next,
    .advance 0 .next, .advance 0 .next, .advance 0 (.state (.ok .stopped)), .advance 0 .next,
    .release sweepToken]

/-- The lease of that run does not come back under a renewal. -/
theorem excludes_of_released :
    ∃ effects s, Guider.new.run (fun _ => "") (fun _ _ => "") 0 0 "" releasedAtOnce =
        some (effects, s) ∧ Effect.leaseGranted sweepToken ∈ effects ∧
      ∀ more effects' s', s.run (fun _ => "") (fun _ _ => "") 0 0 "" more = some (effects', s') →
        Effect.leaseGranted sweepToken ∉ effects' →
          Effect.leaseRenewed sweepToken ∉ effects' := by
  refine ⟨_, _, rfl, ?_, ?_⟩
  · simp
  · intro more effects' s' hmore hgrant
    refine ((excludes_of_run _ _ _ _ _ releasedAtOnce _ _ rfl).2 more effects' s' _ hmore ?_ hgrant).1
    rintro ⟨held, hheld, -⟩
    cases hheld

end RustyPhoton.Phd2Guider
