import RustyPhoton.Phd2Guider.CameraSteps

/-!
# The camera publishes the exposure its session waits for, and no other

An exposure under way has its capture, at a stage that fits, so a capture never ends before its
exposure has left, and whoever made it leave fires `exposure_ended` next.
-/

namespace RustyPhoton.Phd2Guider.Facade

section

-- the equations every proof below unfolds, computed once
attribute [local simp] Session.capture Session.advance Session.commit Session.leave Camera.step
  Session.cancelStart Session.accept

end

/-- `exposure_ended` fired after the exposure left. -/
def Notified (log : List Note) (generation : ℕ) : Prop :=
  ∃ before after, log = before ++ .left generation :: after ∧ .notified ∈ after

variable {log notes : List Note} {generation : ℕ}

theorem Notified.append (h : Notified log generation) :
    Notified (log ++ notes) generation := by
  obtain ⟨before, after, rfl, hmem⟩ := h
  exact ⟨before, after ++ notes, by simp, List.mem_append_left _ hmem⟩

theorem notified_of_left (h : .left generation ∈ log) :
    Notified (log ++ [.notified]) generation := by
  obtain ⟨before, after, rfl⟩ := List.append_of_mem h
  exact ⟨before, after ++ [.notified], by simp, by simp⟩

/-- What every interleaving keeps. -/
structure Camera.Keeps (log : List Note) (s : Camera) : Prop where
  session : s.session.Keeps log
  older : ∀ number generation exposureMs geometry subframe stage,
    s.tasks number = some (.capture generation exposureMs geometry subframe stage) →
      generation ≤ s.session.generation
  sole : ∀ number number' generation exposureMs exposureMs' geometry geometry' subframe subframe'
    stage stage',
    s.tasks number = some (.capture generation exposureMs geometry subframe stage) →
    s.tasks number' = some (.capture generation exposureMs' geometry' subframe' stage') →
      number = number'
  fits : ∀ number generation exposureMs geometry subframe stage,
    s.tasks number = some (.capture generation exposureMs geometry subframe stage) →
      ∀ aborting, s.session.exposure.current = some (generation, aborting) →
        s.session.exposure.fits stage = true
  owned : ∀ generation aborting, s.session.exposure.current = some (generation, aborting) →
    ∃ number exposureMs geometry subframe stage,
      s.tasks number = some (.capture generation exposureMs geometry subframe stage)
  notified : ∀ generation, .left generation ∈ log →
    Notified log generation ∨ ∃ number, s.tasks number = some (.notify (some generation))

theorem Change.generation_le {s s' : Session} (h : Change s s' notes) :
    s.generation ≤ s'.generation := by
  cases h <;> omega

namespace Camera.Keeps

variable {log : List Note} {s : Camera}

theorem new : Camera.new.Keeps [] where
  session := .new
  older := by
    intro _ _ _ _ _ _ h
    cases h
  sole := by
    intro _ _ _ _ _ _ _ _ _ _ _ h
    cases h
  fits := by
    intro _ _ _ _ _ _ h
    cases h
  owned := by
    intro _ _ h
    cases h
  notified := by simp

variable {number : ℕ}

/-- The tasks change where nothing becomes or was a capture or a notifier, and the session stays. -/
theorem retask (h : s.Keeps log) {next : Option Task} (lifecycle : Option ℕ)
    (hold : ∀ generation exposureMs geometry subframe stage,
      s.tasks number ≠ some (.capture generation exposureMs geometry subframe stage))
    (hsilent : ∀ generation, s.tasks number ≠ some (.notify generation))
    (hnext : ∀ generation exposureMs geometry subframe stage,
      next ≠ some (.capture generation exposureMs geometry subframe stage)) :
    Camera.Keeps log ⟨s.session, lifecycle, Function.update s.tasks number next⟩ := by
  have hback : ∀ other generation exposureMs geometry subframe stage,
      Function.update s.tasks number next other =
        some (.capture generation exposureMs geometry subframe stage) →
      s.tasks other = some (.capture generation exposureMs geometry subframe stage) := by
    intro other generation exposureMs geometry subframe stage hother
    by_cases heq : other = number
    · subst heq
      rw [Function.update_self] at hother
      exact absurd hother (hnext _ _ _ _ _)
    · rwa [Function.update_of_ne heq] at hother
  refine ⟨h.session, ?_, ?_, ?_, ?_, ?_⟩
  · intro other _ _ _ _ _ hother
    exact h.older other _ _ _ _ _ (hback _ _ _ _ _ _ hother)
  · intro other other' _ _ _ _ _ _ _ _ _ hother hother'
    exact h.sole other other' _ _ _ _ _ _ _ _ _ (hback _ _ _ _ _ _ hother)
      (hback _ _ _ _ _ _ hother')
  · intro other _ _ _ _ _ hother
    exact h.fits other _ _ _ _ _ (hback _ _ _ _ _ _ hother)
  · intro generation aborting hat
    obtain ⟨other, exposureMs, geometry, subframe, stage, hother⟩ := h.owned generation aborting hat
    have hne : other ≠ number := by
      intro heq
      exact hold _ _ _ _ _ (heq ▸ hother)
    exact ⟨other, exposureMs, geometry, subframe, stage,
      (Function.update_of_ne hne _ _).trans hother⟩
  · intro generation hleft
    rcases h.notified generation hleft with hdone | ⟨other, hother⟩
    · exact .inl hdone
    · have hne : other ≠ number := by
        intro heq
        exact hsilent _ (heq ▸ hother)
      exact .inr ⟨other, (Function.update_of_ne hne _ _).trans hother⟩

variable {checks : ℕ → Bool → Subframe → Geometry → Except String ℕ} {task : Task}
  {notes : List Note}

/-- A new exposure, with its capture. -/
theorem startExposure (h : s.Keeps log) (hfree : s.tasks number = none)
    {duration : ℕ} {light : Bool}
    {session : Session}
    (hstart : s.session.startExposure checks duration light = some (session, task, notes)) :
    Camera.Keeps (log ++ notes)
      ⟨session, s.lifecycle, Function.update s.tasks number (some task)⟩ := by
  obtain ⟨hidle, hexposure, hgeneration, rfl, exposureMs, geometry, rfl⟩ :=
    Session.startExposure_eq hstart
  have hcurrent : session.exposure.current = some (s.session.generation + 1, false) := by
    rw [hexposure]
    rfl
  have hself : Function.update s.tasks number (some (.capture (s.session.generation + 1) exposureMs
      geometry s.session.subframe .asking)) number = some (.capture (s.session.generation + 1)
        exposureMs geometry s.session.subframe .asking) := Function.update_self _ _ _
  have hback : ∀ other task, Function.update s.tasks number (some (.capture
      (s.session.generation + 1) exposureMs geometry s.session.subframe .asking)) other = some task →
      (other = number ∧ task = .capture (s.session.generation + 1) exposureMs geometry
        s.session.subframe .asking) ∨ s.tasks other = some task := by
    intro other task hother
    by_cases heq : other = number
    · subst heq
      exact .inl ⟨rfl, (Option.some.inj (hself.symm.trans hother)).symm⟩
    · exact .inr ((Function.update_of_ne heq _ _).symm.trans hother)
  refine ⟨h.session.change (.start hidle hcurrent hgeneration), ?_, ?_, ?_, ?_, ?_⟩
  · intro other _ _ _ _ _ hother
    rcases hback other _ hother with ⟨_, heq⟩ | hold
    · cases heq
      exact Nat.le_of_eq hgeneration.symm
    · have := h.older other _ _ _ _ _ hold
      simp only
      omega
  · intro other other' _ _ _ _ _ _ _ _ _ hother hother'
    rcases hback other _ hother with ⟨hnum, heq⟩ | hold
    · rcases hback other' _ hother' with ⟨hnum', _⟩ | hold'
      · rw [hnum, hnum']
      · cases heq
        have := h.older other' _ _ _ _ _ hold'
        omega
    · rcases hback other' _ hother' with ⟨_, heq'⟩ | hold'
      · cases heq'
        have := h.older other _ _ _ _ _ hold
        omega
      · exact h.sole other other' _ _ _ _ _ _ _ _ _ hold hold'
  · intro other _ _ _ _ _ hother aborting hat
    rcases hback other _ hother with ⟨_, heq⟩ | hold
    · cases heq
      rw [hexposure]
      rfl
    · rw [hcurrent] at hat
      cases hat
      have := h.older other _ _ _ _ _ hold
      omega
  · intro generation aborting hat
    rw [hcurrent] at hat
    cases hat
    exact ⟨number, _, _, _, _, hself⟩
  · intro generation hleft
    rcases h.notified generation (by simpa using hleft) with hdone | ⟨other, hother⟩
    · exact .inl hdone.append
    · have hne : other ≠ number := by
        intro heq
        rw [heq, hfree] at hother
        cases hother
      exact .inr ⟨other, (Function.update_of_ne hne _ _).trans hother⟩

variable {humantime : ℕ → String} {grace : ℕ}

/-- A step of a task. -/
theorem advance (h : s.Keeps log) (htask : s.tasks number = some task)
    {now : ℕ} {input : Input} {after : Advance}
    (hstep : s.session.advance humantime grace now task input = some after)
    (lifecycle : Option ℕ) :
    Camera.Keeps (log ++ after.notes)
      ⟨after.session, lifecycle, Function.update s.tasks number after.next⟩ := by
  have hchange := Session.advance_change hstep
  have hself : Function.update s.tasks number after.next number = after.next :=
    Function.update_self _ _ _
  have hothers : ∀ {other}, other ≠ number →
      Function.update s.tasks number after.next other = s.tasks other :=
    fun hne => Function.update_of_ne hne _ _
  by_cases hcapture : ∃ generation exposureMs geometry subframe stage,
      task = .capture generation exposureMs geometry subframe stage
  · obtain ⟨generation, exposureMs, geometry, subframe, stage, rfl⟩ := hcapture
    obtain ⟨hrest, hnext⟩ := Session.capture_leaves (h.fits number _ _ _ _ _ htask) hstep
    -- where a capture stands at the number, it is still this one
    have hmine : ∀ {generation' exposureMs' geometry' subframe' stage'},
        after.next = some (.capture generation' exposureMs' geometry' subframe' stage') →
        generation' = generation ∧ ∀ aborting,
          after.session.exposure.current = some (generation, aborting) →
            after.session.exposure.fits stage' = true := by
      intro generation' exposureMs' geometry' subframe' stage' heq
      rcases hnext with ⟨stage'', hgo, _, hfits⟩ | ⟨hgo, _⟩ | ⟨hgo, _⟩
      · rw [hgo] at heq
        cases heq
        exact ⟨rfl, hfits⟩
      · rw [hgo] at heq
        cases heq
      · rw [hgo] at heq
        cases heq
    refine ⟨h.session.change hchange, ?_, ?_, ?_, ?_, ?_⟩
    · intro other _ _ _ _ _ hother
      refine Nat.le_trans ?_ hchange.generation_le
      by_cases heq : other = number
      · subst heq
        rw [(hmine (hself.symm.trans hother)).1]
        exact h.older other _ _ _ _ _ htask
      · exact h.older other _ _ _ _ _ ((hothers heq).symm.trans hother)
    · intro other other' _ _ _ _ _ _ _ _ _ hother hother'
      by_cases heq : other = number
      · by_cases heq' : other' = number
        · rw [heq, heq']
        · subst heq
          obtain ⟨rfl, _⟩ := hmine (hself.symm.trans hother)
          exact h.sole _ _ _ _ _ _ _ _ _ _ _ htask ((hothers heq').symm.trans hother')
      · by_cases heq' : other' = number
        · subst heq'
          obtain ⟨rfl, _⟩ := hmine (hself.symm.trans hother')
          exact h.sole _ _ _ _ _ _ _ _ _ _ _ ((hothers heq).symm.trans hother) htask
        · exact h.sole _ _ _ _ _ _ _ _ _ _ _ ((hothers heq).symm.trans hother)
            ((hothers heq').symm.trans hother')
    · intro other generation' _ _ _ stage' hother aborting hat
      by_cases heq : other = number
      · subst heq
        obtain ⟨rfl, hfits⟩ := hmine (hself.symm.trans hother)
        exact hfits aborting hat
      · have hold := (hothers heq).symm.trans hother
        have hne : generation' ≠ generation := by
          rintro rfl
          exact heq (h.sole _ _ _ _ _ _ _ _ _ _ _ hold htask)
        have hsame := hrest generation' aborting hne hat
        simp only at hat ⊢
        rw [hsame] at hat ⊢
        exact h.fits other _ _ _ _ _ hold aborting hat
    · intro generation' aborting hat
      by_cases heq : generation' = generation
      · subst heq
        rcases hnext with ⟨stage', hgo, _⟩ | ⟨_, _, hnone⟩ | ⟨_, _, hnot⟩
        · exact ⟨number, _, _, _, stage', hself.trans hgo⟩
        · exact absurd (hnone.symm.trans hat) nofun
        · exact absurd hat (hnot aborting)
      · have hsame := hrest generation' aborting heq hat
        simp only at hat
        rw [hsame] at hat
        obtain ⟨other, exposureMs', geometry', subframe', stage', hother⟩ :=
          h.owned generation' aborting hat
        have hne : other ≠ number := by
          rintro rfl
          rw [htask] at hother
          cases hother
          exact heq rfl
        exact ⟨other, exposureMs', geometry', subframe', stage', (hothers hne).trans hother⟩
    · intro generation' hleft
      rcases List.mem_append.mp hleft with hleft | hleft
      · rcases h.notified generation' hleft with hdone | ⟨other, hother⟩
        · exact .inl hdone.append
        · have hne : other ≠ number := by
            rintro rfl
            rw [htask] at hother
            cases hother
          exact .inr ⟨other, (hothers hne).trans hother⟩
      · rcases hnext with ⟨_, _, hnotes, _⟩ | ⟨hgo, hnotes, _⟩ | ⟨_, hnotes, _⟩
        · rw [hnotes] at hleft
          cases hleft
        · rw [hnotes generation' hleft]
          exact .inr ⟨number, hself.trans hgo⟩
        · rw [hnotes] at hleft
          cases hleft
  · have hno : ∀ generation exposureMs geometry subframe stage,
        task ≠ .capture generation exposureMs geometry subframe stage := by
      intro generation exposureMs geometry subframe stage heq
      exact hcapture ⟨_, _, _, _, _, heq⟩
    obtain ⟨hphase, hnext, hleaves⟩ := Session.advance_leaves hstep hno
    have hback : ∀ other generation exposureMs geometry subframe stage,
        Function.update s.tasks number after.next other =
          some (.capture generation exposureMs geometry subframe stage) →
        s.tasks other = some (.capture generation exposureMs geometry subframe stage) := by
      intro other generation exposureMs geometry subframe stage hother
      by_cases heq : other = number
      · subst heq
        exact absurd (hself.symm.trans hother) (hnext _ _ _ _ _)
      · exact (hothers heq).symm.trans hother
    refine ⟨h.session.change hchange, ?_, ?_, ?_, ?_, ?_⟩
    · intro other _ _ _ _ _ hother
      exact Nat.le_trans (h.older other _ _ _ _ _ (hback _ _ _ _ _ _ hother)) hchange.generation_le
    · intro other other' _ _ _ _ _ _ _ _ _ hother hother'
      exact h.sole _ _ _ _ _ _ _ _ _ _ _ (hback _ _ _ _ _ _ hother) (hback _ _ _ _ _ _ hother')
    · intro other _ _ _ _ stage hother aborting hat
      obtain ⟨⟨was, hwas⟩, hfits⟩ := hphase _ aborting hat
      exact (hfits stage).trans (h.fits other _ _ _ _ _ (hback _ _ _ _ _ _ hother) was hwas)
    · intro generation aborting hat
      obtain ⟨⟨was, hwas⟩, _⟩ := hphase generation aborting hat
      obtain ⟨other, exposureMs, geometry, subframe, stage, hother⟩ := h.owned generation was hwas
      have hne : other ≠ number := by
        rintro rfl
        rw [htask] at hother
        exact hno _ _ _ _ _ (Option.some.inj hother)
      exact ⟨other, exposureMs, geometry, subframe, stage, (hothers hne).trans hother⟩
    · intro generation hleft
      rcases List.mem_append.mp hleft with hlog | hleft
      · rcases h.notified generation hlog with hdone | ⟨other, hother⟩
        · exact .inl hdone.append
        · by_cases heq : other = number
          · subst heq
            rw [htask] at hother
            cases hother
            -- the notifier takes its step
            cases input with
            | go =>
              cases hstep
              exact .inl (notified_of_left hlog)
            | _ => cases hstep
          · exact .inr ⟨other, (hothers heq).trans hother⟩
      · exact .inr ⟨number, hself.trans (hleaves generation hleft)⟩

theorem step (h : s.Keeps log) {move : Move} {s' : Camera}
    (hstep : s.step checks humantime grace move = some (s', notes)) : s'.Keeps (log ++ notes) := by
  cases move with
  | call number call =>
    simp only [Camera.step] at hstep
    split at hstep
    · cases hstep
    · next hfree =>
        cases call with
        | startExposure duration light =>
          simp only [Camera.start] at hstep
          split at hstep
          · next hstart =>
              cases hstep
              exact h.startExposure hfree hstart
          · cases hstep
            rwa [List.append_nil]
        | abortExposure | setConnected connected =>
          cases hstep
          rw [List.append_nil]
          exact h.retask s.lifecycle (by simp [hfree]) (by simp [hfree]) (by simp)
  | step number now input =>
    simp only [Camera.step] at hstep
    split at hstep
    · cases hstep
    · next connected htask =>
        split at hstep
        · cases hstep
        · cases hstep
          rw [List.append_nil]
          refine h.retask _ (by simp [htask]) (by simp [htask]) ?_
          cases connected <;> simp
    · next task _ htask =>
        split at hstep
        · cases hstep
        · next after hadvance =>
            cases hstep
            exact h.advance htask hadvance _
  | drop number =>
    simp only [Camera.step] at hstep
    split at hstep
    · cases hstep
    · next task htask =>
        split at hstep
        · next hawaits =>
            cases hstep
            rw [List.append_nil]
            refine h.retask _ ?_ ?_ (by simp)
            · intro generation exposureMs geometry subframe stage heq
              rw [htask] at heq
              cases heq
              cases hawaits
            · intro generation heq
              rw [htask] at heq
              cases heq
              cases hawaits
        · cases hstep

theorem run {moves : List Move} (h : Camera.Run checks humantime grace moves log s) :
    s.Keeps log :=
  Lib.History.invariant h (fun log s => s.Keeps log) .new fun hkeeps _ hstep => hkeeps.step hstep

end Camera.Keeps

/-! ## An exposure that was accepted leaves -/

section

variable {checks : ℕ → Bool → Subframe → Geometry → Except String ℕ} {humantime : ℕ → String}
  {grace : ℕ} {moves : List Move} {log : List Note} {s : Camera}

/-- After more moves the exposure has left. -/
def Ends (checks : ℕ → Bool → Subframe → Geometry → Except String ℕ) (humantime : ℕ → String)
    (grace : ℕ) (moves : List Move) (generation : ℕ) : Prop :=
  ∃ more log s, Camera.Run checks humantime grace (moves ++ more) log s ∧ .left generation ∈ log

/-- The capture of an exposure under way is at a stage. -/
structure Capturing (checks : ℕ → Bool → Subframe → Geometry → Except String ℕ)
    (humantime : ℕ → String) (grace : ℕ) (moves : List Move) (log : List Note) (s : Camera)
    (number generation : ℕ) (stage : CaptureStage) : Prop where
  run : Camera.Run checks humantime grace moves log s
  task : ∃ exposureMs geometry subframe,
    s.tasks number = some (.capture generation exposureMs geometry subframe stage)
  current : ∃ aborting, s.session.exposure.current = some (generation, aborting)

variable {number generation : ℕ} {stage : CaptureStage}

theorem Capturing.fits (h : Capturing checks humantime grace moves log s number generation stage) :
    s.session.exposure.fits stage = true := by
  obtain ⟨_, _, _, htask⟩ := h.task
  obtain ⟨aborting, hcurrent⟩ := h.current
  exact (Camera.Keeps.run h.run).fits number _ _ _ _ _ htask aborting hcurrent

/-- A step that makes the exposure leave. -/
theorem Capturing.ends_of_left
    (h : Capturing checks humantime grace moves log s number generation stage) (input : Input)
    (hstep : ∀ exposureMs geometry subframe, ∃ after,
      s.session.capture humantime grace 0 generation exposureMs geometry subframe stage input =
        some after ∧ .left generation ∈ after.notes) :
    Ends checks humantime grace moves generation := by
  obtain ⟨exposureMs, geometry, subframe, htask⟩ := h.task
  obtain ⟨after, hafter, hleft⟩ := hstep exposureMs geometry subframe
  have hmove : s.step checks humantime grace (.step number 0 input) =
      some (⟨after.session, Camera.unlock s.lifecycle number after.next,
        Function.update s.tasks number after.next⟩, after.notes) := by
    simp [Camera.step, htask, Session.advance, hafter]
  exact ⟨[.step number 0 input], _, _, h.run.snoc trivial hmove, List.mem_append_right _ hleft⟩

/-- A step to another stage, from which the exposure ends. -/
theorem Capturing.ends_of_next
    (h : Capturing checks humantime grace moves log s number generation stage) (input : Input)
    (stage' : CaptureStage)
    (hstep : ∀ exposureMs geometry subframe, ∃ session,
      s.session.capture humantime grace 0 generation exposureMs geometry subframe stage input =
        some ⟨session, some (.capture generation exposureMs geometry subframe stage'), []⟩)
    (hnext : ∀ {moves log s}, Capturing checks humantime grace moves log s number generation stage' →
      Ends checks humantime grace moves generation) :
    Ends checks humantime grace moves generation := by
  obtain ⟨exposureMs, geometry, subframe, htask⟩ := h.task
  obtain ⟨aborting, hcurrent⟩ := h.current
  obtain ⟨session, hafter⟩ := hstep exposureMs geometry subframe
  have hmove : s.step checks humantime grace (.step number 0 input) =
      some (⟨session, s.lifecycle, Function.update s.tasks number
        (some (.capture generation exposureMs geometry subframe stage'))⟩, []) := by
    simp [Camera.step, htask, Session.advance, hafter, Camera.unlock]
  have hrun := h.run.snoc trivial hmove
  rw [List.append_nil] at hrun
  have hstarted := ((Camera.Keeps.run h.run).session.current generation aborting hcurrent).1.mem
  by_cases hleft : .left generation ∈ log
  · exact ⟨[.step number 0 input], log, _, hrun, hleft⟩
  · have hat : ∃ aborting, session.exposure.current = some (generation, aborting) := by
      by_contra hnot
      exact hleft ((Camera.Keeps.run hrun).session.gone generation hstarted
        fun aborting hat => hnot ⟨aborting, hat⟩)
    obtain ⟨more, log', s', hmore, hdone⟩ :=
      hnext ⟨hrun, ⟨_, _, _, Function.update_self _ _ _⟩, hat⟩
    exact ⟨.step number 0 input :: more, log', s', by simpa using hmore, hdone⟩

theorem ends_of_committing {outcome : Except String Image}
    (h : Capturing checks humantime grace moves log s number generation (.committing outcome)) :
    Ends checks humantime grace moves generation := by
  have hfits := h.fits
  obtain ⟨aborting, hcurrent⟩ := h.current
  have hcommit : ∃ session notes,
      s.session.commit generation outcome = some (session, notes) := by
    cases hexposure : s.session.exposure with
    | inFlight current path was | reading current was =>
      rw [hexposure] at hcurrent
      cases hcurrent
      exact ⟨_, _, by simp only [Session.commit, hexposure, if_true]; rfl⟩
    | _ =>
      rw [hexposure] at hfits
      cases hfits
  obtain ⟨session, notes, hcommit⟩ := hcommit
  refine h.ends_of_left .go fun _ _ _ =>
    ⟨⟨session, some (.notify (some generation)), notes⟩, ?_, (Session.commit_change hcommit).2⟩
  simp [Session.capture, Session.leave, hcommit]

theorem ends_of_cancelling
    (h : Capturing checks humantime grace moves log s number generation .cancelling) :
    Ends checks humantime grace moves generation := by
  have hfits := h.fits
  obtain ⟨aborting, hcurrent⟩ := h.current
  have hcancel : ∃ session notes, s.session.cancelStart generation = some (session, notes) := by
    cases hexposure : s.session.exposure with
    | starting current was =>
      rw [hexposure] at hcurrent
      cases hcurrent
      exact ⟨_, _, by simp only [Session.cancelStart, hexposure, if_true]; rfl⟩
    | _ =>
      rw [hexposure] at hfits
      cases hfits
  obtain ⟨session, notes, hcancel⟩ := hcancel
  refine h.ends_of_left .go fun _ _ _ =>
    ⟨⟨session, some (.notify (some generation)), notes⟩, ?_, (Session.cancelStart_change hcancel).2⟩
  simp [Session.capture, Session.leave, hcancel]

theorem ends_of_asking
    (h : Capturing checks humantime grace moves log s number generation .asking) :
    Ends checks humantime grace moves generation :=
  h.ends_of_next (.answer (.error "")) .cancelling (fun _ _ _ => ⟨s.session, rfl⟩) ends_of_cancelling

variable {path : String}

theorem ends_of_reading
    (h : Capturing checks humantime grace moves log s number generation (.reading path)) :
    Ends checks humantime grace moves generation :=
  h.ends_of_next (.read none) _ (fun _ _ _ => ⟨s.session, rfl⟩) ends_of_committing

theorem ends_of_saved
    (h : Capturing checks humantime grace moves log s number generation (.saved path)) :
    Ends checks humantime grace moves generation := by
  by_cases hwanted : (s.session.startReading generation).1 = true
  · refine h.ends_of_next .go (.reading path) (fun _ _ _ => ?_) ends_of_reading
    exact ⟨_, by simp only [Session.capture, if_pos hwanted]; rfl⟩
  · refine h.ends_of_next .go (.committing (.error (Session.endText humantime .saved))) (fun _ _ _ => ?_)
      ends_of_committing
    exact ⟨_, by simp only [Session.capture, if_neg hwanted]; rfl⟩

theorem ends_of_waiting
    (h : Capturing checks humantime grace moves log s number generation (.waiting path)) :
    Ends checks humantime grace moves generation :=
  h.ends_of_next (.frameEnd (.notReported 0)) _ (fun _ _ _ => ⟨s.session, rfl⟩)
    ends_of_committing

theorem ends_of_sweeping
    (h : Capturing checks humantime grace moves log s number generation (.sweeping path)) :
    Ends checks humantime grace moves generation :=
  h.ends_of_next .go (.waiting path) (fun _ _ _ => ⟨s.session, rfl⟩) ends_of_waiting

theorem ends_of_accepting
    (h : Capturing checks humantime grace moves log s number generation (.accepting path)) :
    Ends checks humantime grace moves generation := by
  obtain ⟨exposureMs, geometry, subframe, htask⟩ := h.task
  have haccepted : ∀ exposureMs', (s.session.accept generation 0 exposureMs' path).1 =
      (s.session.accept generation 0 exposureMs path).1 := by
    intro exposureMs'
    unfold Session.accept
    split
    · split <;> rfl
    · rfl
  by_cases hwanted : (s.session.accept generation 0 exposureMs path).1 = some false
  · refine h.ends_of_next .go (.sweeping path) (fun _ _ _ => ?_)
      ends_of_sweeping
    exact ⟨_, by simp only [Session.capture, haccepted, if_pos hwanted]; rfl⟩
  · refine h.ends_of_next .go (.waiting path) (fun _ _ _ => ?_)
      ends_of_waiting
    exact ⟨_, by simp only [Session.capture, haccepted, if_neg hwanted]; rfl⟩

/-- Whatever its capture waits for ends, and then the exposure leaves. -/
theorem Capturing.ends (h : Capturing checks humantime grace moves log s number generation stage) :
    Ends checks humantime grace moves generation := by
  cases stage with
  | asking => exact ends_of_asking h
  | cancelling => exact ends_of_cancelling h
  | accepting path => exact ends_of_accepting h
  | sweeping path => exact ends_of_sweeping h
  | waiting path => exact ends_of_waiting h
  | saved path => exact ends_of_saved h
  | reading path => exact ends_of_reading h
  | committing outcome => exact ends_of_committing h

end

/-- Every argument is fine, and a read may take ten seconds. -/
def fineChecks (duration : ℕ) (_ : Bool) (_ : Subframe) (_ : Geometry) : Except String ℕ :=
  .ok duration

/-- A client connects and takes a frame of one pixel. -/
def oneFrame : List Move :=
  [.call 0 (.setConnected true), .step 0 0 .go, .step 0 0 .go, .step 0 0 (.geometry (.ok ⟨1, 1, ""⟩)),
    .call 1 (.startExposure 5 true), .step 1 0 (.answer (.ok "frame")), .step 1 0 .go, .step 1 0 .go,
    .step 1 0 (.frameEnd .saved), .step 1 0 .go, .step 1 0 (.read (some (.ok ⟨1, 1, [7]⟩))),
    .step 1 0 .go, .step 1 0 .go]

end RustyPhoton.Phd2Guider.Facade
