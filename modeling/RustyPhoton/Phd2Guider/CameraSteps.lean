import RustyPhoton.Phd2Guider.Camera

/-!
# What the steps of the camera's tasks leave

Every step changes the session in one of six ways, and the log tells of the session what was published
and how often an exposure left. The capture of an exposure goes on until its exposure has left.
-/

namespace RustyPhoton.Phd2Guider.Facade

open RustyPhoton.Lib (Justified)

/-! ## What a step does to the session -/

/-- The ways in which a session changes, with what is noted. -/
inductive Change (s s' : Session) : List Note → Prop where
  | quiet {notes : List Note} (hcurrent : s'.exposure.current = s.exposure.current)
      (hgeneration : s'.generation = s.generation) (hnotes : ∀ note ∈ notes, note = .notified) :
      Change s s' notes
  | abort {generation : ℕ} {aborting : Bool}
      (hcurrent : s.exposure.current = some (generation, aborting))
      (hcurrent' : s'.exposure.current = some (generation, true))
      (hgeneration : s'.generation = s.generation) : Change s s' [.aborted generation]
  | publish {generation : ℕ} {note : Note} (hcurrent : s.exposure.current = some (generation, false))
      (hcurrent' : s'.exposure.current = none) (hgeneration : s'.generation = s.generation)
      (hnote : note = .ready generation ∨ note = .failed generation) :
      Change s s' [note, .left generation]
  | leave {generation : ℕ} {aborting : Bool}
      (hcurrent : s.exposure.current = some (generation, aborting))
      (hcurrent' : s'.exposure.current = none) (hgeneration : s'.generation = s.generation) :
      Change s s' [.left generation]
  | finish (hcurrent' : s'.exposure.current = none) (hgeneration : s'.generation = s.generation + 1) :
      Change s s' (s.leaving ++ [.ended])
  | start (hcurrent : s.exposure.current = none)
      (hcurrent' : s'.exposure.current = some (s.generation + 1, false))
      (hgeneration : s'.generation = s.generation + 1) :
      Change s s' [.started (s.generation + 1)]

theorem Change.same (s : Session) : Change s s [] := .quiet rfl rfl (by simp)

namespace Session

variable {s : Session}

theorem beginAbort_change : Change s s.beginAbort.2.1 s.beginAbort.2.2 := by
  unfold beginAbort
  cases h : s.exposure with
  | starting generation aborting => exact .abort (by rw [h]; rfl) rfl rfl
  | inFlight generation path aborting => exact .abort (by rw [h]; rfl) rfl rfl
  | reading generation aborting => exact .abort (by rw [h]; rfl) rfl rfl
  | idle => exact .same s
  | ready image => exact .same s
  | failed message => exact .same s

theorem accept_change (generation now exposureMs : ℕ) (path : String) :
    Change s (s.accept generation now exposureMs path).2 [] := by
  unfold accept
  split
  · next current aborting h =>
      split
      · next heq =>
          subst heq
          exact .quiet (by rw [h]; rfl) rfl (by simp)
      · exact .same s
  · exact .same s

theorem startReading_change (generation : ℕ) : Change s (s.startReading generation).2 [] := by
  unfold startReading
  split
  · next current path h =>
      split
      · next heq =>
          subst heq
          exact .quiet (by rw [h]; rfl) rfl (by simp)
      · exact .same s
  · exact .same s

theorem publish_change {generation : ℕ} {aborting : Bool} (outcome : Except String Image)
    (h : s.exposure.current = some (generation, aborting)) :
    Change s (s.publish generation aborting outcome).1 (s.publish generation aborting outcome).2 := by
  unfold publish
  cases aborting with
  | true => exact .leave h rfl rfl
  | false =>
    simp only [Bool.false_eq_true, if_false]
    split
    · exact .publish h rfl rfl (.inl rfl)
    · exact .publish h rfl rfl (.inr rfl)

variable {s' : Session} {notes : List Note}

theorem commit_change {generation : ℕ} {outcome : Except String Image}
    (h : s.commit generation outcome = some (s', notes)) :
    Change s s' notes ∧ .left generation ∈ notes := by
  have hleft : ∀ aborting, .left generation ∈ (s.publish generation aborting outcome).2 := by
    intro aborting
    unfold publish
    cases aborting with
    | true => simp
    | false =>
      simp only [Bool.false_eq_true, if_false]
      split <;> simp
  unfold commit at h
  split at h
  · next current path aborting hexposure =>
      split at h
      · next heq =>
          subst heq
          have hchange := publish_change outcome (by rw [hexposure]; rfl :
            s.exposure.current = some (current, aborting))
          have hl := hleft aborting
          rw [Option.some.inj h] at hchange hl
          exact ⟨hchange, hl⟩
      · cases h
  · next current aborting hexposure =>
      split at h
      · next heq =>
          subst heq
          have hchange := publish_change outcome (by rw [hexposure]; rfl :
            s.exposure.current = some (current, aborting))
          have hl := hleft aborting
          rw [Option.some.inj h] at hchange hl
          exact ⟨hchange, hl⟩
      · cases h
  · cases h

theorem cancelStart_change {generation : ℕ} (h : s.cancelStart generation = some (s', notes)) :
    Change s s' notes ∧ .left generation ∈ notes := by
  unfold cancelStart at h
  split at h
  · next current aborting hexposure =>
      split at h
      · next heq =>
          subst heq
          cases h
          exact ⟨.leave (by rw [hexposure]; rfl) rfl rfl, by simp⟩
      · cases h
  · cases h

variable {after : Advance}

theorem leave_change {generation : ℕ} {change : Option (Session × List Note)}
    (hchange : ∀ s' notes, change = some (s', notes) → Change s s' notes)
    (h : s.leave generation change = some after) : Change s after.session after.notes := by
  unfold leave at h
  split at h
  · cases h
    exact hchange _ _ rfl
  · cases h
    exact .same s

variable {humantime : ℕ → String} {input : Input}

theorem capture_change {grace now generation exposureMs : ℕ}
    {geometry : Geometry} {subframe : Subframe} {stage : CaptureStage}
    (h : s.capture humantime grace now generation exposureMs geometry subframe stage input =
      some after) : Change s after.session after.notes := by
  unfold capture at h
  simp only at h
  split at h
  · cases h; exact .same s
  · cases h; exact .same s
  · exact leave_change (fun _ _ hcancel => (cancelStart_change hcancel).1) h
  · have hchange := accept_change (s := s) generation now exposureMs ‹String›
    split at h <;> (cases h; exact hchange)
  · cases h; exact .same s
  · cases h; exact .same s
  · cases h; exact .same s
  · have hchange := startReading_change (s := s) generation
    split at h <;> (cases h; exact hchange)
  · cases h; exact .same s
  · cases h; exact .same s
  · exact leave_change (fun _ _ hcommit => (commit_change hcommit).1) h
  · cases h

theorem abort_change {task : AbortStage → Task} {next : Option Task} {stage : AbortStage}
    (h : s.abort task next stage input = some after) :
    Change s after.session after.notes := by
  unfold abort at h
  split at h
  · have hchange := beginAbort_change (s := s)
    split at h
    · next hbegin =>
        rw [hbegin] at hchange
        cases h
        exact hchange
    · next hbegin =>
        rw [hbegin] at hchange
        split at h <;> (cases h; exact hchange)
  · cases h; exact .same s
  · cases h; exact .same s
  · split at h
    · cases h
    · cases h; exact .same s
  · cases h; exact .same s
  · cases h

variable {task : Task}

/-- What a step of any task does to the session. -/
theorem advance_change {grace now : ℕ} (h : s.advance humantime grace now task input = some after) :
    Change s after.session after.notes := by
  unfold advance at h
  split at h
  · exact capture_change h
  · split at h <;> (cases h; exact .same s)
  · exact abort_change h
  · split at h <;> (cases h; exact .same s)
  · cases h; exact .quiet rfl rfl (by simp)
  · cases h; exact .same s
  · exact abort_change h
  · cases h; exact .finish rfl rfl
  · cases h; exact .quiet rfl rfl (by simp)
  · cases h

theorem startExposure_eq {checks : ℕ → Bool → Subframe → Geometry → Except String ℕ}
    {duration : ℕ} {light : Bool}
    (h : s.startExposure checks duration light = some (s', task, notes)) :
    s.exposure.current = none ∧ s'.exposure = .starting (s.generation + 1) false ∧
      s'.generation = s.generation + 1 ∧ notes = [.started (s.generation + 1)] ∧
      ∃ exposureMs geometry,
        task = .capture (s.generation + 1) exposureMs geometry s.subframe .asking := by
  unfold startExposure at h
  split at h
  · split at h
    · cases h
    · split at h
      · cases h
      · next hidle =>
          cases h
          exact ⟨by simpa using hidle, rfl, rfl, rfl, _, _, rfl⟩
  · cases h

end Session

/-! ## What the log says of the session -/

/-- The exposure is the one its session waits for: since it was accepted none was accepted or left,
and no session ended. -/
def Current (log : List Note) (generation : ℕ) : Prop :=
  ∃ before since, log = before ++ .started generation :: since ∧
    .ended ∉ since ∧ .left generation ∉ since ∧ ∀ other, .started other ∉ since

variable {log notes : List Note}

theorem Current.append {generation : ℕ} (h : Current log generation)
    (hended : .ended ∉ notes) (hleft : .left generation ∉ notes)
    (hstarted : ∀ other, .started other ∉ notes) : Current (log ++ notes) generation := by
  obtain ⟨before, since, rfl, h₁, h₂, h₃⟩ := h
  refine ⟨before, since ++ notes, by simp, ?_, ?_, ?_⟩
  · simp [h₁, hended]
  · simp [h₂, hleft]
  · intro other
    simp [h₃ other, hstarted other]

theorem Current.mem {generation : ℕ} (h : Current log generation) :
    .started generation ∈ log := by
  obtain ⟨before, since, rfl, _⟩ := h
  simp

def Note.generation : Note → Option ℕ
  | started generation | aborted generation | ready generation | failed generation
  | left generation => some generation
  | ended | notified => none

/-- What is published was waited for, and never aborted. -/
def Wanted (before : List Note) (note : Note) : Prop :=
  ∀ generation, note = .ready generation → Current before generation ∧ .aborted generation ∉ before

/-- What holds of the session under the log. -/
structure Session.Keeps (log : List Note) (s : Session) : Prop where
  older : ∀ note ∈ log, ∀ generation, note.generation = some generation → generation ≤ s.generation
  current : ∀ generation aborting, s.exposure.current = some (generation, aborting) →
    Current log generation ∧ .left generation ∉ log
  unaborted : ∀ generation, s.exposure.current = some (generation, false) →
    .aborted generation ∉ log
  published : ∀ generation, .ready generation ∈ log ∨ .failed generation ∈ log →
    .left generation ∈ log ∧ .aborted generation ∉ log
  gone : ∀ generation, .started generation ∈ log →
    (∀ aborting, s.exposure.current ≠ some (generation, aborting)) → .left generation ∈ log
  once : ∀ generation, log.count (.left generation) ≤ 1
  wanted : Justified Wanted log

namespace Session.Keeps

variable {log notes : List Note} {s s' : Session}

theorem new : Session.new.Keeps [] where
  older := by simp
  current := by
    intro _ _ h
    cases h
  unaborted := by
    intro _ h
    cases h
  published := by simp
  gone := by simp
  once := by simp
  wanted := .nil

/-- The generation of a new exposure is new. -/
theorem fresh (h : s.Keeps log) {note : Note} {generation : ℕ}
    (hnote : note.generation = some generation) (hlt : s.generation < generation) : note ∉ log := by
  intro hmem
  have := h.older note hmem generation hnote
  omega

theorem wanted_append (h : Justified Wanted log) (hnotes : ∀ generation, .ready generation ∉ notes) :
    Justified Wanted (log ++ notes) := by
  refine h.append ?_
  intro note hnote _ generation heq
  exact absurd (heq ▸ hnote) (hnotes generation)

variable {aborting : Bool}

/-- An exposure that was there leaves: it leaves once. -/
theorem once_append (h : s.Keeps log) {generation : ℕ}
    (hcurrent : s.exposure.current = some (generation, aborting))
    (hnotes : ∀ other, notes.count (.left other) ≤ if other = generation then 1 else 0)
    (other : ℕ) : (log ++ notes).count (.left other) ≤ 1 := by
  rw [List.count_append]
  have hle := hnotes other
  by_cases heq : other = generation
  · subst heq
    have : log.count (.left other) = 0 :=
      List.count_eq_zero_of_not_mem (h.current other aborting hcurrent).2
    rw [if_pos rfl] at hle
    omega
  · rw [if_neg heq] at hle
    have := h.once other
    omega

/-- An exposure leaves, and nothing is published. -/
theorem leave (h : s.Keeps log) {generation : ℕ}
    (hcurrent : s.exposure.current = some (generation, aborting))
    (hcurrent' : s'.exposure.current = none) (hgeneration : s'.generation = s.generation) :
    s'.Keeps (log ++ [.left generation]) := by
  obtain ⟨hwas, hleft⟩ := h.current generation aborting hcurrent
  refine ⟨?_, ?_, ?_, ?_, ?_, ?_, wanted_append h.wanted (by simp)⟩
  · intro note hnote other hg
    rw [hgeneration]
    rcases List.mem_append.mp hnote with hnote | hnote
    · exact h.older note hnote other hg
    · cases List.mem_singleton.mp hnote
      cases hg
      exact h.older _ hwas.mem generation rfl
  · intro other aborting' hat
    rw [hcurrent'] at hat
    cases hat
  · intro other hat
    rw [hcurrent'] at hat
    cases hat
  · intro other hout
    obtain ⟨hother, hab⟩ := h.published other (by simpa using hout)
    exact ⟨List.mem_append_left _ hother, by simp [hab]⟩
  · intro other hstarted _
    by_cases heq : other = generation
    · simp [heq]
    · refine List.mem_append_left _ (h.gone other (by simpa using hstarted) ?_)
      intro aborting' hat
      rw [hcurrent] at hat
      cases hat
      exact heq rfl
  · refine h.once_append hcurrent ?_
    intro other
    by_cases heq : other = generation
    · simp [heq]
    · simp [heq, Ne.symm heq]

/-- A session ends with no exposure under way. -/
theorem ended (h : s.Keeps log) (hcurrent : s.exposure.current = none)
    (hcurrent' : s'.exposure.current = none) (hgeneration : s'.generation = s.generation + 1) :
    s'.Keeps (log ++ [.ended]) := by
  refine ⟨?_, ?_, ?_, ?_, ?_, ?_, wanted_append h.wanted (by simp)⟩
  · intro note hnote other hg
    rw [hgeneration]
    rcases List.mem_append.mp hnote with hnote | hnote
    · have := h.older note hnote other hg
      omega
    · cases List.mem_singleton.mp hnote
      cases hg
  · intro other aborting hat
    rw [hcurrent'] at hat
    cases hat
  · intro other hat
    rw [hcurrent'] at hat
    cases hat
  · intro other hout
    obtain ⟨hother, hab⟩ := h.published other (by simpa using hout)
    exact ⟨List.mem_append_left _ hother, by simp [hab]⟩
  · intro other hstarted _
    refine List.mem_append_left _ (h.gone other (by simpa using hstarted) ?_)
    intro aborting hat
    rw [hcurrent] at hat
    cases hat
  · intro other
    rw [List.count_append]
    simpa using h.once other

/-- What the session keeps in each of its changes. -/
theorem change (h : s.Keeps log) (hchange : Change s s' notes) : s'.Keeps (log ++ notes) := by
  cases hchange with
  | quiet hcurrent hgeneration hnotes =>
    have hno : ∀ note, note ≠ .notified → note ∉ notes :=
      fun note hne hmem => hne (hnotes note hmem)
    refine ⟨?_, ?_, ?_, ?_, ?_, ?_, wanted_append h.wanted fun _ => hno _ nofun⟩
    · intro note hnote generation hg
      rw [hgeneration]
      rcases List.mem_append.mp hnote with hnote | hnote
      · exact h.older note hnote generation hg
      · rw [hnotes note hnote] at hg
        cases hg
    · intro generation aborting hat
      obtain ⟨hwas, hleft⟩ := h.current generation aborting (hcurrent ▸ hat)
      exact ⟨hwas.append (hno _ nofun) (hno _ nofun) fun _ => hno _ nofun,
        by simp [hleft, hno (.left generation) nofun]⟩
    · intro generation hat
      simp [h.unaborted generation (hcurrent ▸ hat), hno (.aborted generation) nofun]
    · intro generation hout
      obtain ⟨hleft, hab⟩ := h.published generation
        (by simpa [hno (.ready generation) nofun, hno (.failed generation) nofun] using hout)
      exact ⟨List.mem_append_left _ hleft, by simp [hab, hno (.aborted generation) nofun]⟩
    · intro generation hstarted hnot
      rw [hcurrent] at hnot
      exact List.mem_append_left _
        (h.gone generation (by simpa [hno (.started generation) nofun] using hstarted) hnot)
    · intro generation
      rw [List.count_append, List.count_eq_zero_of_not_mem (hno (.left generation) nofun)]
      exact h.once generation
  | @abort generation aborting hcurrent hcurrent' hgeneration =>
    obtain ⟨hwas, hleft⟩ := h.current generation aborting hcurrent
    refine ⟨?_, ?_, ?_, ?_, ?_, ?_, wanted_append h.wanted (by simp)⟩
    · intro note hnote other hg
      rw [hgeneration]
      rcases List.mem_append.mp hnote with hnote | hnote
      · exact h.older note hnote other hg
      · cases List.mem_singleton.mp hnote
        cases hg
        exact h.older _ hwas.mem generation rfl
    · intro other aborting' hat
      rw [hcurrent'] at hat
      cases hat
      exact ⟨hwas.append (by simp) (by simp) (by simp), by simp [hleft]⟩
    · intro other hat
      rw [hcurrent'] at hat
      cases hat
    · intro other hout
      obtain ⟨hother, hab⟩ := h.published other (by simpa using hout)
      refine ⟨List.mem_append_left _ hother, ?_⟩
      have hne : other ≠ generation := by
        intro heq
        exact hleft (heq ▸ hother)
      simp [hab, hne]
    · intro other hstarted hnot
      have hold : .started other ∈ log := by simpa using hstarted
      refine List.mem_append_left _ (h.gone other hold ?_)
      intro aborting' hat
      rw [hcurrent] at hat
      cases hat
      exact hnot true hcurrent'
    · intro other
      rw [List.count_append]
      simpa using h.once other
  | @publish generation note hcurrent hcurrent' hgeneration hnote =>
    obtain ⟨hwas, hleft⟩ := h.current generation false hcurrent
    have hunaborted := h.unaborted generation hcurrent
    have hgen : note.generation = some generation := by
      rcases hnote with rfl | rfl <;> rfl
    have hquiet : ∀ other, note ≠ .left other ∧ note ≠ .aborted other ∧ note ≠ .started other := by
      intro other
      rcases hnote with rfl | rfl <;> exact ⟨nofun, nofun, nofun⟩
    refine ⟨?_, ?_, ?_, ?_, ?_, ?_, ?_⟩
    · intro note' hmem other hg
      rw [hgeneration]
      have hnow : generation ≤ s.generation := h.older _ hwas.mem generation rfl
      simp only [List.mem_append, List.mem_cons, List.not_mem_nil, or_false] at hmem
      rcases hmem with hmem | rfl | rfl
      · exact h.older note' hmem other hg
      · rw [hgen] at hg
        cases hg
        exact hnow
      · cases hg
        exact hnow
    · intro other aborting hat
      rw [hcurrent'] at hat
      cases hat
    · intro other hat
      rw [hcurrent'] at hat
      cases hat
    · intro other hout
      by_cases heq : other = generation
      · subst heq
        exact ⟨by simp, by simp [hunaborted, (hquiet other).2.1.symm]⟩
      · have hout' : .ready other ∈ log ∨ .failed other ∈ log := by
          rcases hnote with rfl | rfl <;> simpa [heq] using hout
        obtain ⟨hother, hab⟩ := h.published other hout'
        exact ⟨List.mem_append_left _ hother, by simp [hab, (hquiet other).2.1.symm]⟩
    · intro other hstarted _
      by_cases heq : other = generation
      · simp [heq]
      · have hold : .started other ∈ log := by
          simpa [(hquiet other).2.2.symm] using hstarted
        refine List.mem_append_left _ (h.gone other hold ?_)
        intro aborting hat
        rw [hcurrent] at hat
        cases hat
        exact heq rfl
    · refine h.once_append hcurrent ?_
      intro other
      rw [List.count_cons, if_neg (by simpa using (hquiet other).1)]
      by_cases heq : other = generation
      · simp [heq]
      · simp [heq, Ne.symm heq]
    · have hfirst : Justified Wanted (log ++ [note]) := by
        refine h.wanted.snoc ?_
        intro other heq
        rcases hnote with rfl | rfl
        · cases heq
          exact ⟨hwas, hunaborted⟩
        · cases heq
      rw [show log ++ [note, .left generation] = log ++ [note] ++ [.left generation] by simp]
      exact wanted_append hfirst (by simp)
  | leave hcurrent hcurrent' hgeneration => exact h.leave hcurrent hcurrent' hgeneration
  | start hcurrent hcurrent' hgeneration =>
    have hfresh : ∀ note : Note, note.generation = some (s.generation + 1) → note ∉ log :=
      fun note hnote => h.fresh hnote (Nat.lt_succ_self _)
    refine ⟨?_, ?_, ?_, ?_, ?_, ?_, wanted_append h.wanted (by simp)⟩
    · intro note hnote other hg
      rw [hgeneration]
      rcases List.mem_append.mp hnote with hnote | hnote
      · have := h.older note hnote other hg
        omega
      · cases List.mem_singleton.mp hnote
        cases hg
        exact Nat.le_refl _
    · intro other aborting hat
      rw [hcurrent'] at hat
      cases hat
      exact ⟨⟨log, [], rfl, by simp, by simp, by simp⟩, by simp [hfresh (.left _) rfl]⟩
    · intro other hat
      rw [hcurrent'] at hat
      cases hat
      simp [hfresh (.aborted _) rfl]
    · intro other hout
      obtain ⟨hother, hab⟩ := h.published other (by simpa using hout)
      exact ⟨List.mem_append_left _ hother, by simp [hab]⟩
    · intro other hstarted hnot
      have hne : other ≠ s.generation + 1 := by
        intro heq
        exact hnot false (by rw [hcurrent', heq])
      refine List.mem_append_left _ (h.gone other (by simpa [hne] using hstarted) ?_)
      intro aborting hat
      rw [hcurrent] at hat
      cases hat
    · intro other
      rw [List.count_append]
      simpa using h.once other
  | finish hcurrent' hgeneration =>
    cases hcurrent : s.exposure.current with
    | none =>
      have hleaving : s.leaving = [] := by simp [Session.leaving, hcurrent]
      rw [hleaving, List.nil_append]
      exact h.ended hcurrent hcurrent' hgeneration
    | some under =>
      have hleaving : s.leaving = [.left under.1] := by simp [Session.leaving, hcurrent]
      have hleft : Session.Keeps (log ++ [.left under.1]) { s with exposure := .idle } :=
        h.leave hcurrent rfl rfl
      rw [hleaving, ← List.append_assoc]
      exact hleft.ended rfl hcurrent' hgeneration

end Session.Keeps

/-! ## What the tasks keep -/

/-- The stages of the capture behind an exposure. -/
def Exposure.fits : Exposure → CaptureStage → Bool
  | starting _ _, .asking | starting _ _, .cancelling | starting _ _, .accepting _ => true
  | inFlight _ _ _, .sweeping _ | inFlight _ _ _, .waiting _ | inFlight _ _ _, .saved _
  | inFlight _ _ _, .committing _ => true
  | reading _ _, .reading _ | reading _ _, .committing _ => true
  | _, _ => false

/-- What a step of the capture of an exposure leaves: it goes on, or its exposure left. -/
structure CaptureLeaves (s : Session) (generation : ℕ) (task : CaptureStage → Task)
    (after : Advance) : Prop where
  others : ∀ other aborting, other ≠ generation →
    after.session.exposure.current = some (other, aborting) → after.session.exposure = s.exposure
  next : (∃ stage, after.next = some (task stage) ∧ after.notes = [] ∧
      ∀ aborting, after.session.exposure.current = some (generation, aborting) →
        after.session.exposure.fits stage = true) ∨
    (after.next = some (.notify (some generation)) ∧
      (∀ other, .left other ∈ after.notes → other = generation) ∧
      after.session.exposure.current = none) ∨
    (after.next = none ∧ after.notes = [] ∧
      ∀ aborting, after.session.exposure.current ≠ some (generation, aborting))

variable {s : Session}

theorem CaptureLeaves.go {generation : ℕ} {task : CaptureStage → Task} {stage : CaptureStage}
    (hfits : ∀ aborting, s.exposure.current = some (generation, aborting) →
      s.exposure.fits stage = true) :
    CaptureLeaves s generation task ⟨s, some (task stage), []⟩ :=
  ⟨fun _ _ _ _ => rfl, .inl ⟨stage, rfl, rfl, hfits⟩⟩

/-- What a step of any other task leaves. -/
structure OtherLeaves (s : Session) (after : Advance) : Prop where
  phase : ∀ generation aborting, after.session.exposure.current = some (generation, aborting) →
    (∃ aborting, s.exposure.current = some (generation, aborting)) ∧
      ∀ stage, after.session.exposure.fits stage = s.exposure.fits stage
  next : ∀ generation exposureMs geometry subframe stage,
    after.next ≠ some (.capture generation exposureMs geometry subframe stage)
  left : ∀ generation, .left generation ∈ after.notes →
    after.next = some (.notify (some generation))

theorem OtherLeaves.same {next : Option Task}
    (hnext : ∀ generation exposureMs geometry subframe stage,
      next ≠ some (.capture generation exposureMs geometry subframe stage))
    (hnotes : ∀ generation, .left generation ∉ notes) : OtherLeaves s ⟨s, next, notes⟩ :=
  ⟨fun _ aborting hat => ⟨⟨aborting, hat⟩, fun _ => rfl⟩, hnext,
    fun generation hleft => absurd hleft (hnotes generation)⟩

namespace Session

variable {s : Session} {generation : ℕ}

variable {task : CaptureStage → Task} {after : Advance}

theorem commit_leaves {outcome : Except String Image}
    (hfits : ∀ aborting, s.exposure.current = some (generation, aborting) →
      s.exposure.fits (.committing outcome) = true)
    (h : s.leave generation (s.commit generation outcome) = some after) :
    CaptureLeaves s generation task after := by
  have hpublish : ∀ aborting, (s.publish generation aborting outcome).1.exposure.current = none ∧
      ∀ other, .left other ∈ (s.publish generation aborting outcome).2 → other = generation := by
    intro aborting
    unfold publish
    cases aborting with
    | true => exact ⟨rfl, by simp⟩
    | false =>
      simp only [Bool.false_eq_true, if_false]
      split <;> exact ⟨rfl, by simp⟩
  have hleft : ∀ aborting, s.commit generation outcome =
      some (s.publish generation aborting outcome) → CaptureLeaves s generation task after := by
    intro aborting hcommit
    rw [hcommit] at h
    obtain rfl := Option.some.inj h
    obtain ⟨hnone, hnotes⟩ := hpublish aborting
    exact ⟨fun _ _ _ hat => absurd (hnone.symm.trans hat) nofun,
      .inr (.inl ⟨rfl, hnotes, hnone⟩)⟩
  have hstays : s.commit generation outcome = none →
      (∀ aborting, s.exposure.current ≠ some (generation, aborting)) →
        CaptureLeaves s generation task after := by
    intro hcommit hnot
    rw [hcommit] at h
    cases h
    exact ⟨fun _ _ _ _ => rfl, .inr (.inr ⟨rfl, rfl, hnot⟩)⟩
  cases hexposure : s.exposure with
  | inFlight current path aborting | reading current aborting =>
    by_cases heq : current = generation
    · exact hleft aborting (by simp [commit, hexposure, heq])
    · exact hstays (by simp [commit, hexposure, heq]) (by simp [hexposure, Exposure.current, heq])
  | starting current aborting =>
    refine hstays (by simp [commit, hexposure]) ?_
    intro aborting' hat
    have := hfits aborting' hat
    rw [hexposure] at this
    cases this
  | idle | ready _ | failed _ => exact hstays (by simp [commit, hexposure]) (by simp [hexposure, Exposure.current])


theorem cancel_leaves (hfits : ∀ aborting, s.exposure.current = some (generation, aborting) →
      s.exposure.fits .cancelling = true)
    (h : s.leave generation (s.cancelStart generation) = some after) :
    CaptureLeaves s generation task after := by
  have hstays : s.cancelStart generation = none →
      (∀ aborting, s.exposure.current ≠ some (generation, aborting)) →
        CaptureLeaves s generation task after := by
    intro hcancel hnot
    rw [hcancel] at h
    cases h
    exact ⟨fun _ _ _ _ => rfl, .inr (.inr ⟨rfl, rfl, hnot⟩)⟩
  have hmisfit : s.exposure.fits .cancelling = false →
      ∀ aborting, s.exposure.current ≠ some (generation, aborting) := by
    intro hnot aborting hat
    rw [hfits aborting hat] at hnot
    cases hnot
  cases hexposure : s.exposure with
  | starting current aborting =>
    by_cases heq : current = generation
    · subst heq
      simp only [cancelStart, hexposure, if_true, leave, Option.some.injEq] at h
      subst h
      exact ⟨fun _ _ _ hat => (by cases hat), .inr (.inl ⟨rfl, by simp, rfl⟩)⟩
    · exact hstays (by simp [cancelStart, hexposure, heq])
        (by simp [hexposure, Exposure.current, heq])
  | inFlight _ _ _ | reading _ _ =>
    exact hstays (by simp [cancelStart, hexposure]) (hmisfit (by rw [hexposure]; rfl))
  | idle | ready _ | failed _ => exact hstays (by simp [cancelStart, hexposure]) (by simp [hexposure, Exposure.current])


variable {now : ℕ} {path : String} {stage : CaptureStage}

/-- A step that is no more of the session than the exposure of its capture. -/
theorem accept_leaves {exposureMs : ℕ} (hstage : stage = .sweeping path ∨ stage = .waiting path)
    (hfits : ∀ aborting, s.exposure.current = some (generation, aborting) →
      s.exposure.fits (.accepting path) = true) :
    CaptureLeaves s generation task
      ⟨(s.accept generation now exposureMs path).2, some (task stage), []⟩ := by
  have hflight : ∀ aborting, (Exposure.inFlight generation path aborting).fits stage = true := by
    intro aborting
    rcases hstage with rfl | rfl <;> rfl
  have hmisfit : s.exposure.fits (.accepting path) = false →
      ∀ aborting, s.exposure.current ≠ some (generation, aborting) := by
    intro hnot aborting hat
    rw [hfits aborting hat] at hnot
    cases hnot
  have hstays : (s.accept generation now exposureMs path).2 = s →
      (∀ aborting, s.exposure.current ≠ some (generation, aborting)) →
      CaptureLeaves s generation task
        ⟨(s.accept generation now exposureMs path).2, some (task stage), []⟩ := by
    intro hsame hnot
    rw [hsame]
    exact .go fun aborting hat => absurd hat (hnot aborting)
  cases hexposure : s.exposure with
  | starting current aborting =>
    by_cases heq : current = generation
    · subst heq
      have haccept : (s.accept current now exposureMs path).2.exposure =
          .inFlight current path aborting := by simp [accept, hexposure]
      refine ⟨?_, .inl ⟨stage, rfl, rfl, ?_⟩⟩
      · intro other aborting' hne hat
        simp only [haccept, Exposure.current, Option.some.injEq, Prod.mk.injEq] at hat
        exact absurd hat.1.symm hne
      · intro aborting' _
        simp only [haccept]
        exact hflight aborting
    · exact hstays (by simp [accept, hexposure, heq]) (by simp [hexposure, Exposure.current, heq])
  | inFlight _ _ _ | reading _ _ => exact hstays (by simp [accept, hexposure]) (hmisfit (by rw [hexposure]; rfl))

  | idle | ready _ | failed _ => exact hstays (by simp [accept, hexposure]) (by simp [hexposure, Exposure.current])


/-- Whether the frame is still wanted or not, the capture goes on with its exposure. -/
theorem startReading_leaves (task : CaptureStage → Task) (outcome : Except String Image)
    (hfits : ∀ aborting, s.exposure.current = some (generation, aborting) →
      s.exposure.fits (.saved path) = true) :
    CaptureLeaves s generation task
      ⟨(s.startReading generation).2, some (task (if (s.startReading generation).1 then .reading path
        else .committing outcome)), []⟩ := by
  have hstays : s.startReading generation = (false, s) →
      (∀ aborting, s.exposure.current = some (generation, aborting) →
        s.exposure.fits (.committing outcome) = true) →
      CaptureLeaves s generation task
        ⟨(s.startReading generation).2, some (task (if (s.startReading generation).1 then
          .reading path else .committing outcome)), []⟩ := by
    intro hsame hcommitting
    rw [hsame]
    exact .go hcommitting
  have hmisfit : s.exposure.fits (.saved path) = false →
      ∀ aborting, s.exposure.current = some (generation, aborting) →
        s.exposure.fits (.committing outcome) = true := by
    intro hnot aborting hat
    rw [hfits aborting hat] at hnot
    cases hnot
  cases hexposure : s.exposure with
  | inFlight current path' aborting =>
    cases aborting with
    | true => exact hstays (by simp [startReading, hexposure]) fun _ _ => by rw [hexposure]; rfl
    | false =>
      by_cases heq : current = generation
      · subst heq
        have hstart : s.startReading current =
            (true, { s with exposure := .reading current false }) := by
          simp [startReading, hexposure]
        rw [hstart]
        refine ⟨?_, .inl ⟨.reading path, rfl, rfl, fun _ _ => rfl⟩⟩
        intro other aborting' hne hat
        simp only [Exposure.current, Option.some.injEq, Prod.mk.injEq] at hat
        exact absurd hat.1.symm hne
      · exact hstays (by simp [startReading, hexposure, heq]) fun _ _ => by rw [hexposure]; rfl
  | starting _ _ =>
    exact hstays (by simp [startReading, hexposure]) (hmisfit (by rw [hexposure]; rfl))
  | reading _ _ => exact hstays (by simp [startReading, hexposure]) fun _ _ => by rw [hexposure]; rfl
  | idle | ready _ | failed _ => exact hstays (by simp [startReading, hexposure]) (by simp [hexposure, Exposure.current])


variable {humantime : ℕ → String} {input : Input}

/-- What a step of a capture leaves. -/
theorem capture_leaves {grace exposureMs : ℕ} {geometry : Geometry} {subframe : Subframe}
    (hfits : ∀ aborting, s.exposure.current = some (generation, aborting) →
      s.exposure.fits stage = true)
    (h : s.capture humantime grace now generation exposureMs geometry subframe stage input =
      some after) :
    CaptureLeaves s generation (.capture generation exposureMs geometry subframe) after := by
  have hfollows : ∀ stage', (∀ e : Exposure, e.fits stage = true → e.fits stage' = true) →
      CaptureLeaves s generation (.capture generation exposureMs geometry subframe)
        ⟨s, some (.capture generation exposureMs geometry subframe stage'), []⟩ := by
    intro stage' himp
    exact .go fun aborting hat => himp _ (hfits aborting hat)
  unfold capture at h
  simp only at h
  split at h
  · cases h
    exact hfollows _ fun e he => by cases e <;> first | rfl | cases he
  · cases h
    exact hfollows _ fun e he => by cases e <;> first | rfl | cases he
  · exact cancel_leaves hfits h
  · split at h
    · cases h
      exact accept_leaves (.inl rfl) hfits
    · cases h
      exact accept_leaves (.inr rfl) hfits
  · cases h
    exact hfollows _ fun e he => by cases e <;> first | rfl | cases he
  · cases h
    exact hfollows _ fun e he => by cases e <;> first | rfl | cases he
  · cases h
    exact hfollows _ fun e he => by cases e <;> first | rfl | cases he
  · have hleaves := startReading_leaves (.capture generation exposureMs geometry subframe)
      (.error (endText humantime .saved)) hfits
    split at h
    · next hstarted =>
        cases h
        rwa [if_pos hstarted] at hleaves
    · next hstarted =>
        cases h
        rwa [if_neg hstarted] at hleaves
  · cases h
    exact hfollows _ fun e he => by cases e <;> first | rfl | cases he
  · cases h
    exact hfollows _ fun e he => by cases e <;> first | rfl | cases he
  · exact commit_leaves hfits h
  · cases h

theorem beginAbort_phase {generation : ℕ} {aborting : Bool}
    (hat : s.beginAbort.2.1.exposure.current = some (generation, aborting)) :
    (∃ aborting, s.exposure.current = some (generation, aborting)) ∧
      ∀ stage, s.beginAbort.2.1.exposure.fits stage = s.exposure.fits stage := by
  cases hexposure : s.exposure with
  | starting current was | inFlight current path was | reading current was =>
    simp only [beginAbort, hexposure] at hat ⊢
    cases hat
    exact ⟨⟨was, rfl⟩, fun stage => by cases stage <;> rfl⟩
  | idle | ready _ | failed _ =>
    simp only [beginAbort, hexposure] at hat
    cases hat

theorem beginAbort_notes (generation : ℕ) : .left generation ∉ s.beginAbort.2.2 := by
  unfold beginAbort
  split <;> simp

theorem abort_leaves {task : AbortStage → Task} {next : Option Task} {stage : AbortStage}
    (h : s.abort task next stage input = some after)
    (htask : ∀ stage generation exposureMs geometry subframe stage',
      task stage ≠ .capture generation exposureMs geometry subframe stage')
    (hnext : ∀ generation exposureMs geometry subframe stage,
      next ≠ some (.capture generation exposureMs geometry subframe stage)) :
    OtherLeaves s after := by
  have hgoes : ∀ stage generation exposureMs geometry subframe stage',
      some (task stage) ≠ some (.capture generation exposureMs geometry subframe stage') :=
    fun stage _ _ _ _ _ heq => htask stage _ _ _ _ _ (Option.some.inj heq)
  unfold abort at h
  split at h
  · have hphase := @beginAbort_phase s
    have hnotes := @beginAbort_notes s
    split at h
    · next hbegin =>
        rw [hbegin] at hphase hnotes
        cases h
        exact ⟨fun _ _ => hphase, hnext, fun generation hleft => absurd hleft (hnotes generation)⟩
    · next hbegin =>
        rw [hbegin] at hphase hnotes
        split at h <;> (cases h; exact ⟨fun _ _ => hphase, hgoes _,
          fun generation hleft => absurd hleft (hnotes generation)⟩)
  · cases h
    exact .same (hgoes _) (by simp)
  · cases h
    exact .same hnext (by simp)
  · split at h
    · cases h
    · cases h
      exact .same hnext (by simp)
  · cases h
    exact .same hnext (by simp)
  · cases h

/-- What a step of a task that is no capture leaves. -/
theorem advance_leaves {grace : ℕ} {task : Task}
    (h : s.advance humantime grace now task input = some after)
    (htask : ∀ generation exposureMs geometry subframe stage,
      task ≠ .capture generation exposureMs geometry subframe stage) : OtherLeaves s after := by
  unfold advance at h
  split at h
  · exact absurd rfl (htask _ _ _ _ _)
  · split at h <;> (cases h; exact .same (by simp) (by simp))
  · exact abort_leaves h (by simp) (by simp)
  · split at h <;> (cases h; exact .same (by simp) (by simp))
  · cases h
    exact ⟨fun _ aborting hat => ⟨⟨aborting, hat⟩, fun _ => rfl⟩, by simp, by simp⟩
  · cases h
    exact .same (by simp) (by simp)
  · exact abort_leaves h (by simp) (by simp)
  · cases h
    refine ⟨fun _ _ hat => (by cases hat), by simp, ?_⟩
    intro generation hleft
    unfold leaving at hleft
    split at hleft
    · next current _ hcurrent =>
        have : generation = current := by simpa using hleft
        simp [hcurrent, this]
    · simp at hleft
  · cases h
    exact .same (by simp) (by simp)
  · cases h

end Session

end RustyPhoton.Phd2Guider.Facade
