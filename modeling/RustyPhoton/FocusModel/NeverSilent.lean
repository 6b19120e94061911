import RustyPhoton.FocusModel.Handshake
import RustyPhoton.FocusModel.Offsets

/-!
# The guiding handshake over the offsets procedure

Every sweep of the procedure pauses for itself. The rounds go on only while no sweep left its pause
behind, and the one pause that can be left is the procedure's to undo, after the restore.
-/

namespace RustyPhoton.FocusModel

open Lib

variable {σ F Ω ρ : Type} {s : Session σ F Ω ρ} {l l' : List Mark} {left : Bool}

/-- Rounds go on only while no pause is left behind. -/
def RoundsMinded (out : Except FocusModelError (Rounds F)) (l : List Mark) : Prop :=
  ∃ measured fatal left, out = .ok (measured, fatal, left) ∧ Minded l left ∧
    (left = true → fatal.isSome = true)

theorem RoundsMinded.after {out : Except FocusModelError (Rounds F)} (hl : Minded l false)
    (h : RoundsMinded out l') : RoundsMinded out (l ++ l') := by
  obtain ⟨measured, fatal, left, hout, hminded, hleft⟩ := h
  exact ⟨measured, fatal, left, hout, hl.append hminded, hleft⟩

/-- What leaves the guiding alone leaves a pause behind as it was. -/
theorem Minded.append_still (h : Minded l left) (h' : ∀ mark ∈ l', mark.isGuiding = false) :
    Minded (l ++ l') left := by
  have hnone : lastPause l' = none :=
    lastPause_eq_none fun mark hmark => isPaused_of_isGuiding (h' mark hmark)
  have hwhole := lastPause_append l l'
  rw [hnone, Option.none_or] at hwhole
  cases left with
  | false => exact h.append (.of_still h')
  | true =>
    cases hlast : lastPause l with
    | none =>
      rw [Minded, hlast] at h
      cases h.1
    | some last =>
      obtain ⟨answered, after⟩ := last
      rw [Minded, hlast] at h
      rw [hlast] at hwhole
      cases answered with
      | false => cases h.1
      | true =>
        refine .of_answered hwhole (List.mem_append_left _ h.1) fun _ hmem => ?_
        rcases List.mem_append.mp hmem with hmem | hmem
        · exact h.2 rfl hmem
        · have hstill := h' _ hmem
          cases hstill

/-- The last chance to resume. -/
theorem Minded.resume (h : Minded l true) (landed : Bool) :
    Minded (l ++ [.resumed .cleanup landed]) !landed := by
  have hnone : lastPause [.resumed .cleanup landed] = none := rfl
  have hwhole := lastPause_append l [.resumed .cleanup landed]
  rw [hnone, Option.none_or] at hwhole
  cases hlast : lastPause l with
  | none =>
    rw [Minded, hlast] at h
    cases h.1
  | some last =>
    obtain ⟨answered, after⟩ := last
    rw [Minded, hlast] at h
    rw [hlast] at hwhole
    cases answered with
    | false => cases h.1
    | true =>
      refine .of_answered hwhole (by simp) fun hleft hmem => ?_
      rcases List.mem_append.mp hmem with hmem | hmem
      · exact h.2 rfl hmem
      · cases List.mem_singleton.mp hmem
        cases hleft

/-! ## The restore -/

theorem still_settleTries (focuserId : String) (target : I32) (tries : ℕ) (last : Option I32) :
    Still (settleTries s focuserId target tries last) := by
  induction tries generalizing last with
  | zero => exact .of_quiet (.pure _)
  | succ tries ih =>
    refine .attempt (m := s.world.ask (.moveFocuser .cleanup focuserId target none))
      (.ask fun _ _ => by simp [markOf, Mark.isGuiding, Mark.isPaused, Mark.isResumed]) fun moved => ?_
    cases moved with
    | ok reached =>
      dsimp only
      split
      · exact .of_quiet (.pure _)
      · exact ih _
    | error e =>
      refine .attempt (m := s.world.ask (.getFocuserPosition .cleanup focuserId))
        (.ask fun _ _ => by simp [markOf, Mark.isGuiding, Mark.isPaused, Mark.isResumed]) fun read => ?_
      cases read with
      | ok read => exact .of_quiet (.pure _)
      | error e => exact .of_quiet (.pure _)

theorem still_waitUntilStill (focuserId : String) (reads : ℕ) (last : Option I32) (unread : Bool) :
    Still (waitUntilStill s focuserId reads last unread) := by
  induction reads generalizing last unread with
  | zero => exact .of_quiet (.pure _)
  | succ reads ih =>
    refine .attempt (m := s.world.ask (.getFocuserPosition .cleanup focuserId))
      (.ask fun _ _ => by simp [markOf, Mark.isGuiding, Mark.isPaused, Mark.isResumed]) fun read => ?_
    cases read with
    | ok read =>
      dsimp only
      split
      · exact .of_quiet (.pure _)
      · exact ih _ _
    | error e => exact ih _ _

theorem quiet_restoreFilter (plan : OffsetsPlan Ω) (started : Started) :
    Quiet (restoreFilter s plan started) := by
  unfold restoreFilter
  split
  · exact .pure _
  · refine .attempt (.ask fun _ _ => rfl) fun turned => ?_
    cases turned with
    | ok _ => exact .pure _
    | error e =>
      refine .attempt (.ask fun _ _ => rfl) fun filter => ?_
      cases filter with
      | ok filter => exact .pure _
      | error e => exact .pure _

theorem still_restore (plan : OffsetsPlan Ω) (started : Started) (measured : Measured F) :
    Still (restore s plan started measured) := by
  refine .bind (.of_quiet (quiet_restoreFilter plan started)) fun restored => ?_
  dsimp only
  split
  · refine .bind (still_settleTries _ _ _ _) fun settled => ?_
    split
    · exact .of_quiet (.pure _)
    · exact .bind (still_waitUntilStill _ _ _ _) fun _ => .of_quiet (.pure _)
  · exact .bind (still_waitUntilStill _ _ _ _) fun _ => .of_quiet (.pure _)

theorem lateCancellation_tells (ended : Option FocusModelError) :
    Tells (fun out l => l = [] ∧ ∃ fatal, out = .ok fatal ∧ (ended.isSome = true → fatal.isSome = true))
      (lateCancellation s ended) := by
  cases ended with
  | some e => exact .pure ⟨rfl, some e, rfl, fun _ => rfl⟩
  | none =>
    refine .bind (Q := fun out l => l = [] ∧ ∃ cancelled, out = .ok cancelled) (fun _ => ⟨rfl, _, rfl⟩) ?_ ?_
    · rintro e l ⟨_, _, h⟩
      cases h
    · rintro cancelled _ ⟨rfl, _⟩
      exact .pure ⟨rfl, _, rfl, fun h => by cases h⟩

/-- A pause left behind by the rounds is asked to resume on the way out. -/
theorem resumeOutstanding_tells (outstanding : Bool) (restored : Restored) :
    Tells (fun _ l => if outstanding then ∃ landed, l = [.resumed .cleanup landed] else l = [])
      (resumeOutstanding s outstanding restored) := by
  cases outstanding with
  | false => exact .pure rfl
  | true =>
    refine .attempt (Tells.ask (c := .resumeGuiding .cleanup)
      (Q := fun out l => l = [.resumed .cleanup (answered out).isSome]) fun _ _ => rfl) ?_
    rintro resumed _ rfl
    cases resumed with
    | ok _ => exact .pure ⟨true, rfl⟩
    | error e => exact .pure ⟨false, rfl⟩

theorem quiet_writeOffsets (plan : OffsetsPlan Ω) (offsets : List (String × I32)) :
    Quiet (writeOffsets s plan offsets) := by
  refine .attempt (.ask fun _ _ => rfl) fun written => ?_
  cases written with
  | ok written => exact .pure _
  | error e => exact .pure _

/-! ## The rounds -/

variable [F64 F]

theorem oneSweep_minded (plan : OffsetsPlan Ω) (round : ℕ) (filter : String) :
    Tells (fun out l => ∃ result left, out = .ok (result, left) ∧ Minded l left ∧
        (left = true → ∃ e, result = .error e))
      (oneSweep s plan round filter false) := by
  refine .bind (focusOne_minded _) ?_ ?_
  · rintro e l ⟨_, _, h, _⟩
    cases h
  · rintro focused l ⟨result, left, hout, hminded, hleft⟩
    cases hout
    dsimp only
    cases hverdict : sweepVerdict round filter result with
    | error e => exact .pure ⟨_, left, rfl, by simpa using hminded, fun _ => ⟨e, rfl⟩⟩
    | ok sweep =>
      have hnone : left = false := by
        cases hcase : left with
        | false => rfl
        | true =>
          obtain ⟨e, rfl, hkind⟩ := hleft hcase
          cases e with
          | Sweep message => cases hkind
          | _ => cases hverdict
      subst hnone
      have hsame : Quiet (sameTrain s plan) := by
        refine .bind (quiet_resolveTrain _) fun now => ?_
        split
        · exact .pure ()
        · exact .halt _
      refine .attempt hsame ?_
      rintro same _ rfl
      cases same with
      | error e => exact .pure ⟨_, false, rfl, by simpa using hminded, fun h => by cases h⟩
      | ok _ => exact .pure ⟨_, false, rfl, by simpa using hminded, fun h => by cases h⟩

theorem sweepRound_minded (plan : OffsetsPlan Ω) (round : ℕ) (filters : List String)
    (referenceAt : Option I32) (measured : Measured F) :
    Tells RoundsMinded (sweepRound s plan round filters referenceAt measured false) := by
  induction filters generalizing referenceAt measured with
  | nil => exact .pure ⟨_, _, false, rfl, .of_still (by simp), fun h => by cases h⟩
  | cons filter filters ih =>
    refine .bind (oneSweep_minded plan round filter) ?_ ?_
    · rintro e l ⟨_, _, h, _⟩
      cases h
    · rintro swept l ⟨result, left, hout, hminded, hleft⟩
      cases hout
      cases result with
      | error e => exact .pure ⟨_, _, left, rfl, by simpa using hminded, fun _ => rfl⟩
      | ok sweep =>
        cases left with
        | true =>
          obtain ⟨e, h⟩ := hleft rfl
          cases h
        | false => exact (ih _ _).mono fun out l' h => h.after hminded

theorem runRounds_minded (plan : OffsetsPlan Ω) (rounds : List ℕ) (measured : Measured F) :
    Tells RoundsMinded (runRounds s plan rounds measured false) := by
  induction rounds generalizing measured with
  | nil => exact .pure ⟨_, _, false, rfl, .of_still (by simp), fun h => by cases h⟩
  | cons round rounds ih =>
    refine .bind (sweepRound_minded plan round plan.order none measured) ?_ ?_
    · rintro e l ⟨_, _, _, h, _⟩
      cases h
    · rintro walked l ⟨measured, fatal, left, hout, hminded, hleft⟩
      cases hout
      cases fatal with
      | some e => exact .pure ⟨_, _, left, rfl, by simpa using hminded, fun _ => rfl⟩
      | none =>
        cases left with
        | true => cases hleft rfl
        | false => exact (ih _).mono fun out l' h => h.after hminded

theorem determineFilterOffsets_ends (params : OffsetsParams) :
    Tells Ends (determineFilterOffsets s params) := by
  have hresolve : Quiet (resolve s params) := by
    refine .bind (quiet_resolveTrain _) fun ctx => .bind (.ofExcept _) fun _ => ?_
    split
    · exact .halt _
    · dsimp only
      split
      · exact .halt _
      · exact .bind (.ask fun _ _ => rfl) fun _ => .ofExcept _
  refine .bind hresolve ?_ ?_
  · rintro e _ rfl
    exact .of_still (by simp)
  · rintro plan _ rfl
    have hstarted : Quiet (startedState s plan) :=
      .bind (.ask fun _ _ => rfl) fun _ => .bind (.ask fun _ _ => rfl) fun _ =>
        .bind (.ofExcept _) fun _ => .pure _
    refine .bind hstarted ?_ ?_
    · rintro e _ rfl
      exact .of_still (by simp)
    · rintro started _ rfl
      refine .bind (runRounds_minded plan _ .nothing) ?_ ?_
      · rintro e l ⟨_, _, _, h, _⟩
        cases h
      · rintro walked l ⟨measured, ended, left, hout, hminded, hleft⟩
        cases hout
        refine .bind (lateCancellation_tells ended) ?_ ?_
        · rintro e _ ⟨_, _, h, _⟩
          cases h
        · rintro fatal _ ⟨rfl, fatal', hfatal, hended⟩
          cases hfatal
          dsimp only
          split
          · refine .bind (still_restore plan started measured) (fun e l' hstill => ?_)
              fun restored l' hstill => ?_
            · exact ⟨left, by simpa using hminded.append_still hstill, fun _ a ha => by cases ha⟩
            · have hrestored : Minded (l ++ l') left := hminded.append_still hstill
              have hend : ∀ l'', (if left then ∃ landed, l'' = [.resumed .cleanup landed] else l'' = []) →
                  ∃ left', Minded (l ++ l' ++ l'') left' := by
                intro l'' hresumed
                cases left with
                | true =>
                  obtain ⟨landed, rfl⟩ := hresumed
                  exact ⟨!landed, hrestored.resume landed⟩
                | false =>
                  rw [show l'' = [] from hresumed, List.append_nil]
                  exact ⟨false, hrestored⟩
              refine .bind (resumeOutstanding_tells left restored) (fun e l'' hresumed => ?_)
                fun restored' l'' hresumed => .pure ?_
              · obtain ⟨left', hminded'⟩ := hend l'' hresumed
                exact ⟨left', by simpa using hminded', fun _ a ha => by cases ha⟩
              · obtain ⟨left', hminded'⟩ := hend l'' hresumed
                exact ⟨left', by simpa using hminded', fun _ a ha => by cases ha⟩
          · next hgood =>
              have hnone : left = false := by
                cases hcase : left with
                | false => rfl
                | true => exact absurd (.inl (hended (hleft hcase))) hgood
              subst hnone
              refine .bind (quiet_writeOffsets plan _) ?_ ?_
              · rintro e _ rfl
                exact ⟨false, by simpa using hminded, fun h => by cases h⟩
              · rintro written _ rfl
                refine .bind (still_restore plan started measured) (fun e l' hstill => ?_)
                  fun restored l' hstill => .pure ?_
                · exact ⟨false, by simpa using hminded.append (.of_still hstill), fun h => by cases h⟩
                · exact ⟨false, by simpa using hminded.append (.of_still hstill), fun h => by cases h⟩

/-- A run leaves no pause in silence exactly when the last pause that may have taken effect was
answered. -/
theorem neverSilent_iff (s : Session σ F Ω ρ) (st : σ) :
    (∀ params, NeverSilent (marks (focusTrain s params st).log) (Failed (focusTrain s params st).out) ↔
      LastAnswered (marks (focusTrain s params st).log)) ∧
    (∀ params, NeverSilent (marks (focusShared s params st).log) (Failed (focusShared s params st).out) ↔
      LastAnswered (marks (focusShared s params st).log)) ∧
    ∀ params, NeverSilent (marks (determineFilterOffsets s params st).log)
        (Failed (determineFilterOffsets s params st).out) ↔
      LastAnswered (marks (determineFilterOffsets s params st).log) :=
  ⟨fun params => (focusTrain_ends params st).isNeverSilent_iff,
    fun params => (focusShared_ends params st).isNeverSilent_iff,
    fun params => (determineFilterOffsets_ends params st).isNeverSilent_iff⟩

/-- The answer to the pause is lost, and the pause is not. -/
theorem not_neverSilent_bench :
    ¬ ∀ pause, NeverSilent (marks (focusTrain (bench pause) ⟨"main", none⟩ ()).log)
      (Failed (focusTrain (bench pause) ⟨"main", none⟩ ()).out) := by
  intro h
  obtain ⟨⟨landed, hlanded⟩, _⟩ :=
    (h (.error (.ToolCall "the request timed out"), true)).resumed false [.recorded "main"] rfl
  simp at hlanded

end RustyPhoton.FocusModel
