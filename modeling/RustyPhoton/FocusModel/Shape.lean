import RustyPhoton.FocusModel.Marks

/-!
# The shapes of a focus call

A prepared call is refused before anything moves, or its sweep fails and is put back, or its sweep ends
in a position. Each way leaves its marks in one order, and the guiding it paused is asked to resume on
every way that paused it.
-/

namespace RustyPhoton.FocusModel

open Lib

/-! ## Texts that hold a note -/

theorem contains_iff {text part : String} :
    contains text part = true ↔ part.toList <:+: text.toList := decide_eq_true_iff

theorem contains_append_left {text part : String} (before : String) (h : contains text part = true) :
    contains (before ++ text) part = true := by
  rw [contains_iff, String.toList_append]
  exact List.infix_append_of_infix_right (contains_iff.mp h)

theorem contains_append_right {text part : String} (after : String) (h : contains text part = true) :
    contains (text ++ after) part = true := by
  rw [contains_iff, String.toList_append]
  exact List.infix_append_of_infix_left (contains_iff.mp h)

theorem contains_self (text : String) : contains text text = true :=
  contains_iff.mpr (List.infix_refl _)

/-- What names a put-back that did not land. -/
def notRestored (position : I32) : String := s!"the focuser could not be restored to {position.val}"

theorem contains_restoreNote (guard : Guard) (e : FocusModelError) :
    contains (restoreNote guard e) (notRestored guard.startedAt) = true := by
  unfold restoreNote notRestored
  exact contains_append_right _ (contains_append_right _ (contains_self _))

theorem contains_joinNotes {note part : String} (second : String) (h : contains note part = true) :
    contains (joinNotes (some note) second) part = true :=
  contains_append_right _ (contains_append_right _ h)

/-- A note is in the text of the error it is appended to. -/
theorem contains_appendNote {note part : String} (error : FocusModelError)
    (h : contains note part = true) : contains (appendNote error (some note)).toolMessage part = true := by
  cases error with
  | Cancelled reason =>
    exact contains_append_left _ (contains_append_left _ h)
  | _ => exact contains_append_left _ h

/-- A failure of the sweep itself, which only this sweep is lost to. -/
def FocusModelError.isSweep : FocusModelError → Bool
  | .Sweep _ => true
  | _ => false

theorem isSweep_appendNote (error : FocusModelError) (note : String) :
    (appendNote error (some note)).isSweep = false := by
  cases error with
  | _ => rfl

variable {σ F Ω ρ : Type} {s : Session σ F Ω ρ}

/-! ## Putting back -/

/-- The marks of a restore: moves to the start of the call on the cleanup client, each read back. One
that landed ends in a move and the start read back after it. -/
structure Restoring (guard : Guard) (l : List Mark) (landed : Bool) : Prop where
  only : ∀ mark ∈ l, (∃ reached, mark = .moved .cleanup guard.focuserId guard.startedAt reached) ∨
    ∃ position, mark = .seen guard.focuserId position
  first : ∃ reached rest, l = .moved .cleanup guard.focuserId guard.startedAt reached :: rest
  settled : landed = true → ∃ before reached, l = before ++
    [.moved .cleanup guard.focuserId guard.startedAt reached, .seen guard.focuserId guard.startedAt]

/-- The marks of a put-back's move. -/
theorem putBackMove_tells (guard : Guard) :
    Tells (fun out l => (∀ mark ∈ l, ∃ reached,
        mark = .moved .cleanup guard.focuserId guard.startedAt reached) ∧
        (∃ reached rest, l = .moved .cleanup guard.focuserId guard.startedAt reached :: rest) ∧
        ∀ back, out = .ok back → ∃ before reached,
          l = before ++ [.moved .cleanup guard.focuserId guard.startedAt reached])
      (putBackMove s guard.focuserId guard.startedAt guard.leaseId) := by
  refine .attempt (Tells.ask (c := .moveFocuser .cleanup guard.focuserId guard.startedAt guard.leaseId)
    (Q := fun out l => l = [.moved .cleanup guard.focuserId guard.startedAt (answered out)])
    fun _ _ => rfl) ?_
  rintro moved _ rfl
  cases moved with
  | ok reached =>
    refine .pure ⟨fun mark hmark => ⟨some reached, by simpa using hmark⟩, ⟨some reached, [], rfl⟩, ?_⟩
    intro _ _
    exact ⟨[], some reached, rfl⟩
  | error e =>
    dsimp only
    split
    · refine (Tells.ask (c := .moveFocuser .cleanup guard.focuserId guard.startedAt none)
        (Q := fun out l => l = [.moved .cleanup guard.focuserId guard.startedAt (answered out)])
        fun _ _ => rfl).mono ?_
      rintro out _ rfl
      refine ⟨fun mark hmark => ?_, ⟨none, _, rfl⟩, fun _ _ => ⟨[_], answered out, rfl⟩⟩
      rcases List.mem_append.mp hmark with h | h
      · exact ⟨none, List.mem_singleton.mp h⟩
      · exact ⟨answered out, List.mem_singleton.mp h⟩
    · exact .halt ⟨fun mark hmark => ⟨none, by simpa using hmark⟩, ⟨none, [], rfl⟩,
        fun _ h => by cases h⟩

theorem restoreTries_tells (guard : Guard) (tries : ℕ) :
    Tells (fun out l => (∀ mark ∈ l,
          (∃ reached, mark = .moved .cleanup guard.focuserId guard.startedAt reached) ∨
          ∃ position, mark = .seen guard.focuserId position) ∧
        (tries ≠ 0 → ∃ reached rest, l = .moved .cleanup guard.focuserId guard.startedAt reached :: rest) ∧
        (out = .ok () → ∃ before reached, l = before ++
          [.moved .cleanup guard.focuserId guard.startedAt reached, .seen guard.focuserId guard.startedAt]))
      (restoreTries s guard tries) := by
  induction tries with
  | zero =>
    exact .halt ⟨fun mark hmark => (by cases hmark), fun h => absurd rfl h, fun h => by cases h⟩
  | succ tries ih =>
    refine .bind (putBackMove_tells guard) ?_ ?_
    · rintro e l ⟨hall, hfirst, _⟩
      exact ⟨fun mark hmark => .inl (hall mark hmark), fun _ => hfirst, fun h => by cases h⟩
    · rintro _ l ⟨hall, ⟨reached, rest, hfirst⟩, hlast⟩
      obtain ⟨before, last, hl⟩ := hlast _ rfl
      have hhead : ∀ l' : List Mark, ∃ reached rest,
          l ++ l' = .moved .cleanup guard.focuserId guard.startedAt reached :: rest :=
        fun l' => ⟨reached, rest ++ l', by rw [hfirst]; rfl⟩
      refine .bind (Tells.ask (c := .getFocuserPosition .cleanup guard.focuserId)
        (Q := fun out l => l = ((answered out).map fun p => Mark.seen guard.focuserId p.position).toList)
        fun _ _ => rfl) ?_ ?_
      · rintro e _ rfl
        refine ⟨fun mark hmark => .inl (hall mark (by simpa using hmark)), fun _ => hhead _,
          fun h => by cases h⟩
      · rintro seen _ rfl
        have hseen : ∀ mark ∈ l ++ [Mark.seen guard.focuserId seen.position],
            (∃ reached, mark = .moved .cleanup guard.focuserId guard.startedAt reached) ∨
            ∃ position, mark = .seen guard.focuserId position := by
          intro mark hmark
          rcases List.mem_append.mp hmark with h | h
          · exact .inl (hall mark h)
          · exact .inr ⟨_, List.mem_singleton.mp h⟩
        split
        · next hsame =>
            refine .pure ⟨by simpa using hseen, fun _ => hhead _, fun _ => ⟨before, last, ?_⟩⟩
            simp [hl, hsame]
        · refine ih.mono ?_
          rintro out l' ⟨hall', _, hlast'⟩
          refine ⟨fun mark hmark => ?_, fun _ => hhead _, fun hout => ?_⟩
          · rw [← List.append_assoc] at hmark
            exact (List.mem_append.mp hmark).elim (hseen mark) (hall' mark)
          · obtain ⟨before', reached', hl'⟩ := hlast' hout
            refine ⟨l ++ [Mark.seen guard.focuserId seen.position] ++ before', reached', ?_⟩
            rw [hl']
            simp

theorem restore_tells (guard : Guard) :
    Tells (fun out l => Restoring guard l (answered out).isSome) (guard.restore s) :=
  (restoreTries_tells guard 2).mono fun out l h => ⟨h.1, h.2.1 (by decide), fun hlanded => by
    cases out with
    | ok _ => exact h.2.2 rfl
    | error e => cases hlanded⟩

/-- The marks of a resume, if there was anything to resume, and whether guiding is still paused. -/
def Resuming (paused : Bool) (l : List Mark) (left : Bool) : Prop :=
  if paused then l = [.resumed .cleanup !left] else l = [] ∧ left = false

theorem putBack_tells (guard : Guard) :
    Tells (fun out l => ∃ back resume landed note left, l = back ++ resume ∧ out = .ok (note, left) ∧
        Restoring guard back landed ∧ Resuming guard.guidingPaused resume left ∧
        (landed = false → ∃ text, note = some text ∧ contains text (notRestored guard.startedAt) = true) ∧
        (left = true → ∃ text, note = some text))
      (guard.putBack s) := by
  refine .attempt (restore_tells guard) ?_
  intro restored back hback
  have hnote : (answered restored).isSome = false → ∃ e, restored = .error e := by
    intro h
    cases restored with
    | ok _ => cases h
    | error e => exact ⟨e, rfl⟩
  dsimp only
  split
  · next hpaused =>
      refine .attempt (Tells.ask (c := .resumeGuiding .cleanup)
        (Q := fun out l => l = [.resumed .cleanup (answered out).isSome]) fun _ _ => rfl) ?_
      rintro resumed _ rfl
      cases resumed with
      | ok _ =>
        refine .pure ⟨back, [.resumed .cleanup true], _, _, false, by simp, rfl, hback, ?_, fun h => ?_,
          fun h => by cases h⟩
        · rw [hpaused, Resuming, if_pos rfl]
          rfl
        · obtain ⟨e, rfl⟩ := hnote h
          exact ⟨_, rfl, contains_restoreNote guard e⟩
      | error e' =>
        refine .pure ⟨back, [.resumed .cleanup false], _, _, true, by simp, rfl, hback, ?_, fun h => ?_,
          fun _ => ⟨_, rfl⟩⟩
        · rw [hpaused, Resuming, if_pos rfl]
          rfl
        · obtain ⟨e, rfl⟩ := hnote h
          exact ⟨_, rfl, contains_joinNotes _ (contains_restoreNote guard e)⟩
  · next hpaused =>
      refine .pure ⟨back, [], _, _, false, by simp, rfl, hback, ?_, fun h => ?_, fun h => by cases h⟩
      · rw [Bool.eq_false_iff.mpr hpaused, Resuming, if_neg Bool.false_ne_true]
        exact ⟨rfl, rfl⟩
      · obtain ⟨e, rfl⟩ := hnote h
        exact ⟨_, rfl, contains_restoreNote guard e⟩

/-! ## Recording -/

theorem recordFailure_tells (ctx : TrainContext Ω) (run : FocusRun F) :
    Tells (fun out l => (∃ note, out = .ok note) ∧ l = [.recorded ctx.trainId])
      (recordFailure s ctx run) := by
  refine .attempt (Tells.ask (c := .recordRun ctx.trainId run)
    (Q := fun _ l => l = [.recorded ctx.trainId]) fun _ _ => rfl) ?_
  rintro written _ rfl
  cases written with
  | ok _ => exact .pure ⟨⟨_, rfl⟩, rfl⟩
  | error e => exact .pure ⟨⟨_, rfl⟩, rfl⟩

variable {prepared : Prepared F Ω}

theorem refuse_tells (run : FocusRun F) (error : FocusModelError) :
    Tells (fun out l => (∃ e, out = .ok e) ∧ l = [.recorded prepared.ctx.trainId])
      (refuse s prepared run error) := by
  refine .bind (recordFailure_tells _ _) ?_ ?_
  · rintro e l ⟨⟨_, h⟩, _⟩
    cases h
  · rintro note l ⟨_, rfl⟩
    exact .pure ⟨⟨_, rfl⟩, rfl⟩

theorem putBackAndRecord_tells (guard : Guard) (ctx : TrainContext Ω) (run : FocusRun F)
    (error : FocusModelError) (outstanding : Bool) :
    Tells (fun out l => ∃ back resume landed e left,
        l = back ++ resume ++ [.recorded ctx.trainId] ∧ out = .ok (e, outstanding || left) ∧
        Restoring guard back landed ∧ Resuming guard.guidingPaused resume left ∧
        (landed = false → contains e.toolMessage (notRestored guard.startedAt) = true) ∧
        (left = true → e.isSweep = false))
      (putBackAndRecord s guard ctx run error outstanding) := by
  refine .bind (putBack_tells guard) ?_ ?_
  · rintro e l ⟨_, _, _, _, _, _, h, _⟩
    cases h
  · rintro _ l ⟨back, resume, landed, note, left, rfl, hout, hback, hresume, hnamed, hnote⟩
    cases hout
    refine .bind (recordFailure_tells _ _) ?_ ?_
    · rintro e l ⟨⟨_, h⟩, _⟩
      cases h
    · rintro storeNote l ⟨_, rfl⟩
      refine .pure ⟨back, resume, landed, _, left, by simp, rfl, hback, hresume, fun h => ?_, fun h => ?_⟩
      · obtain ⟨text, rfl, htext⟩ := hnamed h
        exact contains_appendNote _ htext
      · obtain ⟨text, rfl⟩ := hnote h
        exact isSweep_appendNote _ text

/-! ## The handshake, the lease and the approach -/

/-- The marks of a handshake that was made, and whether it paused. -/
def Handshook (own : Bool) (l : List Mark) (paused : Bool) : Prop :=
  if paused then own = true ∧ ∃ took, l = [.paused true took] else l = []

/-- What was left behind before anything moved: a lease released again, a pause that failed. -/
def LeftBefore (own : Bool) (l : List Mark) : Prop :=
  ∀ mark ∈ l, (∃ leaseId, mark = .released leaseId) ∨ own = true ∧ ∃ took, mark = .paused false took

theorem pauseIfCoupled_tells (guideCoupled : Bool) :
    Tells (fun out l => match out with
      | .ok paused => Handshook true l paused
      | .error _ => LeftBefore true l)
      (pauseIfCoupled s guideCoupled) := by
  have hnone : LeftBefore true [] := fun mark hmark => by cases hmark
  unfold pauseIfCoupled
  split
  · refine .attempt (Tells.ask (c := .guidingActive .active) (Q := fun _ l => l = []) fun _ _ => rfl) ?_
    rintro running _ rfl
    cases running with
    | ok running =>
      dsimp only
      split
      · refine .bind (Tells.ask (c := .pauseGuiding .active)
          (Q := fun out l => ∃ took, l = [.paused (answered out).isSome took])
          fun _ took => ⟨took, rfl⟩) ?_ ?_
        · rintro e _ ⟨took, rfl⟩ mark hmark
          exact .inr ⟨rfl, took, by simpa using hmark⟩
        · rintro _ _ ⟨took, rfl⟩
          exact .pure ⟨rfl, took, rfl⟩
      · exact .pure rfl
    | error e =>
      dsimp only
      split
      · exact .halt hnone
      · exact .pure rfl
  · exact .pure rfl

theorem handshake_tells (ctx : TrainContext Ω) (guiding : Guiding) :
    Tells (fun out l => match out with
      | .ok paused => Handshook guiding.owned l (paused && guiding.owned)
      | .error _ => LeftBefore guiding.owned l)
      (handshake s ctx guiding) := by
  cases guiding with
  | Own =>
    have hread : Tells (fun _ l => l = []) (s.world.ask (.getRefocusPlan .active ctx.trainId)) :=
      .ask fun _ _ => rfl
    refine .bind hread ?_ ?_
    · rintro e _ rfl
      exact fun mark hmark => by cases hmark
    · rintro plan _ rfl
      refine (pauseIfCoupled_tells plan.guideCoupled).mono fun out l h => ?_
      cases out with
      | ok paused =>
        show Handshook true l (paused && true)
        rw [Bool.and_true]
        exact h
      | error e => exact h
  | Held paused =>
    refine .pure ?_
    show Handshook false [] (paused && false)
    rw [Bool.and_false]
    rfl

theorem releaseLease_tells (leaseId : String) :
    Tells (fun out l => out = .ok () ∧ l = [.released leaseId]) (releaseLease s leaseId) := by
  refine .attempt (Tells.ask (c := .releaseTrainLease .cleanup leaseId)
    (Q := fun _ l => l = [.released leaseId]) fun _ _ => rfl) ?_
  rintro released _ rfl
  exact .pure ⟨rfl, rfl⟩

theorem takeLease_tells (own : Bool) :
    Tells (fun out l => match out with
      | .ok _ => l = []
      | .error _ => LeftBefore own l)
      (takeLease s prepared) := by
  have hnone : LeftBefore own [] := fun mark hmark => by cases hmark
  unfold takeLease
  split
  · refine .bind (Quiet.ofExcept _) ?_ ?_
    · rintro e _ rfl
      exact hnone
    · rintro maxDuration _ rfl
      refine .bind (Quiet.silently _) ?_ ?_
      · rintro e _ rfl
        exact hnone
      · rintro leaseId _ rfl
        refine .attempt (Tells.ask
          (c := .acquireTrainLease .active prepared.ctx.trainId leaseId maxDuration)
          (Q := fun _ l => l = []) fun _ _ => rfl) ?_
        rintro taken _ rfl
        cases taken with
        | ok _ => exact .pure rfl
        | error e =>
          refine .bind (releaseLease_tells leaseId) ?_ ?_
          · rintro e _ ⟨h, _⟩
            cases h
          · rintro _ _ ⟨_, rfl⟩
            exact .halt fun mark hmark => .inl ⟨leaseId, by simpa using hmark⟩
  · exact .pure rfl

theorem approach_tells (leaseId : Option String) :
    Tells (fun _ l => ∀ mark ∈ l, mark.IsSweepMove prepared.ctx.focuserId)
      (approach s prepared leaseId) := by
  have hmove : Tells (fun _ l => ∀ mark ∈ l, mark.IsSweepMove prepared.ctx.focuserId)
      (moveToStart s prepared leaseId) := by
    unfold moveToStart
    split
    · next start _ _ =>
        refine Tells.ask (c := .moveFocuser .active prepared.ctx.focuserId start leaseId) fun _ _ mark hmark => ?_
        rw [List.mem_singleton.mp hmark]
        rfl
    · exact .pure fun mark hmark => by cases hmark
  have hfilter : Quiet (selectFilter s prepared leaseId) := by
    unfold selectFilter
    split
    · split
      · exact .ask fun _ _ => rfl
      · exact .pure _
    · exact .pure _
  refine .bind hmove (fun _ _ h => h) fun centre l hl => ?_
  refine .bind hfilter ?_ ?_
  · rintro e _ rfl
    simpa using hl
  · rintro _ _ rfl
    exact .pure (by simpa using hl)

theorem resumeAfter_tells (guard : Guard) (position : I32) :
    Tells (fun out l => ∃ left, Resuming guard.guidingPaused l left ∧
        if left then ∃ e, out = .error e ∧ e.isSweep = false else out = .ok ())
      (resumeAfter s guard position) := by
  unfold resumeAfter
  split
  · next hpaused =>
      rw [hpaused]
      refine .attempt (Tells.ask (c := .resumeGuiding .cleanup)
        (Q := fun out l => l = [.resumed .cleanup (answered out).isSome]) fun _ _ => rfl) ?_
      rintro resumed _ rfl
      cases resumed with
      | ok _ => exact .pure ⟨false, rfl, rfl⟩
      | error e => exact .halt ⟨true, rfl, _, rfl, rfl⟩
  · next hpaused =>
      rw [Bool.eq_false_iff.mpr hpaused]
      exact .pure ⟨false, ⟨rfl, rfl⟩, rfl⟩

/-- Leases released, and nothing else. -/
def Releases (l : List Mark) : Prop := ∀ mark ∈ l, ∃ leaseId, mark = .released leaseId

theorem releaseTaken_tells (leaseId : Option String) :
    Tells (fun out l => out = .ok () ∧ Releases l) (releaseTaken s leaseId) := by
  cases leaseId with
  | none => exact .pure ⟨rfl, fun mark hmark => by cases hmark⟩
  | some leaseId =>
    refine (releaseLease_tells leaseId).mono ?_
    rintro out _ ⟨hout, rfl⟩
    exact ⟨hout, fun mark hmark => ⟨leaseId, List.mem_singleton.mp hmark⟩⟩

/-! ## The shapes -/

variable [F64 F]

/-- These are the marks of a sweep of the prepared call that ended in this outcome. -/
def Swept (s : Session σ F Ω ρ) (prepared : Prepared F Ω) (outcome : SweepOutcome F) (l : List Mark) :
    Prop :=
  ∃ leaseId centre st,
    (runSweep ((prepared.rigSweep leaseId).ops s) s.setup.fitHyperbola centre (sweepParams prepared) st).out =
      .ok (.ok outcome) ∧
    l = marks (runSweep ((prepared.rigSweep leaseId).ops s) s.setup.fitHyperbola centre
      (sweepParams prepared) st).log

theorem Swept.settled {outcome : SweepOutcome F} {l : List Mark} (h : Swept s prepared outcome l) :
    SettledAt prepared.ctx.focuserId outcome.position l := by
  obtain ⟨leaseId, centre, st, hout, rfl⟩ := h
  obtain ⟨_, result, hresult, hsettled⟩ := @runSweep_tells _ _ _ _ s _ (prepared.rigSweep leaseId)
    s.setup.fitHyperbola centre (sweepParams prepared) st
  rw [hout] at hresult
  exact hsettled outcome (Except.ok.inj hresult).symm

/-- What the call puts back to. -/
def Prepared.guardOf (prepared : Prepared F Ω) (paused : Bool) (leaseId : Option String) : Guard :=
  ⟨prepared.ctx.focuserId, prepared.start.position.position, paused, leaseId⟩

/-- The marks of a prepared call, its result, and whether it leaves a pause of its own behind. -/
inductive Shape (s : Session σ F Ω ρ) (prepared : Prepared F Ω) (own : Bool) :
    List Mark → Except FocusModelError (FocusTrainOutcome F) → Bool → Prop where
  /-- Nothing moved. -/
  | refused {before after : List Mark} (e : FocusModelError) (hbefore : LeftBefore own before)
      (hafter : Releases after) :
      Shape s prepared own (before ++ [.recorded prepared.ctx.trainId] ++ after) (.error e) false
  /-- The approach or the sweep failed, and was put back. -/
  | failed {pause moves back resume after : List Mark} {paused landed left : Bool}
      {leaseId : Option String} (e : FocusModelError) (hpause : Handshook own pause paused)
      (hmoves : ∀ mark ∈ moves, mark.IsSweepMove prepared.ctx.focuserId)
      (hback : Restoring (prepared.guardOf paused leaseId) back landed)
      (hresume : Resuming paused resume left) (hafter : Releases after)
      (hnamed : landed = false →
        contains e.toolMessage (notRestored prepared.start.position.position) = true)
      (hkind : left = true → e.isSweep = false) :
      Shape s prepared own
        (pause ++ moves ++ back ++ resume ++ [.recorded prepared.ctx.trainId] ++ after) (.error e) left
  /-- The sweep ended in a position. -/
  | finished {pause moves swept resume after : List Mark} {paused left : Bool}
      {outcome : SweepOutcome F} {result : Except FocusModelError (FocusTrainOutcome F)}
      (hpause : Handshook own pause paused)
      (hmoves : ∀ mark ∈ moves, mark.IsSweepMove prepared.ctx.focuserId)
      (hswept : Swept s prepared outcome swept) (hresume : Resuming paused resume left)
      (hafter : Releases after)
      (hresult : if left then ∃ e, result = .error e ∧ e.isSweep = false
        else ∃ o, result = .ok o ∧ o.swept = outcome) :
      Shape s prepared own
        (pause ++ moves ++ swept ++ resume ++ [.recorded prepared.ctx.trainId] ++ after) result left

theorem Shape.release {own : Bool} {l l' : List Mark}
    {result : Except FocusModelError (FocusTrainOutcome F)} {left : Bool}
    (h : Shape s prepared own l result left) (hl' : Releases l') :
    Shape s prepared own (l ++ l') result left := by
  have hboth : ∀ after, Releases after → Releases (after ++ l') := fun after hafter mark hmark =>
    (List.mem_append.mp hmark).elim (hafter mark) (hl' mark)
  cases h with
  | refused e hbefore hafter =>
    rw [List.append_assoc]
    exact .refused e hbefore (hboth _ hafter)
  | failed e hpause hmoves hback hresume hafter hnamed hkind =>
    rw [List.append_assoc]
    exact .failed e hpause hmoves hback hresume (hboth _ hafter) hnamed hkind
  | finished hpause hmoves hswept hresume hafter hresult =>
    rw [List.append_assoc]
    exact .finished hpause hmoves hswept hresume (hboth _ hafter) hresult

/-- The result of a call, whatever pause was outstanding before it. -/
def Told (s : Session σ F Ω ρ) (prepared : Prepared F Ω) (own outstanding : Bool)
    (out : Except FocusModelError (Except FocusModelError (FocusTrainOutcome F) × Bool)) (l : List Mark) :
    Prop :=
  ∃ result left, out = .ok (result, outstanding || left) ∧ Shape s prepared own l result left

theorem finishSuccess_tells (guard : Guard) (runBase : FocusRun F) (outcome : SweepOutcome F) :
    Tells (fun out l => ∃ resume left result, l = resume ++ [.recorded prepared.ctx.trainId] ∧
        out = .ok result ∧ Resuming guard.guidingPaused resume left ∧
        if left then ∃ e, result = .error e ∧ e.isSweep = false else ∃ o, result = .ok o ∧ o.swept = outcome)
      (finishSuccess s guard prepared runBase outcome) := by
  refine .attempt (resumeAfter_tells guard outcome.position) ?_
  rintro resumed resume ⟨left, hresume, hout⟩
  refine .attempt (Tells.ask (c := .recordRun prepared.ctx.trainId _)
    (Q := fun _ l => l = [.recorded prepared.ctx.trainId]) fun _ _ => rfl) ?_
  rintro recorded _ rfl
  cases left with
  | true =>
    obtain ⟨e, rfl, hkind⟩ := hout
    exact .pure ⟨resume, true, _, by simp, rfl, hresume, e, rfl, hkind⟩
  | false =>
    cases hout
    exact .pure ⟨resume, false, _, by simp, rfl, hresume, _, rfl, rfl⟩

theorem sweepGuarded_tells {own paused : Bool} {pause moves : List Mark} (runBase : FocusRun F)
    (leaseId : Option String) (centre : I32) (outstanding : Bool) (hpause : Handshook own pause paused)
    (hmoves : ∀ mark ∈ moves, mark.IsSweepMove prepared.ctx.focuserId) :
    Tells (fun out l => Told s prepared own outstanding out (pause ++ moves ++ l))
      (sweepGuarded s (prepared.guardOf paused leaseId) prepared runBase leaseId centre outstanding) := by
  have hsweep := @runSweep_tells _ _ _ _ s _ (prepared.rigSweep leaseId) s.setup.fitHyperbola centre
    (sweepParams prepared)
  refine .bind (hsweep.and (.self _)) ?_ ?_
  · rintro e l ⟨⟨_, _, h, _⟩, _⟩
    cases h
  · rintro result l ⟨⟨hall, result', hresult', _⟩, st, hout, hl⟩
    cases result with
    | ok outcome =>
      have hswept : Swept s prepared outcome l := ⟨leaseId, centre, st, hout.symm, hl⟩
      refine .bind (finishSuccess_tells _ runBase outcome) ?_ ?_
      · rintro e l' ⟨_, _, _, _, h, _⟩
        cases h
      · rintro finished l' ⟨resume, left, result, rfl, hfinished, hresume, hend⟩
        cases hfinished
        have hshape := @Shape.finished _ _ _ _ _ _ _ own _ _ _ _ [] _ _ _ _ hpause hmoves hswept hresume
          (fun mark hmark => by cases hmark) hend
        rw [List.append_nil] at hshape
        cases left with
        | true =>
          obtain ⟨e, rfl, _⟩ := hend
          have hpaused : paused = true := by
            cases paused with
            | true => rfl
            | false => exact absurd hresume.2 (by decide)
          refine .pure ⟨_, true, ?_, by simpa using hshape⟩
          rw [show (prepared.guardOf paused leaseId).guidingPaused = true from hpaused]
        | false =>
          obtain ⟨o, rfl, _⟩ := hend
          exact .pure ⟨_, false, by rw [Bool.or_false], by simpa using hshape⟩
    | error failure =>
      refine .bind (putBackAndRecord_tells _ _ _ _ outstanding) ?_ ?_
      · rintro e l' ⟨_, _, _, _, _, _, h, _⟩
        cases h
      · rintro left' l' ⟨back, resume, landed, e, left, rfl, hleft, hback, hresume, hnamed, hkind⟩
        cases hleft
        have hboth : ∀ mark ∈ moves ++ l, mark.IsSweepMove prepared.ctx.focuserId := fun mark hmark =>
          (List.mem_append.mp hmark).elim (hmoves mark) (hall mark)
        have hshape := @Shape.failed _ _ _ _ _ s _ own _ _ _ _ [] _ _ _ _ e hpause hboth hback hresume
          (fun mark hmark => by cases hmark) hnamed hkind
        exact .pure ⟨_, left, rfl, by simpa using hshape⟩

/-- A refusal records the run and nothing else. -/
theorem refused_tells {own : Bool} {before : List Mark} (runBase : FocusRun F) (e : FocusModelError)
    (outstanding : Bool) (hbefore : LeftBefore own before) :
    Tells (fun out l => Told s prepared own outstanding out (before ++ l))
      (refuse s prepared runBase e >>= fun e =>
        (pure (.error e, outstanding) :
          Talk σ F Ω ρ (Except FocusModelError (FocusTrainOutcome F) × Bool))) := by
  refine .bind (refuse_tells runBase e) ?_ ?_
  · rintro e l ⟨⟨_, h⟩, _⟩
    cases h
  · rintro e l ⟨_, rfl⟩
    have hshape := @Shape.refused _ _ _ _ _ s prepared _ _ [] e hbefore
      fun mark hmark => by cases hmark
    exact .pure ⟨_, false, by rw [Bool.or_false], by simpa using hshape⟩

/-- A sweep after its refusals and its lease. -/
theorem sweepPrepared_tells (runBase : FocusRun F) (guiding : Guiding) (leaseId : Option String)
    (outstanding : Bool) :
    Tells (Told s prepared guiding.owned outstanding)
      (sweepPrepared s prepared runBase guiding leaseId outstanding) := by
  refine .attempt (handshake_tells prepared.ctx guiding) ?_
  intro paused pause hpause
  cases paused with
  | error e => exact refused_tells runBase e outstanding hpause
  | ok paused =>
    refine .attempt (approach_tells leaseId) ?_
    intro centre moves hmoves
    cases centre with
    | error e =>
      refine .bind (putBackAndRecord_tells _ _ _ _ outstanding) ?_ ?_
      · rintro e l ⟨_, _, _, _, _, _, h, _⟩
        cases h
      · rintro left' l ⟨back, resume, landed, e, left, rfl, hleft, hback, hresume, hnamed, hkind⟩
        cases hleft
        have hshape := @Shape.failed _ _ _ _ _ s _ guiding.owned _ _ _ _ [] _ _ _ _ e hpause hmoves hback
          hresume (fun mark hmark => by cases hmark) hnamed hkind
        exact .pure ⟨_, left, rfl, by simpa using hshape⟩
    | ok centre =>
      refine (sweepGuarded_tells runBase leaseId centre outstanding hpause hmoves).mono ?_
      intro out l h
      rw [← List.append_assoc]
      exact h

/-- Every prepared call has one of the shapes. -/
theorem focusPrepared_tells (guiding : Guiding) (outstanding : Bool) :
    Tells (Told s prepared guiding.owned outstanding) (focusPrepared s prepared guiding outstanding) := by
  have hnone : LeftBefore guiding.owned [] := fun mark hmark => by cases hmark
  have hread : Tells (fun out l => l = [] ∧ ∃ now, out = .ok now)
      (silently s.world.now : Talk σ F Ω ρ String) := fun _ => ⟨rfl, _, rfl⟩
  refine .bind hread ?_ ?_
  · rintro e _ ⟨_, now, h⟩
    cases h
  · rintro now _ ⟨rfl, _⟩
    show Tells (Told s prepared guiding.owned outstanding) _
    cases withinTravel prepared.start.position with
    | error e => exact refused_tells _ e outstanding hnone
    | ok _ =>
      cases checkGrid (plannedCentre prepared) (sweepParams prepared) with
      | error failure => exact refused_tells _ _ outstanding hnone
      | ok _ =>
        refine .attempt (takeLease_tells guiding.owned) ?_
        intro leaseId before hbefore
        cases leaseId with
        | error e => exact refused_tells _ e outstanding hbefore
        | ok leaseId =>
          cases hbefore
          refine .bind (sweepPrepared_tells _ guiding leaseId outstanding) ?_ ?_
          · rintro e l ⟨_, _, h, _⟩
            cases h
          · rintro swept l ⟨result, left, hswept, hshape⟩
            cases hswept
            refine .bind (releaseTaken_tells leaseId) ?_ ?_
            · rintro e l' ⟨h, _⟩
              cases h
            · rintro _ l' ⟨_, hreleases⟩
              refine .pure ⟨result, left, rfl, ?_⟩
              simpa using hshape.release hreleases

end RustyPhoton.FocusModel
