import RustyPhoton.FocusModel.PutBack

/-!
# The guiding handshake over a run

A pause is owned by one sweep, by a shared walk or by the offsets procedure, and each owner asks guiding
to resume on its way out. What a run did with the guiding is read off its marks: the last pause that may
have taken effect, and what came after it.
-/

namespace RustyPhoton.FocusModel

open Lib

namespace Mark

def isPaused : Mark → Bool
  | .paused _ _ => true
  | _ => false

def isResumed : Mark → Bool
  | .resumed _ _ => true
  | _ => false

/-- A pause or a resume of guiding. -/
def isGuiding (mark : Mark) : Bool := mark.isPaused || mark.isResumed

end Mark

/-- The last pause that may have taken effect: whether it was answered, and what came after it. -/
def lastPause : List Mark → Option (Bool × List Mark)
  | [] => none
  | .paused answered took :: l =>
      (lastPause l).or (if answered || took then some (answered, l) else none)
  | _ :: l => lastPause l

/-- Guiding is not left paused in silence. -/
structure NeverSilent (l : List Mark) (failed : Prop) : Prop where
  resumed : ∀ answered after, lastPause l = some (answered, after) →
    (∃ landed, .resumed .cleanup landed ∈ after) ∧ (.resumed .cleanup true ∉ after → failed)
  untouched : (∀ mark ∈ l, mark.isPaused = false) → ∀ mark ∈ l, mark.isResumed = false

/-- The last pause that may have taken effect was answered. -/
def LastAnswered (l : List Mark) : Prop := ∀ after, lastPause l ≠ some (false, after)

/-- What a part of a run did with the guiding, and whether it left a pause behind. -/
def Minded (l : List Mark) (left : Bool) : Prop :=
  match lastPause l with
  | none => left = false ∧ ∀ mark ∈ l, mark.isResumed = false
  | some (true, after) => .resumed .cleanup (!left) ∈ after ∧ (left = true → .resumed .cleanup true ∉ after)
  | some (false, after) => left = false ∧ ∀ mark ∈ after, mark.isResumed = false

/-! ## The last pause -/

theorem lastPause_cons_of_isPaused {mark : Mark} (h : mark.isPaused = false) (l : List Mark) :
    lastPause (mark :: l) = lastPause l := by
  cases mark with
  | paused answered took => cases h
  | _ => rfl

theorem lastPause_append (l l' : List Mark) :
    lastPause (l ++ l') = (lastPause l').or ((lastPause l).map fun last => (last.1, last.2 ++ l')) := by
  induction l with
  | nil => simp [lastPause]
  | cons mark l ih =>
    cases mark with
    | paused answered took =>
      show (lastPause (l ++ l')).or _ = _
      rw [ih, Option.or_assoc]
      congr 1
      show _ = Option.map _ ((lastPause l).or _)
      cases lastPause l with
      | some last => rfl
      | none =>
        show (if answered || took then some (answered, l ++ l') else none) =
          Option.map _ (if answered || took then some (answered, l) else none)
        split <;> rfl
    | _ => exact ih

theorem lastPause_eq_none {l : List Mark} (h : ∀ mark ∈ l, mark.isPaused = false) : lastPause l = none := by
  induction l with
  | nil => rfl
  | cons mark l ih =>
    rw [lastPause_cons_of_isPaused (h mark List.mem_cons_self)]
    exact ih fun mark hmark => h mark (List.mem_cons_of_mem _ hmark)

theorem lastPause_mem {l after : List Mark} {answered : Bool} (h : lastPause l = some (answered, after)) :
    (∃ took, .paused answered took ∈ l) ∧ ∀ mark ∈ after, mark ∈ l := by
  induction l with
  | nil => cases h
  | cons mark l ih =>
    have hrest : lastPause l = some (answered, after) →
        (∃ took, .paused answered took ∈ mark :: l) ∧ ∀ other ∈ after, other ∈ mark :: l := by
      intro hl
      obtain ⟨⟨took, htook⟩, hafter⟩ := ih hl
      exact ⟨⟨took, List.mem_cons_of_mem _ htook⟩, fun other hother =>
        List.mem_cons_of_mem _ (hafter other hother)⟩
    cases mark with
    | paused answered' took =>
      change (lastPause l).or (if answered' || took then some (answered', l) else none) = _ at h
      cases hlast : lastPause l with
      | some last =>
        rw [hlast, Option.some_or] at h
        exact hrest (hlast.trans h)
      | none =>
        rw [hlast, Option.none_or] at h
        split at h
        · cases h
          exact ⟨⟨took, List.mem_cons_self⟩, fun other hother => List.mem_cons_of_mem _ hother⟩
        · cases h
    | _ => exact hrest h

/-! ## Parts of a run -/

variable {l l' : List Mark} {left : Bool}

theorem isPaused_of_isGuiding {mark : Mark} (h : mark.isGuiding = false) : mark.isPaused = false :=
  (Bool.or_eq_false_iff.mp h).1

theorem isResumed_of_isGuiding {mark : Mark} (h : mark.isGuiding = false) : mark.isResumed = false :=
  (Bool.or_eq_false_iff.mp h).2

theorem Minded.of_none (hlast : lastPause l = none) (h : ∀ mark ∈ l, mark.isResumed = false) :
    Minded l false := by
  rw [Minded, hlast]
  exact ⟨rfl, h⟩

theorem Minded.of_answered {after : List Mark} (hlast : lastPause l = some (true, after))
    (hresumed : .resumed .cleanup (!left) ∈ after) (h : left = true → .resumed .cleanup true ∉ after) :
    Minded l left := by
  rw [Minded, hlast]
  exact ⟨hresumed, h⟩

theorem Minded.of_lost {after : List Mark} (hlast : lastPause l = some (false, after))
    (h : ∀ mark ∈ after, mark.isResumed = false) : Minded l false := by
  rw [Minded, hlast]
  exact ⟨rfl, h⟩

/-- A part that leaves the guiding alone. -/
theorem Minded.of_still (h : ∀ mark ∈ l, mark.isGuiding = false) : Minded l false :=
  .of_none (lastPause_eq_none fun mark hmark => isPaused_of_isGuiding (h mark hmark))
    fun mark hmark => isResumed_of_isGuiding (h mark hmark)

/-- A part that left no pause behind, and what came next. -/
theorem Minded.append (h : Minded l false) (h' : Minded l' left) : Minded (l ++ l') left := by
  have happend := lastPause_append l l'
  cases hlast' : lastPause l' with
  | some last' =>
    obtain ⟨answered, after⟩ := last'
    rw [hlast', Option.some_or] at happend
    rw [Minded, hlast'] at h'
    cases answered with
    | true => exact .of_answered happend h'.1 h'.2
    | false =>
      obtain ⟨rfl, hnone⟩ := h'
      exact .of_lost happend hnone
  | none =>
    rw [Minded, hlast'] at h'
    obtain ⟨rfl, hnone⟩ := h'
    rw [hlast', Option.none_or] at happend
    cases hlast : lastPause l with
    | none =>
      rw [hlast] at happend
      rw [Minded, hlast] at h
      exact .of_none happend (forall_append h.2 hnone)
    | some last =>
      obtain ⟨answered, after⟩ := last
      rw [hlast] at happend
      rw [Minded, hlast] at h
      cases answered with
      | true =>
        exact .of_answered happend (List.mem_append_left _ h.1) fun hleft => by cases hleft
      | false => exact .of_lost happend (forall_append h.2 hnone)

/-- Guiding is left paused in silence exactly when the last pause was lost. -/
theorem Minded.isNeverSilent_iff {failed : Prop} (h : Minded l left) (hfailed : left = true → failed) :
    NeverSilent l failed ↔ LastAnswered l := by
  cases hlast : lastPause l with
  | none =>
    rw [Minded, hlast] at h
    refine ⟨fun _ after hafter => ?_, fun _ => ⟨fun answered after hafter => ?_, fun _ => h.2⟩⟩
    · rw [hlast] at hafter
      cases hafter
    · rw [hlast] at hafter
      cases hafter
  | some last =>
    obtain ⟨answered, after⟩ := last
    rw [Minded, hlast] at h
    have hpaused : ¬ ∀ mark ∈ l, mark.isPaused = false := fun hnone => by
      rw [lastPause_eq_none hnone] at hlast
      cases hlast
    cases answered with
    | true =>
      refine ⟨fun _ after hafter => ?_, fun _ => ⟨fun answered after' hafter => ?_,
        fun hnone => absurd hnone hpaused⟩⟩
      · rw [hlast] at hafter
        cases hafter
      · rw [hlast] at hafter
        cases hafter
        refine ⟨⟨_, h.1⟩, fun hnever => hfailed ?_⟩
        cases left with
        | true => rfl
        | false => exact absurd h.1 hnever
    | false =>
      refine ⟨fun hsilent => ?_, fun hanswered => absurd hlast (hanswered after)⟩
      obtain ⟨⟨landed, hlanded⟩, _⟩ := hsilent.resumed false after hlast
      have hresumed := h.2 _ hlanded
      cases hresumed

/-! ## One sweep -/

variable {σ F Ω ρ : Type} {s : Session σ F Ω ρ}

/-- A pause that was answered, and the resume after it. -/
theorem minded_answered {took : Bool} {moves back : List Mark}
    (hmoves : ∀ mark ∈ moves, mark.isGuiding = false) (hback : ∀ mark ∈ back, mark.isGuiding = false) :
    Minded (.paused true took :: (moves ++ [.resumed .cleanup !left] ++ back)) left := by
  have hnone : lastPause (moves ++ [.resumed .cleanup !left] ++ back) = none :=
    lastPause_eq_none (forall_append (forall_append (fun mark hmark => isPaused_of_isGuiding (hmoves mark hmark))
      (by simp [Mark.isPaused])) fun mark hmark => isPaused_of_isGuiding (hback mark hmark))
  have hlast : lastPause (.paused true took :: (moves ++ [.resumed .cleanup !left] ++ back)) =
      some (true, moves ++ [.resumed .cleanup !left] ++ back) := by
    show (lastPause (moves ++ [.resumed .cleanup !left] ++ back)).or _ = _
    rw [hnone]
    rfl
  refine .of_answered hlast (by simp) fun hleft hmem => ?_
  rcases List.mem_append.mp hmem with hmem | hmem
  · rcases List.mem_append.mp hmem with hmem | hmem
    · have hstill := hmoves _ hmem
      cases hstill
    · rw [hleft] at hmem
      cases List.mem_singleton.mp hmem
  · have hstill := hback _ hmem
    cases hstill

/-- A handshake around moves, and its resume after them. -/
theorem minded_handshake {own paused : Bool} {pause moves resume back : List Mark}
    (hpause : Handshook own pause paused) (hmoves : ∀ mark ∈ moves, mark.isGuiding = false)
    (hresume : Resuming paused resume left) (hback : ∀ mark ∈ back, mark.isGuiding = false) :
    Minded (pause ++ moves ++ resume ++ back) left := by
  cases paused with
  | true =>
    obtain ⟨_, took, rfl⟩ := hpause
    rw [show resume = [.resumed .cleanup !left] from hresume, List.append_assoc, List.append_assoc,
      ← List.append_assoc moves]
    exact minded_answered hmoves hback
  | false =>
    obtain ⟨rfl, rfl⟩ := hresume
    rw [show pause = [] from hpause]
    exact .of_still (forall_append (forall_append (forall_append (by simp) hmoves) (by simp)) hback)

/-- What was left behind before anything moved, with nothing but stillness after it. -/
theorem minded_leftBefore {own : Bool} {before back : List Mark} (hbefore : LeftBefore own before)
    (hback : ∀ mark ∈ back, mark.isGuiding = false) : Minded (before ++ back) false := by
  refine Minded.append ?_ (.of_still hback)
  have hresumed : ∀ mark ∈ before, mark.isResumed = false :=
    forall_leftBefore hbefore (fun _ => rfl) fun _ => rfl
  cases hlast : lastPause before with
  | none => exact .of_none hlast hresumed
  | some last =>
    obtain ⟨answered, after⟩ := last
    obtain ⟨⟨took, htook⟩, hafter⟩ := lastPause_mem hlast
    rcases hbefore _ htook with ⟨_, h⟩ | ⟨_, _, h⟩
    · cases h
    · cases h
      exact .of_lost hlast fun mark hmark => hresumed mark (hafter mark hmark)

/-- A part that leaves the guiding alone. -/
def Still {α : Type} (m : Talk σ F Ω ρ α) : Prop := Tells (fun _ l => ∀ mark ∈ l, mark.isGuiding = false) m

theorem Still.of_quiet {α : Type} {m : Talk σ F Ω ρ α} (h : Quiet m) : Still m :=
  h.mono fun _ l hl => by
    rw [hl]
    simp

theorem Still.bind {α β : Type} {m : Talk σ F Ω ρ α} {f : α → Talk σ F Ω ρ β} (hm : Still m)
    (hf : ∀ a, Still (f a)) : Still (m >>= f) :=
  Tells.bind hm (fun _ _ h => h) fun a _ hl => (hf a).mono fun _ _ hl' => forall_append hl hl'

theorem Still.attempt {α β : Type} {m : Talk σ F Ω ρ α} {f : Except FocusModelError α → Talk σ F Ω ρ β}
    (hm : Still m) (hf : ∀ out, Still (f out)) : Still (Traced.attempt m >>= f) :=
  Tells.attempt hm fun out _ hl => (hf out).mono fun _ _ hl' => forall_append hl hl'

theorem Still.ask {c : Call F}
    (h : ∀ answer took, ∀ mark ∈ (markOf (Ω := Ω) (ρ := ρ) c answer took).toList, mark.isGuiding = false) :
    Still (s.world.ask c) :=
  Tells.ask fun answer took => h answer took

theorem releaseGuiding_tells (paused : Bool) (occasion : String) :
    Tells (fun out l => ∃ result left, out = .ok (result, left) ∧ Resuming paused l left ∧
        (left = true → ∃ e, result = .error e))
      (releaseGuiding s paused occasion) := by
  unfold releaseGuiding
  split
  · next hpaused =>
      rw [hpaused]
      refine .attempt (Tells.ask (c := .resumeGuiding .cleanup)
        (Q := fun out l => l = [.resumed .cleanup (answered out).isSome]) fun _ _ => rfl) ?_
      rintro resumed _ rfl
      cases resumed with
      | ok _ => exact .pure ⟨_, false, rfl, rfl, fun h => by cases h⟩
      | error e => exact .pure ⟨_, true, rfl, rfl, fun _ => ⟨_, rfl⟩⟩
  · next hpaused =>
      rw [Bool.eq_false_iff.mpr hpaused]
      exact .pure ⟨_, false, rfl, ⟨rfl, rfl⟩, fun h => by cases h⟩

variable [F64 F] {prepared : Prepared F Ω}

theorem still_recorded {after : List Mark} (trainId : String) (hafter : Releases after) :
    ∀ mark ∈ [Mark.recorded trainId] ++ after, mark.isGuiding = false :=
  forall_append (by simp [Mark.isGuiding, Mark.isPaused, Mark.isResumed])
    (forall_releases hafter fun _ => rfl)

theorem Shape.minded {own : Bool} {result : Except FocusModelError (FocusTrainOutcome F)}
    (h : Shape s prepared own l result left) : Minded l left := by
  cases h with
  | refused e hbefore hafter =>
    rw [List.append_assoc]
    exact minded_leftBefore hbefore (still_recorded _ hafter)
  | failed e hpause hmoves hback hresume hafter hnamed hkind =>
    have hstill := forall_append (forall_sweepMoves (P := fun mark => mark.isGuiding = false) hmoves
      fun _ _ => rfl) (forall_restoring hback (fun _ => rfl) fun _ => rfl)
    simpa only [List.append_assoc] using
      minded_handshake hpause hstill hresume (still_recorded prepared.ctx.trainId hafter)
  | finished hpause hmoves hswept hresume hafter hresult =>
    have hstill := forall_append (forall_sweepMoves (P := fun mark => mark.isGuiding = false) hmoves
      fun _ _ => rfl) (forall_sweepMoves hswept.settled.1 fun _ _ => rfl)
    simpa only [List.append_assoc] using
      minded_handshake hpause hstill hresume (still_recorded prepared.ctx.trainId hafter)

/-- A call that leaves a pause behind fails, and not for its sweep. -/
theorem Shape.error_of_left {own : Bool} {result : Except FocusModelError (FocusTrainOutcome F)}
    (h : Shape s prepared own l result true) : ∃ e, result = .error e ∧ e.isSweep = false := by
  cases h with
  | failed e hpause hmoves hback hresume hafter hnamed hkind => exact ⟨e, rfl, hkind rfl⟩
  | finished hpause hmoves hswept hresume hafter hresult => exact hresult

/-- Under a handshake of someone else's, a call leaves the guiding alone. -/
theorem Shape.still {result : Except FocusModelError (FocusTrainOutcome F)}
    (h : Shape s prepared false l result left) : left = false ∧ ∀ mark ∈ l, mark.isGuiding = false := by
  have hunpaused : ∀ {paused : Bool} {pause resume : List Mark}, Handshook false pause paused →
      Resuming paused resume left → left = false ∧ pause = [] ∧ resume = [] := by
    intro paused pause resume hpause hresume
    cases paused with
    | true => cases hpause.1
    | false => exact ⟨hresume.2, hpause, hresume.1⟩
  cases h with
  | refused e hbefore hafter =>
    rw [List.append_assoc]
    refine ⟨rfl, forall_append (fun mark hmark => ?_) (still_recorded _ hafter)⟩
    rcases hbefore mark hmark with ⟨_, rfl⟩ | ⟨hown, _⟩
    · rfl
    · cases hown
  | failed e hpause hmoves hback hresume hafter hnamed hkind =>
    obtain ⟨hleft, rfl, rfl⟩ := hunpaused hpause hresume
    refine ⟨hleft, ?_⟩
    rw [List.append_assoc]
    exact forall_append (forall_append (forall_append (forall_append (by simp)
      (forall_sweepMoves hmoves fun _ _ => rfl)) (forall_restoring hback (fun _ => rfl) fun _ => rfl))
      (by simp)) (still_recorded _ hafter)
  | finished hpause hmoves hswept hresume hafter hresult =>
    obtain ⟨hleft, rfl, rfl⟩ := hunpaused hpause hresume
    refine ⟨hleft, ?_⟩
    rw [List.append_assoc]
    exact forall_append (forall_append (forall_append (forall_append (by simp)
      (forall_sweepMoves hmoves fun _ _ => rfl)) (forall_sweepMoves hswept.settled.1 fun _ _ => rfl))
      (by simp)) (still_recorded _ hafter)

/-- One sweep under a handshake of its own. -/
theorem focusOne_minded (params : FocusTrainParams) :
    Tells (fun out l => ∃ result left, out = .ok (result, left) ∧ Minded l left ∧
        (left = true → ∃ e, result = .error e ∧ e.isSweep = false))
      (focusOne s params .Own false) := by
  refine .attempt (quiet_prepare params) ?_
  rintro prepared _ rfl
  cases prepared with
  | error e => exact .pure ⟨_, _, rfl, .of_still (by simp), fun h => by cases h⟩
  | ok prepared =>
    refine (focusPrepared_tells .Own false).mono ?_
    rintro out l ⟨result, left, hout, hshape⟩
    refine ⟨result, left, by simpa using hout, hshape.minded, fun hleft => ?_⟩
    cases hleft
    exact hshape.error_of_left

/-- One sweep under the walk's handshake. -/
theorem focusOne_still (params : FocusTrainParams) (paused : Bool) :
    Tells (fun out l => (∃ focused, out = .ok focused) ∧ ∀ mark ∈ l, mark.isGuiding = false)
      (focusOne s params (.Held paused) false) := by
  refine .attempt (quiet_prepare params) ?_
  rintro prepared _ rfl
  cases prepared with
  | error e => exact .pure ⟨⟨_, rfl⟩, by simp⟩
  | ok prepared =>
    refine (focusPrepared_tells (.Held paused) false).mono ?_
    rintro out l ⟨result, left, hout, hshape⟩
    exact ⟨⟨_, hout⟩, hshape.still.2⟩

/-- A run that answers with an error. -/
def Failed {α : Type} (out : Except FocusModelError (Except FocusModelError α)) : Prop :=
  ∀ a, out ≠ .ok (.ok a)

/-- How a run ends: its guiding minded, and a failure where a pause was left behind. -/
def Ends {α : Type} (out : Except FocusModelError (Except FocusModelError α)) (l : List Mark) : Prop :=
  ∃ left, Minded l left ∧ (left = true → Failed out)

theorem Ends.of_still {α : Type} {out : Except FocusModelError (Except FocusModelError α)}
    (h : ∀ mark ∈ l, mark.isGuiding = false) : Ends out l :=
  ⟨false, .of_still h, fun h => by cases h⟩

theorem Ends.isNeverSilent_iff {α : Type} {out : Except FocusModelError (Except FocusModelError α)}
    (h : Ends out l) : NeverSilent l (Failed out) ↔ LastAnswered l := by
  obtain ⟨left, hminded, hfailed⟩ := h
  exact hminded.isNeverSilent_iff hfailed

theorem focusTrain_ends (params : FocusTrainParams) : Tells Ends (focusTrain s params) := by
  refine .bind (focusOne_minded params) ?_ ?_
  · rintro e l ⟨_, _, h, _⟩
    cases h
  · rintro focused l ⟨result, left, hout, hminded, hleft⟩
    cases hout
    refine .pure ⟨left, by simpa using hminded, fun h a ha => ?_⟩
    obtain ⟨e, rfl, _⟩ := hleft h
    cases ha

/-! ## The shared walk -/

/-- What a part of a walk did with the walk's pause. -/
structure Walks (paused : Bool) (l : List Mark) (left : Bool) : Prop where
  unpaused : ∀ mark ∈ l, mark.isPaused = false
  held : paused = true → if left then .resumed .cleanup true ∉ l else .resumed .cleanup true ∈ l
  free : paused = false → left = false ∧ ∀ mark ∈ l, mark.isResumed = false

theorem Walks.of_still {paused : Bool} (h : ∀ mark ∈ l, mark.isGuiding = false) : Walks paused l paused where
  unpaused mark hmark := isPaused_of_isGuiding (h mark hmark)
  held hpaused := by
    rw [if_pos hpaused]
    intro hmem
    have hstill := h _ hmem
    cases hstill
  free hpaused := ⟨hpaused, fun mark hmark => isResumed_of_isGuiding (h mark hmark)⟩

theorem Walks.of_resuming {paused : Bool} (h : Resuming paused l left) : Walks paused l left where
  unpaused := forall_resuming h fun _ => rfl
  held hpaused := by
    rw [Resuming, if_pos hpaused] at h
    subst h
    cases left with
    | true => simp
    | false => simp
  free hpaused := by
    rw [Resuming, hpaused] at h
    obtain ⟨rfl, rfl⟩ := h
    exact ⟨rfl, by simp⟩

theorem Walks.append {paused between : Bool} (h : Walks paused l between) (h' : Walks between l' left) :
    Walks paused (l ++ l') left where
  unpaused := forall_append h.unpaused h'.unpaused
  held hpaused := by
    have hheld := h.held hpaused
    cases between with
    | true =>
      have hheld' := h'.held rfl
      cases left with
      | true => exact fun hmem => (List.mem_append.mp hmem).elim hheld hheld'
      | false => exact List.mem_append_right _ hheld'
    | false =>
      rw [(h'.free rfl).1]
      exact List.mem_append_left _ hheld
  free hpaused := by
    obtain ⟨rfl, hnone⟩ := h.free hpaused
    obtain ⟨hleft, hnone'⟩ := h'.free rfl
    exact ⟨hleft, forall_append hnone hnone'⟩

/-- A walk under a pause of its own, and its last resume. -/
theorem minded_walk {took between : Bool} (h : Walks true l between) (hresume : Resuming between l' left) :
    Minded (.paused true took :: (l ++ l')) left := by
  have hwalk := h.append (.of_resuming hresume)
  have hlast : lastPause (.paused true took :: (l ++ l')) = some (true, l ++ l') := by
    show (lastPause (l ++ l')).or _ = _
    rw [lastPause_eq_none hwalk.unpaused]
    rfl
  refine .of_answered hlast ?_ fun hleft => ?_
  · cases between with
    | true =>
      rw [show l' = [.resumed .cleanup !left] from hresume]
      simp
    | false =>
      obtain ⟨_, rfl⟩ := hresume
      exact List.mem_append_left _ (h.held rfl)
  · have hheld := hwalk.held rfl
    rw [if_pos hleft] at hheld
    exact hheld

theorem walkPlan_tells (params : FocusTrainParams) (plan : List PlanStep) (paused : Bool)
    (steps : List (StepOutcome F)) (last : Option (FocusTrainOutcome F)) :
    Tells (fun out l => ∃ result left, out = .ok (result, left) ∧ Walks paused l left)
      (walkPlan s params plan paused steps last) := by
  induction plan generalizing paused steps last with
  | nil => exact .pure ⟨_, paused, rfl, .of_still (by simp)⟩
  | cons step plan ih =>
    unfold walkPlan
    split
    · refine .bind (releaseGuiding_tells paused _) ?_ ?_
      · rintro e l ⟨_, _, h, _⟩
        cases h
      · rintro released l ⟨result, left, hout, hresume, hfailed⟩
        cases hout
        have hwalk : Walks paused l left := .of_resuming hresume
        cases result with
        | error e => exact .pure ⟨_, left, rfl, by simpa using hwalk⟩
        | ok _ =>
          refine .attempt (m := s.world.ask (.autoFocusGuideTrain .active step.runTrainId))
            (Quiet.ask fun _ _ => rfl) ?_
          rintro guide _ rfl
          cases guide with
          | error e => exact .pure ⟨_, left, rfl, by simpa using hwalk⟩
          | ok guide =>
            refine (ih left _ last).mono ?_
            rintro out l' ⟨result, left', hout, hwalk'⟩
            exact ⟨result, left', hout, hwalk.append hwalk'⟩
    · refine .bind (focusOne_still _ paused) ?_ ?_
      · rintro e l ⟨⟨_, h⟩, _⟩
        cases h
      · rintro focused l ⟨_, hstill⟩
        have hwalk : Walks paused l paused := .of_still hstill
        obtain ⟨result, outstanding⟩ := focused
        cases result with
        | error e => exact .pure ⟨_, paused, rfl, by simpa using hwalk⟩
        | ok outcome =>
          refine (ih paused _ _).mono ?_
          rintro out l' ⟨result, left', hout, hwalk'⟩
          exact ⟨result, left', hout, hwalk.append hwalk'⟩

theorem joinResume_error {α : Type} (answer : Except FocusModelError α) (e : FocusModelError) (a : α) :
    joinResume answer (.error e) ≠ .ok a := by
  intro h
  cases answer with
  | ok a => cases h
  | error e => cases h

theorem focusShared_ends (params : FocusTrainParams) : Tells Ends (focusShared s params) := by
  refine .bind (m := s.world.ask (.getRefocusPlan .active params.trainId)) (Quiet.ask fun _ _ => rfl) ?_ ?_
  · rintro e _ rfl
    exact .of_still (by simp)
  · rintro plan _ rfl
    split
    · exact .pure (.of_still (by simp))
    · refine .bind (quiet_checkCaptureSteps _ _) ?_ ?_
      · rintro e _ rfl
        exact .of_still (by simp)
      · rintro _ _ rfl
        refine .bind (pauseIfCoupled_tells plan.guideCoupled) ?_ ?_
        · intro e pause hpause
          have hminded := @minded_leftBefore _ _ [] hpause (by simp)
          exact ⟨false, by simpa using hminded, fun h => by cases h⟩
        · intro paused pause hpause
          refine .bind (walkPlan_tells params plan.steps paused [] none) ?_ ?_
          · rintro e l ⟨_, _, h, _⟩
            cases h
          · rintro walked l ⟨result, between, hout, hwalk⟩
            cases hout
            refine .bind (releaseGuiding_tells between _) ?_ ?_
            · rintro e l ⟨_, _, h, _⟩
              cases h
            · rintro resumed l' ⟨result', left, hout, hresume, hfailed⟩
              cases hout
              refine .pure ⟨left, ?_, fun hleft a ha => ?_⟩
              · cases paused with
                | true =>
                  obtain ⟨_, took, rfl⟩ := hpause
                  simpa using @minded_walk _ _ _ took _ hwalk hresume
                | false =>
                  have hboth := hwalk.append (.of_resuming hresume)
                  obtain ⟨rfl, hnone⟩ := hboth.free rfl
                  rw [show pause = [] from hpause]
                  simpa using Minded.of_none (lastPause_eq_none hboth.unpaused) hnone
              · obtain ⟨e, rfl⟩ := hfailed hleft
                exact joinResume_error _ e a (Except.ok.inj ha)

end RustyPhoton.FocusModel
