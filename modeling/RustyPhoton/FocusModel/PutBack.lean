import RustyPhoton.FocusModel.Shape
import RustyPhoton.FocusModel.SweepAccount

/-!
# Put back and recorded

A focus call that got past its preparation records one run. One that fails puts the focuser back where
it found it, before anything else is let go, unless all that failed was the resume of guiding after a
sweep that focused. One that succeeds reports where its last move read back.
-/

namespace RustyPhoton.FocusModel

open Lib

namespace Mark

/-- A move of the approach or of the sweep. -/
def isActiveMove : Mark → Bool
  | .moved .active _ _ _ => true
  | _ => false

def isMove : Mark → Bool
  | .moved _ _ _ _ => true
  | _ => false

def isRecorded : Mark → Bool
  | .recorded _ => true
  | _ => false

/-- Guiding asked to resume, or a lease given up. -/
def letsGo : Mark → Bool
  | .resumed _ _ => true
  | .released _ => true
  | _ => false

theorem IsSweepMove.exists {focuserId : String} {mark : Mark} (h : mark.IsSweepMove focuserId) :
    ∃ target reached, mark = .moved .active focuserId target reached := by
  cases mark with
  | moved client id target reached =>
    cases client with
    | active => exact ⟨target, reached, by rw [show id = focuserId from h]⟩
    | cleanup => cases h
  | _ => cases h

end Mark

/-- The focuser was sent back to where the call found it, after every move of the approach and of the
sweep, and before guiding was asked to resume and any lease given up. -/
def MovedBack (focuserId : String) (start : I32) (l : List Mark) : Prop :=
  ∃ before reached after, l = before ++ .moved .cleanup focuserId start reached :: after ∧
    (∀ mark ∈ before, mark.letsGo = false) ∧ ∀ mark ∈ after, mark.isActiveMove = false

/-- The last move sent the focuser back, and it was seen there afterwards. -/
def SeenBack (focuserId : String) (start : I32) (l : List Mark) : Prop :=
  ∃ before reached after, l = before ++ .moved .cleanup focuserId start reached :: after ∧
    (∀ mark ∈ after, mark.isMove = false) ∧ .seen focuserId start ∈ after

/-- The last move read back here. -/
def LastReached (position : I32) (l : List Mark) : Prop :=
  ∃ before client focuserId target after,
    l = before ++ .moved client focuserId target (some position) :: after ∧
    ∀ mark ∈ after, mark.isMove = false

variable {σ F Ω ρ : Type} {s : Session σ F Ω ρ} [F64 F] {prepared : Prepared F Ω}

/-- Guiding could not be resumed after a sweep that ended in a position. -/
def ResumeFailed (s : Session σ F Ω ρ) (prepared : Prepared F Ω) (l : List Mark) : Prop :=
  ∃ before swept after outcome, l = before ++ swept ++ .resumed .cleanup false :: after ∧
    Swept s prepared outcome swept

/-- How a prepared call ends. -/
structure EndsPutBack (s : Session σ F Ω ρ) (prepared : Prepared F Ω) (l : List Mark)
    (result : Except FocusModelError (FocusTrainOutcome F)) : Prop where
  recorded : l.filter Mark.isRecorded = [.recorded prepared.ctx.trainId]
  failed : ∀ e, result = .error e → ResumeFailed s prepared l ∨
    ((∃ mark ∈ l, mark.isActiveMove = true) →
      MovedBack prepared.ctx.focuserId prepared.start.position.position l) ∧
    ((∃ mark ∈ l, mark.isMove = true) →
      SeenBack prepared.ctx.focuserId prepared.start.position.position l ∨
      contains e.toolMessage (notRestored prepared.start.position.position) = true)
  settled : ∀ outcome, result = .ok outcome → LastReached outcome.position l

/-! ## The kinds of marks in each part -/

section Parts

variable {P : Mark → Prop} {l : List Mark}

variable {own : Bool}

theorem forall_handshook {paused : Bool} (h : Handshook own l paused)
    (hP : ∀ took, P (.paused true took)) : ∀ mark ∈ l, P mark := by
  intro mark hmark
  cases paused with
  | true =>
    obtain ⟨_, took, rfl⟩ := h
    rw [List.mem_singleton.mp hmark]
    exact hP took
  | false =>
    rw [show l = [] from h] at hmark
    cases hmark

theorem forall_sweepMoves {focuserId : String} (h : ∀ mark ∈ l, mark.IsSweepMove focuserId)
    (hP : ∀ target reached, P (.moved .active focuserId target reached)) : ∀ mark ∈ l, P mark := by
  intro mark hmark
  obtain ⟨target, reached, rfl⟩ := (h mark hmark).exists
  exact hP target reached

theorem forall_restoring {guard : Guard} {landed : Bool} (h : Restoring guard l landed)
    (hmoved : ∀ reached, P (.moved .cleanup guard.focuserId guard.startedAt reached))
    (hseen : ∀ position, P (.seen guard.focuserId position)) : ∀ mark ∈ l, P mark := by
  intro mark hmark
  rcases h.only mark hmark with ⟨reached, rfl⟩ | ⟨position, rfl⟩
  · exact hmoved reached
  · exact hseen position

theorem forall_resuming {paused left : Bool} (h : Resuming paused l left)
    (hP : ∀ answered, P (.resumed .cleanup answered)) : ∀ mark ∈ l, P mark := by
  intro mark hmark
  cases paused with
  | true =>
    rw [show l = [.resumed .cleanup !left] from h] at hmark
    rw [List.mem_singleton.mp hmark]
    exact hP _
  | false =>
    rw [show l = [] from h.1] at hmark
    cases hmark

theorem forall_releases (h : Releases l) (hP : ∀ leaseId, P (.released leaseId)) : ∀ mark ∈ l, P mark := by
  intro mark hmark
  obtain ⟨leaseId, rfl⟩ := h mark hmark
  exact hP leaseId

theorem forall_leftBefore (h : LeftBefore own l) (hreleased : ∀ leaseId, P (.released leaseId))
    (hpaused : ∀ took, P (.paused false took)) : ∀ mark ∈ l, P mark := by
  intro mark hmark
  rcases h mark hmark with ⟨leaseId, rfl⟩ | ⟨_, took, rfl⟩
  · exact hreleased leaseId
  · exact hpaused took

end Parts

variable {l : List Mark}

theorem forall_append {P : Mark → Prop} {l' : List Mark} (h : ∀ mark ∈ l, P mark)
    (h' : ∀ mark ∈ l', P mark) : ∀ mark ∈ l ++ l', P mark :=
  List.forall_mem_append.mpr ⟨h, h'⟩

/-- One run recorded between parts that record none. -/
theorem filter_isRecorded {l' : List Mark} (trainId : String)
    (hl : ∀ mark ∈ l, mark.isRecorded = false) (hl' : ∀ mark ∈ l', mark.isRecorded = false) :
    (l ++ [Mark.recorded trainId] ++ l').filter Mark.isRecorded = [.recorded trainId] := by
  have hleft : l.filter Mark.isRecorded = [] := List.filter_eq_nil_iff.mpr fun mark hmark => by
    rw [hl mark hmark]
    exact Bool.false_ne_true
  have hright : l'.filter Mark.isRecorded = [] := List.filter_eq_nil_iff.mpr fun mark hmark => by
    rw [hl' mark hmark]
    exact Bool.false_ne_true
  rw [List.filter_append, List.filter_append, hleft, hright]
  rfl

variable {paused left : Bool} {resume after : List Mark}

/-- After the put-back or the sweep nothing moves. -/
theorem still_resuming (trainId : String)
    (hresume : Resuming paused resume left) (hafter : Releases after) :
    ∀ mark ∈ resume ++ [.recorded trainId] ++ after, mark.isMove = false :=
  forall_append (forall_append (forall_resuming hresume fun _ => rfl) (by simp [Mark.isMove]))
    (forall_releases hafter fun _ => rfl)

theorem isActiveMove_of_isMove {mark : Mark} (h : mark.isMove = false) : mark.isActiveMove = false := by
  cases mark with
  | moved client focuserId target reached => cases h
  | _ => rfl

/-! ## The shapes end put back -/

variable {own : Bool}

theorem endsPutBack_refused {before : List Mark} (e : FocusModelError)
    (hbefore : LeftBefore own before) (hafter : Releases after) :
    EndsPutBack s prepared (before ++ [.recorded prepared.ctx.trainId] ++ after) (.error e) := by
  have hstill : ∀ mark ∈ before ++ [.recorded prepared.ctx.trainId] ++ after, mark.isMove = false :=
    forall_append (forall_append (forall_leftBefore hbefore (fun _ => rfl) fun _ => rfl)
      (by simp [Mark.isMove])) (forall_releases hafter fun _ => rfl)
  refine ⟨filter_isRecorded _ (forall_leftBefore hbefore (fun _ => rfl) fun _ => rfl)
    (forall_releases hafter fun _ => rfl), fun _ _ => .inr ⟨?_, ?_⟩, fun _ h => by cases h⟩
  · rintro ⟨mark, hmark, hactive⟩
    rw [isActiveMove_of_isMove (hstill mark hmark)] at hactive
    cases hactive
  · rintro ⟨mark, hmark, hmoved⟩
    rw [hstill mark hmark] at hmoved
    cases hmoved

theorem endsPutBack_failed {landed : Bool} {pause moves back : List Mark}
    {leaseId : Option String} (e : FocusModelError) (hpause : Handshook own pause paused)
    (hmoves : ∀ mark ∈ moves, mark.IsSweepMove prepared.ctx.focuserId)
    (hback : Restoring (prepared.guardOf paused leaseId) back landed)
    (hresume : Resuming paused resume left) (hafter : Releases after)
    (hnamed : landed = false →
      contains e.toolMessage (notRestored prepared.start.position.position) = true) :
    EndsPutBack s prepared
      (pause ++ moves ++ back ++ resume ++ [.recorded prepared.ctx.trainId] ++ after) (.error e) := by
  have hstill := still_resuming prepared.ctx.trainId hresume hafter
  refine ⟨filter_isRecorded _ ?_ (forall_releases hafter fun _ => rfl), fun _ herror => .inr ⟨?_, ?_⟩,
    fun _ h => by cases h⟩
  · exact forall_append (forall_append (forall_append (forall_handshook hpause fun _ => rfl)
      (forall_sweepMoves hmoves fun _ _ => rfl)) (forall_restoring hback (fun _ => rfl) fun _ => rfl))
      (forall_resuming hresume fun _ => rfl)
  · intro _
    obtain ⟨reached, rest, hfirst⟩ := hback.first
    refine ⟨pause ++ moves, reached, rest ++ (resume ++ [.recorded prepared.ctx.trainId] ++ after), ?_,
      ?_, ?_⟩
    · rw [hfirst]
      simp [Prepared.guardOf]
    · exact forall_append (forall_handshook hpause fun _ => rfl) (forall_sweepMoves hmoves fun _ _ => rfl)
    · have hback' : ∀ mark ∈ back, mark.isActiveMove = false :=
        forall_restoring hback (fun _ => rfl) fun _ => rfl
      rw [hfirst] at hback'
      exact forall_append (List.forall_mem_of_forall_mem_cons hback')
        fun mark hmark => isActiveMove_of_isMove (hstill mark hmark)
  · intro _
    cases herror
    cases hlanded : landed with
    | false => exact .inr (hnamed hlanded)
    | true =>
      obtain ⟨before, reached, hlast⟩ := hback.settled hlanded
      refine .inl ⟨pause ++ moves ++ before, reached, .seen prepared.ctx.focuserId
        prepared.start.position.position :: (resume ++ [.recorded prepared.ctx.trainId] ++ after), ?_,
        List.forall_mem_cons.mpr ⟨rfl, hstill⟩, List.mem_cons_self⟩
      rw [hlast]
      simp [Prepared.guardOf]

variable {result : Except FocusModelError (FocusTrainOutcome F)}

theorem endsPutBack_finished {pause moves swept : List Mark} {outcome : SweepOutcome F}
    (hpause : Handshook own pause paused)
    (hmoves : ∀ mark ∈ moves, mark.IsSweepMove prepared.ctx.focuserId)
    (hswept : Swept s prepared outcome swept) (hresume : Resuming paused resume left)
    (hafter : Releases after)
    (hresult : if left then ∃ e, result = .error e ∧ e.isSweep = false
      else ∃ o, result = .ok o ∧ o.swept = outcome) :
    EndsPutBack s prepared
      (pause ++ moves ++ swept ++ resume ++ [.recorded prepared.ctx.trainId] ++ after) result := by
  have hstill := still_resuming prepared.ctx.trainId hresume hafter
  obtain ⟨hall, before, target, hlast⟩ := hswept.settled
  refine ⟨filter_isRecorded _ ?_ (forall_releases hafter fun _ => rfl), fun e herror => .inl ?_,
    fun o hok => ?_⟩
  · exact forall_append (forall_append (forall_append (forall_handshook hpause fun _ => rfl)
      (forall_sweepMoves hmoves fun _ _ => rfl)) (forall_sweepMoves hall fun _ _ => rfl))
      (forall_resuming hresume fun _ => rfl)
  · cases left with
    | false =>
      obtain ⟨o, hok, _⟩ := hresult
      rw [herror] at hok
      cases hok
    | true =>
      have hresumed : resume = [.resumed .cleanup false] := by
        cases paused with
        | true => exact hresume
        | false => exact absurd hresume.2 (by decide)
      refine ⟨pause ++ moves, swept, [.recorded prepared.ctx.trainId] ++ after, outcome, ?_, hswept⟩
      rw [hresumed]
      simp
  · cases left with
    | true =>
      obtain ⟨e, herror, _⟩ := hresult
      rw [hok] at herror
      cases herror
    | false =>
      obtain ⟨o', hok', hsame⟩ := hresult
      cases hok.symm.trans hok'
      refine ⟨pause ++ moves ++ before, .active, prepared.ctx.focuserId, target,
        resume ++ [.recorded prepared.ctx.trainId] ++ after, ?_, hstill⟩
      rw [hlast, show o.position = outcome.position from congrArg SweepOutcome.position hsame]
      simp

theorem Shape.endsPutBack (h : Shape s prepared own l result left) :
    EndsPutBack s prepared l result := by
  cases h with
  | refused e hbefore hafter => exact endsPutBack_refused e hbefore hafter
  | failed e hpause hmoves hback hresume hafter hnamed _ =>
    exact endsPutBack_failed e hpause hmoves hback hresume hafter hnamed
  | finished hpause hmoves hswept hresume hafter hresult =>
    exact endsPutBack_finished hpause hmoves hswept hresume hafter hresult

/-! ## The start of a call -/

/-- The start of a prepared call is where its preparation read the focuser. -/
theorem prepare_reads (params : FocusTrainParams) :
    Traced.Leaves (fun out l => ∀ prepared, out = .ok prepared → ∃ took,
        FocusEvent.call (.getFocuserPosition .active prepared.ctx.focuserId)
          (.ok prepared.start.position) took ∈ l)
      (prepare s params) := by
  have hstart : ∀ ctx : TrainContext Ω, Traced.Leaves (fun out l => ∀ start, out = .ok start → ∃ took,
      FocusEvent.call (.getFocuserPosition .active ctx.focuserId) (.ok start.position) took ∈ l)
      (readStart s ctx) := by
    intro ctx
    refine .bind (Q := fun out l => ∀ position, out = .ok position → ∃ took,
      FocusEvent.call (.getFocuserPosition .active ctx.focuserId) (.ok position) took ∈ l) ?_ ?_ ?_
    · refine .call fun st position hposition =>
        ⟨(s.world.perform (.getFocuserPosition .active ctx.focuserId) st).1.2, ?_⟩
      rw [← hposition]
      exact List.mem_singleton_self _
    · intro e l _ start h
      cases h
    · intro position l hread
      obtain ⟨took, hmem⟩ := hread position rfl
      refine .bind .any ?_ fun temperatureC l' _ => .bind .any ?_ fun filter l'' _ => .pure ?_
      · intro e l _ start h
        cases h
      · intro e l _ start h
        cases h
      · intro start h
        cases h
        exact ⟨took, List.mem_append_left _ hmem⟩
  refine .bind .any ?_ fun ctx _ _ => .bind .any ?_ fun _ _ _ => .bind (hstart ctx) ?_ ?_
  · intro e l _ prepared h
    cases h
  · intro e l _ prepared h
    cases h
  · intro e l _ prepared h
    cases h
  · intro start l hread
    obtain ⟨took, hmem⟩ := hread start rfl
    refine .bind .any ?_ fun filter _ _ => .bind .any ?_ fun record _ _ => .bind .any ?_ fun plan _ _ =>
      .pure ?_
    · intro e l _ prepared h
      cases h
    · intro e l _ prepared h
      cases h
    · intro e l _ prepared h
      cases h
    · intro prepared h
      cases h
      exact ⟨took, by simp [hmem]⟩

/-- Every call that got past its preparation ends put back and recorded. -/
theorem focusOne_endsPutBack (s : Session σ F Ω ρ) (params : FocusTrainParams) (guiding : Guiding)
    (outstanding : Bool) (st : σ) (prepared : Prepared F Ω)
    (hprepared : (prepare s params st).out = .ok prepared) :
    (∃ took, FocusEvent.call (.getFocuserPosition .active prepared.ctx.focuserId)
      (.ok prepared.start.position) took ∈ (prepare s params st).log) ∧
    ∃ result left, (focusOne s params guiding outstanding st).out = .ok (result, left) ∧
      EndsPutBack s prepared (marks (focusOne s params guiding outstanding st).log) result := by
  refine ⟨prepare_reads params st prepared hprepared, ?_⟩
  have hrun : focusOne s params guiding outstanding st =
      ⟨(focusPrepared s prepared guiding outstanding (prepare s params st).st).out,
        (prepare s params st).log ++ (focusPrepared s prepared guiding outstanding (prepare s params st).st).log,
        (focusPrepared s prepared guiding outstanding (prepare s params st).st).st⟩ := by
    unfold focusOne
    rw [Traced.attempt_bind_run, hprepared]
  obtain ⟨result, left, hout, hshape⟩ :=
    @focusPrepared_tells _ _ _ _ s prepared _ guiding outstanding (prepare s params st).st
  rw [hrun]
  refine ⟨result, outstanding || left, hout, ?_⟩
  rw [marks_append, quiet_prepare params st]
  exact hshape.endsPutBack

/-! ## A bench -/

/-- A rig whose guider answers a pause as told, and whose camera takes no frame. -/
def benchWorld (pause : Except FocusModelError Unit × Bool) : World Unit ℚ Unit Unit where
  perform c _ :=
    (match c with
      | .getTrainInfo _ _ => (.ok ⟨some "camera", none, none, some "focuser", [], none, ()⟩, true)
      | .getRefocusPlan _ _ => (.ok ⟨true, []⟩, true)
      | .getFocuserPosition _ _ =>
          (.ok ⟨I32.clamp 500, some (I32.clamp 0), some (I32.clamp 1000), none⟩, true)
      | .getFocuserTemperature _ _ => (.ok none, true)
      | .moveFocuser _ _ target _ => (.ok target, true)
      | .getFilter _ _ => (.ok none, true)
      | .setFilter _ _ _ _ => (.ok (), true)
      | .capture _ _ _ _ => (.error (.ToolCall "the camera is busy"), false)
      | .measureStars _ _ _ _ _ _ => (.error (.ToolCall "no such document"), false)
      | .guidingActive _ => (.ok true, true)
      | .pauseGuiding _ => pause
      | .resumeGuiding _ => (.ok (), true)
      | .autoFocusGuideTrain _ _ => (.error (.ToolCall "no guide camera"), false)
      | .acquireTrainLease _ _ _ _ => (.ok (), true)
      | .releaseTrainLease _ _ => (.ok true, true)
      | .storeGet _ => (.ok none, true)
      | .recordRun _ _ => (.ok (1, "new"), true)
      | .writeOffsets _ _ _ => (.error (.Workflow "no record"), false), ())
  isCancelled _ := (false, ())
  now _ := ("now", ())
  freshId _ := ("lease", ())

def benchSetup : Setup ℚ Unit Unit where
  train _ :=
    { duration := 1000, minArea := 5, maxArea := 1000, thresholdSigma := none, framesPerStep := 1,
      minFitPoints := 5, minFitRSquared := none, confirmationTolerance := 1, maxAttempts := 1,
      maxAttempts_le := by decide }
  temperatureSensor _ := none
  fitHyperbola _ := .ok ⟨500, 1, 1⟩
  planSweep _ _ _ _ := .ok ⟨I32.clamp 10, I32.clamp 50, 11, .Configured⟩
  predict _ _ position _ _ _ := ⟨position, none, ⟨none, none, none⟩, [], false, none⟩
  staleFields _ _ := []
  referenceFilter _ := none
  leaseDuration _ _ _ := .ok 60000
  attemptsLogJson _ := "[]"
  curvePointsJson _ := "[]"
  predictionJson _ := "null"

def bench (pause : Except FocusModelError Unit × Bool) : Session Unit ℚ Unit Unit :=
  ⟨benchWorld pause, benchSetup⟩

theorem focusOne_endsPutBack_bench : ∃ prepared,
    (prepare (bench (.ok (), true)) ⟨"main", none⟩ ()).out = .ok prepared ∧
    (∃ took, FocusEvent.call (.getFocuserPosition .active prepared.ctx.focuserId)
      (.ok prepared.start.position) took ∈ (prepare (bench (.ok (), true)) ⟨"main", none⟩ ()).log) ∧
    ∃ result left, (focusOne (bench (.ok (), true)) ⟨"main", none⟩ .Own false ()).out = .ok (result, left) ∧
      EndsPutBack (bench (.ok (), true)) prepared
        (marks (focusOne (bench (.ok (), true)) ⟨"main", none⟩ .Own false ()).log) result :=
  ⟨_, rfl, focusOne_endsPutBack (bench (.ok (), true)) ⟨"main", none⟩ .Own false () _ rfl⟩

end RustyPhoton.FocusModel
