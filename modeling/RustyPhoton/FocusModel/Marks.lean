import RustyPhoton.FocusModel.Workflow

/-!
# What a focus call leaves behind

The calls that move the focuser, pause and resume guiding, release a lease or record a run are the marks
of a focus call; the reads that place the focuser after a put-back are marks too. Every part of a call
is said by its marks, and the whole call has one of three shapes.
-/

namespace RustyPhoton.FocusModel

open Lib

variable {σ F Ω ρ : Type} {s : Session σ F Ω ρ}

inductive Mark where
  /-- A move, and where the focuser read back if the move was answered. -/
  | moved (client : Client) (focuserId : String) (target : I32) (reached : Option I32)
  /-- Where the cleanup client saw the focuser. -/
  | seen (focuserId : String) (position : I32)
  /-- A pause, whether it was answered, and whether it took effect if it was not. -/
  | paused (answered took : Bool)
  | resumed (client : Client) (answered : Bool)
  | released (leaseId : String)
  | recorded (trainId : String)
  deriving DecidableEq

/-- The value of an answer, when there is one. -/
def answered {α : Type} : Except FocusModelError α → Option α
  | .ok a => some a
  | .error _ => none

@[simp] theorem answered_ok {α : Type} (a : α) : answered (.ok a) = some a := rfl

@[simp] theorem answered_error {α : Type} (e : FocusModelError) : answered (.error e : Except _ α) = none :=
  rfl

/-- The mark a call leaves. -/
def markOf : (c : Call F) → Except FocusModelError (c.Reply Ω ρ) → Bool → Option Mark
  | .moveFocuser client focuserId target _, answer, _ =>
      some (.moved client focuserId target (answered answer))
  | .getFocuserPosition .cleanup focuserId, answer, _ =>
      (answered answer).map fun p => .seen focuserId p.position
  | .pauseGuiding _, answer, took => some (.paused (answered answer).isSome took)
  | .resumeGuiding client, answer, _ => some (.resumed client (answered answer).isSome)
  | .releaseTrainLease _ leaseId, _, _ => some (.released leaseId)
  | .recordRun trainId _, _, _ => some (.recorded trainId)
  | _, _, _ => none

def FocusEvent.mark : FocusEvent F Ω ρ → Option Mark
  | .call c answer took => markOf c answer took
  | .polled _ => none

def marks (log : List (FocusEvent F Ω ρ)) : List Mark := log.filterMap FocusEvent.mark

theorem marks_append (l l' : List (FocusEvent F Ω ρ)) : marks (l ++ l') = marks l ++ marks l' :=
  List.filterMap_append

theorem marks_call (c : Call F) (answer : Except FocusModelError (c.Reply Ω ρ)) (took : Bool) :
    marks [FocusEvent.call c answer took] = (markOf c answer took).toList := by
  have hmark : (FocusEvent.call c answer took).mark = markOf c answer took := rfl
  cases h : markOf c answer took with
  | none => rw [marks, List.filterMap_cons_none (hmark.trans h)]; rfl
  | some mark => rw [marks, List.filterMap_cons_some (hmark.trans h)]; rfl

/-! ## Parts of a call by their marks -/

/-- Every run of a part of a call ends, and leaves marks, as `Q` says. -/
def Tells {α : Type} (Q : Except FocusModelError α → List Mark → Prop) (m : Talk σ F Ω ρ α) : Prop :=
  Traced.Leaves (fun out l => Q out (marks l)) m

namespace Tells

variable {α β : Type} {Q : Except FocusModelError α → List Mark → Prop}
  {R : Except FocusModelError β → List Mark → Prop} {m : Talk σ F Ω ρ α}

variable {Q' : Except FocusModelError α → List Mark → Prop}

theorem mono (h : Tells Q m) (himp : ∀ out l, Q out l → Q' out l) : Tells Q' m :=
  fun st => himp _ _ (h st)

theorem and (h : Tells Q m) (h' : Tells Q' m) :
    Tells (fun out l => Q out l ∧ Q' out l) m :=
  fun st => ⟨h st, h' st⟩

/-- The outcome and the marks are those of a run. -/
theorem self (m : Talk σ F Ω ρ α) : Tells (fun out l => ∃ st, out = (m st).out ∧ l = marks (m st).log) m :=
  fun st => ⟨st, rfl, rfl⟩

theorem pure {a : α} (h : Q (.ok a) []) : Tells Q (Pure.pure a : Talk σ F Ω ρ α) :=
  Traced.Leaves.pure h

theorem halt {e : FocusModelError} (h : Q (.error e) []) : Tells Q (Traced.halt e : Talk σ F Ω ρ α) :=
  Traced.Leaves.halt h

theorem ofExcept {e : Except FocusModelError α} (h : Q e []) :
    Tells Q (Traced.ofExcept e : Talk σ F Ω ρ α) :=
  Traced.Leaves.ofExcept h

theorem bind {f : α → Talk σ F Ω ρ β} (hm : Tells Q m) (herror : ∀ e l, Q (.error e) l → R (.error e) l)
    (hok : ∀ a l, Q (.ok a) l → Tells (fun out l' => R out (l ++ l')) (f a)) : Tells R (m >>= f) :=
  Traced.Leaves.bind hm (fun e l => herror e (marks l)) fun a l hl =>
    Traced.Leaves.mono (hok a (marks l) hl) fun out l' h => by
      rw [marks_append]
      exact h

theorem attempt {f : Except FocusModelError α → Talk σ F Ω ρ β} (hm : Tells Q m)
    (hnext : ∀ out l, Q out l → Tells (fun out' l' => R out' (l ++ l')) (f out)) :
    Tells R (Traced.attempt m >>= f) :=
  Traced.Leaves.attempt hm fun out l hl =>
    Traced.Leaves.mono (hnext out (marks l) hl) fun out' l' h => by
      rw [marks_append]
      exact h

/-- A call leaves its own mark. -/
theorem ask {c : Call F} {Q : Except FocusModelError (c.Reply Ω ρ) → List Mark → Prop}
    (h : ∀ answer took, Q answer (markOf c answer took).toList) : Tells Q (s.world.ask c) :=
  Traced.Leaves.call fun st => by
    rw [marks_call]
    exact h _ _

end Tells

/-- A part that leaves no mark. -/
def Quiet {α : Type} (m : Talk σ F Ω ρ α) : Prop := Tells (fun _ l => l = []) m

namespace Quiet

variable {α β : Type} {m : Talk σ F Ω ρ α}

theorem pure (a : α) : Quiet (Pure.pure a : Talk σ F Ω ρ α) := Tells.pure rfl

theorem halt (e : FocusModelError) : Quiet (Traced.halt e : Talk σ F Ω ρ α) := Tells.halt rfl

theorem ofExcept (e : Except FocusModelError α) : Quiet (Traced.ofExcept e : Talk σ F Ω ρ α) :=
  Tells.ofExcept rfl

theorem bind {f : α → Talk σ F Ω ρ β} (hm : Quiet m) (hf : ∀ a, Quiet (f a)) : Quiet (m >>= f) :=
  Tells.bind hm (fun _ _ h => h) fun a l hl => by
    subst hl
    exact hf a

theorem attempt {f : Except FocusModelError α → Talk σ F Ω ρ β} (hm : Quiet m)
    (hf : ∀ out, Quiet (f out)) : Quiet (Traced.attempt m >>= f) :=
  Tells.attempt hm fun out l hl => by
    subst hl
    exact hf out

theorem ask {c : Call F} (h : ∀ answer took, markOf (Ω := Ω) (ρ := ρ) c answer took = none) :
    Quiet (s.world.ask c) :=
  Tells.ask fun answer took => by rw [h]; rfl

theorem silently (f : σ → String × σ) : Quiet (FocusModel.silently f : Talk σ F Ω ρ String) :=
  fun _ => rfl

theorem poll : Quiet s.world.poll := fun _ => rfl

end Quiet

/-! ## What leaves moves of the sweep only -/

variable {α β : Type}

/-- A move of the sweep or of its approach. -/
def Mark.IsSweepMove (focuserId : String) : Mark → Prop
  | .moved .active id _ _ => id = focuserId
  | _ => False

/-- Only moves of the sweep. -/
def SweepMoves {α : Type} (sweep : RigSweep F) (m : Talk σ F Ω ρ α) : Prop :=
  Tells (fun _ l => ∀ mark ∈ l, mark.IsSweepMove sweep.focuserId) m

variable {sweep : RigSweep F} {m : Talk σ F Ω ρ α}

theorem SweepMoves.of_quiet (h : Quiet m) : SweepMoves sweep m :=
  h.mono fun _ _ hl mark hmark => by
    rw [hl] at hmark
    cases hmark

theorem SweepMoves.bind {f : α → Talk σ F Ω ρ β} (hm : SweepMoves sweep m)
    (hf : ∀ a, SweepMoves sweep (f a)) : SweepMoves sweep (m >>= f) :=
  Tells.bind hm (fun _ _ h => h) fun a _ hl => (hf a).mono fun _ _ hl' mark hmark =>
    (List.mem_append.mp hmark).elim (hl mark) (hl' mark)

/-! ## What leaves no mark -/

theorem quiet_resolveTrain (trainId : String) : Quiet (resolveTrain s trainId) := by
  refine .bind (.ask fun _ _ => rfl) fun info => ?_
  split
  · exact .halt _
  · exact .halt _
  · exact .pure _

theorem quiet_readFilter (ctx : TrainContext Ω) : Quiet (readFilter s ctx) := by
  unfold readFilter
  split
  · exact .ask fun _ _ => rfl
  · exact .pure _

theorem quiet_checkCaptureSteps (trainId : String) (steps : List PlanStep) :
    Quiet (checkCaptureSteps s trainId steps) := by
  induction steps with
  | nil => exact .pure ()
  | cons step steps ih =>
    unfold checkCaptureSteps
    split
    · exact ih
    · refine .bind (.ask fun _ _ => rfl) fun (info : TrainInfo Ω) => ?_
      split
      · exact ih
      · exact .halt _

variable [F64 F]

theorem quiet_readTemperature (ctx : TrainContext Ω) : Quiet (readTemperature s ctx) := by
  refine .attempt (.ask fun _ _ => rfl) fun own => ?_
  cases own with
  | error e =>
    dsimp only
    split
    · exact .halt e
    · exact .pure _
  | ok own =>
    dsimp only
    split
    · exact .pure _
    · exact .halt _
    · refine .attempt (.ask fun _ _ => rfl) fun reading => ?_
      cases reading with
      | ok reading => exact .pure _
      | error e =>
        dsimp only
        split
        · exact .halt e
        · split
          · exact .halt _
          · exact .pure _

theorem quiet_readStart (ctx : TrainContext Ω) : Quiet (readStart s ctx) :=
  .bind (.ask fun _ _ => rfl) fun _ => .bind (quiet_readTemperature ctx) fun _ =>
    .bind (quiet_readFilter ctx) fun _ => .pure _

theorem quiet_prepare (params : FocusTrainParams) : Quiet (prepare s params) :=
  .bind (quiet_resolveTrain _) fun _ => .bind (.ofExcept _) fun _ => .bind (quiet_readStart _) fun _ =>
    .bind (.ofExcept _) fun _ => .bind (.ask fun _ _ => rfl) fun _ => .bind (.ofExcept _) fun _ => .pure _

theorem quiet_measureFrames (sweep : RigSweep F) (frames : ℕ) (list : List (ListedStar F))
    (hfrs : List F) (counts : List ℕ) (documentId : String) :
    Quiet (measureFrames s sweep frames list hfrs counts documentId) := by
  induction frames generalizing list hfrs counts documentId with
  | zero => exact .pure _
  | succ frames ih =>
    refine .bind (.ask fun _ _ => rfl) fun (frame : CaptureResult) => ?_
    split
    · exact ih _ _ _ _
    · refine .bind (.ask fun _ _ => rfl) fun (measured : StarMeasurement F) => ?_
      dsimp only
      split
      · exact ih _ _ _ _
      · exact ih _ _ _ _

/-! ## The sweep -/

section SweepMarks

variable (sweep : RigSweep F)

theorem move_tells (target : I32) :
    Tells (fun out l => l = [.moved .active sweep.focuserId target (answered out)])
      ((sweep.ops s).moveFocuser target) := by
  exact Tells.ask (c := .moveFocuser .active sweep.focuserId target sweep.leaseId) fun _ _ => rfl

theorem quiet_reference : Quiet (sweep.ops s).reference :=
  .bind (.ask fun _ _ => rfl) fun _ => .bind (.ask fun _ _ => rfl) fun _ => .pure _

theorem quiet_measure (list : List (ListedStar F)) : Quiet ((sweep.ops s).measure list) :=
  quiet_measureFrames _ _ _ _ _ _

theorem quiet_checkCancelled : Quiet (sweep.ops s).checkCancelled :=
  .bind .poll fun cancelled => by
    split
    · exact .halt _
    · exact .pure _

variable {sweep}

theorem SweepMoves.move (target : I32) : SweepMoves sweep ((sweep.ops s).moveFocuser target) :=
  (move_tells sweep target).mono fun _ l hl mark hmark => by
    rw [hl] at hmark
    rw [List.mem_singleton.mp hmark]
    rfl

theorem sweepMoves_takeReference (centre : I32) (first : Bool) :
    SweepMoves sweep (takeReference (sweep.ops s) centre first) := by
  have harrive : SweepMoves sweep (arrive (sweep.ops s) centre first) := by
    unfold arrive
    split
    · exact .of_quiet (.pure _)
    · exact .move centre
  exact .bind (.of_quiet (quiet_checkCancelled sweep)) fun _ => .bind harrive fun _ =>
    .bind (.of_quiet (quiet_checkCancelled sweep)) fun _ =>
      .bind (.of_quiet (quiet_reference sweep)) fun _ => .of_quiet (.pure _)

theorem walk_tells (grid : List I32) (list : List (ListedStar F)) (points : List (CurvePoint F)) :
    Tells (fun out l => (∀ mark ∈ l, mark.IsSweepMove sweep.focuserId) ∧ ∃ walked, out = .ok walked)
      (walk (sweep.ops s) grid list points) := by
  induction grid generalizing list points with
  | nil => exact .pure ⟨fun mark hmark => (by cases hmark), _, rfl⟩
  | cons position grid ih =>
    have hpoint : SweepMoves sweep (samplePoint (sweep.ops s) position list) :=
      .bind (.of_quiet (quiet_checkCancelled sweep)) fun _ => .bind (.move position) fun _ =>
        .bind (.of_quiet (quiet_checkCancelled sweep)) fun _ =>
          .bind (.of_quiet (quiet_measure sweep list)) fun _ => .of_quiet (.pure _)
    refine .attempt hpoint fun sampled l hl => ?_
    cases sampled with
    | error e => exact .pure ⟨by simpa using hl, _, rfl⟩
    | ok sampled =>
      refine (ih sampled.2 (points ++ [sampled.1])).mono ?_
      rintro out l' ⟨hl', hout⟩
      exact ⟨fun mark hmark => (List.mem_append.mp hmark).elim (hl mark) (hl' mark), hout⟩

/-- The last move of a settled sweep is the one whose read-back it reports. -/
def SettledAt (focuserId : String) (position : I32) (l : List Mark) : Prop :=
  (∀ mark ∈ l, mark.IsSweepMove focuserId) ∧
    ∃ before target, l = before ++ [.moved .active focuserId target (some position)]

theorem fallBack_tells (stage : FitStage F) (list : List (ListedStar F)) :
    Tells (fun out l => (∀ mark ∈ l, mark.IsSweepMove sweep.focuserId) ∧
        ∀ settled, out = .ok settled → SettledAt sweep.focuserId settled.1 l)
      (fallBack (sweep.ops s) stage list) := by
  refine .bind (quiet_checkCancelled sweep) (fun _ l hl => ?_) ?_
  · subst hl
    exact ⟨fun mark hmark => (by cases hmark), fun _ h => by cases h⟩
  · rintro _ _ rfl
    refine .bind (move_tells sweep _) (fun _ l hl => ?_) ?_
    · subst hl
      exact ⟨fun mark hmark => by rw [List.mem_singleton.mp hmark]; rfl, fun _ h => by cases h⟩
    · rintro position _ rfl
      have hmoves : ∀ mark ∈ [Mark.moved .active sweep.focuserId stage.lowestPosition (some position)],
          mark.IsSweepMove sweep.focuserId := fun mark hmark => by
        rw [List.mem_singleton.mp hmark]
        rfl
      split
      · exact .pure ⟨hmoves, fun _ h => by cases h; exact ⟨hmoves, [], _, rfl⟩⟩
      · refine .bind (quiet_checkCancelled sweep) (fun _ l hl => ?_) ?_
        · subst hl
          exact ⟨hmoves, fun _ h => by cases h⟩
        · rintro _ _ rfl
          refine .bind (quiet_measure sweep list) (fun _ l hl => ?_) ?_
          · subst hl
            exact ⟨hmoves, fun _ h => by cases h⟩
          · rintro measured _ rfl
            split
            · exact .pure ⟨hmoves, fun _ h => by cases h; exact ⟨hmoves, [], _, rfl⟩⟩
            · exact .halt ⟨hmoves, fun _ h => by cases h⟩

theorem confirm_tells (params : SweepParams F) (stage : FitStage F) (list : List (ListedStar F)) :
    Tells (fun out l => (∀ mark ∈ l, mark.IsSweepMove sweep.focuserId) ∧
        ∀ settled, out = .ok settled → SettledAt sweep.focuserId settled.2.1 l)
      (confirm (sweep.ops s) params stage list) := by
  refine .bind (quiet_checkCancelled sweep) (fun _ l hl => ?_) ?_
  · subst hl
    exact ⟨fun mark hmark => (by cases hmark), fun _ h => by cases h⟩
  · rintro _ _ rfl
    refine .bind (move_tells sweep _) (fun _ l hl => ?_) ?_
    · subst hl
      exact ⟨fun mark hmark => by rw [List.mem_singleton.mp hmark]; rfl, fun _ h => by cases h⟩
    · rintro movedTo _ rfl
      have hmoves : ∀ mark ∈ [Mark.moved .active sweep.focuserId stage.bestPosition (some movedTo)],
          mark.IsSweepMove sweep.focuserId := fun mark hmark => by
        rw [List.mem_singleton.mp hmark]
        rfl
      refine .bind (quiet_checkCancelled sweep) (fun _ l hl => ?_) ?_
      · subst hl
        exact ⟨hmoves, fun _ h => by cases h⟩
      · rintro _ _ rfl
        refine .bind (quiet_measure sweep list) (fun _ l hl => ?_) ?_
        · subst hl
          exact ⟨hmoves, fun _ h => by cases h⟩
        · rintro measured _ rfl
          dsimp only
          split
          · exact .pure ⟨hmoves, fun _ h => by cases h; exact ⟨hmoves, [], _, rfl⟩⟩
          · refine .bind (fallBack_tells stage measured.2) (fun _ l hl => ?_) fun settled l hl => .pure ?_
            · have hboth : ∀ mark ∈ [Mark.moved .active sweep.focuserId stage.bestPosition (some movedTo)] ++
                  l, mark.IsSweepMove sweep.focuserId := fun mark hmark =>
                (List.mem_append.mp hmark).elim (hmoves mark) (hl.1 mark)
              exact ⟨by simpa using hboth, fun _ h => by cases h⟩
            · obtain ⟨hall, before, target, hlast⟩ := hl.2 settled rfl
              have hboth : ∀ mark ∈ [Mark.moved .active sweep.focuserId stage.bestPosition (some movedTo)] ++
                  l, mark.IsSweepMove sweep.focuserId := fun mark hmark =>
                (List.mem_append.mp hmark).elim (hmoves mark) (hall mark)
              refine ⟨by simpa using hboth, fun _ h => ?_⟩
              cases h
              refine ⟨by simpa using hboth, Mark.moved .active sweep.focuserId stage.bestPosition
                (some movedTo) :: before, target, ?_⟩
              rw [hlast]
              simp

/-- A sweep moves and does nothing else that leaves a mark; it ends, and a settled one reports the
read-back of its last move. -/
theorem sweepFrom_tells (fitHyperbola : FitHyperbola F) (params : SweepParams F) (number : ℕ)
    (centre : I32) (grid : List I32) (measured : List (CurvePoint F)) (attemptsLog : List FailedAttempt) :
    Tells (fun out l => (∀ mark ∈ l, mark.IsSweepMove sweep.focuserId) ∧ ∃ result, out = .ok result ∧
        ∀ outcome, result = .ok outcome → SettledAt sweep.focuserId outcome.position l)
      (sweepFrom (sweep.ops s) fitHyperbola params number centre grid measured attemptsLog) := by
  induction hleft : params.maxAttempts - number using Nat.strong_induction_on generalizing number centre
    grid measured attemptsLog with
  | _ left ih =>
  have hfailed : ∀ (l : List Mark) (failure : SweepFailure F),
      (∀ mark ∈ l, mark.IsSweepMove sweep.focuserId) →
      Tells (σ := σ) (F := F) (Ω := Ω) (ρ := ρ)
        (fun out l' => (∀ mark ∈ l ++ l', mark.IsSweepMove sweep.focuserId) ∧ ∃ result, out = .ok result ∧
          ∀ outcome, result = .ok outcome → SettledAt sweep.focuserId outcome.position (l ++ l'))
        (pure (.error failure : Except (SweepFailure F) (SweepOutcome F))) := by
    intro l failure hl
    exact .pure ⟨by simpa using hl, _, rfl, fun _ h => by cases h⟩
  rw [sweepFrom]
  refine .attempt (sweepMoves_takeReference centre _) fun taken lead hlead => ?_
  cases taken with
  | error e => exact hfailed lead _ hlead
  | ok taken =>
    refine Tells.bind (walk_tells grid taken.2 []) ?_ fun walked moves hmoves => ?_
    · rintro e l ⟨_, walked, h⟩
      cases h
    · have hboth : ∀ mark ∈ lead ++ moves, mark.IsSweepMove sweep.focuserId := fun mark hmark =>
        (List.mem_append.mp hmark).elim (hlead mark) (hmoves.1 mark)
      have hreassoc : ∀ (m : Talk σ F Ω ρ (Except (SweepFailure F) (SweepOutcome F))),
          Tells (fun out l' => (∀ mark ∈ (lead ++ moves) ++ l', mark.IsSweepMove sweep.focuserId) ∧
            ∃ result, out = .ok result ∧ ∀ outcome, result = .ok outcome →
              SettledAt sweep.focuserId outcome.position ((lead ++ moves) ++ l')) m →
          Tells (fun out l' => (∀ mark ∈ lead ++ (moves ++ l'), mark.IsSweepMove sweep.focuserId) ∧
            ∃ result, out = .ok result ∧ ∀ outcome, result = .ok outcome →
              SettledAt sweep.focuserId outcome.position (lead ++ (moves ++ l'))) m :=
        fun m h => h.mono fun out l' hl' => by rw [← List.append_assoc]; exact hl'
      apply hreassoc
      obtain ⟨ended, points⟩ := walked
      cases ended with
      | error e => exact hfailed _ _ hboth
      | ok list =>
        dsimp only
        generalize gateAndFit fitHyperbola points params = gated
        obtain ⟨curvePoints, verdict⟩ := gated
        cases verdict with
        | ok stage =>
          refine .attempt (confirm_tells params stage list) fun confirmed l hl => ?_
          have hall : ∀ mark ∈ lead ++ moves ++ l, mark.IsSweepMove sweep.focuserId :=
            fun mark hmark => (List.mem_append.mp hmark).elim (hboth mark) (hl.1 mark)
          cases confirmed with
          | error e => exact .pure ⟨by simpa using hall, _, rfl, fun _ h => by cases h⟩
          | ok confirmed =>
            obtain ⟨_, before, target, hlast⟩ := hl.2 confirmed rfl
            refine .pure ⟨by simpa using hall, _, rfl, fun outcome houtcome => ?_⟩
            cases houtcome
            refine ⟨by simpa using hall, lead ++ moves ++ before, target, ?_⟩
            rw [hlast]
            simp
        | error e =>
          dsimp only
          split
          · next failed nextCentre nextGrid hnext =>
              have hlt := number_lt_of_failedAttempt hnext
              have hmax := params.maxAttempts_le
              refine (ih _ (by omega) _ nextCentre nextGrid _ _ rfl).mono ?_
              rintro out l' ⟨hl', result, hout, hsettled⟩
              refine ⟨fun mark hmark => (List.mem_append.mp hmark).elim (hboth mark) (hl' mark),
                result, hout, fun outcome houtcome => ?_⟩
              obtain ⟨_, before, target, hlast⟩ := hsettled outcome houtcome
              refine ⟨fun mark hmark => (List.mem_append.mp hmark).elim (hboth mark) (hl' mark),
                lead ++ moves ++ before, target, ?_⟩
              rw [hlast]
              simp
          · exact hfailed _ _ hboth

theorem runSweep_tells (fitHyperbola : FitHyperbola F) (centre : I32) (params : SweepParams F) :
    Tells (fun out l => (∀ mark ∈ l, mark.IsSweepMove sweep.focuserId) ∧ ∃ result, out = .ok result ∧
        ∀ outcome, result = .ok outcome → SettledAt sweep.focuserId outcome.position l)
      (runSweep (sweep.ops s) fitHyperbola centre params) := by
  unfold runSweep
  cases sweepGrid centre params with
  | error failure =>
    exact .pure ⟨fun mark hmark => (by cases hmark), _, rfl, fun _ h => by cases h⟩
  | ok grid => exact sweepFrom_tells _ _ _ _ _ _ _

end SweepMarks

end RustyPhoton.FocusModel
