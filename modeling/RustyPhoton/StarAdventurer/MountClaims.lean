import RustyPhoton.Lib.Fence
import RustyPhoton.StarAdventurer.MountRuns
import RustyPhoton.StarAdventurer.Sweep

/-!
# Claims on the slot and on the axes

The slot of the slews and parks, and the pulse slot of each axis, are fenced: a token or an id is
handed out once. Every region checks its own before it sends, so whoever has lost its claim is
silent from then on.
-/

namespace RustyPhoton.StarAdventurer

open Lib

/-! ## Who sent -/

/-- Who is behind an entry of the log. -/
def Event.sender : Event → Option Sender
  | .sent sender _ _ => some sender
  | .planned token _ | .gotos token _ _ => some (.operation token)
  | .readStopped _ => none

/-- One sender is behind all that is in a log. -/
def AllBy (sender : Sender) (events : List Event) : Prop :=
  ∀ (e : Event) (other : Sender), e ∈ events → e.sender = some other → other = sender

namespace AllBy

variable {sender : Sender} {events more : List Event}

theorem nil : AllBy sender [] := fun _ _ h => nomatch h

theorem append (h : AllBy sender events) (h' : AllBy sender more) : AllBy sender (events ++ more) := by
  intro e other hmem
  rcases List.mem_append.mp hmem with hmem | hmem
  · exact h e other hmem
  · exact h' e other hmem

theorem singleton {e : Event} (he : e.sender = none ∨ e.sender = some sender) : AllBy sender [e] := by
  intro other who hmem hother
  cases List.mem_singleton.mp hmem
  rcases he with hnone | hsome
  · rw [hnone] at hother
    cases hother
  · rw [hsome] at hother
    cases hother
    rfl

theorem readStopped (axis : Axis) : AllBy sender [.readStopped axis] := singleton (.inl rfl)

theorem gotos (token : ℕ) (aim : GotoAim) (deltas : ℤ × ℤ) :
    AllBy (.operation token) [.gotos token aim deltas] :=
  singleton (.inr rfl)

theorem planned (token : ℕ) (target : SlewAim) (aim : GotoAim) (deltas : ℤ × ℤ) :
    AllBy (.operation token) [.planned token target, .gotos token aim deltas] :=
  append (singleton (e := .planned token target) (.inr rfl)) (gotos token aim deltas)

theorem reading (axes : AxesReading) : AllBy sender axes.events := by
  unfold AxesReading.events
  refine append ?_ ?_
  · split
    · exact nil
    · exact readStopped .ra
  · split
    · exact nil
    · exact readStopped .dec

end AllBy

namespace Wire

variable (wire : Wire)

theorem allBy_send (n : ℕ) (command : Command) : AllBy wire.sender (wire.send n command).1 := by
  unfold send
  split
  · exact .singleton (.inr rfl)
  · exact .nil

theorem allBy_sendAll (n : ℕ) (commands : List Command) :
    AllBy wire.sender (wire.sendAll n commands).1 := by
  induction commands generalizing n with
  | nil => exact .nil
  | cons command rest ih =>
    have hsend := wire.allBy_send n command
    unfold sendAll
    split
    · rename_i heq
      rw [heq] at hsend
      exact hsend
    · rename_i heq
      rw [heq] at hsend
      exact hsend.append (ih (n + 1))

theorem allBy_sendEach (n : ℕ) (commands : List Command) :
    AllBy wire.sender (wire.sendEach n commands) := by
  induction commands generalizing n with
  | nil => exact .nil
  | cons command rest ih => exact (wire.allBy_send n command).append (ih (n + 1))

theorem allBy_haltBoth (n : ℕ) : AllBy wire.sender (wire.haltBoth n) :=
  wire.allBy_sendEach n _

theorem allBy_stopOrphanedAxes (n : ℕ) (axes : List Axis) :
    AllBy wire.sender (wire.stopOrphanedAxes n axes) := by
  induction axes generalizing n with
  | nil => exact .nil
  | cons axis rest ih =>
    unfold stopOrphanedAxes
    refine AllBy.append ?_ (ih (n + 2))
    show AllBy wire.sender (if _ then _ else _)
    split
    · exact wire.allBy_send n _
    · exact (wire.allBy_send n _).append (wire.allBy_send (n + 1) _)

variable {n : ℕ} {sent : List Event} {outcome : Option WireError}

/-- The same, for a send that was taken apart. -/
theorem allBy_of_send {command : Command}
    (h : wire.send n command = (sent, outcome)) : AllBy wire.sender sent := by
  have hsend := wire.allBy_send n command
  rwa [h] at hsend

theorem allBy_of_sendAll {commands : List Command} (h : wire.sendAll n commands = (sent, outcome)) :
    AllBy wire.sender sent := by
  have hsend := wire.allBy_sendAll n commands
  rwa [h] at hsend

end Wire

/-! ## The fences -/

namespace MountDevice

variable {m m' m'' : MountDevice} {axis : Axis} {token id : ℕ}

def slotFence (m : MountDevice) : Fence := ⟨m.slewInProgress.owner, m.slewInProgress.issued + 1⟩

def pulseFence (m : MountDevice) (axis : Axis) : Fence :=
  ⟨m.state.pulseGuiding.get axis, m.state.nextPulseId⟩

/-- Every fence moves as fences do. -/
structure Fences (m m' : MountDevice) : Prop where
  slot : Fence.Moves m.slotFence m'.slotFence
  pulse : ∀ axis, Fence.Moves (m.pulseFence axis) (m'.pulseFence axis)

theorem Fences.refl (m : MountDevice) : Fences m m := ⟨.refl _, fun _ => .refl _⟩

theorem Fences.trans (h : Fences m m') (h' : Fences m' m'') : Fences m m'' :=
  ⟨h.slot.trans h'.slot, fun axis => (h.pulse axis).trans (h'.pulse axis)⟩

/-- A step that changes neither slots nor counters. -/
theorem Fences.same (hslot : m'.slewInProgress = m.slewInProgress)
    (hpulse : m'.state.pulseGuiding = m.state.pulseGuiding)
    (hnext : m'.state.nextPulseId = m.state.nextPulseId) : Fences m m' := by
  refine ⟨?_, ?_⟩
  · unfold slotFence
    rw [hslot]
    exact .refl _
  · intro axis
    unfold pulseFence
    rw [hpulse, hnext]
    exact .refl _

theorem fences_setTracking (m : MountDevice) (on : Bool) : Fences m (m.setTracking on) :=
  .same rfl rfl rfl

theorem fences_setAtPark (m : MountDevice) (parked : Bool) : Fences m (m.setAtPark parked) :=
  .same rfl rfl rfl

theorem fences_latch (m : MountDevice) (aim : SlewAim) : Fences m (m.latch aim) :=
  .same rfl rfl rfl

/-- A step that empties pulse slots. -/
theorem Fences.empties (hslot : m'.slewInProgress = m.slewInProgress)
    (hpulse : ∀ axis, m'.state.pulseGuiding.get axis = m.state.pulseGuiding.get axis ∨
      m'.state.pulseGuiding.get axis = none)
    (hnext : m'.state.nextPulseId = m.state.nextPulseId) : Fences m m' := by
  refine ⟨?_, ?_⟩
  · unfold slotFence
    rw [hslot]
    exact .refl _
  · intro axis
    exact .of_keeps (Nat.le_of_eq hnext.symm) (hpulse axis)

theorem fences_takePulses (m : MountDevice) : Fences m m.takePulses := by
  refine .empties rfl ?_ rfl
  intro axis
  cases axis <;> exact .inr rfl

theorem fences_setPulse_none (m : MountDevice) (axis : Axis) : Fences m (m.setPulse axis none) := by
  refine .empties rfl ?_ rfl
  intro other
  cases axis <;> cases other
  · exact .inr rfl
  · exact .inl rfl
  · exact .inl rfl
  · exact .inr rfl

theorem fences_releasePulse (m : MountDevice) (axis : Axis) (id : ℕ) :
    Fences m (m.releasePulse axis id) := by
  unfold releasePulse DriverState.releasePulse
  split
  · exact m.fences_setPulse_none axis
  · exact .refl m

theorem get_set (pulses : PulseGuiding) (axis other : Axis) (id : Option ℕ) :
    (pulses.set axis id).get other = if other = axis then id else pulses.get other := by
  cases axis <;> cases other <;> rfl

theorem fences_beginPulse (m : MountDevice) {axis : Axis}
    (hfree : m.state.pulseGuiding.get axis = none) : Fences m (m.beginPulse axis) := by
  refine ⟨.refl _, fun other => ⟨Nat.le_succ _, ?_⟩⟩
  intro id hid
  have hget : (m.state.pulseGuiding.set axis (some m.state.nextPulseId)).get other = some id := hid
  rw [get_set] at hget
  split at hget
  · cases hget
    exact .inr ⟨Nat.le_refl _, Nat.lt_succ_self _⟩
  · exact .inl hget

/-- A step that empties the slot. -/
theorem Fences.releases (howner : m'.slewInProgress.owner = m.slewInProgress.owner ∨
      m'.slewInProgress.owner = none)
    (hissued : m.slewInProgress.issued ≤ m'.slewInProgress.issued)
    (hpulse : m'.state.pulseGuiding = m.state.pulseGuiding)
    (hnext : m'.state.nextPulseId = m.state.nextPulseId) : Fences m m' := by
  refine ⟨.of_keeps (Nat.succ_le_succ hissued) howner, ?_⟩
  intro axis
  unfold pulseFence
  rw [hpulse, hnext]
  exact .refl _

theorem fences_releaseSlot (m : MountDevice) (token : ℕ) : Fences m (m.releaseSlot token) := by
  unfold releaseSlot SlewSlot.release
  split
  · exact .releases (.inr rfl) (Nat.le_refl _) rfl rfl
  · exact .refl m

theorem fences_clearSlot (m : MountDevice) : Fences m m.clearSlot :=
  .releases (.inr rfl) (Nat.le_refl _) rfl rfl

/-- A claim takes an empty slot under a token that was never out. -/
theorem fences_claim {slot : SlewSlot} {claimed : Option ℕ}
    (h : m.slewInProgress.tryClaim = (slot, claimed)) :
    Fences m { m with slewInProgress := slot } ∧
      ∀ token, claimed = some token → m.slewInProgress.owner = none ∧
        token = m.slewInProgress.issued + 1 ∧ slot = ⟨some token, token⟩ := by
  unfold SlewSlot.tryClaim at h
  cases howner : m.slewInProgress.owner with
  | none =>
    simp only [howner] at h
    cases h
    refine ⟨⟨⟨Nat.le_succ _, ?_⟩, fun _ => .refl _⟩, ?_⟩
    · intro token htoken
      cases htoken
      exact .inr ⟨Nat.le_refl _, Nat.lt_succ_self _⟩
    · intro token htoken
      cases htoken
      exact ⟨rfl, rfl, rfl⟩
  | some owner =>
    simp only [howner] at h
    cases h
    exact ⟨.releases (.inl howner.symm) (Nat.le_succ _) rfl rfl, nofun⟩

end MountDevice

/-! ## What a task is called -/

namespace SlewStage

/-- The token of a slew that has claimed the slot. -/
def token : SlewStage → Option ℕ
  | connecting _ | unparking _ | choosing _ | claiming _ _ => none
  | planning token _ _ _ | taking token _ | stoppingRa token _ _ | waitingRa token _ _ _
  | restoringTracking token _ | stoppingDec token _ _ _ | waitingDec token _ _ _
  | starting token _ _ | failing token _ | releasing token | spawning token _ => some token

end SlewStage

namespace ParkStage

def token : ParkStage → Option ℕ
  | connecting | checkingParked | claiming => none
  | stoppingTracking token _ | targeting token _ | stoppingRa token _ _ | waitingRa token _ _
  | stoppingDec token _ _ | waitingDec token _ _ | starting token _ | failing token _
  | releasing token | spawning token => some token

end ParkStage

namespace PulseStage

/-- The axis and the id of a pulse that has claimed its axis. -/
def name : PulseStage → Option (Axis × ℕ)
  | connecting _ | unparking _ | checking _ | acquiring _ | beginning _ => none
  | waiting pulse id _ | starting pulse id _ => some (pulse.axis, id)
  | restoring axis id _ _ | stopping axis id _ | waitingStopped axis id _ | confirming axis id
  | releasing axis id => some (axis, id)

end PulseStage

namespace Task

def token : Task → Option ℕ
  | slew stage => stage.token
  | park stage => stage.token
  | watch w _ => some w.token
  | _ => none

def pulseName : Task → Option (Axis × ℕ)
  | pulse stage => stage.name
  | pulseWatch plan _ => some (plan.axis, plan.id)
  | _ => none

end Task

/-- A task sends under its own claim, which it holds, or under one that was never out. -/
def MountDevice.Rightful (m : MountDevice) (task : Task) : Sender → Prop
  | .operation token => m.slewInProgress.owner = some token ∧ task.token = some token
  | .pulse axis id =>
      (m.state.pulseGuiding.get axis = some id ∧ task.pulseName = some (axis, id)) ∨
        m.state.nextPulseId ≤ id
  | .tracking | .guard | .abort | .disconnect => True

/-- What a step may claim, send and be called. -/
structure Fenced (m : MountDevice) (task : Task) (after : Advance) : Prop where
  fences : m.Fences after.device
  sends : ∃ sender, m.Rightful task sender ∧ AllBy sender after.events
  token : ∀ (next : Task) (token : ℕ), after.next = some next → next.token = some token →
    task.token = some token ∨
      (m.slewInProgress.issued < token ∧ token ≤ after.device.slewInProgress.issued)
  pulseName : ∀ (next : Task) (axis : Axis) (id : ℕ), after.next = some next →
    next.pulseName = some (axis, id) → task.pulseName = some (axis, id) ∨
      (m.state.nextPulseId ≤ id ∧ id < after.device.state.nextPulseId)

namespace Fenced

variable {m m' : MountDevice} {task next lapsed : Task} {sender : Sender} {events : List Event}
  {token : ℕ} {region : Advance}

theorem of_log (h : m.Fences m') (hsender : m.Rightful task sender) (hby : AllBy sender events)
    (htoken : next.token = task.token) (hpulse : next.pulseName = task.pulseName) :
    Fenced m task (m'.log events next) := by
  refine ⟨h, ⟨sender, hsender, hby⟩, ?_, ?_⟩
  · intro after token hnext hname
    cases hnext
    exact .inl (htoken ▸ hname)
  · intro after axis id hnext hname
    cases hnext
    exact .inl (hpulse ▸ hname)

/-- A step that only reads. -/
theorem of_read (h : m.Fences m') (hby : AllBy .tracking events) (htoken : next.token = task.token)
    (hpulse : next.pulseName = task.pulseName) : Fenced m task (m'.log events next) :=
  of_log h (show m.Rightful task .tracking from trivial) hby htoken hpulse

theorem of_go (h : m.Fences m') (htoken : next.token = task.token)
    (hpulse : next.pulseName = task.pulseName) : Fenced m task (m'.go next) :=
  of_read h .nil htoken hpulse

/-- The task ends, with what it sent. -/
theorem of_end (sender : Sender) (h : m.Fences m') (hsender : m.Rightful task sender)
    (hby : AllBy sender events) :
    Fenced m task ⟨m', none, events⟩ := by
  refine ⟨h, ⟨sender, hsender, hby⟩, ?_, ?_⟩
  · intro next token hnext
    cases hnext
  · intro next axis id hnext
    cases hnext

theorem of_finish (h : m.Fences m') : Fenced m task m'.finish :=
  of_end .tracking h trivial .nil

/-- A task that has claimed nothing goes on without a claim. -/
theorem stay (htoken : next.token = task.token) (hpulse : next.pulseName = task.pulseName) :
    Fenced m task (m.go next) :=
  of_go (.refl m) htoken hpulse

theorem ended : Fenced m task m.finish := of_finish (.refl m)

/-- A region under a claim is run by the owner of the slot. -/
theorem of_underClaim (hmine : task.token = some token) (htoken : lapsed.token = task.token)
    (hpulse : lapsed.pulseName = task.pulseName)
    (h : m.Rightful task (.operation token) → Fenced m task region) :
    Fenced m task (m.underClaim token lapsed region) := by
  unfold MountDevice.underClaim
  split
  · rename_i hholds
    have howner : m.slewInProgress.owner = some token := of_decide_eq_true hholds
    exact h ⟨howner, hmine⟩
  · exact stay htoken hpulse

end Fenced

/-! ## Slews and parks -/

namespace MountDevice

variable (texts : SlewTexts) (config : SiteConfig) (m : MountDevice) (r : Reading)

variable {task : Task} {token : ℕ}

theorem fenced_planAndStart (goal : SlewGoal) (trackingWasOn : Bool)
    (htask : task.token = some token) (hpulse : task.pulseName = none)
    (hmine : m.Rightful task (.operation token)) :
    Fenced m task (planAndStart texts config m r token goal trackingWasOn) := by
  have hfailed : (Task.slew (.failing token .IDLE)).token = task.token := htask.symm
  unfold planAndStart
  split
  · rename_i rest _ _
    have hread : AllBy (.operation token) rest.events := .reading rest
    split
    · exact .of_log (.refl m) hmine hread hfailed hpulse.symm
    · split
      · exact .of_log (.refl m) hmine hread hfailed hpulse.symm
      · split
        · exact .of_log (.refl m) hmine hread hfailed hpulse.symm
        · rename_i plan _
          have hsent := (m.wire (.operation token) r.replies).allBy_sendAll 0
            (issueSlewAxis .ra plan.raDelta ++ issueSlewAxis .dec plan.decDelta)
          have hevents (target : SlewAim) (aim : GotoAim) (deltas : ℤ × ℤ) :=
            (hread.append (.planned token target aim deltas)).append hsent
          show Fenced m task (if _ then _ else _)
          split
          · exact .of_log (m.fences_latch _) hmine
              ((hevents _ _ _).append ((m.wire (.operation token) r.replies).allBy_haltBoth 10))
              hfailed hpulse.symm
          · exact .of_log (m.fences_latch _) hmine (hevents _ _ _) htask.symm hpulse.symm
  · exact .stay hfailed hpulse.symm

theorem fenced_slew (stage : SlewStage) :
    Fenced m (.slew stage) (m.slew texts config r stage) := by
  cases stage with
  | connecting call =>
    cases call
    all_goals
      simp only [slew]
      split
      · exact .stay rfl rfl
      · exact .ended
  | unparking call =>
    cases call
    all_goals
      simp only [slew]
      split
      · exact .ended
      · exact .stay rfl rfl
  | choosing side =>
    simp only [slew]
    split
    · split
      · exact .ended
      · exact .stay rfl rfl
    · exact .ended
  | claiming target side =>
    simp only [slew]
    split
    · split
      · rename_i slot token heq
        obtain ⟨hfences, hclaimed⟩ := fences_claim heq
        obtain ⟨-, htoken, hslot⟩ := hclaimed token rfl
        refine ⟨hfences, ⟨.tracking, trivial, .nil⟩, ?_, ?_⟩
        · intro next other hnext hname
          cases hnext
          cases hname
          refine .inr ⟨by omega, ?_⟩
          show token ≤ slot.issued
          rw [hslot]
        · intro next axis id hnext hname
          cases hnext
          cases hname
      · rename_i heq
        exact .of_finish (fences_claim heq).1
    · exact .ended
  | planning token target side params =>
    simp only [slew]
    split
    · exact .stay rfl rfl
    · split
      · exact .stay rfl rfl
      · split <;> exact .stay rfl rfl
  | taking token goal => exact .of_go m.fences_takePulses rfl rfl
  | stoppingRa token goal taken =>
    refine .of_underClaim rfl rfl rfl ?_
    intro hmine
    split
    · rename_i heq
      exact .of_log (.refl m) hmine (Wire.allBy_of_send _ heq) rfl rfl
    · rename_i heq
      exact .of_log (m.fences_setTracking false) hmine (Wire.allBy_of_send _ heq) rfl rfl
  | waitingRa token goal taken trackingWasOn =>
    simp only [slew]
    split
    · exact .of_read (.refl m) (.readStopped .ra) rfl rfl
    · split <;> exact .stay rfl rfl
  | restoringTracking token taken =>
    refine .of_underClaim rfl rfl rfl ?_
    intro _
    exact .of_go (m.fences_setTracking true) rfl rfl
  | stoppingDec token goal taken trackingWasOn =>
    refine .of_underClaim rfl rfl rfl ?_
    intro hmine
    split
    all_goals
      rename_i heq
      exact .of_log (.refl m) hmine (Wire.allBy_of_send _ heq) rfl rfl
  | waitingDec token goal taken trackingWasOn =>
    simp only [slew]
    split
    · exact .of_read (.refl m) (.readStopped .dec) rfl rfl
    · exact .stay rfl rfl
  | starting token goal trackingWasOn =>
    refine .of_underClaim rfl rfl rfl ?_
    intro hmine
    exact m.fenced_planAndStart texts config r goal trackingWasOn rfl rfl hmine
  | failing token taken =>
    refine .of_underClaim rfl rfl rfl ?_
    intro hmine
    exact .of_log (.refl m) hmine (Wire.allBy_stopOrphanedAxes _ 0 _) rfl rfl
  | releasing token => exact .of_finish (m.fences_releaseSlot token)
  | spawning token trackingWasOn =>
    simp only [slew]
    split <;> exact .stay rfl rfl

theorem fenced_startParkGotos (targets : ParkTargets)
    (htask : task.token = some token) (hpulse : task.pulseName = none)
    (hmine : m.Rightful task (.operation token)) :
    Fenced m task (m.startParkGotos r token targets) := by
  unfold startParkGotos
  split
  · rename_i rest _ _
    have hread : AllBy (.operation token) rest.events := .reading rest
    split
    · exact .of_log (.refl m) hmine hread htask.symm hpulse.symm
    · have hsent := (m.wire (.operation token) r.replies).allBy_sendAll 0
      show Fenced m task (if _ then _ else _)
      split
      · exact .of_log (.refl m) hmine ((hread.append (hsent _)).append
          ((m.wire (.operation token) r.replies).allBy_haltBoth 6)) htask.symm hpulse.symm
      · exact .of_log (.refl m) hmine (hread.append (hsent _)) htask.symm hpulse.symm
  · exact .stay htask.symm hpulse.symm

theorem fenced_park (stage : ParkStage) : Fenced m (.park stage) (m.park r stage) := by
  cases stage with
  | connecting | checkingParked =>
    simp only [park]
    split
    · first | exact .stay rfl rfl | exact .ended
    · first | exact .stay rfl rfl | exact .ended
  | claiming =>
    simp only [park]
    split
    · rename_i slot token heq
      obtain ⟨hfences, hclaimed⟩ := fences_claim heq
      obtain ⟨-, htoken, hslot⟩ := hclaimed token rfl
      refine ⟨hfences.trans (fences_takePulses _), ⟨.tracking, trivial, .nil⟩, ?_, ?_⟩
      · intro next other hnext hname
        cases hnext
        cases hname
        refine .inr ⟨by omega, ?_⟩
        show token ≤ slot.issued
        rw [hslot]
      · intro next axis id hnext hname
        cases hnext
        cases hname
    · rename_i heq
      exact .of_finish (fences_claim heq).1
  | stoppingTracking token taken =>
    refine .of_underClaim rfl rfl rfl ?_
    intro hmine
    split
    · split
      · rename_i heq
        exact .of_log (.refl m) hmine (Wire.allBy_of_send _ heq) rfl rfl
      · rename_i heq
        exact .of_log (m.fences_setTracking false) hmine (Wire.allBy_of_send _ heq) rfl rfl
    · exact .stay rfl rfl
  | targeting token taken => exact .stay rfl rfl
  | stoppingRa token taken targets | stoppingDec token taken targets =>
    refine .of_underClaim rfl rfl rfl ?_
    intro hmine
    split
    all_goals
      rename_i heq
      exact .of_log (.refl m) hmine (Wire.allBy_of_send _ heq) rfl rfl
  | waitingRa token taken targets | waitingDec token taken targets =>
    simp only [park]
    split
    · exact .of_read (.refl m) (.readStopped _) rfl rfl
    · exact .stay rfl rfl
  | starting token targets =>
    refine .of_underClaim rfl rfl rfl ?_
    intro hmine
    exact m.fenced_startParkGotos r targets rfl rfl hmine
  | failing token taken =>
    refine .of_underClaim rfl rfl rfl ?_
    intro hmine
    exact .of_log (.refl m) hmine (Wire.allBy_stopOrphanedAxes _ 0 _) rfl rfl
  | releasing token => exact .of_finish (m.fences_releaseSlot token)
  | spawning token =>
    simp only [park]
    split <;> exact .stay rfl rfl

theorem fenced_stepSlew (w : Watch) (iterations : ℕ) (stage : WatchStage) :
    Fenced m (.watch w stage) (stepSlew config m r w iterations) := by
  unfold stepSlew
  split
  · exact .stay rfl rfl
  · split
    · exact .stay rfl rfl
    · split
      · split
        · exact .stay rfl rfl
        · split <;> exact .stay rfl rfl
      · exact .stay rfl rfl

theorem fenced_startPickup (w : Watch) (iterations : ℕ) (pickup : Pickup)
    (raStopped decStopped : Bool) (stage : WatchStage) (hmine : m.Rightful (.watch w stage) (.operation w.token)) :
    Fenced m (.watch w stage) (startPickup m r w iterations pickup raStopped decStopped) := by
  unfold startPickup
  split
  · exact .stay rfl rfl
  · split
    · exact .stay rfl rfl
    · rename_i now _
      have hread : AllBy (.operation w.token) now.events := .reading now
      split
      · exact .of_log (.refl m) hmine hread rfl rfl
      · have hstart (n : ℕ) (axis : Axis) (delta : ℤ) (stopped : Bool) :
            AllBy (.operation w.token) (if stopped then
              (Wire.sendAll ⟨.operation w.token, true, r.replies⟩ n (issueSlewAxis axis delta)).1
              else []) := by
          split
          · exact Wire.allBy_sendAll ⟨.operation w.token, true, r.replies⟩ n _
          · exact .nil
        exact .of_log (.refl m) hmine (((hread.append (.gotos _ _ _)).append (hstart 0 _ _ _)).append
          (hstart 5 _ _ _)) rfl rfl

theorem fenced_finishSlew (w : Watch) (stage : WatchStage) (hmine : m.Rightful (.watch w stage) (.operation w.token)) :
    Fenced m (.watch w stage) (finishSlew m r w) := by
  unfold finishSlew
  split
  · exact .stay rfl rfl
  · split
    · have hsent := Wire.allBy_sendAll ⟨.operation w.token, true, r.replies⟩ 0
        (enableSiderealTrackingRa r.siderealStepPeriodRa)
      show Fenced m _ (if _ then _ else _)
      split
      · exact .of_log (m.fences_setTracking true) hmine hsent rfl rfl
      · exact .of_log (.refl m) hmine hsent rfl rfl
    · exact .stay rfl rfl

theorem fenced_watch (w : Watch) (stage : WatchStage) :
    Fenced m (.watch w stage) (m.watch config r w stage) := by
  cases stage with
  | checking iterations =>
    simp only [watch]
    split
    · exact .ended
    · split <;> exact .stay rfl rfl
  | polling iterations =>
    simp only [watch]
    split
    · exact .stay rfl rfl
    · rename_i now _
      have hread : AllBy .tracking now.events := .reading now
      split
      · exact .of_read (.refl m) hread rfl rfl
      · split <;> exact .of_read (.refl m) hread rfl rfl
  | halting =>
    refine .of_underClaim rfl rfl rfl ?_
    intro hmine
    exact .of_log (.refl m) hmine (Wire.allBy_haltBoth _ 0) rfl rfl
  | releasing => exact .of_finish (m.fences_releaseSlot w.token)
  | stepping iterations => exact m.fenced_stepSlew config r w iterations _
  | rechecking iterations pickup =>
    simp only [watch]
    split <;> exact .stay rfl rfl
  | stoppingRa iterations pickup | stoppingDec iterations pickup raStopped =>
    refine .of_underClaim rfl rfl rfl ?_
    intro hmine
    split
    all_goals
      rename_i heq
      exact .of_log (.refl m) hmine (Wire.allBy_of_send _ heq) rfl rfl
  | waitingRa iterations pickup | waitingDec iterations pickup raStopped =>
    simp only [watch]
    split
    · exact .of_read (.refl m) (.readStopped _) rfl rfl
    · exact .stay rfl rfl
  | starting iterations pickup raStopped decStopped =>
    refine .of_underClaim rfl rfl rfl ?_
    intro hmine
    exact m.fenced_startPickup r w iterations pickup raStopped decStopped _ hmine
  | finishing =>
    refine .of_underClaim rfl rfl rfl ?_
    intro hmine
    exact m.fenced_finishSlew r w _ hmine
  | finalizing =>
    simp only [watch]
    split
    · split
      · exact .of_finish (m.fences_releaseSlot w.token)
      · exact .of_finish ((m.fences_setAtPark true).trans (fences_releaseSlot _ w.token))
    · exact .ended

/-! ## Pulses -/

section

variable {pulse : GuidePulse} {id : ℕ} {restore : Restore} {before : List Event}

/-- While a pulse is begun, all that is sent is its own, and the name it goes on under too. -/
structure Begins (pulse : GuidePulse) (id : ℕ) (after : Advance) : Prop where
  fences : m.Fences after.device
  sends : AllBy (.pulse pulse.axis id) after.events
  name : ∀ next, after.next = some next →
    next.token = none ∧ next.pulseName = some (pulse.axis, id)

variable {m}

variable {m' : MountDevice}

theorem begins_log {events : List Event} {next : Task} (h : m.Fences m')
    (hby : AllBy (.pulse pulse.axis id) events) (htoken : next.token = none)
    (hname : next.pulseName = some (pulse.axis, id)) : m.Begins pulse id (m'.log events next) := by
  refine ⟨h, hby, ?_⟩
  intro after hnext
  cases hnext
  exact ⟨htoken, hname⟩

theorem begins_stopForPulse (h : m.Fences m') (hbefore : AllBy (.pulse pulse.axis id) before) :
    m.Begins pulse id (m'.stopForPulse r pulse id restore before) := by
  unfold stopForPulse
  split
  all_goals
    rename_i heq
    exact begins_log h (hbefore.append (Wire.allBy_of_send _ heq)) rfl rfl

theorem name_endFailedStart (axis : Axis) (id : ℕ) (restore : Restore) :
    (endFailedStart axis id restore).name = some (axis, id) := by
  cases restore <;> rfl

theorem begins_putPulse (h : m.Fences m') (trackingOn : Bool) :
    m.Begins pulse id (m'.putPulse r pulse id trackingOn) := by
  unfold putPulse
  split
  · unfold putLiveRate
    split
    · split
      · rename_i heq
        exact begins_log h (Wire.allBy_of_send _ heq) rfl rfl
      · rename_i heq
        split
        · exact begins_stopForPulse r (h.trans (.same rfl rfl rfl)) (Wire.allBy_of_send _ heq)
        · exact begins_log h (Wire.allBy_of_send _ heq) rfl rfl
    · exact begins_stopForPulse r h .nil
    · exact begins_log h .nil rfl rfl
  · exact begins_stopForPulse r h .nil

end

theorem rightful_of_owns {axis : Axis} {id : ℕ}
    (hname : task.pulseName = some (axis, id)) (h : ¬ (!m.owns axis id) = true) :
    m.Rightful task (.pulse axis id) := by
  rw [Bool.not_eq_true, Bool.not_eq_false'] at h
  exact .inl ⟨of_decide_eq_true h, hname⟩

theorem fenced_pulse (stage : PulseStage) : Fenced m (.pulse stage) (m.pulse r stage) := by
  cases stage with
  | connecting pulse | unparking pulse | checking pulse | acquiring pulse =>
    simp only [MountDevice.pulse]
    split
    · first | exact .stay rfl rfl | exact .ended
    · first | exact .stay rfl rfl | exact .ended
  | beginning pulse =>
    simp only [MountDevice.pulse]
    split
    · exact .ended
    · rename_i hfree
      rw [Bool.or_eq_true, not_or, Bool.not_eq_true, Bool.not_eq_true,
        Option.isSome_eq_false_iff, Option.isNone_iff_eq_none] at hfree
      have hbegun := m.fences_beginPulse hfree.2
      obtain ⟨hfences, hsends, hname⟩ := @begins_putPulse _ r pulse
        m.state.nextPulseId _ (.refl (m.beginPulse pulse.axis))
        (decide (pulse.axis = .ra) && m.state.trackingRequested)
      have hfresh : m.Rightful (.pulse (.beginning pulse)) (.pulse pulse.axis m.state.nextPulseId) := .inr (Nat.le_refl _)
      refine ⟨hbegun.trans hfences, ⟨_, hfresh, hsends⟩, ?_, ?_⟩
      · intro next token hnext htoken
        rw [(hname next hnext).1] at htoken
        cases htoken
      · intro next axis id hnext hnamed
        rw [(hname next hnext).2] at hnamed
        cases hnamed
        exact .inr ⟨Nat.le_refl _, (hfences.pulse pulse.axis).next_le⟩
  | waiting pulse id restore =>
    simp only [MountDevice.pulse]
    split
    · exact .of_read (.refl m) (.readStopped _) rfl rfl
    · exact .stay rfl rfl
  | starting pulse id restore =>
    simp only [MountDevice.pulse]
    split
    · exact .stay rfl rfl
    · rename_i hmine
      have hmine : m.Rightful (.pulse (.starting pulse id restore)) (.pulse pulse.axis id) := by
        refine m.rightful_of_owns rfl ?_
        intro hnot
        rw [hnot] at hmine
        exact hmine rfl
      split
      · rename_i heq
        exact .of_log (.refl m) hmine (Wire.allBy_of_sendAll _ heq) rfl rfl
      · rename_i heq
        have hsent := Wire.allBy_of_sendAll _ heq
        split
        · rename_i hstart
          exact .of_log (.refl m) hmine (hsent.append (Wire.allBy_of_send _ hstart)) rfl rfl
        · rename_i hstart
          have hboth := hsent.append (Wire.allBy_of_send _ hstart)
          split
          · exact .of_log (.refl m) hmine hboth rfl rfl
          · exact .of_log (.refl m) hmine hboth rfl (name_endFailedStart _ _ _)
  | restoring axis id period attempts =>
    simp only [MountDevice.pulse]
    split
    · exact .stay rfl rfl
    · rename_i hmine
      have hmine := @rightful_of_owns m (.pulse (.restoring axis id period attempts)) axis id rfl hmine
      split
      · rename_i heq
        exact .of_log (.refl m) hmine (Wire.allBy_of_send _ heq) rfl rfl
      · rename_i heq
        split <;> exact .of_log (.refl m) hmine (Wire.allBy_of_send _ heq) rfl rfl
  | stopping axis id instant =>
    simp only [MountDevice.pulse]
    split
    · exact .stay rfl rfl
    · rename_i hmine
      exact .of_log (.refl m) (m.rightful_of_owns rfl hmine) (Wire.allBy_send _ 0 _) rfl rfl
  | waitingStopped axis id instant =>
    simp only [MountDevice.pulse]
    split
    · refine .of_read (.refl m) (.readStopped _) ?_ ?_
      · split <;> rfl
      · split <;> rfl
    · split <;> exact .stay rfl rfl
  | confirming axis id =>
    simp only [MountDevice.pulse]
    split
    · exact .of_go (m.fences_setTracking false) rfl rfl
    · exact .stay rfl rfl
  | releasing axis id => exact .of_finish (m.fences_releasePulse axis id)

theorem rightful_of_owned {plan : PulsePlan} (stage : PulseWatchStage) (h : m.owned plan = true) :
    m.Rightful (.pulseWatch plan stage) (.pulse plan.axis plan.id) := by
  unfold owned at h
  rw [Bool.and_eq_true, Bool.and_eq_true] at h
  exact .inl ⟨of_decide_eq_true h.1.1, rfl⟩

theorem fenced_pulseWatch (plan : PulsePlan) (stage : PulseWatchStage) :
    Fenced m (.pulseWatch plan stage) (m.pulseWatch r plan stage) := by
  have hmine (h : ¬ (!m.owned plan) = true) :
      m.Rightful (.pulseWatch plan stage) (.pulse plan.axis plan.id) := by
    rw [Bool.not_eq_true, Bool.not_eq_false'] at h
    exact m.rightful_of_owned stage h
  have hmine' (h : ¬ (!m.ownedWhileTracking plan) = true) :
      m.Rightful (.pulseWatch plan stage) (.pulse plan.axis plan.id) := by
    rw [Bool.not_eq_true, Bool.not_eq_false'] at h
    exact m.rightful_of_owned stage (Bool.and_eq_true_iff.mp h).1
  cases stage with
  | restoring attempts =>
    simp only [pulseWatch]
    split
    · exact .stay rfl rfl
    · rename_i howned
      split
      · rename_i heq
        exact .of_log (.refl m) (hmine howned) (Wire.allBy_of_send _ heq) rfl rfl
      · rename_i heq
        split <;> exact .of_log (.refl m) (hmine howned) (Wire.allBy_of_send _ heq) rfl rfl
  | waitingRestored | waitingStopped | waitingEscalated why | waitingForRestart =>
    simp only [pulseWatch]
    split
    · exact .of_read (.refl m) (.readStopped _) rfl rfl
    · exact .stay rfl rfl
  | stopping =>
    simp only [pulseWatch]
    split
    · exact .stay rfl rfl
    · rename_i howned
      exact .of_log (.refl m) (hmine howned) (Wire.allBy_send _ 0 _) rfl rfl
  | escalating why =>
    simp only [pulseWatch]
    split
    · exact .stay rfl rfl
    · rename_i howned
      split
      all_goals
        rename_i heq
        exact .of_log (.refl m) (hmine howned) (Wire.allBy_of_send _ heq) rfl rfl
  | confirming =>
    simp only [pulseWatch]
    split
    · exact .of_go (m.fences_setTracking false) rfl rfl
    · exact .stay rfl rfl
  | stoppingForRestart =>
    simp only [pulseWatch]
    split
    · exact .stay rfl rfl
    · rename_i howned
      exact .of_log (.refl m) (hmine' howned) (Wire.allBy_send _ 0 _) rfl rfl
  | restarting =>
    simp only [pulseWatch]
    split
    · exact .stay rfl rfl
    · rename_i howned
      split
      · rename_i heq
        exact .of_log (.refl m) (hmine' howned) (Wire.allBy_of_sendAll _ heq) rfl rfl
      · rename_i heq
        split
        · exact .of_log (m.fences_setTracking false) (hmine' howned) (Wire.allBy_of_sendAll _ heq)
            rfl rfl
        · exact .of_log (.refl m) (hmine' howned) (Wire.allBy_of_sendAll _ heq) rfl rfl
  | releasing => exact .of_finish (m.fences_releasePulse plan.axis plan.id)

/-! ## The others, which claim nothing -/

theorem fenced_writeTracking (task : Task) (on : Bool) : Fenced m task (m.writeTracking r on) := by
  have hfences := m.fences_setPulse_none .ra
  have htracking (on : Bool) : m.Fences ((m.setPulse .ra none).setTracking on) :=
    hfences.trans (fences_setTracking _ on)
  have hfailed (n : ℕ) (axes : List Axis) {sent : List Event} (hsent : AllBy .tracking sent) :
      AllBy .tracking
        (sent ++ ((m.setPulse .ra none).wire .tracking r.replies).stopOrphanedAxes n axes) :=
    hsent.append (Wire.allBy_stopOrphanedAxes _ n axes)
  simp only [writeTracking]
  split
  · split
    · split
      · rename_i heq
        exact .of_end .tracking hfences trivial (hfailed 4 _ (Wire.allBy_of_send _ heq))
      · rename_i heq
        have hstop := Wire.allBy_of_send _ heq
        split
        · have hevents := (hstop.append (.readStopped .ra)).append
            (Wire.allBy_sendAll ((m.setPulse .ra none).wire .tracking r.replies) 1
              (enableSiderealTrackingRa r.siderealStepPeriodRa))
          split
          · exact .of_end .tracking hfences trivial (hfailed 4 _ hevents)
          · exact .of_end .tracking (htracking true) trivial hevents
        · exact .of_end .tracking hfences trivial (hfailed 4 _ hstop)
    · exact .of_end .tracking hfences trivial (hfailed 4 _ .nil)
  · split
    · rename_i heq
      exact .of_end .tracking hfences trivial (hfailed 4 _ (Wire.allBy_of_send _ heq))
    · rename_i heq
      exact .of_end .tracking (htracking false) trivial (Wire.allBy_of_send _ heq)

theorem fenced_tracking (stage : TrackingStage) :
    Fenced m (.tracking stage) (m.tracking r stage) := by
  cases stage with
  | connecting on =>
    simp only [tracking]
    split
    · exact .stay rfl rfl
    · exact .ended
  | writing on => exact m.fenced_writeTracking r _ on

theorem fenced_guard (stage : GuardStage) : Fenced m (.guard stage) (m.guard r stage) := by
  cases stage with
  | gating =>
    simp only [guard]
    split
    · exact .ended
    · exact .stay rfl rfl
  | stopping =>
    simp only [guard]
    split
    · exact .ended
    · split
      · rename_i heq
        exact .of_end .guard (m.fences_setPulse_none .ra) trivial (Wire.allBy_of_send _ heq)
      · rename_i heq
        exact .of_end .guard ((m.fences_setPulse_none .ra).trans (fences_setTracking _ false)) trivial
          (Wire.allBy_of_send _ heq)

theorem fenced_abort (stage : AbortStage) : Fenced m (.abort stage) (m.abort r stage) := by
  cases stage with
  | connecting page =>
    simp only [abort]
    split
    · exact .ended
    · cases page <;> exact .stay rfl rfl
  | unparking =>
    simp only [abort]
    split
    · exact .ended
    · exact .stay rfl rfl
  | halting =>
    exact .of_end .abort ((m.fences_clearSlot.trans (fences_setTracking _ false)).trans
      (fences_takePulses _)) trivial (Wire.allBy_haltBoth _ 0)

theorem fences_resetForDisconnect :
    m.Fences { m with
      session := false
      state := m.state.resetForDisconnect
      slewInProgress := m.slewInProgress.clear
      liveRateRefused := false } := by
  have hslot : m.Fences m.clearSlot.takePulses := m.fences_clearSlot.trans (fences_takePulses _)
  exact hslot.trans (.same rfl rfl rfl)

theorem fenced_disconnect : Fenced m .disconnect (m.disconnect r) := by
  have hsent := Wire.allBy_stopOrphanedAxes (m.takePulses.wire .disconnect r.replies) 0
  simp only [disconnect]
  split
  · exact .of_end .disconnect (m.fences_takePulses.trans (fences_resetForDisconnect _)) trivial (hsent _)
  · exact .of_end .disconnect m.fences_takePulses trivial (hsent _)

theorem fenced_sync (stage : SyncStage) : Fenced m (.sync stage) (m.sync r stage) := by
  cases stage with
  | connecting ra dec | unparking ra dec =>
    simp only [sync]
    split
    · first | exact .stay rfl rfl | exact .ended
    · first | exact .stay rfl rfl | exact .ended
  | writing ra dec =>
    simp only [sync]
    split
    · exact .ended
    · exact .of_finish (.same rfl rfl rfl)

theorem fenced_advance (task : Task) : Fenced m task (m.advance texts config r task) := by
  cases task with
  | slew stage => exact m.fenced_slew texts config r stage
  | park stage => exact m.fenced_park r stage
  | watch w stage => exact m.fenced_watch config r w stage
  | pulse stage => exact m.fenced_pulse r stage
  | pulseWatch plan stage => exact m.fenced_pulseWatch r plan stage
  | tracking stage => exact m.fenced_tracking r stage
  | guard stage => exact m.fenced_guard r stage
  | abort stage => exact m.fenced_abort r stage
  | sync stage => exact m.fenced_sync r stage
  | disconnect => exact m.fenced_disconnect r
  | unpark => exact .of_finish (m.fences_setAtPark false)
  | connect =>
    show Fenced m _ (if _ then _ else _)
    split
    · exact .of_finish (.same rfl rfl rfl)
    · exact .ended
  | setTargetRightAscension value | setTargetDeclination value =>
    show Fenced m _ (if _ then _ else _)
    split
    · exact .of_finish (.same rfl rfl rfl)
    · exact .ended
  | setGuideRate axis fraction =>
    show Fenced m _ (if _ then _ else _)
    split
    · cases axis <;> exact .of_finish (.same rfl rfl rfl)
    · exact .ended

end MountDevice

/-! ## Voided owners -/

section

variable {texts : SlewTexts} {config : SiteConfig} {allowed : List Event → Mount → Move → Prop}
  {s s' : Mount} {moves : List Move} {log : List Event}

theorem Mount.Run.fences (h : Mount.Run texts config allowed s moves log s') :
    s.device.Fences s'.device ∧ ∀ (sender : Sender) (command : Command) (reply : Reply),
      .sent sender command reply ∈ log → match sender with
        | .operation token => ¬ s.device.slotFence.Lost token
        | .pulse axis id => ¬ (s.device.pulseFence axis).Lost id
        | _ => True := by
  induction h with
  | nil => exact ⟨.refl _, nofun⟩
  | @snoc moves log t move t' events before ok taken ih =>
    obtain ⟨hfences, hsent⟩ := ih
    rcases t.step_cases texts config taken with
      ⟨number, call, rfl, hfree, rfl, rfl⟩ | ⟨number, r, task, rfl, htask, rfl, rfl⟩
    · refine ⟨hfences, ?_⟩
      intro sender command reply hmem
      rw [List.append_nil] at hmem
      exact hsent sender command reply hmem
    · have hstep := t.device.fenced_advance texts config r task
      refine ⟨hfences.trans hstep.fences, ?_⟩
      intro sender command reply hmem
      rcases List.mem_append.mp hmem with hmem | hmem
      · exact hsent sender command reply hmem
      · obtain ⟨owner, howner, hby⟩ := hstep.sends
        cases hby _ sender hmem rfl
        cases sender with
        | operation token =>
          intro hlost
          exact (hlost.moves hfences.slot).gone howner.1
        | pulse axis id =>
          intro hlost
          have hlater := hlost.moves (hfences.pulse axis)
          rcases howner with ⟨hmine, -⟩ | hnew
          · exact hlater.gone hmine
          · exact absurd hlater.issued (Nat.not_lt.mpr hnew)
        | tracking | guard | abort | disconnect => trivial

/-- Once a slew or park has lost the slot, neither it nor its watcher moves an axis again, and once a
pulse has lost its axis, neither its start nor its watcher does. -/
theorem voided_never_sends {atPark : Bool} {s₁ s₂ : Mount} {before between after : List Move}
    {log₀ log₁ log : List Event}
    (hbefore : Mount.Run texts config anyMove (.fresh atPark) before log₀ s)
    (hbetween : Mount.Run texts config anyMove s between log₁ s₁)
    (hafter : Mount.Run texts config anyMove s₁ after log s₂) :
    (∀ token, s.device.slewInProgress.owner = some token →
      s₁.device.slewInProgress.owner ≠ some token →
        ∀ command reply, .sent (.operation token) command reply ∉ log) ∧
    ∀ axis id, s.device.state.pulseGuiding.get axis = some id →
      s₁.device.state.pulseGuiding.get axis ≠ some id →
        ∀ command reply, .sent (.pulse axis id) command reply ∉ log := by
  obtain ⟨hout, -⟩ := hbefore.fences
  obtain ⟨hkept, -⟩ := hbetween.fences
  obtain ⟨-, hsent⟩ := hafter.fences
  constructor
  · intro token howner hvoid command reply hmem
    have hissued : token < s.device.slotFence.next := by
      rcases hout.slot.owner token howner with hold | ⟨-, hlt⟩
      · cases hold
      · exact hlt
    have hlost : s₁.device.slotFence.Lost token :=
      ⟨Nat.lt_of_lt_of_le hissued hkept.slot.next_le, hvoid⟩
    exact hsent _ command reply hmem hlost
  · intro axis id howner hvoid command reply hmem
    have hissued : id < (s.device.pulseFence axis).next := by
      rcases (hout.pulse axis).owner id howner with hold | ⟨-, hlt⟩
      · cases axis <;> cases hold
      · exact hlt
    have hlost : (s₁.device.pulseFence axis).Lost id :=
      ⟨Nat.lt_of_lt_of_le hissued (hkept.pulse axis).next_le, hvoid⟩
    exact hsent _ command reply hmem hlost

end

/-- Everything answers, and both axes are at rest. -/
def atRest : Reading where
  available := true
  positionKnown := true
  parameters := some shippedParams
  siderealStepPeriodRa := 379912
  snapshot := ⟨⟨⟨0, false⟩, ⟨0, false⟩⟩, false, false, false⟩
  axes := some ⟨⟨⟨0, false⟩, ⟨0, false⟩⟩, false, false, false⟩
  lst := .ok ⟨0, by decide⟩
  replies := fun _ => .acked
  stopped := some true
  acquired := true
  dwelt := true
  projection := 0
  status := some .other
  commandedSidereal := false
  breached := false
  parkTargets := (none, none)
  synced := true

/-- A request and its steps, on readings at rest. -/
def request (number : ℕ) (call : Call) (steps : ℕ) : List Move :=
  .call number call :: List.replicate steps (.step number atRest)

/-- A client connects and parks. -/
def parking : List Move := request 0 (.setConnected true) 1 ++ request 1 .park 3

theorem voided_never_sends_of_abort : ∃ log₀ s log₁ s₁ log s₂,
    (Mount.fresh false).play plainTexts shippedConfig parking = some (log₀, s) ∧
      s.play plainTexts shippedConfig (request 2 .abortSlew 3) = some (log₁, s₁) ∧
      s₁.play plainTexts shippedConfig (List.replicate 3 (.step 1 atRest)) = some (log, s₂) ∧
      log₁.length = 2 ∧ ∀ command reply, .sent (.operation 1) command reply ∉ log := by
  have hsilent {log₀ log₁ log : List Event} {s s₁ s₂ : Mount}
      (h₀ : (Mount.fresh false).play plainTexts shippedConfig parking = some (log₀, s))
      (h₁ : s.play plainTexts shippedConfig (request 2 .abortSlew 3) = some (log₁, s₁))
      (h₂ : s₁.play plainTexts shippedConfig (List.replicate 3 (.step 1 atRest)) = some (log, s₂)) :=
    (voided_never_sends (History.of_play h₀) (History.of_play h₁) (History.of_play h₂)).1 1
  exact ⟨_, _, _, _, _, _, rfl, rfl, rfl, rfl, hsilent rfl rfl rfl rfl nofun⟩

end RustyPhoton.StarAdventurer
