import RustyPhoton.Lib.Transition
import RustyPhoton.StarAdventurer.PulseSteps
import RustyPhoton.StarAdventurer.SlewSteps

/-!
# Runs of a mount

The requests and the background tasks that are under way beside each other, and any interleaving of
their steps.
-/

namespace RustyPhoton.StarAdventurer

open Lib

/-- A request as a client, a page or a background loop makes it. -/
inductive Call where
  | slew (call : SlewCall)
  | park
  | unpark
  | setTracking (on : Bool)
  | guardTick
  | abortSlew
  | stopFromPage
  | pulseGuide (pulse : GuidePulse)
  | syncToCoordinates (ra dec : ℚ)
  | setConnected (connected : Bool)
  | setTargetRightAscension (value : ℚ)
  | setTargetDeclination (value : ℚ)
  | setGuideRate (axis : Axis) (fraction : ℚ)

def Call.task : Call → Task
  | slew call => .slew (.connecting call)
  | park => .park .connecting
  | unpark => .unpark
  | setTracking on => .tracking (.connecting on)
  | guardTick => .guard .gating
  | abortSlew => .abort (.connecting false)
  | stopFromPage => .abort (.connecting true)
  | pulseGuide pulse => .pulse (.connecting pulse)
  | syncToCoordinates ra dec => .sync (.connecting ra dec)
  | setConnected true => .connect
  | setConnected false => .disconnect
  | setTargetRightAscension value => .setTargetRightAscension value
  | setTargetDeclination value => .setTargetDeclination value
  | setGuideRate axis fraction => .setGuideRate axis fraction

/-- The device with the tasks under way, by their number. -/
structure Mount where
  device : MountDevice
  tasks : ℕ → Option Task

/-- A new lifecycle: no client is connected, and no task is under way. -/
def Mount.fresh (atPark : Bool) : Mount := ⟨.withRetained atPark, fun _ => none⟩

inductive Move where
  | call (number : ℕ) (call : Call)
  | step (number : ℕ) (reading : Reading)

section

variable (texts : SlewTexts) (config : SiteConfig)

/-- The step of a task, given what it finds out. -/
def MountDevice.advance (m : MountDevice) (r : Reading) : Task → Advance
  | .slew stage => m.slew texts config r stage
  | .park stage => m.park r stage
  | .watch w stage => m.watch config r w stage
  | .pulse stage => m.pulse r stage
  | .pulseWatch plan stage => m.pulseWatch r plan stage
  | .tracking stage => m.tracking r stage
  | .guard stage => m.guard r stage
  | .abort stage => m.abort r stage
  | .sync stage => m.sync r stage
  | .connect => m.connect r
  | .disconnect => m.disconnect r
  | .unpark => (m.setAtPark false).finish
  | .setTargetRightAscension value => m.setTargetRightAscension value
  | .setTargetDeclination value => m.setTargetDeclination value
  | .setGuideRate axis fraction => m.setGuideRate axis fraction

def Mount.step (s : Mount) : Move → Option (Mount × List Event)
  | .call number call =>
      match s.tasks number with
      | some _ => none
      | none => some (⟨s.device, Function.update s.tasks number (some call.task)⟩, [])
  | .step number r =>
      match s.tasks number with
      | none => none
      | some task =>
          let after := s.device.advance texts config r task
          some (⟨after.device, Function.update s.tasks number after.next⟩, after.events)

/-- What a move can do. -/
theorem Mount.step_cases {s s' : Mount} {move : Move} {events : List Event}
    (h : s.step texts config move = some (s', events)) :
    (∃ number call, move = .call number call ∧ s.tasks number = none ∧
      s' = ⟨s.device, Function.update s.tasks number (some call.task)⟩ ∧ events = []) ∨
    ∃ number r task, move = .step number r ∧ s.tasks number = some task ∧
      s' = ⟨(s.device.advance texts config r task).device,
        Function.update s.tasks number (s.device.advance texts config r task).next⟩ ∧
      events = (s.device.advance texts config r task).events := by
  cases move with
  | call number call =>
    simp only [Mount.step] at h
    split at h
    · cases h
    · rename_i hfree
      cases h
      exact .inl ⟨number, call, rfl, hfree, rfl, rfl⟩
  | step number r =>
    simp only [Mount.step] at h
    split at h
    · cases h
    · rename_i task htask
      cases h
      exact .inr ⟨number, r, task, rfl, htask, rfl, rfl⟩

/-- The moves from a mount on, each of them allowed where it is made. -/
abbrev Mount.Run (allowed : List Event → Mount → Move → Prop) :
    Mount → List Move → List Event → Mount → Prop :=
  History (Mount.step texts config) allowed

/-- Any interleaving. -/
def anyMove (_ : List Event) (_ : Mount) (_ : Move) : Prop := True

instance (log : List Event) (s : Mount) (move : Move) : Decidable (anyMove log s move) :=
  inferInstanceAs (Decidable True)

/-- Make the moves one after the other. -/
def Mount.play (s : Mount) (moves : List Move) : Option (List Event × Mount) :=
  History.play (Mount.step texts config) anyMove [] s moves

end

end RustyPhoton.StarAdventurer
