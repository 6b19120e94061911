import RustyPhoton.StarAdventurer.Slew

/-!
# The device and its wire

The state that the requests and the background tasks of one mount share, and the sends that move
the axes. A send is acknowledged, refused, or its reply is lost and it may have taken effect.
-/

namespace RustyPhoton.StarAdventurer

inductive Axis where
  | ra
  | dec
  deriving DecidableEq

inductive ModeKind where
  | goto
  | tracking
  deriving DecidableEq

inductive Speed where
  | slow
  | fast
  deriving DecidableEq

structure MotionMode where
  kind : ModeKind
  speed : Speed
  ccw : Bool
  deriving DecidableEq

/-- Sidereal tracking. -/
def MotionMode.TRACKING : MotionMode := ⟨.tracking, .slow, false⟩

/-- The commands that change the motion of an axis. -/
inductive Command where
  /-- `:G` -/
  | setMotionMode (axis : Axis) (mode : MotionMode)
  /-- `:S` -/
  | setGotoTarget (axis : Axis) (ticks : ℤ)
  /-- `:H` -/
  | setGotoTargetIncrement (axis : Axis) (increment : ℕ)
  /-- `:M` -/
  | setBreakPointIncrement (axis : Axis) (breaks : ℕ)
  /-- `:I` -/
  | setStepPeriod (axis : Axis) (period : ℕ)
  /-- `:J` -/
  | startMotion (axis : Axis)
  /-- `:K` -/
  | stopMotion (axis : Axis)
  /-- `:L` -/
  | instantStop (axis : Axis)
  deriving DecidableEq

def Command.axis : Command → Axis
  | setMotionMode axis _ | setGotoTarget axis _ | setGotoTargetIncrement axis _
  | setBreakPointIncrement axis _ | setStepPeriod axis _ | startMotion axis | stopMotion axis
  | instantStop axis => axis

/-- What became of a command on the wire. -/
inductive Reply where
  | acked
  | refused
  /-- No reply came back: the command may have taken effect. -/
  | lost
  deriving DecidableEq

inductive WireError where
  | notConnected
  | refused
  | lost
  deriving DecidableEq

/-- `is_refusal` -/
def WireError.isRefusal : WireError → Bool
  | .refused => true
  | _ => false

/-- Who puts a command on the wire: a slew or park with its watcher, a guide pulse with its watcher,
or an operation that needs no claim. -/
inductive Sender where
  | operation (token : ℕ)
  | pulse (axis : Axis) (id : ℕ)
  | tracking
  | guard
  | abort
  | disconnect
  deriving DecidableEq

/-- A target with the pier side it is reached on. -/
structure SlewAim where
  ra : ℚ
  dec : ℚ
  side : PierSide
  deriving DecidableEq

/-- What the counts of a goto are computed for. -/
inductive GotoAim where
  | plan (aim : SlewAim) (side : SideChoice) (snap : MountSnapshot) (lst : Lst)
      (params : MountParameters)
  | pickup (snap : MountSnapshot) (lst : Lst) (projection : ℕ) (params : MountParameters)

inductive Event where
  | sent (sender : Sender) (command : Command) (reply : Reply)
  /-- A status read found the axis not running. -/
  | readStopped (axis : Axis)
  /-- A slew latches the target that its plan accepted. -/
  | planned (token : ℕ) (aim : SlewAim)
  /-- A slew sends both axes on their way by these counts. -/
  | gotos (token : ℕ) (aim : GotoAim) (deltas : ℤ × ℤ)

/-! ## Sending -/

/-- A session, and how the mount answers the commands of one step, by their number in it. -/
structure Wire where
  sender : Sender
  connected : Bool
  replies : ℕ → Reply

namespace Wire

variable (wire : Wire)

def send (n : ℕ) (command : Command) : List Event × Option WireError :=
  if wire.connected then
    ([.sent wire.sender command (wire.replies n)],
      match wire.replies n with
      | .acked => none
      | .refused => some .refused
      | .lost => some .lost)
  else ([], some .notConnected)

/-- One command after the other, up to the first that fails. -/
def sendAll (n : ℕ) : List Command → List Event × Option WireError
  | [] => ([], none)
  | command :: rest =>
      match wire.send n command with
      | (sent, some e) => (sent, some e)
      | (sent, none) => (sent ++ (sendAll (n + 1) rest).1, (sendAll (n + 1) rest).2)

/-- Every command, whatever becomes of the others. -/
def sendEach (n : ℕ) : List Command → List Event
  | [] => []
  | command :: rest => (wire.send n command).1 ++ sendEach (n + 1) rest

/-- `stop_orphaned_axes`: a stop of each axis, and an instant stop where that one does not go
through. -/
def stopOrphanedAxes (n : ℕ) : List Axis → List Event
  | [] => []
  | axis :: rest =>
      let stop := wire.send n (.stopMotion axis)
      (if stop.2.isNone then stop.1 else stop.1 ++ (wire.send (n + 1) (.instantStop axis)).1) ++
        stopOrphanedAxes (n + 2) rest

/-- `halt_after_failed_start`, and the stops of `halt_if_current` and `halt_all_motion`. -/
def haltBoth (n : ℕ) : List Event := wire.sendEach n [.instantStop .ra, .instantStop .dec]

end Wire

/-- `issue_slew_axis` -/
def issueSlewAxis (axis : Axis) (delta : ℤ) : List Command :=
  [.setMotionMode axis ⟨.goto, .fast, decide (delta < 0)⟩, .setStepPeriod axis 6,
    .setGotoTargetIncrement axis delta.natAbs,
    .setBreakPointIncrement axis (min (delta.natAbs / 10) 3200), .startMotion axis]

/-- `enable_sidereal_tracking_ra` -/
def enableSiderealTrackingRa (period : ℕ) : List Command :=
  [.setMotionMode .ra .TRACKING, .setStepPeriod .ra period, .startMotion .ra]

/-- Park's frames for one axis. -/
def ParkGoto.frames (goto : ParkGoto) (axis : Axis) : List Command :=
  [.setMotionMode axis ⟨.goto, .fast, goto.ccw⟩, .setGotoTarget axis goto.ticks, .startMotion axis]

/-! ## The shared state -/

/-- The guide pulse that each axis is running, by its id. -/
structure PulseGuiding where
  ra : Option ℕ
  dec : Option ℕ
  deriving DecidableEq

namespace PulseGuiding

def IDLE : PulseGuiding := ⟨none, none⟩

def get (pulses : PulseGuiding) : Axis → Option ℕ
  | .ra => pulses.ra
  | .dec => pulses.dec

def set (pulses : PulseGuiding) (axis : Axis) (id : Option ℕ) : PulseGuiding :=
  match axis with
  | .ra => { pulses with ra := id }
  | .dec => { pulses with dec := id }

def isActive (pulses : PulseGuiding) : Bool := pulses.ra.isSome || pulses.dec.isSome

/-- The axes that run a pulse. -/
def axes (pulses : PulseGuiding) : List Axis :=
  [Axis.ra, Axis.dec].filter fun axis => (pulses.get axis).isSome

end PulseGuiding

structure DriverState where
  trackingRequested : Bool
  atPark : Bool
  targetRaHours : Option ℚ
  targetDecDegrees : Option ℚ
  targetPierSide : Option PierSide
  parkRaTicks : Option ℤ
  parkDecTicks : Option ℤ
  guideRateRaFraction : ℚ
  guideRateDecFraction : ℚ
  pulseGuiding : PulseGuiding
  nextPulseId : ℕ

def defaultGuideRateFraction : ℚ := 1 / 2

namespace DriverState

/-- The state of a new lifecycle, which keeps whether the mount is parked. -/
def withRetained (atPark : Bool) : DriverState where
  trackingRequested := false
  atPark := atPark
  targetRaHours := none
  targetDecDegrees := none
  targetPierSide := none
  parkRaTicks := none
  parkDecTicks := none
  guideRateRaFraction := defaultGuideRateFraction
  guideRateDecFraction := defaultGuideRateFraction
  pulseGuiding := .IDLE
  nextPulseId := 0

def releasePulse (s : DriverState) (axis : Axis) (id : ℕ) : DriverState :=
  if s.pulseGuiding.get axis = some id then
    { s with pulseGuiding := s.pulseGuiding.set axis none }
  else s

def resetForDisconnect (s : DriverState) : DriverState :=
  { s with
    targetRaHours := none
    targetDecDegrees := none
    trackingRequested := false
    parkRaTicks := none
    parkDecTicks := none
    pulseGuiding := .IDLE
    guideRateRaFraction := defaultGuideRateFraction
    guideRateDecFraction := defaultGuideRateFraction }

end DriverState

/-- The slot of the slew or park in flight, and the last token that was issued. -/
structure SlewSlot where
  owner : Option ℕ
  issued : ℕ

namespace SlewSlot

def isHeld (slot : SlewSlot) : Bool := slot.owner.isSome

/-- The token is issued whether or not the slot is free. -/
def tryClaim (slot : SlewSlot) : SlewSlot × Option ℕ :=
  match slot.owner with
  | none => (⟨some (slot.issued + 1), slot.issued + 1⟩, some (slot.issued + 1))
  | some _ => ({ slot with issued := slot.issued + 1 }, none)

def holds (slot : SlewSlot) (token : ℕ) : Bool := slot.owner = some token

def release (slot : SlewSlot) (token : ℕ) : SlewSlot :=
  if slot.owner = some token then { slot with owner := none } else slot

def clear (slot : SlewSlot) : SlewSlot := { slot with owner := none }

end SlewSlot

/-- The device. `session` is whether its session slot is filled. -/
structure MountDevice where
  session : Bool
  state : DriverState
  slewInProgress : SlewSlot
  liveRateRefused : Bool

namespace MountDevice

/-- The device of a new lifecycle. -/
def withRetained (atPark : Bool) : MountDevice :=
  ⟨false, .withRetained atPark, ⟨none, 0⟩, false⟩

variable (m : MountDevice)

def setTracking (on : Bool) : MountDevice :=
  { m with state := { m.state with trackingRequested := on } }

def setAtPark (parked : Bool) : MountDevice :=
  { m with state := { m.state with atPark := parked } }

def setPulse (axis : Axis) (id : Option ℕ) : MountDevice :=
  { m with state := { m.state with pulseGuiding := m.state.pulseGuiding.set axis id } }

/-- An axis is claimed under a new id. -/
def beginPulse (axis : Axis) : MountDevice :=
  { m with state := { m.state with
    pulseGuiding := m.state.pulseGuiding.set axis (some m.state.nextPulseId)
    nextPulseId := m.state.nextPulseId + 1 } }

/-- Both axes are taken from their pulses. -/
def takePulses : MountDevice := { m with state := { m.state with pulseGuiding := .IDLE } }

def releasePulse (axis : Axis) (id : ℕ) : MountDevice :=
  { m with state := m.state.releasePulse axis id }

def latch (aim : SlewAim) : MountDevice :=
  { m with state := { m.state with
    targetRaHours := some aim.ra
    targetDecDegrees := some aim.dec
    targetPierSide := some aim.side } }

def releaseSlot (token : ℕ) : MountDevice :=
  { m with slewInProgress := m.slewInProgress.release token }

def clearSlot : MountDevice := { m with slewInProgress := m.slewInProgress.clear }

/-- The device's own session. -/
def wire (sender : Sender) (replies : ℕ → Reply) : Wire := ⟨sender, m.session, replies⟩

end MountDevice

end RustyPhoton.StarAdventurer
