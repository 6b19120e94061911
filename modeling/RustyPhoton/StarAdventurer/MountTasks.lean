import RustyPhoton.StarAdventurer.MountDevice

/-!
# The tasks of a mount

A request or a background task runs from one point to the next: a region under `axis_ownership`, a
read of the shared state, or a wait. Each stage is such a point with the values that are live there.
-/

namespace RustyPhoton.StarAdventurer

/-- A read of both axes: whether either is blocked, runs a goto, or may still be in one. -/
structure AxesReading where
  snap : MountSnapshot
  blocked : Bool
  inGoto : Bool
  mayBeInGoto : Bool

def AxesReading.running (reading : AxesReading) : Bool :=
  reading.snap.ra.running || reading.snap.dec.running

/-- What a status read of both axes tells. -/
def AxesReading.events (reading : AxesReading) : List Event :=
  (if reading.snap.ra.running then [] else [.readStopped .ra]) ++
    if reading.snap.dec.running then [] else [.readStopped .dec]

/-- A live status of RA, as a pulse reads it. -/
inductive LiveStatus where
  | admitsLiveRate
  | inGoto
  | other

/-- What one step finds out from outside: the mount, the transport, the clock and the sky. A read
that fails is `none`. -/
structure Reading where
  available : Bool
  positionKnown : Bool
  parameters : Option MountParameters
  siderealStepPeriodRa : ℕ
  /-- The cached sample, brought to now. -/
  snapshot : AxesReading
  axes : Option AxesReading
  lst : Except AscomError Lst
  replies : ℕ → Reply
  /-- How a wait for an axis to stop ended: stopped, or still running. -/
  stopped : Option Bool
  acquired : Bool
  /-- `MIN_SLEW_DWELL` has passed. -/
  dwelt : Bool
  projection : ℕ
  status : Option LiveStatus
  commandedSidereal : Bool
  breached : Bool
  parkTargets : Option ℤ × Option ℤ
  synced : Bool

/-! ## Slews and parks -/

inductive SlewCall where
  | slewToCoordinatesAsync (ra dec : ℚ)
  | setSideOfPier (side : PierSide)

inductive SlewTarget where
  | coordinates (ra dec : ℚ)
  | currentPointing

/-- What a slew goes to, once it has claimed the slot. -/
structure SlewGoal where
  ra : ℚ
  dec : ℚ
  side : SideChoice
  params : MountParameters

inductive SlewStage where
  | connecting (call : SlewCall)
  | unparking (call : SlewCall)
  | choosing (side : PierSide)
  | claiming (target : SlewTarget) (side : SideChoice)
  | planning (token : ℕ) (target : SlewTarget) (side : SideChoice) (params : MountParameters)
  | taking (token : ℕ) (goal : SlewGoal)
  | stoppingRa (token : ℕ) (goal : SlewGoal) (taken : PulseGuiding)
  | waitingRa (token : ℕ) (goal : SlewGoal) (taken : PulseGuiding) (trackingWasOn : Bool)
  | restoringTracking (token : ℕ) (taken : PulseGuiding)
  | stoppingDec (token : ℕ) (goal : SlewGoal) (taken : PulseGuiding) (trackingWasOn : Bool)
  | waitingDec (token : ℕ) (goal : SlewGoal) (taken : PulseGuiding) (trackingWasOn : Bool)
  | starting (token : ℕ) (goal : SlewGoal) (trackingWasOn : Bool)
  | failing (token : ℕ) (taken : PulseGuiding)
  | releasing (token : ℕ)
  | spawning (token : ℕ) (trackingWasOn : Bool)

/-- The park target of each axis. -/
abbrev ParkTargets := Option ℤ × Option ℤ

inductive ParkStage where
  | connecting
  | checkingParked
  | claiming
  | stoppingTracking (token : ℕ) (taken : PulseGuiding)
  | targeting (token : ℕ) (taken : PulseGuiding)
  | stoppingRa (token : ℕ) (taken : PulseGuiding) (targets : ParkTargets)
  | waitingRa (token : ℕ) (taken : PulseGuiding) (targets : ParkTargets)
  | stoppingDec (token : ℕ) (taken : PulseGuiding) (targets : ParkTargets)
  | waitingDec (token : ℕ) (taken : PulseGuiding) (targets : ParkTargets)
  | starting (token : ℕ) (targets : ParkTargets)
  | failing (token : ℕ) (taken : PulseGuiding)
  | releasing (token : ℕ)
  | spawning (token : ℕ)

inductive WatchKind where
  | slew (trackingWasOn : Bool)
  | park

/-- A completion watcher. -/
structure Watch where
  token : ℕ
  kind : WatchKind

/-- The counts of a pickup, with what they were computed from. -/
structure Pickup where
  aim : GotoAim
  deltas : ℤ × ℤ

/-- `iterations` counts the pickups issued so far. -/
inductive WatchStage where
  | checking (iterations : ℕ)
  | polling (iterations : ℕ)
  | halting
  | releasing
  | stepping (iterations : ℕ)
  | rechecking (iterations : ℕ) (pickup : Pickup)
  | stoppingRa (iterations : ℕ) (pickup : Pickup)
  | waitingRa (iterations : ℕ) (pickup : Pickup)
  | stoppingDec (iterations : ℕ) (pickup : Pickup) (raStopped : Bool)
  | waitingDec (iterations : ℕ) (pickup : Pickup) (raStopped : Bool)
  | starting (iterations : ℕ) (pickup : Pickup) (raStopped decStopped : Bool)
  | finishing
  | finalizing

/-! ## Guide pulses -/

/-- A pulse as it was resolved: its axis and turn, its step period and the sidereal one, and its
duration. -/
structure GuidePulse where
  axis : Axis
  ccw : Bool
  shifted : ℕ
  sidereal : ℕ
  duration : ℕ

/-- How a pulse is ended. -/
inductive Restore where
  | rate (period : ℕ)
  | restart (period : ℕ)
  | stop
  deriving DecidableEq

inductive PulseStage where
  | connecting (pulse : GuidePulse)
  | unparking (pulse : GuidePulse)
  | checking (pulse : GuidePulse)
  | acquiring (pulse : GuidePulse)
  | beginning (pulse : GuidePulse)
  | waiting (pulse : GuidePulse) (id : ℕ) (restore : Restore)
  | starting (pulse : GuidePulse) (id : ℕ) (restore : Restore)
  | restoring (axis : Axis) (id period attempts : ℕ)
  | stopping (axis : Axis) (id : ℕ) (instant : Bool)
  | waitingStopped (axis : Axis) (id : ℕ) (instant : Bool)
  | confirming (axis : Axis) (id : ℕ)
  | releasing (axis : Axis) (id : ℕ)

/-- A started pulse. -/
structure PulsePlan where
  axis : Axis
  id : ℕ
  restore : Restore

/-- What an instant stop was sent for. -/
inductive Escalation where
  | restored
  | failed
  | restart

inductive PulseWatchStage where
  | restoring (attempts : ℕ)
  | waitingRestored
  | stopping
  | waitingStopped
  | escalating (why : Escalation)
  | waitingEscalated (why : Escalation)
  | confirming
  | stoppingForRestart
  | waitingForRestart
  | restarting
  | releasing

/-! ## The others -/

inductive TrackingStage where
  | connecting (on : Bool)
  | writing (on : Bool)

inductive GuardStage where
  | gating
  | stopping

/-- `AbortSlew`, or the Stop of the recovery page, which a parked mount takes too. -/
inductive AbortStage where
  | connecting (page : Bool)
  | unparking
  | halting

inductive SyncStage where
  | connecting (ra dec : ℚ)
  | unparking (ra dec : ℚ)
  | writing (ra dec : ℚ)

inductive Task where
  | slew (stage : SlewStage)
  | park (stage : ParkStage)
  | watch (watch : Watch) (stage : WatchStage)
  | pulse (stage : PulseStage)
  | pulseWatch (plan : PulsePlan) (stage : PulseWatchStage)
  | tracking (stage : TrackingStage)
  | guard (stage : GuardStage)
  | abort (stage : AbortStage)
  | sync (stage : SyncStage)
  | connect
  | disconnect
  | unpark
  | setTargetRightAscension (value : ℚ)
  | setTargetDeclination (value : ℚ)
  | setGuideRate (axis : Axis) (fraction : ℚ)

/-- What a step leads to. `next` is `none` where the task ends. -/
structure Advance where
  device : MountDevice
  next : Option Task
  events : List Event

namespace MountDevice

variable (m : MountDevice)

/-- On to the next stage. -/
def go (next : Task) : Advance := ⟨m, some next, []⟩

/-- On to the next stage, with what went over the wire. -/
def log (events : List Event) (next : Task) : Advance := ⟨m, some next, events⟩

/-- The task is over. -/
def finish : Advance := ⟨m, none, []⟩

/-- `SlewClaim::hold_axes`: the region runs while the slot still holds the token. -/
def underClaim (token : ℕ) (lapsed : Task) (region : Advance) : Advance :=
  if m.slewInProgress.holds token then region else m.go lapsed

/-- `ensure_connected` -/
def connected (r : Reading) : Bool := m.session && r.available

/-- A wait of the device's own session that saw the axis stopped. -/
def sawStopped (r : Reading) : Bool := m.session && decide (r.stopped = some true)

end MountDevice

end RustyPhoton.StarAdventurer
