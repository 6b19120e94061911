import RustyPhoton.StarAdventurer.MountTasks

/-!
# Steps of the pulses and of the other requests

`start_pulse` and the pulse watcher, the writes of `Tracking`, the tracking guard, `AbortSlew`,
sync, and the requests that are one step: connect, disconnect, `Unpark`, the target setters and the
guide rates.
-/

namespace RustyPhoton.StarAdventurer

namespace MountDevice

variable (m : MountDevice) (r : Reading)

/-! ## Starting a pulse -/

def owns (axis : Axis) (id : ℕ) : Bool := m.state.pulseGuiding.get axis = some id

/-- The ladder that ends a failed start. -/
def endFailedStart (axis : Axis) (id : ℕ) : Restore → PulseStage
  | .rate period => .restoring axis id period 3
  | .restart _ | .stop => .stopping axis id false

/-- The first half of `start_from_rest`, in the region of `begin_pulse`. -/
def stopForPulse (pulse : GuidePulse) (id : ℕ) (restore : Restore) (before : List Event) : Advance :=
  match (m.wire (.pulse pulse.axis id) r.replies).send 1 (.stopMotion pulse.axis) with
  | (sent, some _) => m.log (before ++ sent) (.pulse (.releasing pulse.axis id))
  | (sent, none) => m.log (before ++ sent) (.pulse (.waiting pulse id restore))

/-- How a pulse that starts from rest is ended. -/
def restoreFor (pulse : GuidePulse) (trackingOn refused : Bool) : Restore :=
  if !trackingOn then .stop else if refused then .restart pulse.sidereal else .rate pulse.sidereal

/-- A live rate change on a tracking RA. -/
def putLiveRate (pulse : GuidePulse) (id : ℕ) : Advance :=
  match m.session, r.status with
  | true, some .admitsLiveRate =>
      match (m.wire (.pulse pulse.axis id) r.replies).send 0
          (.setStepPeriod pulse.axis pulse.shifted) with
      | (sent, none) => m.log sent (.pulseWatch ⟨pulse.axis, id, .rate pulse.sidereal⟩ (.restoring 3))
      | (sent, some e) =>
          if e.isRefusal then
            stopForPulse { m with liveRateRefused := true } r pulse id (restoreFor pulse true true) sent
          else m.log sent (.pulse (endFailedStart pulse.axis id (.rate pulse.sidereal)))
  | true, some .other => m.stopForPulse r pulse id (restoreFor pulse true false) []
  | _, _ => m.go (.pulse (.releasing pulse.axis id))

/-- `begin_pulse`, once the axis is claimed. -/
def putPulse (pulse : GuidePulse) (id : ℕ) (trackingOn : Bool) : Advance :=
  if trackingOn && !m.liveRateRefused && r.commandedSidereal then m.putLiveRate r pulse id
  else m.stopForPulse r pulse id (restoreFor pulse trackingOn m.liveRateRefused) []

/-- The first stage of the watcher of a pulse. -/
def watchPulse (plan : PulsePlan) : Task :=
  .pulseWatch plan <|
    match plan.restore with
    | .restart _ => .stoppingForRestart
    | .rate _ | .stop => .restoring 3

/-- `pulse_guide` and `start_pulse`. -/
def pulse (stage : PulseStage) : Advance :=
  let go (stage : PulseStage) := m.go (.pulse stage)
  let log (events : List Event) (stage : PulseStage) := m.log events (.pulse stage)
  match stage with
  | .connecting pulse => if m.connected r then go (.unparking pulse) else m.finish
  | .unparking pulse => if m.state.atPark then m.finish else go (.checking pulse)
  | .checking pulse =>
      let slewing := m.connected r && (m.slewInProgress.isHeld || r.snapshot.inGoto)
      if r.positionKnown && !slewing && pulse.duration != 0 && r.parameters.isSome then go (.acquiring pulse)
      else m.finish
  | .acquiring pulse => if r.acquired then go (.beginning pulse) else m.finish
  | .beginning pulse =>
      if m.slewInProgress.isHeld || (m.state.pulseGuiding.get pulse.axis).isSome then m.finish
      else
        (m.beginPulse pulse.axis).putPulse r pulse m.state.nextPulseId
          (decide (pulse.axis = .ra) && m.state.trackingRequested)
  | .waiting pulse id restore =>
      if m.sawStopped r then log [.readStopped pulse.axis] (.starting pulse id restore)
      else go (.releasing pulse.axis id)
  | .starting pulse id restore =>
      let trackingChanged := restore != .stop && !m.state.trackingRequested
      if !m.owns pulse.axis id || trackingChanged then go (.releasing pulse.axis id)
      else
        let wire := m.wire (.pulse pulse.axis id) r.replies
        match wire.sendAll 0 [.setMotionMode pulse.axis ⟨.tracking, .slow, pulse.ccw⟩,
            .setStepPeriod pulse.axis pulse.shifted] with
        | (sent, some _) => log sent (.releasing pulse.axis id)
        | (sent, none) =>
            match wire.send 2 (.startMotion pulse.axis) with
            | (start, none) => m.log (sent ++ start) (watchPulse ⟨pulse.axis, id, restore⟩)
            | (start, some e) =>
                if e.isRefusal then log (sent ++ start) (.releasing pulse.axis id)
                else log (sent ++ start) (endFailedStart pulse.axis id restore)
  | .restoring axis id period attempts =>
      if !m.owns axis id then go (.releasing axis id)
      else
        match (m.wire (.pulse axis id) r.replies).send 0 (.setStepPeriod axis period) with
        | (sent, none) => log sent (.releasing axis id)
        | (sent, some e) =>
            if e.isRefusal || attempts ≤ 1 then log sent (.stopping axis id false)
            else log sent (.restoring axis id period (attempts - 1))
  | .stopping axis id instant =>
      if !m.owns axis id then go (.releasing axis id)
      else
        let command := if instant then Command.instantStop axis else .stopMotion axis
        -- a stop that fails is logged, and the axis is looked at all the same
        log ((m.wire (.pulse axis id) r.replies).send 0 command).1 (.waitingStopped axis id instant)
  | .waitingStopped axis id instant =>
      if m.sawStopped r then
        log [.readStopped axis]
          (if axis = .ra then .confirming axis id else .releasing axis id)
      else if instant then go (.releasing axis id)
      else go (.stopping axis id true)
  | .confirming axis id =>
      (if m.owns axis id then m.setTracking false else m).go (.pulse (.releasing axis id))
  | .releasing axis id => (m.releasePulse axis id).finish

/-! ## Ending a pulse -/

/-- `Ownership::Owned` -/
def owned (plan : PulsePlan) : Bool :=
  m.owns plan.axis plan.id && !m.state.atPark && m.session

def ownedWhileTracking (plan : PulsePlan) : Bool := m.owned plan && m.state.trackingRequested

/-- What follows an instant stop. -/
def Escalation.next : Escalation → Bool → PulseWatchStage
  | .restored, _ | .failed, false | .restart, false => .releasing
  | .failed, true => .confirming
  | .restart, true => .restarting

/-- The watcher of a pulse, on a session of its own. -/
def pulseWatch (plan : PulsePlan) (stage : PulseWatchStage) : Advance :=
  let wire : Wire := ⟨.pulse plan.axis plan.id, true, r.replies⟩
  let go (stage : PulseWatchStage) := m.go (.pulseWatch plan stage)
  let log (events : List Event) (stage : PulseWatchStage) := m.log events (.pulseWatch plan stage)
  let saw := decide (r.stopped = some true)
  match stage with
  | .restoring attempts =>
      if !m.owned plan then go .releasing
      else
        let command := match plan.restore with
          | .rate period => Command.setStepPeriod plan.axis period
          | .restart _ | .stop => .stopMotion plan.axis
        match wire.send 0 command with
        | (sent, none) =>
            log sent (if plan.restore = .stop then .waitingRestored else .releasing)
        | (sent, some e) =>
            if e.isRefusal || attempts ≤ 1 then log sent .stopping
            else log sent (.restoring (attempts - 1))
  | .waitingRestored =>
      if saw then log [.readStopped plan.axis] .releasing else go (.escalating .restored)
  | .stopping =>
      if !m.owned plan then go .releasing
      else log (wire.send 0 (.stopMotion plan.axis)).1 .waitingStopped
  | .waitingStopped =>
      if saw then log [.readStopped plan.axis] .confirming else go (.escalating .failed)
  | .escalating why =>
      if !m.owned plan then go (Escalation.next why false)
      else
        match wire.send 0 (.instantStop plan.axis) with
        | (sent, some _) => log sent (Escalation.next why false)
        | (sent, none) => log sent (.waitingEscalated why)
  | .waitingEscalated why =>
      if saw then log [.readStopped plan.axis] (Escalation.next why true)
      else go (Escalation.next why false)
  | .confirming =>
      (if plan.restore != .stop && m.owned plan then m.setTracking false else m).go
        (.pulseWatch plan .releasing)
  | .stoppingForRestart =>
      if !m.ownedWhileTracking plan then go .releasing
      else log (wire.send 0 (.stopMotion .ra)).1 .waitingForRestart
  | .waitingForRestart =>
      if saw then log [.readStopped plan.axis] .restarting else go (.escalating .restart)
  | .restarting =>
      if !m.ownedWhileTracking plan then go .releasing
      else
        let period := match plan.restore with
          | .rate period | .restart period => period
          | .stop => 0
        match wire.sendAll 0 (enableSiderealTrackingRa period) with
        | (sent, none) => log sent .releasing
        | (sent, some e) =>
            -- refused: nothing was started
            if e.isRefusal then (m.setTracking false).log sent (.pulseWatch plan .releasing)
            else log sent .stopping
  | .releasing => (m.releasePulse plan.axis plan.id).finish

/-! ## `Tracking`, the guard and `AbortSlew` -/

/-- The region of `set_tracking`. -/
def writeTracking (on : Bool) : Advance :=
  let taken := PulseGuiding.IDLE.set .ra m.state.pulseGuiding.ra
  let m := m.setPulse .ra none
  let wire := m.wire .tracking r.replies
  let failed (taken : PulseGuiding) (sent : List Event) : Advance :=
    ⟨m, none, sent ++ wire.stopOrphanedAxes 4 taken.axes⟩
  if on then
    match m.state.atPark, r.parameters with
    | false, some _ =>
        match wire.send 0 (.stopMotion .ra) with
        | (stop, some _) => failed taken stop
        | (stop, none) =>
            if m.sawStopped r then
              let sent := wire.sendAll 1 (enableSiderealTrackingRa r.siderealStepPeriodRa)
              let events := stop ++ [.readStopped .ra] ++ sent.1
              if sent.2.isSome then failed .IDLE events else ⟨m.setTracking true, none, events⟩
            else failed taken stop
    | _, _ => failed taken []
  else
    match wire.send 0 (.stopMotion .ra) with
    | (sent, some _) => failed taken sent
    | (sent, none) => ⟨m.setTracking false, none, sent⟩

/-- `set_tracking` -/
def tracking : TrackingStage → Advance
  | .connecting on =>
      if m.connected r && (!on || r.positionKnown) then m.go (.tracking (.writing on))
      else m.finish
  | .writing on => m.writeTracking r on

/-- `tracking_guard_tick` -/
def guard : GuardStage → Advance
  | .gating =>
      if !m.state.trackingRequested || m.slewInProgress.isHeld || !r.breached then m.finish
      else m.go (.guard .stopping)
  | .stopping =>
      if !m.state.trackingRequested || m.slewInProgress.isHeld then m.finish
      else
        let m := m.setPulse .ra none
        match (m.wire .guard r.replies).send 0 (.stopMotion .ra) with
        | (sent, some _) => ⟨m, none, sent⟩
        | (sent, none) => ⟨m.setTracking false, none, sent⟩

/-- `abort_slew` and `stop_from_page`, up to the end of `halt_all_motion`. -/
def abort : AbortStage → Advance
  | .connecting page =>
      if !m.connected r then m.finish
      else m.go (.abort (if page then .halting else .unparking))
  | .unparking => if m.state.atPark then m.finish else m.go (.abort .halting)
  | .halting =>
      ⟨(m.clearSlot.setTracking false).takePulses, none,
        (m.wire .abort r.replies).haltBoth 0⟩

/-! ## The requests that are one step -/

/-- `set_connected(false)` -/
def disconnect : Advance :=
  let pulses := m.state.pulseGuiding
  let orphaned := pulses.axes
  -- `Tracking` reads false once disconnected: make the wire agree
  let stop :=
    if pulses.isActive && m.state.trackingRequested && !orphaned.contains .ra then .ra :: orphaned
    else orphaned
  let m := m.takePulses
  let sent := (m.wire .disconnect r.replies).stopOrphanedAxes 0 stop
  if m.session then
    ⟨{ m with
      session := false
      state := m.state.resetForDisconnect
      slewInProgress := m.slewInProgress.clear
      liveRateRefused := false }, none, sent⟩
  else ⟨m, none, sent⟩

/-- `set_connected(true)`, where the session and the hooks succeed. -/
def connect : Advance :=
  if !m.session && r.acquired then
    { m with
      session := true
      state := { m.state with parkRaTicks := r.parkTargets.1, parkDecTicks := r.parkTargets.2 }
      }.finish
  else m.finish

/-- `sync_to_coordinates`. The encoder writes are no motion. -/
def sync : SyncStage → Advance
  | .connecting ra dec =>
      if m.connected r && decide (0 ≤ ra ∧ ra < 24 ∧ -90 ≤ dec ∧ dec ≤ 90) then
        m.go (.sync (.unparking ra dec))
      else m.finish
  | .unparking ra dec => if m.state.atPark then m.finish else m.go (.sync (.writing ra dec))
  | .writing ra dec =>
      if m.slewInProgress.isHeld || !m.session || !r.synced then m.finish
      else
        { m with state := { m.state with
          targetRaHours := some ra
          targetDecDegrees := some dec } }.finish

/-- `set_target_right_ascension` -/
def setTargetRightAscension (value : ℚ) : Advance :=
  if 0 ≤ value ∧ value < 24 then
    { m with state := { m.state with targetRaHours := some value } }.finish
  else m.finish

/-- `set_target_declination` -/
def setTargetDeclination (value : ℚ) : Advance :=
  if -90 ≤ value ∧ value ≤ 90 then
    { m with state := { m.state with targetDecDegrees := some value } }.finish
  else m.finish

/-- `set_guide_rate_right_ascension` and `set_guide_rate_declination`, with the rate as a fraction of
the sidereal one. -/
def setGuideRate (axis : Axis) (fraction : ℚ) : Advance :=
  if 0 < fraction ∧ fraction < 1 then
    match axis with
    | .ra => { m with state := { m.state with guideRateRaFraction := fraction } }.finish
    | .dec => { m with state := { m.state with guideRateDecFraction := fraction } }.finish
  else m.finish

end MountDevice

end RustyPhoton.StarAdventurer
