import RustyPhoton.StarAdventurer.MountTasks

/-!
# Steps of slews, parks and their watchers

`execute_slew` with what it calls and the requests that lead to it, `park`, and
`run_completion_watcher` with the steps of both watchers.
-/

namespace RustyPhoton.StarAdventurer

open Lib.Circle

/-- `validate_coordinates` -/
def validCoordinates (ra dec : ℚ) : Bool := decide (0 ≤ ra ∧ ra < 24 ∧ -90 ≤ dec ∧ dec ≤ 90)

/-- `PICKUP_TOLERANCE_ARCSEC` is 5″ on either axis. -/
def overTolerance (targetRa targetDec : ℚ) (snap : MountSnapshot) (lst : Lst)
    (params : MountParameters) (siteLatitudeDeg : ℚ) : Bool :=
  let (curRa, curDec) := encoderToCelestial ⟨snap.ra.positionTicks⟩ ⟨snap.dec.positionTicks⟩ lst
    params.cprRa params.cprDec siteLatitudeDeg
  let raCirc := min (remEuclid (targetRa - curRa.value) 24) (remEuclid (curRa.value - targetRa) 24)
  decide (5 < raCirc * 15 * 3600 ∨ 5 < |targetDec - curDec.value| * 3600)

namespace MountDevice

variable (texts : SlewTexts) (config : SiteConfig) (m : MountDevice) (r : Reading)

/-- Where a slew goes, read once it has claimed the slot. -/
def slewGoal (target : SlewTarget) (lst : Lst) (params : MountParameters) : ℚ × ℚ :=
  match target with
  | .coordinates ra dec => (ra, dec)
  | .currentPointing =>
      let (ra, dec) := encoderToCelestial ⟨r.snapshot.snap.ra.positionTicks⟩
        ⟨r.snapshot.snap.dec.positionTicks⟩ lst params.cprRa params.cprDec config.siteLatitudeDeg
      (ra.value, dec.value)

/-- The last region of `stop_plan_and_start`. -/
def planAndStart (token : ℕ) (goal : SlewGoal) (trackingWasOn : Bool) : Advance :=
  let failed := Task.slew (.failing token .IDLE)
  match m.session, r.axes with
  | true, some rest =>
      if rest.running then m.log rest.events failed
      else
        match r.lst with
        | .error _ => m.log rest.events failed
        | .ok lst =>
            match planSlew texts config goal.ra goal.dec goal.side rest.snap lst goal.params with
            | .error _ => m.log rest.events failed
            | .ok plan =>
                let aim : SlewAim := ⟨goal.ra, goal.dec, plan.side⟩
                let deltas := (plan.raDelta, plan.decDelta)
                let wire := m.wire (.operation token) r.replies
                let sent := wire.sendAll 0
                  (issueSlewAxis .ra plan.raDelta ++ issueSlewAxis .dec plan.decDelta)
                let events := rest.events ++ [.planned token aim,
                  .gotos token (.plan aim goal.side rest.snap lst goal.params) deltas] ++ sent.1
                -- a goto may run that no watcher will follow
                if sent.2.isSome then (m.latch aim).log (events ++ wire.haltBoth 10) failed
                else (m.latch aim).log events (.slew (.spawning token trackingWasOn))
  | _, _ => m.go failed

/-- `slew_to_coordinates_async`, `set_side_of_pier` and `execute_slew`. -/
def slew (stage : SlewStage) : Advance :=
  let wire (token : ℕ) := m.wire (.operation token) r.replies
  let failed (token : ℕ) (taken : PulseGuiding) := Task.slew (.failing token taken)
  match stage with
  | .connecting call =>
      let valid := match call with
        | .slewToCoordinatesAsync ra dec => validCoordinates ra dec
        | .setSideOfPier side => side != .unknown
      if m.connected r && valid then m.go (.slew (.unparking call)) else m.finish
  | .unparking call =>
      if m.state.atPark then m.finish
      else
        match call with
        | .slewToCoordinatesAsync ra dec =>
            m.go (.slew (.claiming (.coordinates ra dec) .reachable))
        | .setSideOfPier side => m.go (.slew (.choosing side))
  | .choosing side =>
      match m.slewInProgress.isHeld, r.parameters with
      | false, some params =>
          let current := sideOfPier ⟨r.snapshot.snap.dec.positionTicks⟩ params.cprDec
            config.siteLatitudeDeg
          if side = current then m.finish
          else m.go (.slew (.claiming .currentPointing (.pinned side)))
      | _, _ => m.finish
  | .claiming target side =>
      match r.positionKnown, r.parameters with
      | true, some params =>
          match m.slewInProgress.tryClaim with
          | (slot, some token) =>
              { m with slewInProgress := slot }.go (.slew (.planning token target side params))
          | (slot, none) => { m with slewInProgress := slot }.finish
      | _, _ => m.finish
  | .planning token target side params =>
      match r.lst with
      | .error _ => m.go (.slew (.releasing token))
      | .ok lst =>
          let point := slewGoal config r target lst params
          let go := m.go (.slew (.taking token ⟨point.1, point.2, side, params⟩))
          -- an axis that may be in a goto is not where it will stop: the second plan decides
          if r.snapshot.mayBeInGoto then go
          else
            match planSlew texts config point.1 point.2 side r.snapshot.snap lst params with
            | .error _ => m.go (.slew (.releasing token))
            | .ok _ => go
  -- the claim is not checked here
  | .taking token goal => m.takePulses.go (.slew (.stoppingRa token goal m.state.pulseGuiding))
  | .stoppingRa token goal taken =>
      m.underClaim token (failed token taken) <|
        match (wire token).send 0 (.stopMotion .ra) with
        | (sent, some _) => m.log sent (failed token taken)
        | (sent, none) =>
            (m.setTracking false).log sent
              (.slew (.waitingRa token goal taken m.state.trackingRequested))
  | .waitingRa token goal taken trackingWasOn =>
      if m.sawStopped r then
        m.log [.readStopped .ra] (.slew (.stoppingDec token goal (taken.set .ra none) trackingWasOn))
      else if trackingWasOn then m.go (.slew (.restoringTracking token taken))
      else m.go (failed token taken)
  | .restoringTracking token taken =>
      m.underClaim token (failed token taken) <| (m.setTracking true).go (failed token taken)
  | .stoppingDec token goal taken trackingWasOn =>
      m.underClaim token (failed token taken) <|
        match (wire token).send 0 (.stopMotion .dec) with
        | (sent, some _) => m.log sent (failed token taken)
        | (sent, none) => m.log sent (.slew (.waitingDec token goal taken trackingWasOn))
  | .waitingDec token goal taken trackingWasOn =>
      if m.sawStopped r then m.log [.readStopped .dec] (.slew (.starting token goal trackingWasOn))
      else m.go (failed token taken)
  | .starting token goal trackingWasOn =>
      m.underClaim token (failed token .IDLE) (planAndStart texts config m r token goal trackingWasOn)
  | .failing token taken =>
      m.underClaim token (.slew (.releasing token)) <|
        m.log ((wire token).stopOrphanedAxes 0 taken.axes) (.slew (.releasing token))
  | .releasing token => (m.releaseSlot token).finish
  | .spawning token trackingWasOn =>
      if r.acquired then m.go (.watch ⟨token, .slew trackingWasOn⟩ (.checking 0))
      else m.go (.slew (.releasing token))

/-- `start_park_gotos` -/
def startParkGotos (token : ℕ) (targets : ParkTargets) : Advance :=
  let failed := Task.park (.failing token .IDLE)
  match m.session, r.axes with
  | true, some rest =>
      if rest.running then m.log rest.events failed
      else
        let frames (axis : Axis) (current : ℤ) (target : Option ℤ) : List Command :=
          match target with
          | none => []
          | some target => (parkGoto current target).frames axis
        let wire := m.wire (.operation token) r.replies
        let sent := wire.sendAll 0 (frames .ra rest.snap.ra.positionTicks targets.1 ++
          frames .dec rest.snap.dec.positionTicks targets.2)
        if sent.2.isSome then m.log (rest.events ++ sent.1 ++ wire.haltBoth 6) failed
        else m.log (rest.events ++ sent.1) (.park (.spawning token))
  | _, _ => m.go failed

/-- `park` -/
def park (stage : ParkStage) : Advance :=
  let wire (token : ℕ) := m.wire (.operation token) r.replies
  let failed (token : ℕ) (taken : PulseGuiding) := Task.park (.failing token taken)
  match stage with
  | .connecting => if m.connected r then m.go (.park .checkingParked) else m.finish
  | .checkingParked => if m.state.atPark then m.finish else m.go (.park .claiming)
  | .claiming =>
      match m.slewInProgress.tryClaim with
      | (slot, some token) =>
          { m with slewInProgress := slot }.takePulses.go
            (.park (.stoppingTracking token m.state.pulseGuiding))
      | (slot, none) => { m with slewInProgress := slot }.finish
  | .stoppingTracking token taken =>
      m.underClaim token (failed token taken) <|
        if m.state.trackingRequested then
          match (wire token).send 0 (.stopMotion .ra) with
          | (sent, some _) => m.log sent (failed token taken)
          | (sent, none) => (m.setTracking false).log sent (.park (.targeting token taken))
        else m.go (.park (.targeting token taken))
  | .targeting token taken =>
      let targets :=
        if r.positionKnown then (m.state.parkRaTicks, m.state.parkDecTicks) else (none, none)
      m.go (.park (.stoppingRa token taken targets))
  | .stoppingRa token taken targets =>
      m.underClaim token (failed token taken) <|
        match (wire token).send 0 (.stopMotion .ra) with
        | (sent, some _) => m.log sent (failed token taken)
        | (sent, none) => m.log sent (.park (.waitingRa token taken targets))
  | .waitingRa token taken targets =>
      if m.sawStopped r then
        m.log [.readStopped .ra] (.park (.stoppingDec token (taken.set .ra none) targets))
      else m.go (failed token taken)
  | .stoppingDec token taken targets =>
      m.underClaim token (failed token taken) <|
        match (wire token).send 0 (.stopMotion .dec) with
        | (sent, some _) => m.log sent (failed token taken)
        | (sent, none) => m.log sent (.park (.waitingDec token taken targets))
  | .waitingDec token taken targets =>
      if m.sawStopped r then m.log [.readStopped .dec] (.park (.starting token targets))
      else m.go (failed token taken)
  | .starting token targets =>
      m.underClaim token (failed token .IDLE) (m.startParkGotos r token targets)
  | .failing token taken =>
      m.underClaim token (.park (.releasing token)) <|
        m.log ((wire token).stopOrphanedAxes 0 taken.axes) (.park (.releasing token))
  | .releasing token => (m.releaseSlot token).finish
  | .spawning token =>
      if r.acquired then m.go (.watch ⟨token, .park⟩ (.checking 0))
      else m.go (.park (.releasing token))

/-! ## The watchers -/

/-- Where a watcher goes once both axes are stopped. -/
def WatchKind.onAxesStopped (iterations : ℕ) : WatchKind → WatchStage
  | .slew _ => .stepping iterations
  | .park => .finalizing

/-- `SlewWatchCtx::step` up to the first check of `try_pickup`. The target is the one that the state
holds now. -/
def stepSlew (w : Watch) (iterations : ℕ) : Advance :=
  let go (stage : WatchStage) := m.go (.watch w stage)
  if !r.dwelt then go (.checking iterations)
  else if 5 ≤ iterations then go .finishing
  else
    match m.state.targetRaHours, m.state.targetDecDegrees, r.parameters with
    | some ra, some dec, some params =>
        match r.lst with
        | .error _ => go .releasing
        | .ok lst =>
            if overTolerance ra dec r.snapshot.snap lst params config.siteLatitudeDeg then
              go (.rechecking iterations ⟨.pickup r.snapshot.snap lst r.projection params,
                pickupDeltas ra dec m.state.targetPierSide lst r.projection params
                  config.siteLatitudeDeg r.snapshot.snap⟩)
            else go .finishing
    | _, _, _ => go .finishing

/-- The starts of a pickup. -/
def startPickup (w : Watch) (iterations : ℕ) (pickup : Pickup) (raStopped decStopped : Bool) :
    Advance :=
  let wire : Wire := ⟨.operation w.token, true, r.replies⟩
  if !m.session then m.go (.watch w .releasing)
  else
    match r.axes with
    | none => m.go (.watch w (.checking iterations))
    | some now =>
        if now.running then m.log now.events (.watch w .releasing)
        else
          let start (n : ℕ) (axis : Axis) (delta : ℤ) (stopped : Bool) :=
            if stopped then (wire.sendAll n (issueSlewAxis axis delta)).1 else []
          m.log (now.events ++ [.gotos w.token pickup.aim pickup.deltas] ++
            start 0 .ra pickup.deltas.1 raStopped ++ start 5 .dec pickup.deltas.2 decStopped)
            (.watch w (.checking iterations))

/-- `finish_slew`, which a park's watcher does not come to. -/
def finishSlew (w : Watch) : Advance :=
  let wire : Wire := ⟨.operation w.token, true, r.replies⟩
  if !m.session then m.go (.watch w .releasing)
  else
    match w.kind, r.parameters with
    | .slew true, some _ =>
        let sent := wire.sendAll 0 (enableSiderealTrackingRa r.siderealStepPeriodRa)
        if sent.2.isNone then (m.setTracking true).log sent.1 (.watch w .finalizing)
        else m.log sent.1 (.watch w .finalizing)
    | _, _ => m.go (.watch w .finalizing)

/-- `run_completion_watcher`, on a session of its own. -/
def watch (w : Watch) (stage : WatchStage) : Advance :=
  let wire : Wire := ⟨.operation w.token, true, r.replies⟩
  let go (stage : WatchStage) := m.go (.watch w stage)
  let log (events : List Event) (stage : WatchStage) := m.log events (.watch w stage)
  let lapsed := Task.watch w .releasing
  match stage with
  | .checking iterations =>
      if !m.slewInProgress.holds w.token then m.finish
      else if !m.session then go .releasing
      else go (.polling iterations)
  | .polling iterations =>
      match r.axes with
      | none => go .halting
      | some now =>
          if now.blocked then log now.events .halting
          else if now.running then log now.events (.checking iterations)
          else log now.events (WatchKind.onAxesStopped iterations w.kind)
  | .halting => m.underClaim w.token lapsed <| log (wire.haltBoth 0) .releasing
  | .releasing => (m.releaseSlot w.token).finish
  | .stepping iterations => stepSlew config m r w iterations
  | .rechecking iterations pickup =>
      if !m.slewInProgress.holds w.token || !m.session then go .releasing
      else go (.stoppingRa (iterations + 1) pickup)
  | .stoppingRa iterations pickup =>
      m.underClaim w.token lapsed <|
        match wire.send 0 (.stopMotion .ra) with
        | (sent, some _) => log sent (.stoppingDec iterations pickup false)
        | (sent, none) => log sent (.waitingRa iterations pickup)
  | .waitingRa iterations pickup =>
      if r.stopped = some true then log [.readStopped .ra] (.stoppingDec iterations pickup true)
      else go (.stoppingDec iterations pickup false)
  | .stoppingDec iterations pickup raStopped =>
      m.underClaim w.token lapsed <|
        match wire.send 0 (.stopMotion .dec) with
        | (sent, some _) => log sent (.starting iterations pickup raStopped false)
        | (sent, none) => log sent (.waitingDec iterations pickup raStopped)
  | .waitingDec iterations pickup raStopped =>
      if r.stopped = some true then
        log [.readStopped .dec] (.starting iterations pickup raStopped true)
      else go (.starting iterations pickup raStopped false)
  | .starting iterations pickup raStopped decStopped =>
      m.underClaim w.token lapsed (startPickup m r w iterations pickup raStopped decStopped)
  | .finishing => m.underClaim w.token lapsed (finishSlew m r w)
  | .finalizing =>
      if m.slewInProgress.holds w.token then
        match w.kind with
        | .slew _ => (m.releaseSlot w.token).finish
        | .park => ((m.setAtPark true).releaseSlot w.token).finish
      else m.finish

end MountDevice

end RustyPhoton.StarAdventurer
