import RustyPhoton.Rp.Cooling.Phase

/-!
# The tasks, from one await to the next

`run_cooldown` with `adoptable_rung` and `cooldown_pass`, and `run_warmup` of `cooling.rs`. A task waits
at a point for an answer; `resume` is what it then does before it waits again. What it does is a list of
effects in order: writes of the camera's record, commands to the camera, events, and what the pass
notes in its log. The ticks of the warm-up come when they come, and the other log lines are left out.
-/

namespace RustyPhoton.Rp.Cooling

/-- The ladder of a camera: its configured targets, in increasing order. -/
def ladderOf (coolerTargetsC : List Int) : List Int := coolerTargetsC.mergeSort (· ≤ ·)

theorem ladderOf_pairwise (coolerTargetsC : List Int) : (ladderOf coolerTargetsC).Pairwise (· ≤ ·) :=
  List.pairwise_mergeSort' (· ≤ ·) coolerTargetsC

/-- `ladder_cameras`: the configured cameras with a ladder. -/
def ladderCameras (cameras : List (String × List Int)) : List (String × List Int) :=
  (cameras.filter fun camera => !camera.2.isEmpty).map fun camera => (camera.1, ladderOf camera.2)

/-- The events, without the camera's name. -/
inductive CoolingEvent where
  | coolerStabilized (targetC : Int) (floorC powerPct : Option ℚ)
  | coolerUnreachable (floorC : ℚ) (warmestTargetC : Option Int)
  | coolerWarmupStarted (fromC targetC : ℚ)
  | coolerWarmupComplete
  deriving DecidableEq

inductive Effect where
  -- writes of the camera's record
  | setCommanded (setpoint : ℚ)
  | setRung (rung : Int)
  | clearState
  -- commands, sent as the task begins to wait for their answers
  | command (rung : Int)
  | ramp (setpoint : ℚ)
  | coolerOn
  | coolerOff
  /-- The command just sent came back with an error. -/
  | commandFailed
  | emit (event : CoolingEvent)
  -- what the pass notes
  | regulating (rung : Int) (since : Nat)
  | unread (time : Nat)
  | sampled (sample : Sample)
  | floor (rung : Int) (floor : ℚ)
  deriving DecidableEq

/-- Where a task waits. -/
inductive TaskPoint where
  /-- `run_cooldown`, not yet polled. -/
  | cooldownSpawned
  -- `adoptable_rung`
  | adoptCoolerOn
  | adoptSetpoint
  | adoptTemperature (setpoint : ℚ) (rung : Int)
  | adoptCanGetPower (rung : Int)
  | adoptPower (rung : Int)
  -- the rest of `run_cooldown`
  | canSetTemperature
  | canGetPower
  -- `cooldown_pass`
  | commandLowest (lowest : Int) (powerReadable : Bool)
  | switchOn (lowest : Int) (powerReadable : Bool)
  | sleeping (phase : CooldownPhase) (powerReadable : Bool) (deadline : Nat)
  | temperature (phase : CooldownPhase) (powerReadable : Bool) (now : Nat)
  | power (phase : CooldownPhase) (now : Nat) (temp : ℚ)
  | commandNext (phase : CooldownPhase) (powerReadable : Bool) (now : Nat) (next : Int)
  /-- `cooler_off_and_clear`, with the event that follows it, if any. -/
  | switchOff (event : Option CoolingEvent)
  -- `run_warmup`
  | warmupSpawned (fromC : ℚ)
  | heatSink (fromC : ℚ)
  | tick (setpoint warmTarget : ℚ)
  | commandRamp (setpoint warmTarget : ℚ)
  | warmupOff
  deriving DecidableEq

/-- What comes back: whether the device is there or a flag it reports, a number, the end of a command, a
wakeup; nothing is an error. -/
inductive Answer where
  | flag (value : Option Bool)
  | number (value : Option ℚ)
  | done (ok : Bool)
  | woke
  deriving DecidableEq

/-- `round`: half away from zero. -/
def roundAway (q : ℚ) : Int :=
  if 0 ≤ q then (q + 1 / 2).floor else -(-q + 1 / 2).floor

/-- A cast to a 32-bit number saturates. -/
def toInt32 (n : Int) : Int := max (-2147483648) (min n 2147483647)

/-- The rung a setpoint is on. -/
def rungOfSetpoint (ladder : List Int) (setpoint : ℚ) : Option Int :=
  let rung := toInt32 (roundAway setpoint)
  if 1 / 1000000 ≤ |setpoint - rung| ∨ rung ∉ ladder then none else some rung

def warmupStepC : ℚ := 5

/-- What a task does on an answer, and where it then waits, if it goes on. -/
abbrev Resumed := List Effect × Option TaskPoint

section Resume

variable (config : CoolingConfig) (ladder : List Int) (now : Nat)

/-- The pass begins. -/
def beginPass (powerReadable : Bool) : Resumed :=
  match ladder.head? with
  | none => ([], none)
  | some lowest => ([.setCommanded lowest, .command lowest], some (.commandLowest lowest powerReadable))

/-- `cooler_off_and_clear`, from where it is called. -/
def coolerOffAndClear (event : Option CoolingEvent) : Resumed := ([.coolerOff], some (.switchOff event))

def sleep (phase : CooldownPhase) (powerReadable : Bool) : Option TaskPoint :=
  some (.sleeping phase powerReadable (now + config.pollInterval))

/-- The rest of a poll, once temperature and power are in. -/
def judge (phase : CooldownPhase) (powerReadable : Bool) (polled : Nat) (temp : ℚ) (power : Option ℚ) :
    Resumed :=
  let timedOut := phase.timedOut config polled
  let phase := phase.recordSample config polled temp power
  if phase.stabilized config polled then
    ([.sampled ⟨polled, temp, power⟩,
      .emit (.coolerStabilized phase.target phase.floorC phase.lastPower)], none)
  else
    match phase.detectFloor config polled temp timedOut with
    | (phase, none) => ([.sampled ⟨polled, temp, power⟩], sleep config now phase powerReadable)
    | (phase, some floor) =>
        match phase.snapTarget config ladder floor with
        | some next =>
            ([.sampled ⟨polled, temp, power⟩, .floor phase.target floor, .command next],
              some (.commandNext phase powerReadable polled next))
        | none =>
            let (effects, point) := coolerOffAndClear (some (.coolerUnreachable floor ladder.getLast?))
            (.sampled ⟨polled, temp, power⟩ :: .floor phase.target floor :: effects, point)

/-- The next setpoint of the ramp, or its end. -/
def nextRamp (setpoint warmTarget : ℚ) : Resumed :=
  if setpoint < warmTarget then
    let next := min (setpoint + warmupStepC) warmTarget
    ([.ramp next], some (.commandRamp next warmTarget))
  else ([.coolerOff], some .warmupOff)

def resume : TaskPoint → Answer → Option Resumed
  | .cooldownSpawned, .flag connected =>
      some (if connected = some true then ([], some .adoptCoolerOn) else ([], none))
  | .adoptCoolerOn, .flag on =>
      some ([], some (if on = some true then .adoptSetpoint else .canSetTemperature))
  | .adoptSetpoint, .number setpoint =>
      match setpoint.bind fun setpoint => (rungOfSetpoint ladder setpoint).map fun rung => (setpoint, rung) with
      | some (setpoint, rung) => some ([], some (.adoptTemperature setpoint rung))
      | none => some ([], some .canSetTemperature)
  | .adoptTemperature setpoint rung, .number temp =>
      match temp with
      | some temp =>
          if config.toleranceC < |temp - setpoint| then some ([], some .canSetTemperature)
          else some ([], some (.adoptCanGetPower rung))
      | none => some ([], some .canSetTemperature)
  | .adoptCanGetPower rung, .flag canGet =>
      some (if canGet = some true then ([], some (.adoptPower rung)) else ([.setRung rung], none))
  | .adoptPower rung, .number power =>
      match power with
      | some power =>
          if config.maxCoolerPowerPct < power then some ([], some .canSetTemperature)
          else some ([.setRung rung], none)
      | none => some ([.setRung rung], none)
  | .canSetTemperature, .flag canSet =>
      some (if canSet = some true then ([], some .canGetPower) else ([], none))
  | .canGetPower, .flag canGet => some (beginPass ladder (canGet.getD false))
  | .commandLowest lowest powerReadable, .done ok =>
      some (if ok then ([.coolerOn], some (.switchOn lowest powerReadable))
        else ([.commandFailed, .clearState], none))
  | .switchOn lowest powerReadable, .done ok =>
      some (if ok then
          ([.setRung lowest, .regulating lowest now], sleep config now (.new lowest now) powerReadable)
        else ([.commandFailed, .clearState], none))
  | .sleeping phase powerReadable deadline, .woke =>
      if deadline ≤ now then some ([], some (.temperature phase powerReadable now)) else none
  | .temperature phase powerReadable polled, .number temp =>
      match temp with
      | none =>
          if phase.timedOut config polled then
            let (effects, point) := coolerOffAndClear none
            some (.unread polled :: effects, point)
          else some ([.unread polled], sleep config now phase powerReadable)
      | some temp =>
          if powerReadable then some ([], some (.power phase polled temp))
          else some (judge config ladder now phase powerReadable polled temp none)
  | .power phase polled temp, .number power => some (judge config ladder now phase true polled temp power)
  | .commandNext phase powerReadable polled next, .done ok =>
      if ok then
        some ([.setRung next, .regulating next polled],
          sleep config now (phase.advance polled next) powerReadable)
      else
        let (effects, point) := coolerOffAndClear none
        some (.commandFailed :: effects, point)
  | .switchOff event, .done _ => some (.clearState :: (event.map Effect.emit).toList, none)
  | .warmupSpawned fromC, .flag connected =>
      some (if connected = some true then ([], some (.heatSink fromC)) else ([.clearState], none))
  | .heatSink fromC, .number temp =>
      let warmTarget := temp.getD config.warmTargetC
      some ([.emit (.coolerWarmupStarted fromC warmTarget)], some (.tick fromC warmTarget))
  | .tick setpoint warmTarget, .woke => some (nextRamp setpoint warmTarget)
  | .commandRamp setpoint warmTarget, .done ok =>
      some (if ok then ([.setCommanded setpoint], some (.tick setpoint warmTarget))
        else ([.commandFailed, .coolerOff], some .warmupOff))
  | .warmupOff, .done _ => some ([.clearState, .emit .coolerWarmupComplete], none)
  | _, _ => none

end Resume

end RustyPhoton.Rp.Cooling
