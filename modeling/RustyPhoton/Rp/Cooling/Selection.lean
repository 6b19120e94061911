import RustyPhoton.Lib.Transition
import RustyPhoton.Rp.Cooling.Task

/-!
# Selection of a rung

A whole cooldown pass, from the last capability read on: which rungs it commands, what makes it leave
one, and how it ends. The promise is stated on the log of the pass alone.
-/

namespace RustyPhoton.Rp.Cooling

open Lib
open CooldownPhase (LowestClearing inWindow)

/-! ## What the pass promises -/

/-- The rungs commanded. -/
def commands (log : List Effect) : List Int :=
  log.filterMap fun
    | .command rung => some rung
    | _ => none

/-- When the pass began to regulate. -/
def passStart (log : List Effect) : Option Nat :=
  log.findSome? fun
    | .regulating _ since => some since
    | _ => none

/-- The last floor measured, and the rung it was measured on. -/
def lastFloor (log : List Effect) : Option (Int × ℚ) :=
  (log.filterMap fun
    | .floor rung floor => some (rung, floor)
    | _ => none).getLast?

/-- A rung, since when it is regulated at, and what was polled there. -/
structure Stay where
  rung : Int
  since : Nat
  samples : List Sample

def Stay.add : Option Stay → Effect → Option Stay
  | _, .regulating rung since => some ⟨rung, since, []⟩
  | some stay, .sampled sample => some { stay with samples := stay.samples ++ [sample] }
  | stay, _ => stay

/-- The rung the pass is at. -/
def stay (log : List Effect) : Option Stay := log.foldl Stay.add none

section Promise

variable (config : CoolingConfig) (ladder : List Int)

/-- The samples of a stay within the plateau window. -/
def Stay.window (s : Stay) (now : Nat) : List Sample := inWindow config now s.samples

/-- The temperature has hardly moved for a whole window. -/
structure Stay.Plateau (s : Stay) (now : Nat) : Prop where
  spanned : config.plateauWindow ≤ now - s.since
  samples : 2 ≤ (s.window config now).length
  spread : ∀ a ∈ s.window config now, ∀ b ∈ s.window config now, a.temp - b.temp < config.plateauThresholdC

/-- There was power to read, and all of it was above the ceiling. -/
def Stay.Pegged (s : Stay) (now : Nat) : Prop :=
  (s.window config now).filterMap Sample.power ≠ [] ∧
    ∀ power ∈ (s.window config now).filterMap Sample.power, config.maxCoolerPowerPct < power

/-- The last poll came at or past the deadline of the pass. -/
def Expired (log : List Effect) : Prop :=
  ∃ start sample, passStart log = some start ∧ log.getLast? = some (.sampled sample) ∧
    config.maxCooldown ≤ sample.time - start

/-- The last poll is a floor of the rung. -/
def FloorAt (log : List Effect) (rung : Int) (floor : ℚ) : Prop :=
  ∃ s sample, stay log = some s ∧ s.rung = rung ∧ log.getLast? = some (.sampled sample) ∧
    sample.temp = floor ∧
      (s.Plateau config sample.time ∧
          ((rung : ℚ) + config.toleranceC < floor ∨ s.Pegged config sample.time) ∨
        Expired config log)

/-- The pass has just measured a floor on its last rung, and this is the lowest that clears it. -/
def MovesTo (log : List Effect) (next : Int) : Prop :=
  ∃ rung floor, log.getLast? = some (.floor rung floor) ∧ (commands log).getLast? = some rung ∧
    LowestClearing config ladder rung floor next

/-- The cooler is switched off, or the camera's record cleared. -/
def Uncooled (log : List Effect) : Prop := .coolerOff ∈ log ∨ .clearState ∈ log

/-- No rung clears the last floor. -/
def Unreachable (log : List Effect) : Prop :=
  ∃ rung floor, lastFloor log = some (rung, floor) ∧
    ∀ other ∈ ladder, rung < other → ¬ floor + config.regulationMarginC ≤ (other : ℚ)

/-- The pass ended regulating at a rung. -/
def EndsAt (log : List Effect) (rung : Int) : Prop :=
  ∃ floorC powerPct, log.getLast? = some (.emit (.coolerStabilized rung floorC powerPct))

/-- What makes a floor, and what a command needs; the first command needs nothing. -/
def Reason (before : List Effect) : Effect → Prop
  | .floor rung floor => FloorAt config before rung floor
  | .command next => commands before = [] ∨ MovesTo config ladder before next
  | .ramp _ => False
  | _ => True

/-- The promise of the pass, of its log and of whether it has ended. -/
structure Selects (log : List Effect) (ended : Prop) : Prop where
  /-- It starts at the lowest rung and goes strictly upwards, on the ladder. -/
  lowest : ∀ first ∈ (commands log).head?, ∀ rung ∈ ladder, first ≤ rung
  onLadder : ∀ rung ∈ commands log, rung ∈ ladder
  climbs : (commands log).Pairwise (· < ·)
  /-- It leaves a rung only for a reason, and for the lowest rung that will do. -/
  moves : Justified (Reason config ladder) log
  /-- It leaves the camera uncooled only when it must. -/
  uncooled : Uncooled log → Unreachable config ladder log ∨ .commandFailed ∈ log ∨
    ∀ sample, .sampled sample ∉ log
  /-- When the backstop finds a floor and a rung clears it, the pass ends there, unless that command
  fails. -/
  backstop : ended → ∀ before rung floor after next, log = before ++ .floor rung floor :: after →
    Expired config before → LowestClearing config ladder rung floor next →
      (∃ rest, after = .command next :: .commandFailed :: rest) ∨ EndsAt log next

end Promise

/-! ## The pass as a system -/

/-- The time, and where the pass waits, if it has not ended. -/
structure PassState where
  clock : Nat
  point : Option TaskPoint
  deriving DecidableEq

/-- What comes back, and how long that took. -/
structure PassInput where
  elapsed : Nat
  answer : Answer
  deriving DecidableEq

section System

variable (config : CoolingConfig) (ladder : List Int)

def passStep (s : PassState) (i : PassInput) : Option (PassState × List Effect) :=
  s.point.bind fun point =>
    (resume config ladder (s.clock + i.elapsed) point i.answer).map fun resumed =>
      (⟨s.clock + i.elapsed, resumed.2⟩, resumed.1)

/-- Runs of the pass, from a time on, with every step allowed. -/
abbrev PassRun (allowed : List Effect → PassState → PassInput → Prop) (clock : Nat) :=
  History (passStep config ladder) allowed ⟨clock, some .canGetPower⟩

/-- No temperature comes in on a rung that the pass moved to past its deadline, and none fails to read
past the deadline once one has been read. -/
def Meets (log : List Effect) (s : PassState) (i : PassInput) : Prop :=
  ∀ phase powerReadable polled, s.point = some (.temperature phase powerReadable polled) →
    (∀ temp, i.answer = .number (some temp) → phase.floorC.isSome = true →
      phase.timedOut config phase.phaseStart = false) ∧
    (i.answer = .number none → phase.timedOut config polled = true → ∀ sample, .sampled sample ∉ log)

/-- A poll is complete: the point and the answer that complete it, and what was polled. -/
inductive Polled : TaskPoint → Answer → CooldownPhase → Bool → Sample → Prop where
  | temperature (phase : CooldownPhase) (polled : Nat) (temp : ℚ) :
      Polled (.temperature phase false polled) (.number (some temp)) phase false ⟨polled, temp, none⟩
  | power (phase : CooldownPhase) (polled : Nat) (temp : ℚ) (power : Option ℚ) :
      Polled (.power phase polled temp) (.number power) phase true ⟨polled, temp, power⟩

/-- The phase after a poll. -/
def CooldownPhase.after (phase : CooldownPhase) (sample : Sample) : CooldownPhase :=
  phase.recordSample config sample.time sample.temp sample.power

/-- The points of the pass. -/
def TaskPoint.InPass : TaskPoint → Prop
  | .canGetPower | .commandLowest .. | .switchOn .. | .sleeping .. | .temperature .. | .power ..
  | .commandNext .. | .switchOff .. => True
  | _ => False

/-- The steps of the pass, each with what it found. -/
inductive PassMoves (now : Nat) : TaskPoint → Answer → Resumed → Prop where
  | noLadder {canGet : Option Bool} (ladder_eq : ladder.head? = none) :
      PassMoves now .canGetPower (.flag canGet) ([], none)
  | begun {canGet : Option Bool} {lowest : Int} (ladder_eq : ladder.head? = some lowest) :
      PassMoves now .canGetPower (.flag canGet)
        ([.setCommanded lowest, .command lowest], some (.commandLowest lowest (canGet.getD false)))
  | lowestTaken {lowest : Int} {powerReadable : Bool} :
      PassMoves now (.commandLowest lowest powerReadable) (.done true)
        ([.coolerOn], some (.switchOn lowest powerReadable))
  | lowestFailed {lowest : Int} {powerReadable : Bool} :
      PassMoves now (.commandLowest lowest powerReadable) (.done false) ([.commandFailed, .clearState], none)
  | switchedOn {lowest : Int} {powerReadable : Bool} :
      PassMoves now (.switchOn lowest powerReadable) (.done true)
        ([.setRung lowest, .regulating lowest now], sleep config now (.new lowest now) powerReadable)
  | switchOnFailed {lowest : Int} {powerReadable : Bool} :
      PassMoves now (.switchOn lowest powerReadable) (.done false) ([.commandFailed, .clearState], none)
  | woken {phase : CooldownPhase} {powerReadable : Bool} {deadline : Nat} :
      PassMoves now (.sleeping phase powerReadable deadline) .woke
        ([], some (.temperature phase powerReadable now))
  | unread {phase : CooldownPhase} {powerReadable : Bool} {polled : Nat}
      (early : phase.timedOut config polled = false) :
      PassMoves now (.temperature phase powerReadable polled) (.number none)
        ([.unread polled], sleep config now phase powerReadable)
  | unreadable {phase : CooldownPhase} {powerReadable : Bool} {polled : Nat}
      (late : phase.timedOut config polled = true) :
      PassMoves now (.temperature phase powerReadable polled) (.number none)
        ([.unread polled, .coolerOff], some (.switchOff none))
  | read {phase : CooldownPhase} {polled : Nat} {temp : ℚ} :
      PassMoves now (.temperature phase true polled) (.number (some temp))
        ([], some (.power phase polled temp))
  | held {point : TaskPoint} {answer : Answer} {phase : CooldownPhase} {powerReadable : Bool}
      {sample : Sample} (polled : Polled point answer phase powerReadable sample)
      (held : (phase.after config sample).stabilized config sample.time = true) :
      PassMoves now point answer
        ([.sampled sample, .emit (.coolerStabilized phase.target phase.floorC
          (phase.after config sample).lastPower)], none)
  | kept {point : TaskPoint} {answer : Answer} {phase : CooldownPhase} {powerReadable : Bool}
      {sample : Sample} (polled : Polled point answer phase powerReadable sample)
      (early : phase.timedOut config sample.time = false) :
      PassMoves now point answer
        ([.sampled sample], sleep config now (phase.after config sample) powerReadable)
  | moved {point : TaskPoint} {answer : Answer} {phase : CooldownPhase} {powerReadable : Bool}
      {sample : Sample} {next : Int} (polled : Polled point answer phase powerReadable sample)
      (found : (phase.after config sample).plateaued config sample.time = true ∧
          ((phase.after config sample).aboveRung config sample.temp = true ∨
            (phase.after config sample).pegged config = true) ∨
        phase.timedOut config sample.time = true)
      (lowest : LowestClearing config ladder phase.target sample.temp next) :
      PassMoves now point answer
        ([.sampled sample, .floor phase.target sample.temp, .command next],
          some (.commandNext { phase.after config sample with floorC := some sample.temp } powerReadable
            sample.time next))
  | stuck {point : TaskPoint} {answer : Answer} {phase : CooldownPhase} {powerReadable : Bool}
      {sample : Sample} (polled : Polled point answer phase powerReadable sample)
      (found : (phase.after config sample).plateaued config sample.time = true ∧
          ((phase.after config sample).aboveRung config sample.temp = true ∨
            (phase.after config sample).pegged config = true) ∨
        phase.timedOut config sample.time = true)
      (none_clears : ∀ rung ∈ ladder, phase.target < rung →
        ¬ sample.temp + config.regulationMarginC ≤ (rung : ℚ)) :
      PassMoves now point answer
        ([.sampled sample, .floor phase.target sample.temp, .coolerOff],
          some (.switchOff (some (.coolerUnreachable sample.temp ladder.getLast?))))
  | nextTaken {phase : CooldownPhase} {powerReadable : Bool} {polled : Nat} {next : Int} :
      PassMoves now (.commandNext phase powerReadable polled next) (.done true)
        ([.setRung next, .regulating next polled],
          sleep config now (phase.advance polled next) powerReadable)
  | nextFailed {phase : CooldownPhase} {powerReadable : Bool} {polled : Nat} {next : Int} :
      PassMoves now (.commandNext phase powerReadable polled next) (.done false)
        ([.commandFailed, .coolerOff], some (.switchOff none))
  | switchedOff {event : Option CoolingEvent} {ok : Bool} :
      PassMoves now (.switchOff event) (.done ok) (.clearState :: (event.map Effect.emit).toList, none)

variable {config ladder}

/-- The end of a poll. -/
theorem judge_moves (hladder : ladder.Pairwise (· ≤ ·)) {now : Nat} {point : TaskPoint} {answer : Answer}
    {phase : CooldownPhase} {powerReadable : Bool} {sample : Sample}
    (hpolled : Polled point answer phase powerReadable sample) :
    PassMoves config ladder now point answer
      (judge config ladder now phase powerReadable sample.time sample.temp sample.power) := by
  show PassMoves config ladder now point answer
    (if (phase.after config sample).stabilized config sample.time = true then _ else _)
  split
  · next hheld => exact .held hpolled hheld
  · split
    · next found hnone =>
        obtain ⟨rfl, hearly⟩ := CooldownPhase.detectFloor_none hnone
        exact .kept hpolled hearly
    · next found floor hsome =>
        obtain ⟨rfl, rfl, hfound⟩ := CooldownPhase.detectFloor_some hsome
        split
        · next hsnap =>
            exact .moved hpolled hfound (CooldownPhase.snapTarget_some hladder hsnap)
        · next hsnap =>
            exact @PassMoves.stuck config ladder now point answer phase powerReadable sample hpolled hfound
              (CooldownPhase.snapTarget_none hsnap)

theorem resume_moves (hladder : ladder.Pairwise (· ≤ ·)) {now : Nat} {point : TaskPoint} {answer : Answer}
    {resumed : Resumed} (hpass : point.InPass)
    (h : resume config ladder now point answer = some resumed) :
    PassMoves config ladder now point answer resumed := by
  cases point with
  | canGetPower =>
    cases answer with
    | flag canGet =>
      cases h
      rw [beginPass]
      split
      · next hhead => exact .noLadder hhead
      · next hhead => exact .begun hhead
    | _ => cases h
  | commandLowest =>
    cases answer with
    | done ok =>
      cases ok with
      | true =>
        cases h
        exact .lowestTaken
      | false =>
        cases h
        exact .lowestFailed
    | _ => cases h
  | switchOn =>
    cases answer with
    | done ok =>
      cases ok with
      | true =>
        cases h
        exact .switchedOn
      | false =>
        cases h
        exact .switchOnFailed
    | _ => cases h
  | sleeping phase powerReadable deadline =>
    cases answer with
    | woke =>
      simp only [resume] at h
      split at h
      · cases h
        exact .woken
      · cases h
    | _ => cases h
  | temperature phase powerReadable polled =>
    cases answer with
    | number temp =>
      cases temp with
      | none =>
        simp only [resume] at h
        split at h
        · next hlate =>
            cases h
            exact .unreadable hlate
        · next hearly =>
            cases h
            exact .unread (Bool.eq_false_iff.mpr hearly)
      | some temp =>
        cases powerReadable with
        | true =>
          cases h
          exact .read
        | false =>
          cases h
          exact judge_moves hladder (.temperature phase polled temp)
    | _ => cases h
  | power phase polled temp =>
    cases answer with
    | number power =>
      cases h
      exact judge_moves hladder (.power phase polled temp power)
    | _ => cases h
  | commandNext =>
    cases answer with
    | done ok =>
      cases ok with
      | true =>
        cases h
        exact .nextTaken
      | false =>
        cases h
        exact .nextFailed
    | _ => cases h
  | switchOff =>
    cases answer with
    | done ok =>
      cases h
      exact .switchedOff
    | _ => cases h
  | _ => cases hpass

end System

end RustyPhoton.Rp.Cooling
