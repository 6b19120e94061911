import Mathlib.Algebra.Order.Field.Rat
import Mathlib.Data.List.Sort

/-!
# One rung of the cooldown pass

After `config/cooling.rs` and `CooldownPhase` of `cooling.rs`: the sampling state of the pass and its two
verdicts. Temperatures and powers are exact; instants and durations are in nanoseconds.
-/

namespace RustyPhoton.Rp.Cooling

/-- The `cooling` block; `schemars` and the parsing of durations are left out. -/
structure CoolingConfig where
  pollInterval : Nat
  plateauWindow : Nat
  plateauThresholdC : ℚ
  toleranceC : ℚ
  maxCoolerPowerPct : ℚ
  regulationMarginC : ℚ
  maxCooldown : Nat
  warmupStepInterval : Nat
  warmTargetC : ℚ

namespace CoolingConfig

def seconds (n : Nat) : Nat := n * 1000000000

def default : CoolingConfig where
  pollInterval := seconds 10
  plateauWindow := seconds 120
  plateauThresholdC := 1 / 2
  toleranceC := 1
  maxCoolerPowerPct := 90
  regulationMarginC := 3
  maxCooldown := seconds 1200
  warmupStepInterval := seconds 120
  warmTargetC := 10

end CoolingConfig

/-- A poll: when, temperature, power. -/
structure Sample where
  time : Nat
  temp : ℚ
  power : Option ℚ
  deriving DecidableEq

/-- The largest 64-bit float. -/
def floatMax : ℚ := (2 ^ 53 - 1) * 2 ^ 971

structure CooldownPhase where
  /-- The rung currently commanded. -/
  target : Int
  floorC : Option ℚ
  passStart : Nat
  phaseStart : Nat
  samples : List Sample
  deriving DecidableEq

namespace CooldownPhase

variable (config : CoolingConfig) (phase : CooldownPhase) (now : Nat)

def new (target : Int) (now : Nat) : CooldownPhase := ⟨target, none, now, now, []⟩

def timedOut : Bool := config.maxCooldown ≤ now - phase.passStart

/-- The samples no older than the plateau window. -/
def inWindow (samples : List Sample) : List Sample :=
  samples.filter fun sample => now - sample.time ≤ config.plateauWindow

def recordSample (temp : ℚ) (power : Option ℚ) : CooldownPhase :=
  { phase with samples := inWindow config now (phase.samples ++ [⟨now, temp, power⟩]) }

def windowSpanned : Bool :=
  config.plateauWindow ≤ now - phase.phaseStart && 2 ≤ phase.samples.length

def readablePowers : List ℚ := phase.samples.filterMap Sample.power

def lastPower : Option ℚ := phase.readablePowers.getLast?

/-- The rung is held, with power to spare. -/
def stabilized : Bool :=
  phase.windowSpanned config now &&
    (phase.samples.all fun sample => |sample.temp - phase.target| ≤ config.toleranceC) &&
    phase.readablePowers.all fun power => power ≤ config.maxCoolerPowerPct

/-- The coldest and the warmest sample. -/
def extremes : ℚ × ℚ :=
  phase.samples.foldl (fun bounds sample => (min bounds.1 sample.temp, max bounds.2 sample.temp))
    (floatMax, -floatMax)

def plateaued : Bool :=
  phase.windowSpanned config now &&
    decide (phase.extremes.2 - phase.extremes.1 < config.plateauThresholdC)

def aboveRung (temp : ℚ) : Bool := (phase.target : ℚ) + config.toleranceC < temp

def pegged : Bool :=
  !phase.readablePowers.isEmpty &&
    phase.readablePowers.all fun power => config.maxCoolerPowerPct < power

/-- The floor, when there is one to be had at this temperature. -/
def detectFloor (temp : ℚ) (timedOut : Bool) : CooldownPhase × Option ℚ :=
  if (phase.plateaued config now && (phase.aboveRung config temp || phase.pegged config)) || timedOut then
    ({ phase with floorC := some temp }, some temp)
  else (phase, none)

/-- The first rung of the ladder that clears the floor and is above the current one. -/
def snapTarget (ladder : List Int) (floor : ℚ) : Option Int :=
  ladder.find? fun rung => floor + config.regulationMarginC ≤ (rung : ℚ) && phase.target < rung

def advance (next : Int) : CooldownPhase :=
  { phase with target := next, samples := [], phaseStart := now }

/-! ## What the verdicts say -/

variable {config phase now}

variable {temp : ℚ} {power : Option ℚ}

@[simp] theorem recordSample_target :
    (phase.recordSample config now temp power).target = phase.target := rfl

/-- A full window needs two samples in one rung. -/
theorem windowSpanned_iff : phase.windowSpanned config now = true ↔
    config.plateauWindow ≤ now - phase.phaseStart ∧ 2 ≤ phase.samples.length := by
  simp [windowSpanned]

theorem extremes_bound {sample : Sample} (h : sample ∈ phase.samples) :
    phase.extremes.1 ≤ sample.temp ∧ sample.temp ≤ phase.extremes.2 := by
  suffices hfold : ∀ (samples : List Sample) (bounds : ℚ × ℚ),
      let found := samples.foldl
        (fun bounds sample => (min bounds.1 sample.temp, max bounds.2 sample.temp)) bounds
      (found.1 ≤ bounds.1 ∧ bounds.2 ≤ found.2) ∧
        ∀ sample ∈ samples, found.1 ≤ sample.temp ∧ sample.temp ≤ found.2 from
    (hfold phase.samples _).2 sample h
  intro samples
  induction samples with
  | nil => exact fun bounds => ⟨⟨le_rfl, le_rfl⟩, fun _ hmem => absurd hmem List.not_mem_nil⟩
  | cons first rest ih =>
    intro bounds
    obtain ⟨⟨hlow, hhigh⟩, hrest⟩ := ih (min bounds.1 first.temp, max bounds.2 first.temp)
    refine ⟨⟨hlow.trans (min_le_left _ _), (le_max_left _ _).trans hhigh⟩, fun sample hmem => ?_⟩
    rcases List.mem_cons.mp hmem with rfl | hmem
    · exact ⟨hlow.trans (min_le_right _ _), (le_max_right _ _).trans hhigh⟩
    · exact hrest sample hmem

/-- No two samples of a plateau are further apart than the threshold. -/
theorem plateaued_spread (h : phase.plateaued config now = true) :
    (config.plateauWindow ≤ now - phase.phaseStart ∧ 2 ≤ phase.samples.length) ∧
      ∀ a ∈ phase.samples, ∀ b ∈ phase.samples, a.temp - b.temp < config.plateauThresholdC := by
  simp only [plateaued, Bool.and_eq_true, decide_eq_true_eq] at h
  refine ⟨windowSpanned_iff.mp h.1, fun a ha b hb => ?_⟩
  have hhigh := (extremes_bound ha).2
  have hlow := (extremes_bound hb).1
  calc a.temp - b.temp ≤ phase.extremes.2 - phase.extremes.1 := sub_le_sub hhigh hlow
    _ < config.plateauThresholdC := h.2

theorem pegged_iff : phase.pegged config = true ↔
    phase.readablePowers ≠ [] ∧ ∀ power ∈ phase.readablePowers, config.maxCoolerPowerPct < power := by
  simp [pegged]

variable {floor : ℚ} {timedOut : Bool} {found : CooldownPhase}

/-- A floor is the temperature of the poll, and comes from a plateau or the backstop. -/
theorem detectFloor_some (h : phase.detectFloor config now temp timedOut = (found, some floor)) :
    floor = temp ∧ found = { phase with floorC := some temp } ∧
      (phase.plateaued config now = true ∧
        (phase.aboveRung config temp = true ∨ phase.pegged config = true) ∨ timedOut = true) := by
  rw [detectFloor] at h
  split at h
  · next hfound =>
      cases h
      exact ⟨rfl, rfl, by simpa using hfound⟩
  · cases h

theorem detectFloor_none (h : phase.detectFloor config now temp timedOut = (found, none)) :
    found = phase ∧ timedOut = false := by
  rw [detectFloor] at h
  split at h
  · cases h
  · next hnone =>
      cases h
      refine ⟨rfl, ?_⟩
      cases timedOut with
      | true => simp at hnone
      | false => rfl

/-- The rung is the lowest of the ladder that is above another and clears a floor. -/
structure LowestClearing (config : CoolingConfig) (ladder : List Int) (rung : Int) (floor : ℚ)
    (next : Int) : Prop where
  mem : next ∈ ladder
  above : rung < next
  clears : floor + config.regulationMarginC ≤ (next : ℚ)
  lowest : ∀ other ∈ ladder, rung < other → floor + config.regulationMarginC ≤ (other : ℚ) →
    next ≤ other

variable {ladder : List Int}

/-- On a ladder in increasing order the first rung that will do is the lowest. -/
theorem snapTarget_some (hladder : ladder.Pairwise (· ≤ ·)) {next : Int}
    (h : phase.snapTarget config ladder floor = some next) :
    LowestClearing config ladder phase.target floor next := by
  have hfound := List.find?_some h
  simp only [Bool.and_eq_true, decide_eq_true_eq] at hfound
  refine ⟨List.mem_of_find?_eq_some h, hfound.2, hfound.1, fun other hmem habove hclears => ?_⟩
  rw [snapTarget] at h
  obtain ⟨_, before, after, hsplit, hbefore⟩ := List.find?_eq_some_iff_append.mp h
  rw [hsplit] at hmem hladder
  rcases List.mem_append.mp hmem with hmem | hmem
  · have hnot := hbefore other hmem
    simp [habove, hclears] at hnot
  · rcases List.mem_cons.mp hmem with rfl | hmem
    · exact le_rfl
    · exact List.rel_of_pairwise_cons (List.pairwise_append.mp hladder).2.1 hmem

theorem snapTarget_none (h : phase.snapTarget config ladder floor = none) :
    ∀ rung ∈ ladder, phase.target < rung → ¬ floor + config.regulationMarginC ≤ (rung : ℚ) := by
  intro rung hmem habove hclears
  have hnot := List.find?_eq_none.mp h rung hmem
  simp [habove, hclears] at hnot

/-- Right after a move there is no full window: a rung does not hold on its first sample. -/
theorem not_stabilized_of_empty (h : phase.samples = []) :
    (phase.recordSample config now temp power).stabilized config now = false := by
  have hlength : (phase.recordSample config now temp power).samples.length ≤ 1 := by
    rw [recordSample, h]
    exact List.length_filter_le _ _
  have hspan : (phase.recordSample config now temp power).windowSpanned config now = false := by
    refine Bool.eq_false_iff.mpr fun htrue => ?_
    have := (windowSpanned_iff.mp htrue).2
    omega
  rw [stabilized, hspan, Bool.false_and, Bool.false_and]

end CooldownPhase

end RustyPhoton.Rp.Cooling
