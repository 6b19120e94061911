import RustyPhoton.Rp.Cooling.Selection

/-!
# The backstop of the cooldown pass

What holds along every pass, and what becomes of the pass once its deadline has gone by: a rung that was
commanded past the deadline is never held, since every poll there is a floor.
-/

namespace RustyPhoton.Rp.Cooling

open Lib
open CooldownPhase (LowestClearing inWindow)

/-! ## The log, appended to -/

theorem commands_append (log more : List Effect) : commands (log ++ more) = commands log ++ commands more :=
  List.filterMap_append

theorem passStart_append (log more : List Effect) :
    passStart (log ++ more) = (passStart log).or (passStart more) :=
  List.findSome?_append

theorem lastFloor_append (log more : List Effect) :
    lastFloor (log ++ more) = (lastFloor more).or (lastFloor log) := by
  rw [lastFloor, List.filterMap_append, List.getLast?_append]
  rfl

theorem stay_append (log more : List Effect) : stay (log ++ more) = more.foldl Stay.add (stay log) :=
  List.foldl_append

/-- Later windows do not see what an earlier window has dropped. -/
theorem inWindow_inWindow {config : CoolingConfig} {now later : Nat} (h : now ≤ later)
    (samples : List Sample) :
    inWindow config later (inWindow config now samples) = inWindow config later samples := by
  rw [inWindow, inWindow, List.filter_filter]
  refine List.filter_congr fun sample _ => ?_
  have himp : later - sample.time ≤ config.plateauWindow → now - sample.time ≤ config.plateauWindow := by
    omega
  by_cases hlater : later - sample.time ≤ config.plateauWindow
  · simp [hlater, himp hlater]
  · simp [hlater]

/-- What is strictly increasing is bounded by its last element. -/
theorem le_getLast {rungs : List Int} (h : rungs.Pairwise (· < ·)) {last : Int}
    (hlast : rungs.getLast? = some last) : ∀ rung ∈ rungs, rung ≤ last := by
  obtain ⟨before, rfl⟩ := List.getLast?_eq_some_iff.mp hlast
  intro rung hmem
  rcases List.mem_append.mp hmem with hmem | hmem
  · exact ((List.pairwise_append.mp h).2.2 rung hmem last (List.mem_singleton_self _)).le
  · exact (List.mem_singleton.mp hmem).le

section Invariant

variable (config : CoolingConfig) (ladder : List Int)

/-- Nothing has been given up. -/
def Calm (log : List Effect) : Prop := .coolerOff ∉ log ∧ .clearState ∉ log ∧ .commandFailed ∉ log

/-- A higher rung clears the last floor. -/
def Cleared (log : List Effect) : Prop :=
  ∀ rung floor, lastFloor log = some (rung, floor) →
    ∃ other ∈ ladder, rung < other ∧ floor + config.regulationMarginC ≤ (other : ℚ)

/-- The backstop found a floor, and the rung that clears it was taken. -/
def Backstopped (log : List Effect) : Prop :=
  ∃ before rung floor next rest, log = before ++ .floor rung floor :: .command next :: .setRung next :: rest ∧
    Expired config before ∧ LowestClearing config ladder rung floor next

/-- What the pass knows while it polls on a rung, from some time on. -/
structure Polling (log : List Effect) (phase : CooldownPhase) (since : Nat) : Prop where
  stays : ∃ s, stay log = some s ∧ s.rung = phase.target ∧ s.since = phase.phaseStart ∧
    ∀ now, since ≤ now → inWindow config now phase.samples = inWindow config now s.samples
  start : passStart log = some phase.passStart
  begun : phase.phaseStart ≤ since
  current : (commands log).getLast? = some phase.target
  fresh : phase.timedOut config phase.phaseStart = true → phase.samples = []
  moved : phase.floorC.isSome = true → phase.timedOut config phase.phaseStart = true →
    Backstopped config ladder log
  cleared : Cleared config ladder log
  calm : Calm log

/-- What the pass knows while a move is commanded. -/
structure Moving (log : List Effect) (phase : CooldownPhase) (polled : Nat) (next : Int) : Prop where
  moves : ∃ before rung temp power,
    log = before ++ [.sampled ⟨polled, temp, power⟩, .floor rung temp, .command next] ∧
      passStart before = some phase.passStart ∧ LowestClearing config ladder rung temp next ∧ Calm before
  measured : phase.floorC.isSome = true

/-- What holds where the pass waits. -/
def Stands (log : List Effect) (clock : Nat) : Option TaskPoint → Prop
  | none => True
  | some .canGetPower => log = []
  | some (.commandLowest lowest _) =>
      ladder.head? = some lowest ∧ log = [.setCommanded lowest, .command lowest]
  | some (.switchOn lowest _) =>
      ladder.head? = some lowest ∧ log = [.setCommanded lowest, .command lowest, .coolerOn]
  | some (.sleeping phase _ _) => Polling config ladder log phase clock
  | some (.temperature phase _ polled) => polled ≤ clock ∧ Polling config ladder log phase polled
  | some (.power phase polled _) => polled ≤ clock ∧ Polling config ladder log phase polled
  | some (.commandNext phase _ polled next) => polled ≤ clock ∧ Moving config ladder log phase polled next
  | some (.switchOff event) =>
      .coolerOff ∈ log ∧ ∀ e ∈ event, ∃ floor warmest, e = .coolerUnreachable floor warmest
  | some _ => False

/-- Where the pass goes. -/
structure Climbing (log : List Effect) : Prop where
  lowest : ∀ first ∈ (commands log).head?, ∀ rung ∈ ladder, first ≤ rung
  onLadder : ∀ rung ∈ commands log, rung ∈ ladder
  climbs : (commands log).Pairwise (· < ·)
  moves : Justified (Reason config ladder) log

variable {config ladder} {log : List Effect} {phase : CooldownPhase} {since : Nat}

variable {clock : Nat} {point : TaskPoint}

theorem stands_inPass (h : Stands config ladder log clock (some point)) :
    point.InPass := by
  cases point <;> first | exact h | trivial

variable {later : Nat}

theorem Polling.mono (h : Polling config ladder log phase since) (hle : since ≤ later) :
    Polling config ladder log phase later := by
  obtain ⟨s, hs, hrung, hsince, hwindow⟩ := h.stays
  exact { h with
    stays := ⟨s, hs, hrung, hsince, fun now hnow => hwindow now (hle.trans hnow)⟩
    begun := h.begun.trans hle }

theorem Backstopped.append (h : Backstopped config ladder log) (more : List Effect) :
    Backstopped config ladder (log ++ more) := by
  obtain ⟨before, rung, floor, next, rest, rfl, hexpired, hlowest⟩ := h
  exact ⟨before, rung, floor, next, rest ++ more, by simp, hexpired, hlowest⟩

variable {now : Nat}

/-- Past the deadline a phase stays past it. -/
theorem timedOut_mono (h : phase.timedOut config now = true) (hle : now ≤ later) :
    phase.timedOut config later = true := by
  simp only [CooldownPhase.timedOut, decide_eq_true_eq] at h ⊢
  omega

/-- A rung that the pass moved to past the deadline is polled for the first time. -/
theorem Polling.first (h : Polling config ladder log phase since) (hle : since ≤ now)
    (hearly : phase.timedOut config now = false) : phase.timedOut config phase.phaseStart = false := by
  refine Bool.eq_false_iff.mpr fun hlate => ?_
  rw [timedOut_mono hlate (h.begun.trans hle)] at hearly
  cases hearly

variable {sample : Sample}

/-- The poll's own window is that of the stay. -/
theorem Polling.after_stay (h : Polling config ladder log phase since)
    (hle : since ≤ sample.time) : ∃ s, stay (log ++ [.sampled sample]) = some s ∧
      s.rung = phase.target ∧ s.since = phase.phaseStart ∧
        (phase.after config sample).samples = s.window config sample.time := by
  obtain ⟨s, hs, hrung, hsince, hwindow⟩ := h.stays
  refine ⟨{ s with samples := s.samples ++ [sample] }, ?_, hrung, hsince, ?_⟩
  · rw [stay_append, hs]
    rfl
  · show inWindow config sample.time (phase.samples ++ [sample]) =
      inWindow config sample.time (s.samples ++ [sample])
    have hold := hwindow sample.time hle
    rw [inWindow, inWindow] at hold
    rw [inWindow, inWindow, List.filter_append, List.filter_append, hold]

/-- The verdict of the code is a floor of the log. -/
theorem Polling.floorAt (h : Polling config ladder log phase since) (hle : since ≤ sample.time)
    (hfound : (phase.after config sample).plateaued config sample.time = true ∧
        ((phase.after config sample).aboveRung config sample.temp = true ∨
          (phase.after config sample).pegged config = true) ∨
      phase.timedOut config sample.time = true) :
    FloorAt config (log ++ [.sampled sample]) phase.target sample.temp := by
  obtain ⟨s, hs, hrung, hsince, hwindow⟩ := h.after_stay hle
  refine ⟨s, sample, hs, hrung, List.getLast?_concat, rfl, ?_⟩
  rcases hfound with ⟨hplateau, hwhy⟩ | hlate
  · obtain ⟨⟨hspan, hlength⟩, hspread⟩ := CooldownPhase.plateaued_spread hplateau
    rw [hwindow] at hlength hspread
    refine .inl ⟨⟨?_, hlength, hspread⟩, ?_⟩
    · rw [hsince]
      exact hspan
    · rcases hwhy with habove | hpegged
      · exact .inl (of_decide_eq_true habove)
      · have hpowers := CooldownPhase.pegged_iff.mp hpegged
        rw [CooldownPhase.readablePowers, hwindow] at hpowers
        exact .inr hpowers
  · refine .inr ⟨phase.passStart, sample, ?_, List.getLast?_concat, of_decide_eq_true hlate⟩
    rw [passStart_append, h.start]
    rfl

variable {answer : Answer} {powerReadable : Bool}

theorem Polled.stands (hpolled : Polled point answer phase powerReadable sample)
    (h : Stands config ladder log clock (some point)) :
    sample.time ≤ clock ∧ Polling config ladder log phase sample.time := by
  cases hpolled with
  | temperature => exact h
  | power => exact h

variable {more : List Effect}

theorem Calm.append (h : Calm log) (hmore : Calm more) : Calm (log ++ more) := by
  simp only [Calm, List.mem_append, not_or] at h hmore ⊢
  exact ⟨⟨h.1, hmore.1⟩, ⟨h.2.1, hmore.2.1⟩, h.2.2, hmore.2.2⟩

/-- A poll that could not be read. -/
theorem Polling.unread (h : Polling config ladder log phase since) (time : Nat) :
    Polling config ladder (log ++ [.unread time]) phase since := by
  refine ⟨?_, ?_, h.begun, ?_, h.fresh, fun hmoved hlate => (h.moved hmoved hlate).append _, ?_, ?_⟩
  · rw [stay_append]
    obtain ⟨s, hs, hstays⟩ := h.stays
    exact ⟨s, by rw [hs]; rfl, hstays⟩
  · rw [passStart_append, h.start]
    rfl
  · rw [commands_append]
    show (commands log ++ []).getLast? = _
    rw [List.append_nil]
    exact h.current
  · rw [Cleared, lastFloor_append]
    exact h.cleared
  · exact h.calm.append (by simp [Calm])

/-- A poll that is no floor. -/
theorem Polling.kept (h : Polling config ladder log phase since)
    (hle : since ≤ sample.time) (hearly : phase.timedOut config sample.time = false) :
    Polling config ladder (log ++ [.sampled sample]) (phase.after config sample) sample.time := by
  have hnotLate : phase.timedOut config phase.phaseStart = false := h.first hle hearly
  refine ⟨?_, ?_, h.begun.trans hle, ?_, fun hlate => ?_, fun _ hlate => ?_, ?_, ?_⟩
  · obtain ⟨s, hs, hrung, hsince, hwindow⟩ := h.after_stay hle
    refine ⟨s, hs, hrung, hsince, fun now hnow => ?_⟩
    rw [hwindow]
    exact inWindow_inWindow hnow s.samples
  · rw [passStart_append, h.start]
    rfl
  · rw [commands_append]
    show (commands log ++ []).getLast? = _
    rw [List.append_nil]
    exact h.current
  · exact absurd hlate (by rw [show (phase.after config sample).timedOut config
      (phase.after config sample).phaseStart = false from hnotLate]; simp)
  · exact absurd hlate (by rw [show (phase.after config sample).timedOut config
      (phase.after config sample).phaseStart = false from hnotLate]; simp)
  · rw [Cleared, lastFloor_append]
    exact h.cleared
  · exact h.calm.append (by simp [Calm])

variable {next : Int}

/-- A floor that a higher rung clears. -/
theorem Polling.move (h : Polling config ladder log phase since)
    (hlowest : LowestClearing config ladder phase.target sample.temp next) :
    Moving config ladder (log ++ [.sampled sample, .floor phase.target sample.temp, .command next])
      { phase.after config sample with floorC := some sample.temp } sample.time next :=
  ⟨⟨log, phase.target, sample.temp, sample.power, rfl, h.start, hlowest, h.calm⟩, rfl⟩

variable {polled : Nat}

/-- The move is taken: the pass polls on the next rung. -/
theorem Moving.taken (h : Moving config ladder log phase polled next) (hle : polled ≤ now) :
    Polling config ladder (log ++ [.setRung next, .regulating next polled]) (phase.advance polled next)
      now := by
  obtain ⟨⟨before, rung, temp, power, rfl, hstart, hlowest, hcalm⟩, hmeasured⟩ := h
  have hstart' : passStart (before ++ [.sampled ⟨polled, temp, power⟩]) = some phase.passStart := by
    rw [passStart_append, hstart]
    rfl
  refine ⟨⟨⟨next, polled, []⟩, ?_, rfl, rfl, fun _ _ => rfl⟩, ?_, hle, ?_, fun _ => rfl, fun _ hlate => ?_,
    ?_, ?_⟩
  · rw [stay_append]
    rfl
  · rw [passStart_append, passStart_append, hstart]
    rfl
  · rw [commands_append, commands_append]
    show (commands before ++ [next] ++ []).getLast? = some next
    rw [List.append_nil, List.getLast?_concat]
  · refine ⟨before ++ [.sampled ⟨polled, temp, power⟩], rung, temp, next, [.regulating next polled], by simp,
      ⟨phase.passStart, ⟨polled, temp, power⟩, hstart', List.getLast?_concat, of_decide_eq_true hlate⟩,
      hlowest⟩
  · intro r floor hlast
    rw [lastFloor_append, lastFloor_append] at hlast
    cases hlast
    exact ⟨next, hlowest.mem, hlowest.above, hlowest.clears⟩
  · exact (hcalm.append (by simp [Calm])).append (by simp [Calm])

variable {resumed : Resumed}

/-- Every step of the pass leaves it where it stands. -/
theorem moves_stands (hclock : clock ≤ now) (h : Stands config ladder log clock (some point))
    (hmoves : PassMoves config ladder now point answer resumed) :
    Stands config ladder (log ++ resumed.1) now resumed.2 := by
  cases hmoves with
  | noLadder => trivial
  | begun hlowest =>
    cases h
    exact ⟨hlowest, rfl⟩
  | lowestTaken =>
    obtain ⟨hlowest, rfl⟩ := h
    exact ⟨hlowest, rfl⟩
  | lowestFailed => trivial
  | @switchedOn lowest =>
    obtain ⟨_, rfl⟩ := h
    refine ⟨⟨⟨lowest, now, []⟩, rfl, rfl, rfl, fun _ _ => rfl⟩, rfl, le_rfl, rfl, fun _ => rfl,
      fun hmoved => ?_, fun rung floor hlast => ?_, by simp [Calm]⟩
    · cases hmoved
    · cases hlast
  | switchOnFailed => trivial
  | woken =>
    refine ⟨le_rfl, ?_⟩
    show Polling config ladder (log ++ []) _ now
    rw [List.append_nil]
    exact Polling.mono h hclock
  | unread => exact (h.2.unread _).mono (h.1.trans hclock)
  | unreadable | nextFailed =>
    refine ⟨List.mem_append_right _ (by simp), fun e he => ?_⟩
    cases he
  | read =>
    show _ ≤ now ∧ Polling config ladder (log ++ []) _ _
    rw [List.append_nil]
    exact ⟨h.1.trans hclock, h.2⟩
  | held => trivial
  | kept hpolled hearly =>
    obtain ⟨hle, hpolling⟩ := hpolled.stands h
    exact (hpolling.kept le_rfl hearly).mono (hle.trans hclock)
  | moved hpolled _ hlowest =>
    obtain ⟨hle, hpolling⟩ := hpolled.stands h
    exact ⟨hle.trans hclock, hpolling.move hlowest⟩
  | stuck =>
    refine ⟨List.mem_append_right _ (by simp), fun e he => ?_⟩
    cases he
    exact ⟨_, _, rfl⟩
  | nextTaken => exact h.2.taken (h.1.trans hclock)
  | switchedOff => trivial

/-! ## Where the pass goes -/

theorem Climbing.silent (h : Climbing config ladder log) (hcommands : commands more = [])
    (hmoves : Justified (Reason config ladder) (log ++ more)) : Climbing config ladder (log ++ more) := by
  have happend : commands (log ++ more) = commands log := by
    rw [commands_append, hcommands, List.append_nil]
  exact ⟨happend ▸ h.lowest, happend ▸ h.onLadder, happend ▸ h.climbs, hmoves⟩

/-- What needs no reason, and commands nothing. -/
def Effect.isQuiet : Effect → Bool
  | .floor _ _ | .command _ | .ramp _ => false
  | _ => true

theorem Climbing.quiet (h : Climbing config ladder log) (hquiet : more.all Effect.isQuiet = true) :
    Climbing config ladder (log ++ more) := by
  refine h.silent (List.filterMap_eq_nil_iff.mpr fun effect hmem => ?_)
    (h.moves.append fun effect hmem before => ?_)
  all_goals
    have hone := List.all_eq_true.mp hquiet effect hmem
    cases effect with
    | floor | command | ramp => cases hone
    | _ => trivial

/-- A floor, and the rung that clears it commanded. -/
theorem Climbing.move (h : Climbing config ladder log)
    (hpolling : Polling config ladder log phase since)
    (hfloor : FloorAt config (log ++ [.sampled sample]) phase.target sample.temp)
    (hlowest : LowestClearing config ladder phase.target sample.temp next) :
    Climbing config ladder
      (log ++ [.sampled sample, .floor phase.target sample.temp, .command next]) := by
  have happend : commands (log ++ [.sampled sample, .floor phase.target sample.temp, .command next]) =
      commands log ++ [next] := commands_append _ _
  have hmoves : MovesTo config ladder (log ++ [.sampled sample] ++ [.floor phase.target sample.temp])
      next := by
    refine ⟨phase.target, sample.temp, List.getLast?_concat, ?_, hlowest⟩
    rw [List.append_assoc, commands_append]
    show (commands log ++ []).getLast? = _
    rw [List.append_nil]
    exact hpolling.current
  refine ⟨?_, ?_, ?_, ?_⟩
  · obtain ⟨before, hbefore⟩ := List.getLast?_eq_some_iff.mp hpolling.current
    have hhead : (commands log ++ [next]).head? = (commands log).head? := by
      rw [hbefore]
      cases before <;> rfl
    rw [happend, hhead]
    exact h.lowest
  · rw [happend]
    intro rung hmem
    rcases List.mem_append.mp hmem with hmem | hmem
    · exact h.onLadder rung hmem
    · exact List.mem_singleton.mp hmem ▸ hlowest.mem
  · rw [happend]
    refine List.pairwise_append.mpr ⟨h.climbs, List.pairwise_singleton _ _, fun rung hmem other hother => ?_⟩
    cases List.mem_singleton.mp hother
    exact (le_getLast h.climbs hpolling.current rung hmem).trans_lt hlowest.above
  · have hsampled : Justified (Reason config ladder) (log ++ [.sampled sample]) := h.moves.snoc trivial
    have hfloored : Justified (Reason config ladder)
        (log ++ [.sampled sample] ++ [.floor phase.target sample.temp]) := hsampled.snoc hfloor
    have hcommanded : Justified (Reason config ladder)
        (log ++ [.sampled sample] ++ [.floor phase.target sample.temp] ++ [.command next]) :=
      hfloored.snoc (Or.inr hmoves)
    rwa [List.append_assoc, List.append_assoc] at hcommanded

theorem moves_climbing (hladder : ladder.Pairwise (· ≤ ·))
    (hclimbing : Climbing config ladder log)
    (h : Stands config ladder log clock (some point))
    (hmoves : PassMoves config ladder now point answer resumed) :
    Climbing config ladder (log ++ resumed.1) := by
  cases hmoves with
  | noLadder => exact hclimbing.quiet rfl
  | @begun _ lowest hhead =>
    cases h
    obtain ⟨rest, hrest⟩ := List.head?_eq_some_iff.mp hhead
    refine ⟨fun first hfirst rung hrung => ?_, fun rung hrung => ?_, List.pairwise_singleton _ _, ?_⟩
    · cases hfirst
      rw [hrest] at hladder hrung
      rcases List.mem_cons.mp hrung with rfl | hrung
      · exact le_rfl
      · exact List.rel_of_pairwise_cons hladder hrung
    · cases List.mem_singleton.mp hrung
      exact hrest ▸ List.mem_cons_self
    · have hset : Justified (Reason config ladder) ([] ++ [.setCommanded lowest]) :=
        Justified.nil.snoc trivial
      have hcommand : Justified (Reason config ladder) ([] ++ [.setCommanded lowest] ++ [.command lowest]) :=
        hset.snoc (Or.inl rfl)
      exact hcommand
  | lowestTaken | lowestFailed | switchedOn | switchOnFailed | woken | unread | unreadable | read
  | held | kept => exact hclimbing.quiet rfl
  | moved hpolled hfound hlowest =>
    obtain ⟨_, hpolling⟩ := hpolled.stands h
    exact hclimbing.move hpolling (hpolling.floorAt le_rfl hfound) hlowest
  | @stuck _ _ phase _ sample hpolled hfound hnone =>
    obtain ⟨_, hpolling⟩ := hpolled.stands h
    have hsampled : Climbing config ladder (log ++ [.sampled sample]) := hclimbing.quiet rfl
    have hfloored : Climbing config ladder (log ++ [.sampled sample] ++ [.floor phase.target sample.temp]) :=
      hsampled.silent rfl (hsampled.moves.snoc (hpolling.floorAt le_rfl hfound))
    have hoff : Climbing config ladder
        (log ++ [.sampled sample] ++ [.floor phase.target sample.temp] ++ [.coolerOff]) :=
      hfloored.quiet rfl
    rwa [List.append_assoc, List.append_assoc] at hoff
  | nextTaken | nextFailed => exact hclimbing.quiet rfl
  | @switchedOff event =>
    cases event <;> exact hclimbing.quiet rfl

/-! ## Runs that meet the condition -/

/-- The pass polls, or is about to, on a rung it moved to past its deadline. -/
def LatePoint (config : CoolingConfig) : Option TaskPoint → Prop
  | some (.sleeping phase _ _) | some (.temperature phase _ _) =>
      phase.floorC.isSome = true ∧ phase.timedOut config phase.phaseStart = true
  | _ => False

/-- What a run that meets the condition keeps of the two last promises. -/
structure Keeping (config : CoolingConfig) (ladder : List Int) (log : List Effect) (point : Option TaskPoint) :
    Prop where
  uncooled : Uncooled log → Unreachable config ladder log ∨ .commandFailed ∈ log ∨
    ∀ sample, .sampled sample ∉ log
  backstop : ∀ before rung floor after next, log = before ++ .floor rung floor :: after →
    Expired config before → LowestClearing config ladder rung floor next →
      (∃ rest, after = .command next :: .commandFailed :: rest) ∨
        after = [.command next] ∧ (∃ phase powerReadable polled,
          point = some (.commandNext phase powerReadable polled next)) ∨
        LatePoint config point

variable {rung : Int}

/-- The rung that clears a floor is determined by it. -/
theorem lowestClearing_unique {next' : Int} {floor : ℚ}
    (h : LowestClearing config ladder rung floor next)
    (h' : LowestClearing config ladder rung floor next') : next = next' :=
  le_antisymm (h.lowest next' h'.mem h'.above h'.clears) (h'.lowest next h.mem h.above h.clears)

variable {point' : Option TaskPoint}

/-- A step that notes no floor: what was kept before is kept after. -/
theorem Keeping.quiet {point : Option TaskPoint} (h : Keeping config ladder log point)
    (hmore : ∀ rung floor, .floor rung floor ∉ more)
    (huncooled : Uncooled (log ++ more) → Unreachable config ladder (log ++ more) ∨
      .commandFailed ∈ log ++ more ∨ ∀ sample, .sampled sample ∉ log ++ more)
    (hcommand : ∀ before rung floor next, log = before ++ [.floor rung floor, .command next] →
      Expired config before → (∃ phase powerReadable polled,
        point = some (.commandNext phase powerReadable polled next)) →
      (∃ rest, more = .commandFailed :: rest) ∨ LatePoint config point')
    (hlate : LatePoint config point → LatePoint config point') :
    Keeping config ladder (log ++ more) point' := by
  refine ⟨huncooled, fun before rung floor after next heq hexpired hlowest => ?_⟩
  rcases List.append_eq_append_iff.mp heq with ⟨rest, hbefore, hrest⟩ | ⟨rest, hlog, hrest⟩
  · exact absurd (hrest ▸ List.mem_append_right _ List.mem_cons_self) (hmore rung floor)
  · cases rest with
    | nil =>
      rw [List.nil_append] at hrest
      exact absurd (hrest ▸ List.mem_cons_self) (hmore rung floor)
    | cons first rest =>
      obtain ⟨rfl, rfl⟩ := List.cons.inj hrest
      rcases h.backstop before rung floor rest next hlog hexpired hlowest with
        ⟨tail, rfl⟩ | ⟨rfl, hpoint⟩ | hpoint
      · exact .inl ⟨tail ++ more, rfl⟩
      · rcases hcommand before rung floor next hlog hexpired hpoint with ⟨tail, rfl⟩ | hpoint
        · exact .inl ⟨tail, rfl⟩
        · exact .inr (.inr hpoint)
      · exact .inr (.inr (hlate hpoint))

/-- A floor is noted, and nothing was left open before. -/
theorem Keeping.floor {floor : ℚ} {tail : List Effect}
    (hclosed : ∀ before rung floor after next, log = before ++ .floor rung floor :: after →
      Expired config before → LowestClearing config ladder rung floor next →
        ∃ rest, after = .command next :: .commandFailed :: rest)
    (htail : ∀ rung floor, .floor rung floor ∉ tail)
    (huncooled : Uncooled (log ++ .floor rung floor :: tail) →
      Unreachable config ladder (log ++ .floor rung floor :: tail))
    (hnew : ∀ next, LowestClearing config ladder rung floor next → tail = [.command next] ∧
      ∃ phase powerReadable polled, point' = some (.commandNext phase powerReadable polled next)) :
    Keeping config ladder (log ++ .floor rung floor :: tail) point' := by
  refine ⟨fun h => .inl (huncooled h), fun before r f after next heq hexpired hlowest => ?_⟩
  have hfound : ∀ rest, .floor rung floor :: tail = rest ++ .floor r f :: after →
      after = [.command next] ∧ ∃ phase powerReadable polled,
        point' = some (.commandNext phase powerReadable polled next) := by
    intro rest hrest
    cases rest with
    | nil =>
      cases hrest
      exact hnew next hlowest
    | cons first rest =>
      obtain ⟨_, rfl⟩ := List.cons.inj hrest
      exact absurd (List.mem_append_right _ List.mem_cons_self) (htail r f)
  rcases List.append_eq_append_iff.mp heq with ⟨rest, _, hrest⟩ | ⟨rest, hlog, hrest⟩
  · exact .inr (.inl (hfound rest hrest))
  · cases rest with
    | nil => exact .inr (.inl (hfound [] hrest.symm))
    | cons first rest =>
      obtain ⟨rfl, rfl⟩ := List.cons.inj hrest
      obtain ⟨tail', rfl⟩ := hclosed before r f rest next hlog hexpired hlowest
      exact .inl ⟨_, rfl⟩

theorem Calm.not_uncooled (h : Calm log) : ¬ Uncooled log := fun hor => hor.elim h.1 h.2.1

/-- The condition, where a temperature comes in. -/
def MeetsAt (config : CoolingConfig) (log : List Effect) (point : TaskPoint) (answer : Answer) : Prop :=
  ∀ phase powerReadable polled, point = .temperature phase powerReadable polled →
    (∀ temp, answer = .number (some temp) → phase.floorC.isSome = true →
      phase.timedOut config phase.phaseStart = false) ∧
    (answer = .number none → phase.timedOut config polled = true → ∀ sample, .sampled sample ∉ log)

/-- Under the condition nothing is polled on a rung commanded past the deadline. -/
theorem Polled.not_late
    (hpolled : Polled point answer phase powerReadable sample) (hmeets : MeetsAt config log point answer) :
    ¬ LatePoint config (some point) := by
  intro hlate
  cases hpolled with
  | temperature polled temp =>
    have hearly := (hmeets _ _ _ rfl).1 _ rfl hlate.1
    rw [hlate.2] at hearly
    cases hearly
  | power => exact hlate

theorem Polled.not_commandNext (hpolled : Polled point answer phase powerReadable sample) :
    ¬ ∃ phase powerReadable polled, some point = some (.commandNext phase powerReadable polled next) := by
  intro h
  obtain ⟨_, _, _, h⟩ := h
  cases hpolled <;> cases h

/-- Where a poll completes, no move of the backstop is open. -/
theorem Keeping.closed (h : Keeping config ladder log (some point)) (hcalm : Calm log)
    (hpolled : Polled point answer phase powerReadable sample) (hmeets : MeetsAt config log point answer) :
    ∀ before rung floor after next, log ++ [.sampled sample] = before ++ .floor rung floor :: after →
      Expired config before → LowestClearing config ladder rung floor next →
        ∃ rest, after = .command next :: .commandFailed :: rest := by
  have hkept : Keeping config ladder (log ++ [.sampled sample]) none := by
    refine h.quiet (by simp) ?_ (fun _ _ _ next _ _ hpoint => absurd hpoint hpolled.not_commandNext)
      fun hlate => absurd hlate (hpolled.not_late hmeets)
    intro huncooled
    exact absurd huncooled (hcalm.append (by simp [Calm])).not_uncooled
  intro before rung floor after next heq hexpired hlowest
  rcases hkept.backstop before rung floor after next heq hexpired hlowest with hfailed | ⟨_, hpoint⟩ | hlate
  · exact hfailed
  · obtain ⟨_, _, _, hpoint⟩ := hpoint
    cases hpoint
  · exact absurd hlate id

/-- A floor has a poll before it. -/
theorem Backstopped.sampled (h : Backstopped config ladder log) : ∃ sample, .sampled sample ∈ log := by
  obtain ⟨before, _, _, _, _, rfl, ⟨_, sample, _, hlast, _⟩, _⟩ := h
  exact ⟨sample, List.mem_append_left _ (List.mem_of_getLast? hlast)⟩

theorem Moving.calm (h : Moving config ladder log phase polled next) :
    Calm log := by
  obtain ⟨⟨before, rung, temp, power, rfl, _, _, hcalm⟩, _⟩ := h
  exact hcalm.append (by simp [Calm])

/-- Under the condition every step keeps the two last promises. -/
theorem moves_keeping
    (hkeeping : Keeping config ladder log (some point)) (h : Stands config ladder log clock (some point))
    (hmeets : MeetsAt config log point answer)
    (hmoves : PassMoves config ladder now point answer resumed) :
    Keeping config ladder (log ++ resumed.1) resumed.2 := by
  cases hmoves with
  | noLadder | begun =>
    cases h
    exact hkeeping.quiet (by simp) (by simp [Uncooled]) (by simp) id
  | lowestTaken =>
    obtain ⟨_, rfl⟩ := h
    exact hkeeping.quiet (by simp) (by simp [Uncooled]) (by simp) id
  | lowestFailed | switchOnFailed | nextFailed => exact hkeeping.quiet (by simp) (by simp) (by simp) id

  | switchedOn =>
    obtain ⟨_, rfl⟩ := h
    exact hkeeping.quiet (by simp) (by simp [Uncooled]) (by simp) fun hlate => absurd hlate id
  | woken =>
    refine hkeeping.quiet (by simp) ?_ (by simp) id
    show Uncooled (log ++ []) → _
    rw [List.append_nil]
    exact fun huncooled => absurd huncooled h.calm.not_uncooled
  | unread hearly =>
    refine hkeeping.quiet (by simp) ?_ (by simp) id
    exact fun huncooled => absurd huncooled (h.2.calm.append (by simp [Calm])).not_uncooled
  | unreadable hlate =>
    have hnone := (hmeets _ _ _ rfl).2 rfl hlate
    refine hkeeping.quiet (by simp) (fun _ => .inr (.inr (by simpa using hnone))) (by simp) ?_
    -- a rung commanded past the deadline has a poll before it
    intro hrung
    obtain ⟨sample, hsample⟩ := (h.2.moved hrung.1 hrung.2).sampled
    exact absurd hsample (hnone sample)
  | @read _ _ temp =>
    refine hkeeping.quiet (by simp) ?_ (by simp) fun hrung => ?_
    · show Uncooled (log ++ []) → _
      rw [List.append_nil]
      exact fun huncooled => absurd huncooled h.2.calm.not_uncooled
    · have hearly := (hmeets _ _ _ rfl).1 temp rfl hrung.1
      rw [hrung.2] at hearly
      cases hearly
  | held hpolled | kept hpolled =>
    obtain ⟨_, hpolling⟩ := hpolled.stands h
    refine hkeeping.quiet (by simp) ?_ (fun _ _ _ next _ _ hpoint => absurd hpoint hpolled.not_commandNext)
      fun hlate => absurd hlate (hpolled.not_late hmeets)
    exact fun huncooled => absurd huncooled (hpolling.calm.append (by simp [Calm])).not_uncooled
  | @moved _ _ phase _ sample next hpolled _ hlowest =>
    obtain ⟨_, hpolling⟩ := hpolled.stands h
    have hclosed := hkeeping.closed hpolling.calm hpolled hmeets
    show Keeping config ladder (log ++ [.sampled sample, .floor phase.target sample.temp, .command next]) _
    rw [List.append_cons]
    refine .floor hclosed (by simp) (fun huncooled => ?_) fun next' hlowest' => ?_
    · have hcalm : Calm (log ++ [.sampled sample] ++ [.floor phase.target sample.temp, .command next]) :=
        (hpolling.calm.append (by simp [Calm])).append (by simp [Calm])
      exact absurd huncooled hcalm.not_uncooled
    · cases lowestClearing_unique hlowest hlowest'
      exact ⟨rfl, _, _, _, rfl⟩
  | @stuck _ _ phase _ sample hpolled _ hnone =>
    obtain ⟨_, hpolling⟩ := hpolled.stands h
    have hclosed := hkeeping.closed hpolling.calm hpolled hmeets
    show Keeping config ladder (log ++ [.sampled sample, .floor phase.target sample.temp, .coolerOff]) _
    rw [List.append_cons]
    refine .floor hclosed (by simp) (fun _ => ⟨phase.target, sample.temp, ?_, hnone⟩) fun next hlowest => ?_
    · rw [lastFloor_append]
      rfl
    · exact absurd hlowest.clears (hnone next hlowest.mem hlowest.above)
  | @nextTaken phase _ polled next =>
    obtain ⟨_, hmoving⟩ := h
    refine hkeeping.quiet (by simp) ?_ ?_ fun hlate => absurd hlate id
    · exact fun huncooled => absurd huncooled (hmoving.calm.append (by simp [Calm])).not_uncooled
    · rintro before rung floor next' hlog ⟨start, sample, hstart, hlast, hlate⟩ _
      obtain ⟨⟨earlier, rung', temp, power, hlog', hstart', _, _⟩, hmeasured⟩ := hmoving
      rw [hlog'] at hlog
      have hbefore : earlier ++ [.sampled ⟨polled, temp, power⟩] = before := by
        have hsplit : (earlier ++ [.sampled ⟨polled, temp, power⟩]) ++ [.floor rung' temp, .command next] =
            before ++ [.floor rung floor, .command next'] := by
          rw [← hlog, List.append_assoc]
          rfl
        exact (List.append_inj' hsplit rfl).1
      rw [← hbefore, List.getLast?_concat] at hlast
      rw [← hbefore, passStart_append, hstart'] at hstart
      cases hlast
      cases hstart
      exact .inr ⟨hmeasured, decide_eq_true hlate⟩
  | @switchedOff event ok =>
    have hmore : ∀ effect ∈ Effect.clearState :: (event.map Effect.emit).toList,
        effect = .clearState ∨ ∃ e, effect = .emit e := by
      cases event <;> simp
    refine hkeeping.quiet (fun rung floor hmem => ?_) (fun _ => ?_) (by simp) id
    · rcases hmore _ hmem with hno | ⟨_, hno⟩ <;> cases hno
    · rcases hkeeping.uncooled (.inl h.1) with hstuck | hfailed | hnone
      · refine .inl ?_
        rw [Unreachable, lastFloor_append]
        cases event <;> exact hstuck
      · exact .inr (.inl (List.mem_append_left _ hfailed))
      · refine .inr (.inr fun sample hmem => ?_)
        rcases List.mem_append.mp hmem with hmem | hmem
        · exact hnone sample hmem
        · rcases hmore _ hmem with hno | ⟨_, hno⟩ <;> cases hno

/-! ## Runs that do not -/

/-- Past the deadline: the pass will not hold a rung any more. -/
def Late (config : CoolingConfig) (log : List Effect) : Option TaskPoint → Prop
  | some (.sleeping phase _ _) | some (.temperature phase _ _) | some (.power phase _ _) =>
      phase.timedOut config phase.phaseStart = true
  | some (.commandNext phase _ polled _) => phase.timedOut config polled = true
  | some (.switchOff _) => True
  | none => ∀ rung, ¬ EndsAt log rung
  | _ => False

theorem Polled.late
    (hpolled : Polled point answer phase powerReadable sample) (h : Late config log (some point)) :
    phase.timedOut config phase.phaseStart = true := by
  cases hpolled with
  | temperature => exact h
  | power => exact h

/-- Every poll on a rung commanded past the deadline moves on or gives up. -/
theorem moves_late
    (hlate : Late config log (some point)) (h : Stands config ladder log clock (some point))
    (hmoves : PassMoves config ladder now point answer resumed) :
    Late config (log ++ resumed.1) resumed.2 := by
  cases hmoves with
  | noLadder => exact absurd hlate id
  | begun => exact absurd hlate id
  | lowestTaken => exact absurd hlate id
  | lowestFailed => exact absurd hlate id
  | switchedOn => exact absurd hlate id
  | switchOnFailed => exact absurd hlate id
  | woken => exact hlate
  | unread hearly =>
    have hfirst := h.2.first le_rfl hearly
    rw [show _ = true from hlate] at hfirst
    cases hfirst
  | unreadable => trivial
  | read => exact hlate
  | @held _ _ phase _ sample hpolled hheld =>
    -- the rung was just commanded: this is its first sample
    obtain ⟨_, hpolling⟩ := hpolled.stands h
    have hempty := hpolling.fresh (hpolled.late hlate)
    have hnot : (phase.after config sample).stabilized config sample.time = false :=
      CooldownPhase.not_stabilized_of_empty hempty
    rw [hheld] at hnot
    cases hnot
  | kept hpolled hearly =>
    obtain ⟨_, hpolling⟩ := hpolled.stands h
    have hfirst := hpolling.first le_rfl hearly
    rw [hpolled.late hlate] at hfirst
    cases hfirst
  | @moved _ _ phase _ sample _ hpolled =>
    obtain ⟨_, hpolling⟩ := hpolled.stands h
    have hstill : phase.timedOut config sample.time = true :=
      timedOut_mono (hpolled.late hlate) hpolling.begun
    exact hstill
  | stuck => trivial
  | nextTaken => exact hlate
  | nextFailed => trivial
  | @switchedOff event ok =>
    intro rung hends
    obtain ⟨floorC, powerPct, hlast⟩ := hends
    rw [List.getLast?_append] at hlast
    cases event with
    | none => cases hlast
    | some event =>
      obtain ⟨floor, warmest, rfl⟩ := h.2 event rfl
      cases hlast

/-- A pass that has failed to read past its deadline, after it had read. -/
structure GivenUp (config : CoolingConfig) (ladder : List Int) (log : List Effect)
    (point : Option TaskPoint) : Prop where
  off : .coolerOff ∈ log
  commanded : .commandFailed ∉ log
  sampled : ∃ sample, .sampled sample ∈ log
  cleared : Cleared config ladder log
  waits : point = none ∨ ∃ event, point = some (.switchOff event)

/-- The condition was not met on the way. -/
def Broken (config : CoolingConfig) (ladder : List Int) (log : List Effect) (point : Option TaskPoint) :
    Prop :=
  GivenUp config ladder log point ∨ Backstopped config ladder log ∧ Late config log point

theorem moves_broken
    (hbroken : Broken config ladder log (some point)) (h : Stands config ladder log clock (some point))
    (hmoves : PassMoves config ladder now point answer resumed) :
    Broken config ladder (log ++ resumed.1) resumed.2 := by
  rcases hbroken with ⟨hoff, hcommanded, ⟨sample, hsample⟩, hcleared, hwaits⟩ | ⟨hbackstopped, hlate⟩
  · obtain ⟨event, hpoint⟩ : ∃ event, point = .switchOff event := by simpa using hwaits
    subst hpoint
    cases hmoves with
    | held hpolled => cases hpolled
    | kept hpolled => cases hpolled
    | moved hpolled => cases hpolled
    | stuck hpolled => cases hpolled
    | switchedOff =>
      refine .inl ⟨List.mem_append_left _ hoff, ?_, ⟨sample, List.mem_append_left _ hsample⟩, ?_, .inl rfl⟩
      · rw [List.mem_append, not_or]
        exact ⟨hcommanded, by cases event <;> simp⟩
      · rw [Cleared, lastFloor_append]
        cases event <;> exact hcleared
  · exact .inr ⟨hbackstopped.append _, moves_late hlate h hmoves⟩

/-- A step that does not meet the condition breaks the promise. -/
theorem broken_of_not_meets
    (h : Stands config ladder log clock (some point)) (hmeets : ¬ MeetsAt config log point answer)
    (hmoves : PassMoves config ladder now point answer resumed) :
    Broken config ladder (log ++ resumed.1) resumed.2 := by
  simp only [MeetsAt, not_forall, not_and_or] at hmeets
  obtain ⟨phase, powerReadable, polled, rfl, hmeets⟩ := hmeets
  rcases hmeets with ⟨temp, _, hmeasured, hlate⟩ | ⟨rfl, hlate, hsampled⟩
  · have hlate : phase.timedOut config phase.phaseStart = true := by simpa using hlate
    have hpast : Late config log (some (.temperature phase powerReadable polled)) := hlate
    exact .inr ⟨(h.2.moved hmeasured hlate).append _, moves_late hpast h hmoves⟩
  · obtain ⟨sample, hsample⟩ : ∃ sample, .sampled sample ∈ log := by simpa using hsampled
    cases hmoves with
    | unread hearly =>
      rw [hlate] at hearly
      cases hearly
    | unreadable =>
      refine .inl ⟨List.mem_append_right _ (by simp), ?_, ⟨sample, List.mem_append_left _ hsample⟩, ?_,
        .inr ⟨none, rfl⟩⟩
      · rw [List.mem_append, not_or]
        exact ⟨h.2.calm.2.2, by simp⟩
      · rw [Cleared, lastFloor_append]
        exact h.2.cleared
    | held hpolled => cases hpolled
    | kept hpolled => cases hpolled
    | moved hpolled => cases hpolled
    | stuck hpolled => cases hpolled

/-- A broken pass that has ended has not kept its promise. -/
theorem Broken.not_selects (h : Broken config ladder log none) : ¬ Selects config ladder log True := by
  intro hselects
  rcases h with ⟨hoff, hcommanded, ⟨sample, hsample⟩, hcleared, _⟩ | ⟨hbackstopped, hlate⟩
  · rcases hselects.uncooled (.inl hoff) with ⟨rung, floor, hlast, hnone⟩ | hfailed | hunsampled
    · obtain ⟨other, hmem, habove, hclears⟩ := hcleared rung floor hlast
      exact hnone other hmem habove hclears
    · exact hcommanded hfailed
    · exact hunsampled sample hsample
  · obtain ⟨before, rung, floor, next, rest, hlog, hexpired, hlowest⟩ := hbackstopped
    rcases hselects.backstop trivial before rung floor _ next hlog hexpired hlowest with ⟨_, hno⟩ | hends
    · cases hno
    · exact hlate next hends

end Invariant

/-! ## The whole pass -/

section Run

variable {config : CoolingConfig} {ladder : List Int} {clock : Nat} {inputs : List PassInput}
  {log : List Effect} {s : PassState}

variable {i : PassInput}

theorem passStep_moves (hladder : ladder.Pairwise (· ≤ ·)) {s' : PassState}
    {effects : List Effect} (hstands : Stands config ladder log s.clock s.point)
    (h : passStep config ladder s i = some (s', effects)) :
    ∃ point, s.point = some point ∧
      PassMoves config ladder s'.clock point i.answer (effects, s'.point) ∧ s.clock ≤ s'.clock := by
  obtain ⟨point, hpoint, h⟩ := Option.bind_eq_some_iff.mp h
  obtain ⟨resumed, hresumed, heq⟩ := Option.map_eq_some_iff.mp h
  cases heq
  rw [hpoint] at hstands
  exact ⟨point, hpoint, resume_moves hladder (stands_inPass hstands) hresumed, Nat.le_add_right _ _⟩

theorem run_stands (hladder : ladder.Pairwise (· ≤ ·)) {allowed : List Effect → PassState → PassInput → Prop}
    (h : PassRun config ladder allowed clock inputs log s) :
    Stands config ladder log s.clock s.point ∧ Climbing config ladder log := by
  refine h.invariant (fun log s => Stands config ladder log s.clock s.point ∧ Climbing config ladder log)
    ⟨rfl, ⟨by simp [commands], by simp [commands], by simp [commands], .nil⟩⟩ ?_
  intro log s i s' effects hinv _ hstep
  obtain ⟨point, hpoint, hmoves, hclock⟩ := passStep_moves hladder hinv.1 hstep
  rw [hpoint] at hinv
  exact ⟨moves_stands hclock hinv.1 hmoves, moves_climbing hladder hinv.2 hinv.1 hmoves⟩

theorem meetsAt_of_meets {point : TaskPoint} (hpoint : s.point = some point) :
    MeetsAt config log point i.answer ↔ Meets config log s i := by
  rw [MeetsAt, Meets, hpoint]
  simp only [Option.some.injEq]

/-- A run whose steps all meet the condition keeps all promises. -/
theorem run_keeping (hladder : ladder.Pairwise (· ≤ ·))
    (h : PassRun config ladder (Meets config) clock inputs log s) : Keeping config ladder log s.point := by
  induction h with
  | nil =>
    refine ⟨by simp [Uncooled], fun before rung floor after next heq => ?_⟩
    simp at heq
  | snoc before ok taken ih =>
    obtain ⟨hstands, _⟩ := run_stands hladder before
    obtain ⟨point, hpoint, hmoves, _⟩ := passStep_moves hladder hstands taken
    rw [hpoint] at ih hstands
    exact moves_keeping ih hstands ((meetsAt_of_meets hpoint).mpr ok) hmoves

/-- Either every step met the condition, or the run is broken. -/
theorem run_meets_or_broken (hladder : ladder.Pairwise (· ≤ ·))
    (h : PassRun config ladder (fun _ _ _ => True) clock inputs log s) :
    PassRun config ladder (Meets config) clock inputs log s ∨ Broken config ladder log s.point := by
  induction h with
  | nil => exact .inl .nil
  | @snoc inputs log s i s' effects before _ taken ih =>
    obtain ⟨hstands, _⟩ := run_stands hladder before
    obtain ⟨point, hpoint, hmoves, _⟩ := passStep_moves hladder hstands taken
    rw [hpoint] at ih hstands
    rcases ih with hmeeting | hbroken
    · by_cases hmeets : Meets config log s i
      · exact .inl (hmeeting.snoc hmeets taken)
      · rw [← meetsAt_of_meets hpoint] at hmeets
        exact .inr (broken_of_not_meets hstands hmeets hmoves)
    · exact .inr (moves_broken hbroken hstands hmoves)

end Run

/-- On any ladder the promises hold in every run whose steps meet the condition, and a pass that has ended
kept them only if its steps did. -/
theorem selects_iff_meets (config : CoolingConfig) (coolerTargetsC : List Int) (clock : Nat)
    {inputs : List PassInput} {log : List Effect} {s : PassState}
    (h : PassRun config (ladderOf coolerTargetsC) (fun _ _ _ => True) clock inputs log s) :
    (PassRun config (ladderOf coolerTargetsC) (Meets config) clock inputs log s →
      Selects config (ladderOf coolerTargetsC) log (s.point = none)) ∧
    (s.point = none → Selects config (ladderOf coolerTargetsC) log True →
      PassRun config (ladderOf coolerTargetsC) (Meets config) clock inputs log s) := by
  have hladder := ladderOf_pairwise coolerTargetsC
  constructor
  · intro hmeeting
    obtain ⟨_, hlowest, honLadder, hclimbs, hmoves⟩ := run_stands hladder h
    obtain ⟨huncooled, hbackstop⟩ := run_keeping hladder hmeeting
    refine ⟨hlowest, honLadder, hclimbs, hmoves, huncooled, ?_⟩
    intro hended before rung floor after next hlog hexpired hclears
    rcases hbackstop before rung floor after next hlog hexpired hclears with
      hfailed | ⟨_, _, _, _, hpoint⟩ | hlate
    · exact .inl hfailed
    · rw [hended] at hpoint
      cases hpoint
    · rw [hended] at hlate
      exact absurd hlate id
  · intro hended hselects
    rcases run_meets_or_broken hladder h with hmeeting | hbroken
    · exact hmeeting
    · rw [hended] at hbroken
      exact absurd hselects hbroken.not_selects

namespace Evaluation

open CoolingConfig (seconds)

/-- Two targets, a window of ten seconds and a deadline at half a minute. -/
def config : CoolingConfig :=
  { CoolingConfig.default with plateauWindow := seconds 10, maxCooldown := seconds 30 }

def targets : List Int := [-20, -10]

theorem ladderOf_targets : ladderOf targets = [-20, -10] :=
  List.mergeSort_eq_self (· ≤ ·) (by simp [targets])

/-- The pass commands its lowest rung, and power cannot be read. -/
def opening : List PassInput := [⟨0, .flag (some false)⟩, ⟨0, .done true⟩, ⟨0, .done true⟩]

/-- One poll of the temperature, on time. -/
def poll (temp : ℚ) : List PassInput := [⟨seconds 10, .woke⟩, ⟨0, .number (some temp)⟩]

/-- What is read, and nothing was measured before. -/
def steady (_ : List Effect) (s : PassState) (i : PassInput) : Prop :=
  (match s.point, i.answer with
    | some (.temperature phase _ _), .number (some _) => phase.floorC.isNone
    | some (.temperature _ _ _), .number none => false
    | _, _ => true) = true

instance (log : List Effect) (s : PassState) (i : PassInput) : Decidable (steady log s i) :=
  inferInstanceAs (Decidable (_ = true))

/-- The log of a pass that reaches its lowest rung. -/
def held : List Effect :=
  [.setCommanded (-20), .command (-20), .coolerOn, .setRung (-20), .regulating (-20) 0,
    .sampled ⟨seconds 10, -19, none⟩, .sampled ⟨seconds 20, -20, none⟩,
    .emit (.coolerStabilized (-20) none none)]

/-- The lowest rung is reached and held. -/
theorem held_selects : EndsAt held (-20) ∧
    Selects config (ladderOf targets) held ((⟨seconds 20, none⟩ : PassState).point = none) := by
  have hsteady : PassRun config [-20, -10] steady 0 (opening ++ poll (-19) ++ poll (-20)) held
      ⟨seconds 20, none⟩ := .of_play (by decide +kernel)
  rw [← ladderOf_targets] at hsteady
  have hmeets : ∀ (log : List Effect) (s : PassState) (i : PassInput), steady log s i → Meets config log s i := by
    intro log s i h phase powerReadable polled hpoint
    rw [steady, hpoint] at h
    refine ⟨fun temp hanswer hmeasured => ?_, fun hanswer => ?_⟩
    · rw [hanswer] at h
      simp [Option.isNone_iff_eq_none.mp h] at hmeasured
    · rw [hanswer] at h
      cases h
  have hmeeting := hsteady.mono hmeets
  have hrun := hsteady.mono fun _ _ _ _ => trivial
  exact ⟨⟨_, _, rfl⟩, (selects_iff_meets config targets 0 hrun).1 hmeeting⟩

/-- The log of a pass that is still cooling at its deadline. -/
def overrun : List Effect :=
  [.setCommanded (-20), .command (-20), .coolerOn, .setRung (-20), .regulating (-20) 0,
    .sampled ⟨seconds 10, 5, none⟩, .sampled ⟨seconds 20, -8, none⟩, .sampled ⟨seconds 30, -14, none⟩,
    .floor (-20) (-14), .command (-10), .setRung (-10), .regulating (-10) (seconds 30),
    .sampled ⟨seconds 40, -13, none⟩, .floor (-10) (-13), .coolerOff, .clearState,
    .emit (.coolerUnreachable (-13) (some (-10)))]

/-- The camera is at -14 degrees when the deadline comes. The pass moves to -10 degrees, the lowest rung
that clears it, and switches the cooler off at the next poll. -/
theorem backstop_uncooled :
    PassRun config (ladderOf targets) (fun _ _ _ => True) 0
      (opening ++ poll 5 ++ poll (-8) ++ poll (-14) ++ [⟨0, .done true⟩] ++ poll (-13) ++ [⟨0, .done true⟩])
      overrun ⟨seconds 40, none⟩ ∧
    Expired config (overrun.take 8) ∧ LowestClearing config (ladderOf targets) (-20) (-14) (-10) ∧
    Uncooled overrun ∧ ¬ Selects config (ladderOf targets) overrun True := by
  rw [ladderOf_targets]
  have hexpired : Expired config (overrun.take 8) := ⟨0, _, rfl, rfl, by decide⟩
  have hlowest : LowestClearing config [-20, -10] (-20) (-14) (-10) := by
    refine ⟨by simp, by decide, by decide +kernel, ?_⟩
    intro other hmem habove _
    simp at hmem
    omega
  refine ⟨.of_play (by decide +kernel), hexpired, hlowest, .inl (by simp [overrun]), fun hselects => ?_⟩
  rcases hselects.backstop trivial (overrun.take 8) (-20) (-14) _ (-10) rfl hexpired hlowest with
    ⟨_, hno⟩ | ⟨_, _, hno⟩
  · cases hno
  · cases hno

end Evaluation

end RustyPhoton.Rp.Cooling
