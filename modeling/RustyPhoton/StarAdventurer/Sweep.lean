import RustyPhoton.StarAdventurer.Slew

/-!
# The sweep of an RA goto

A goto turns the polar axis from where it rests by a number of counts. The path check of the planner
is exact for a turn of up to a revolution from a folded hour angle. Every slew's first goto passes
it; a pickup and a park are sent without it.
-/

namespace RustyPhoton.StarAdventurer

/-- No hour angle on the way lies in the open zone or in one of its replicas. -/
def ClearOf (zone : ℚ × ℚ) (startHa deltaHa : ℚ) : Prop :=
  ∀ (k : ℤ) (ha : ℚ), min startHa (startHa + deltaHa) ≤ ha → ha ≤ max startHa (startHa + deltaHa) →
    ¬ (zone.1 + 24 * k < ha ∧ ha < zone.2 + 24 * k)

/-- Where the polar axis rests. -/
def restHa (ticks : ℤ) (params : MountParameters) : ℚ := ((RaTicks.mk ticks).toMechHa params.cprRa).value

/-- The sweep of a goto by a number of counts, from rest at a count. -/
def SweepClear (zone : ActiveZone) (params : MountParameters) (restTicks delta : ℤ) : Prop :=
  ClearOf (zone.minHours, zone.maxHours) (restHa restTicks params) (deltaHa delta params.cprRa)

/-- The path check of the planner, on the same sweep. -/
def pathCheck (zone : ActiveZone) (params : MountParameters) (restTicks delta : ℤ) : Bool :=
  !pathCrossesBindingZone (restHa restTicks params) (deltaHa delta params.cprRa)
    (zone.minHours, zone.maxHours)

theorem pathCrosses_iff {zone : ℚ × ℚ} (hzone : zone.1 < zone.2) {start delta : ℚ} :
    pathCrossesBindingZone start delta zone = true ↔ ∃ k : ℚ, (k = -1 ∨ k = 0 ∨ k = 1) ∧
      min start (start + delta) < zone.2 + 24 * k ∧ zone.1 + 24 * k < max start (start + delta) := by
  unfold pathCrossesBindingZone
  rw [if_neg (not_le.mpr hzone)]
  simp only [List.any_eq_true, List.mem_cons, List.not_mem_nil, or_false, decide_eq_true_eq]

/-- Two intervals that overlap have a point in common. -/
theorem exists_between {a b c d : ℚ} (hab : a ≤ b) (hcd : c < d) (had : a < d) (hcb : c < b) :
    ∃ x, a ≤ x ∧ x ≤ b ∧ c < x ∧ x < d := by
  refine ⟨(max a c + min b d) / 2, ?_, ?_, ?_, ?_⟩
  all_goals
    rcases le_total a c with hac | hac <;> rcases le_total b d with hbd | hbd <;>
      simp only [hac, hbd, max_eq_left, max_eq_right, min_eq_left, min_eq_right] <;> linarith

/-- The path check is exact for a turn of up to a revolution. -/
theorem clearOf_iff {zone : ActiveZone} {start delta : ℚ} (hstart : -12 ≤ start ∧ start < 12)
    (hdelta : |delta| ≤ 24) :
    ClearOf (zone.minHours, zone.maxHours) start delta ↔
      pathCrossesBindingZone start delta (zone.minHours, zone.maxHours) = false := by
  have hzone := zone.ordered
  have hband := zone.band
  rw [← Bool.not_eq_true, pathCrosses_iff (by exact hzone)]
  obtain ⟨hlow, hhigh⟩ := abs_le.mp hdelta
  constructor
  · rintro hclear ⟨k, hk, hlo, hhi⟩
    obtain ⟨ha, hge, hle, hin⟩ :=
      exists_between (min_le_max (a := start) (b := start + delta))
        (show zone.minHours + 24 * k < zone.maxHours + 24 * k by linarith) hlo hhi
    obtain ⟨n, rfl⟩ : ∃ n : ℤ, k = n := by
      rcases hk with rfl | rfl | rfl
      · exact ⟨-1, by norm_num⟩
      · exact ⟨0, by norm_num⟩
      · exact ⟨1, by norm_num⟩
    exact hclear n ha hge hle hin
  · intro hnone k ha hge hle hin
    have hlow' : -36 ≤ min start (start + delta) := le_min (by linarith) (by linarith)
    have hhigh' : max start (start + delta) < 36 := max_lt (by linarith) (by linarith)
    -- a replica beyond the neighbours is out of the sweep's reach
    have hk : (-1 : ℤ) ≤ k ∧ k ≤ 1 := by
      constructor
      · by_contra hnot
        have hk : (k : ℚ) ≤ -2 := by exact_mod_cast (by omega : k ≤ -2)
        have := hin.2
        simp only at this
        linarith [hband.2]
      · by_contra hnot
        have hk : (2 : ℚ) ≤ k := by exact_mod_cast (by omega : 2 ≤ k)
        have := hin.1
        simp only at this
        linarith [hband.1]
    refine hnone ⟨k, ?_, lt_of_le_of_lt hge hin.2, lt_of_lt_of_le hin.1 hle⟩
    have hcases : k = -1 ∨ k = 0 ∨ k = 1 := by omega
    rcases hcases with rfl | rfl | rfl <;> simp

/-! ## The turns -/

section

variable {cpr : Cpr} {params : MountParameters} {zone : ActiveZone}

/-- A turn of up to a revolution. -/
theorem abs_deltaHa_le {delta : ℤ} (h : |delta| ≤ cpr.get) : |deltaHa delta cpr| ≤ 24 := by
  unfold deltaHa
  by_cases hzero : cpr.get = 0
  · rw [hzero]
    norm_num
  · have hpos : (0 : ℚ) < cpr.get := by exact_mod_cast Nat.pos_of_ne_zero hzero
    have hle : |(delta : ℚ)| ≤ cpr.get := by exact_mod_cast h
    rw [abs_div, abs_mul, abs_of_pos hpos, abs_of_pos (by norm_num : (0 : ℚ) < 24),
      div_le_iff₀ hpos]
    linarith

theorem sweepClear_iff {restTicks delta : ℤ} (h : |delta| ≤ params.cprRa.get) :
    SweepClear zone params restTicks delta ↔ pathCheck zone params restTicks delta = true := by
  unfold SweepClear pathCheck
  rw [Bool.not_eq_true']
  exact clearOf_iff ((RaTicks.mk restTicks).toMechHa params.cprRa).band (abs_deltaHa_le h)

/-- The short way is half a revolution at most. -/
theorem abs_canonicalDeltaSince_le (hpos : 0 < cpr.get) (ticks prev : RaTicks) :
    |(ticks.canonicalDeltaSince prev cpr).value| ≤ cpr.get := by
  obtain ⟨-, hlow, hhigh⟩ :=
    foldTicksCanonical_spec hpos (saturate (ticks.value - prev.value))
  rw [abs_le]
  unfold RaTicks.canonicalDeltaSince RaTicks.foldToCanonicalBand
  dsimp only
  omega

/-- The long way is less than a revolution. -/
theorem abs_longWay_le {delta : ℤ} (h : |delta| ≤ cpr.get) :
    |longWay delta cpr| ≤ cpr.get := by
  have hwire := cpr.wire
  rw [abs_le] at h ⊢
  unfold longWay
  split
  · rw [saturate_eq (by omega) (by omega)]
    omega
  · rw [saturate_eq (by omega) (by omega)]
    omega

/-- An axis that does not turn stays where it is. -/
theorem clearOf_zero {start : ℚ} (hrest : ∀ k : ℤ,
    ¬ (zone.minHours + 24 * k < start ∧ start < zone.maxHours + 24 * k)) :
    ClearOf (zone.minHours, zone.maxHours) start 0 := by
  intro k ha hge hle
  rw [add_zero, min_self] at hge
  rw [add_zero, max_self] at hle
  rw [le_antisymm hle hge]
  exact hrest k

/-- A folded hour angle outside the zone is outside its replicas. -/
theorem outside_replicas {start : ℚ} (hstart : -12 ≤ start ∧ start < 12)
    (hout : mechHaInBindingZone start (zone.minHours, zone.maxHours) = false) (k : ℤ) :
    ¬ (zone.minHours + 24 * k < start ∧ start < zone.maxHours + 24 * k) := by
  intro hin
  have hband := zone.band
  have hk : k = 0 := by
    by_contra hnot
    rcases lt_or_gt_of_ne hnot with hneg | hpos
    · have hk : (k : ℚ) ≤ -1 := by exact_mod_cast (by omega : k ≤ -1)
      linarith [hin.2, hband.2]
    · have hk : (1 : ℚ) ≤ k := by exact_mod_cast (by omega : 1 ≤ k)
      linarith [hin.1, hband.1]
  subst hk
  have hinside : mechHaInBindingZone start (zone.minHours, zone.maxHours) = true := by
    refine decide_eq_true ⟨zone.ordered, ?_, ?_⟩
    · simpa using hin.1
    · simpa using hin.2
  rw [hout] at hinside
  cases hinside

/-- A turn of no counts, or one that is not counted in hours, clears the zone from outside it. -/
theorem sweepClear_still {restTicks delta : ℤ} (h : params.cprRa.get = 0 ∨ delta = 0)
    (hout : mechHaInBindingZone (restHa restTicks params) (zone.minHours, zone.maxHours) = false) :
    SweepClear zone params restTicks delta := by
  have hzero : deltaHa delta params.cprRa = 0 := by
    unfold deltaHa
    rcases h with h | h <;> rw [h] <;> norm_num
  unfold SweepClear
  rw [hzero]
  exact clearOf_zero (outside_replicas ((RaTicks.mk restTicks).toMechHa params.cprRa).band hout)

variable {texts : SlewTexts} {config : SiteConfig}

/-- What the way of a flip comes to. -/
theorem flipSlewRaDelta_ok {canonical ticks delta : ℤ}
    (h : flipSlewRaDelta texts canonical ticks params.cprRa (zone.minHours, zone.maxHours) =
      .ok delta) :
    ((params.cprRa.get = 0 ∨ delta = 0) ∧ delta = canonical) ∨
      (pathCheck zone params ticks delta = true ∧
        (delta = canonical ∨ delta = longWay canonical params.cprRa)) := by
  unfold flipSlewRaDelta at h
  by_cases hstill : params.cprRa.get = 0 ∨ canonical = 0
  · rw [if_pos hstill] at h
    cases h
    exact .inl ⟨hstill, rfl⟩
  · rw [if_neg hstill] at h
    dsimp only at h
    split at h
    · cases h
      exact .inr ⟨‹_›, .inl rfl⟩
    · split at h <;> cases h
      exact .inr ⟨‹_›, .inr rfl⟩

theorem checkNonFlipRaPath_ok {canonical ticks : ℤ}
    (h : checkNonFlipRaPath texts canonical ticks params.cprRa (zone.minHours, zone.maxHours) =
      .ok ()) :
    (params.cprRa.get = 0 ∨ canonical = 0) ∨ pathCheck zone params ticks canonical = true := by
  unfold checkNonFlipRaPath at h
  by_cases hstill : params.cprRa.get = 0 ∨ canonical = 0
  · exact .inl hstill
  · rw [if_neg hstill] at h
    dsimp only at h
    split at h
    · exact .inr ‹_›
    · cases h

theorem bind_ok {ε α β : Type} {x : Except ε α} {f : α → Except ε β} {b : β}
    (h : (x >>= f) = .ok b) : ∃ a, x = .ok a ∧ f a = .ok b := by
  cases x with
  | error e => cases h
  | ok a => exact ⟨a, rfl, h⟩

/-- The RA way of a plan clears the zone. -/
theorem slewAxisDeltas_clear (hzone : config.cwExclusionZone = .active zone) {snap : MountSnapshot}
    {raTicks : RaTicks} {decTicks : DecTicks} {side : PierSide} {deltas : ℤ × ℤ}
    (h : slewAxisDeltas texts config snap params raTicks decTicks side = .ok deltas)
    (hout : mechHaInBindingZone (restHa snap.ra.positionTicks params)
      (zone.minHours, zone.maxHours) = false) :
    SweepClear zone params snap.ra.positionTicks deltas.1 := by
  have hcanonical : params.cprRa.get ≠ 0 →
      |(raTicks.canonicalDeltaSince ⟨snap.ra.positionTicks⟩ params.cprRa).value| ≤
        params.cprRa.get := fun hne => abs_canonicalDeltaSince_le (Nat.pos_of_ne_zero hne) _ _
  unfold slewAxisDeltas at h
  dsimp only at h
  generalize (raTicks.canonicalDeltaSince ⟨snap.ra.positionTicks⟩ params.cprRa).value = canonical
    at h hcanonical
  rw [hzone] at h
  by_cases hzero : params.cprRa.get = 0
  · exact sweepClear_still (.inl hzero) hout
  split at h
  · -- a flip
    obtain ⟨delta, hra, hrest⟩ := bind_ok h
    cases hrest
    show SweepClear zone params snap.ra.positionTicks delta
    rcases flipSlewRaDelta_ok hra with ⟨hstill, -⟩ | ⟨hcheck, rfl | rfl⟩
    · exact sweepClear_still hstill hout
    · exact (sweepClear_iff (hcanonical hzero)).mpr hcheck
    · exact (sweepClear_iff (abs_longWay_le (hcanonical hzero))).mpr hcheck
  · obtain ⟨_, hpath, hrest⟩ := bind_ok h
    obtain ⟨delta, hdelta, hrest⟩ := bind_ok hrest
    cases hdelta
    cases hrest
    show SweepClear zone params snap.ra.positionTicks canonical
    rcases checkNonFlipRaPath_ok hpath with hstill | hcheck
    · exact sweepClear_still hstill hout
    · exact (sweepClear_iff (hcanonical hzero)).mpr hcheck

end

/-! ## The gotos of the driver -/

/-- The RA gotos the driver starts, by the count the axis rests at and the counts it turns by. A
slew's plan is read and sent while the axes are held; a pickup's counts may be older than its
start. -/
inductive RaGoto (texts : SlewTexts) (config : SiteConfig) (params : MountParameters) : ℤ → ℤ → Prop
  | slew (ra dec : ℚ) (side : SideChoice) (snap : MountSnapshot) (lst : Lst) (plan : SlewPlan)
      (planned : planSlew texts config ra dec side snap lst params = .ok plan) :
      RaGoto texts config params snap.ra.positionTicks plan.raDelta
  | pickup (ra dec : ℚ) (side : Option PierSide) (lst : Lst) (projection : ℕ)
      (snap : MountSnapshot) (restTicks : ℤ) :
      RaGoto texts config params restTicks
        (pickupDeltas ra dec side lst projection params config.siteLatitudeDeg snap).1
  | park (restTicks targetTicks : ℤ) :
      RaGoto texts config params restTicks ((parkGoto restTicks targetTicks).delta restTicks)

/-- The first goto of every slew clears the zone. A pickup's does just where it passes the planner's
path check, which it is not put to. -/
theorem slew_clear_and_pickup_iff (texts : SlewTexts) (config : SiteConfig)
    (params : MountParameters) (zone : ActiveZone) (hzone : config.cwExclusionZone = .active zone) :
    (∀ ra dec side snap lst plan, planSlew texts config ra dec side snap lst params = .ok plan →
      mechHaInBindingZone (restHa snap.ra.positionTicks params)
        (zone.minHours, zone.maxHours) = false →
      SweepClear zone params snap.ra.positionTicks plan.raDelta) ∧
    ∀ ra dec side lst projection snap restTicks, 0 < params.cprRa.get →
      (SweepClear zone params restTicks
          (pickupDeltas ra dec side lst projection params config.siteLatitudeDeg snap).1 ↔
        pathCheck zone params restTicks
          (pickupDeltas ra dec side lst projection params config.siteLatitudeDeg snap).1 = true) := by
  constructor
  · intro ra dec side snap lst plan hplan hout
    unfold planSlew at hplan
    dsimp only at hplan
    obtain ⟨_, -, hplan⟩ := bind_ok hplan
    obtain ⟨deltas, hdeltas, hdone⟩ := bind_ok hplan
    cases hdone
    exact slewAxisDeltas_clear hzone hdeltas hout
  · intro ra dec side lst projection snap restTicks hpos
    refine sweepClear_iff ?_
    unfold pickupDeltas
    dsimp only
    split <;> exact abs_canonicalDeltaSince_le hpos _ _

/-- The shipped zone, at a latitude of 45 degrees. -/
def shippedZone : ActiveZone := ⟨19 / 20, 221 / 20, by norm_num, by norm_num⟩

def shippedConfig : SiteConfig := ⟨45, .active shippedZone, 0⟩

/-- Two axes of 3 628 800 counts a revolution. -/
def shippedParams : MountParameters := ⟨⟨3628800, by norm_num⟩, ⟨3628800, by norm_num⟩⟩

/-- Every target stands at the zenith, and numbers print as nothing. -/
def plainTexts : SlewTexts := ⟨fun _ _ _ _ => 90, fun _ => "", fun _ => "", fun _ => ""⟩

/-- A slew from the meridian to two hours east of it. -/
theorem slew_clear_of_east :
    planSlew plainTexts shippedConfig 12 0 .reachable ⟨⟨0, false⟩, ⟨0, false⟩⟩ (.new 10)
      shippedParams = .ok ⟨.west, -302400, 0⟩ ∧
    SweepClear shippedZone shippedParams 0 (-302400) := by
  have hplan : planSlew plainTexts shippedConfig 12 0 .reachable ⟨⟨0, false⟩, ⟨0, false⟩⟩ (.new 10)
      shippedParams = .ok ⟨.west, -302400, 0⟩ := by decide +kernel
  have hout : mechHaInBindingZone (restHa 0 shippedParams)
      (shippedZone.minHours, shippedZone.maxHours) = false := by decide +kernel
  exact ⟨hplan, (slew_clear_and_pickup_iff plainTexts shippedConfig shippedParams shippedZone rfl).1
    12 0 .reachable ⟨⟨0, false⟩, ⟨0, false⟩⟩ (.new 10) ⟨.west, -302400, 0⟩ hplan hout⟩

/-- A park from the meridian to a target eleven and a half hours past it, which is outside the zone
as well, sweeps the whole zone. -/
theorem park_not_clear : ¬ ∀ restTicks delta,
    RaGoto plainTexts shippedConfig shippedParams restTicks delta →
    mechHaInBindingZone (restHa restTicks shippedParams)
      (shippedZone.minHours, shippedZone.maxHours) = false →
    SweepClear shippedZone shippedParams restTicks delta := by
  intro hall
  have hclear := hall 0 _ (.park 0 1738800) (by decide +kernel)
  have hcheck := (sweepClear_iff (by decide +kernel)).mp hclear
  have hcross : pathCheck shippedZone shippedParams 0 ((parkGoto 0 1738800).delta 0) = false := by
    decide +kernel
  rw [hcross] at hcheck
  cases hcheck

end RustyPhoton.StarAdventurer
