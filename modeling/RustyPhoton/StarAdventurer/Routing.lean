import RustyPhoton.StarAdventurer.Pointing
import RustyPhoton.StarAdventurer.Sweep

/-!
# Routing a flip

The path check is exact on every replica of the zone, and the ways a flip takes are the planner's own.
The RA way never crosses the zone where one of the two does not, and a side that the selector found
usable is not refused. The Dec way avoids the pole below the horizon wherever an end of it is not
that pole.
-/

namespace RustyPhoton.StarAdventurer

open Lib.Circle

/-! ## The path check -/

/-- A sweep meets the zone, shifted by whole days: strictly inside, or where the axis rests when it
does not turn. -/
def Meets (zone : ℚ × ℚ) (start delta : ℚ) (k : ℤ) : Prop :=
  if delta = 0 then zone.1 + 24 * k < start ∧ start < zone.2 + 24 * k
  else ∃ ha, min start (start + delta) < ha ∧ ha < max start (start + delta) ∧
    zone.1 + 24 * k < ha ∧ ha < zone.2 + 24 * k

theorem meets_iff {zone : ℚ × ℚ} (hzone : zone.1 < zone.2) {start delta : ℚ} {k : ℤ} :
    Meets zone start delta k ↔
      min start (start + delta) < zone.2 + 24 * k ∧ zone.1 + 24 * k < max start (start + delta) := by
  unfold Meets
  split
  · next hzero =>
      rw [hzero, add_zero, min_self, max_self]
      exact and_comm
  · next hturn =>
      constructor
      · rintro ⟨ha, hlo, hhi, hlow, hhigh⟩
        exact ⟨hlo.trans hhigh, hlow.trans hhi⟩
      · intro ⟨hlo, hhi⟩
        have hopen : min start (start + delta) < max start (start + delta) :=
          min_lt_max.mpr fun h => hturn (by linarith)
        have hshift : zone.1 + 24 * k < zone.2 + 24 * k := by linarith
        obtain ⟨ha, hleft, hright⟩ := DenselyOrdered.dense _ _
          (max_lt (lt_min hopen hlo) (lt_min hhi hshift))
        obtain ⟨hleft, hlow⟩ := max_lt_iff.mp hleft
        obtain ⟨hright, hhigh⟩ := lt_min_iff.mp hright
        exact ⟨ha, hleft, hright, hlow, hhigh⟩

/-- The check finds every replica of the zone that a turn of up to a revolution meets. -/
theorem pathCrosses_iff_meets {zone : ℚ × ℚ} (hzone : zone.1 < zone.2)
    (hband : -12 ≤ zone.1 ∧ zone.2 ≤ 12) {start delta : ℚ} (hstart : -12 ≤ start ∧ start < 12)
    (hdelta : |delta| ≤ 24) :
    (pathCrossesBindingZone start delta zone = true ↔ ∃ k, Meets zone start delta k) ∧
      ∀ k, Meets zone start delta k → k = -1 ∨ k = 0 ∨ k = 1 := by
  obtain ⟨hlow, hhigh⟩ := abs_le.mp hdelta
  have hmin : -36 ≤ min start (start + delta) := le_min (by linarith) (by linarith)
  have hmax : max start (start + delta) < 36 := max_lt (by linarith) (by linarith)
  have hnear : ∀ k, Meets zone start delta k → k = -1 ∨ k = 0 ∨ k = 1 := by
    intro k hmeets
    obtain ⟨hlo, hhi⟩ := (meets_iff hzone).mp hmeets
    have hk : (-2 : ℚ) < k ∧ (k : ℚ) < 2 := by constructor <;> linarith
    have hk : -2 < k ∧ k < 2 := by exact_mod_cast hk
    omega
  refine ⟨?_, hnear⟩
  rw [pathCrosses_iff hzone]
  constructor
  · rintro ⟨k, rfl | rfl | rfl, h⟩
    · exact ⟨-1, (meets_iff hzone).mpr (by simpa using h)⟩
    · exact ⟨0, (meets_iff hzone).mpr (by simpa using h)⟩
    · exact ⟨1, (meets_iff hzone).mpr (by simpa using h)⟩
  · rintro ⟨k, h⟩
    refine ⟨k, ?_, (meets_iff hzone).mp h⟩
    rcases hnear k h with rfl | rfl | rfl <;> simp

/-! ## The RA way -/

section ra

variable {cpr : Cpr} {texts : SlewTexts} {config : SiteConfig} {params : MountParameters}
  {canonical raw delta : ℤ} {zone : ℚ × ℚ}

/-- Whether the sweep by a number of counts from a raw count crosses the zone. -/
def Crosses (zone : ℚ × ℚ) (cpr : Cpr) (raw delta : ℤ) : Prop :=
  pathCrossesBindingZone ((RaTicks.mk raw).toMechHa cpr).value (deltaHa delta cpr) zone = true

theorem longWay_eq (h : |canonical| ≤ cpr.get) :
    longWay canonical cpr = if 0 < canonical then canonical - cpr.get else canonical + cpr.get := by
  have hwire := cpr.wire
  rw [abs_le] at h
  unfold longWay
  split <;> exact saturate_eq (by omega) (by omega)

/-- A flip that turns goes a way that does not cross, and is refused where both cross. -/
theorem flipSlewRaDelta_cases (texts : SlewTexts) (raw : ℤ) (zone : ℚ × ℚ) (hpos : 0 < cpr.get)
    (hturn : canonical ≠ 0) :
    (∃ delta, flipSlewRaDelta texts canonical raw cpr zone = .ok delta ∧
      (delta = canonical ∨ delta = longWay canonical cpr) ∧ ¬ Crosses zone cpr raw delta ∧
      ¬ (Crosses zone cpr raw canonical ∧ Crosses zone cpr raw (longWay canonical cpr))) ∨
    (∃ e, flipSlewRaDelta texts canonical raw cpr zone = .error e) ∧
      Crosses zone cpr raw canonical ∧ Crosses zone cpr raw (longWay canonical cpr) := by
  unfold flipSlewRaDelta Crosses
  rw [if_neg (by omega)]
  dsimp only
  by_cases hshort : pathCrossesBindingZone ((RaTicks.mk raw).toMechHa cpr).value
      (deltaHa canonical cpr) zone = true
  · by_cases hlong : pathCrossesBindingZone ((RaTicks.mk raw).toMechHa cpr).value
        (deltaHa (longWay canonical cpr) cpr) zone = true
    · refine .inr ⟨?_, hshort, hlong⟩
      rw [hshort, hlong]
      exact ⟨_, rfl⟩
    · exact .inl ⟨longWay canonical cpr, by simp [hshort, hlong], .inr rfl, hlong,
        fun h => hlong h.2⟩
  · exact .inl ⟨canonical, by simp [hshort], .inl rfl, hshort, fun h => hshort h.1⟩

/-- The hours of the shortest way are the fold of the hours between the two places. -/
theorem deltaHa_canonicalDeltaSince (hpos : 0 < cpr.get) (heven : 2 ∣ cpr.get) {n : ℤ} {target : ℚ}
    (hband : -12 ≤ target ∧ target < 12) (hwhole : target * cpr.get / 24 = n)
    (hroom : |raw| + cpr.get ≤ 2147483647) :
    deltaHa ((RaTicks.mk n).canonicalDeltaSince ⟨raw⟩ cpr).value cpr =
      (MechHa.new (target - ((RaTicks.mk raw).toMechHa cpr).value)).value := by
  have hcpr : (0 : ℚ) < cpr.get := by exact_mod_cast hpos
  have hn : -(cpr.get : ℤ) ≤ n ∧ n ≤ cpr.get := by
    have hq : -(cpr.get : ℚ) ≤ n ∧ (n : ℚ) ≤ cpr.get := by
      rw [← hwhole]
      constructor
      · rw [le_div_iff₀ (by norm_num)]
        nlinarith
      · rw [div_le_iff₀ (by norm_num)]
        nlinarith
    exact_mod_cast hq
  obtain ⟨hlow, hhigh⟩ := abs_le.mp (show |raw| ≤ 2147483647 - cpr.get by omega)
  have hfits : saturate (n - raw) = n - raw := saturate_eq (by omega) (by omega)
  obtain ⟨⟨m, hm⟩, hbandLow, hbandHigh⟩ := foldTicksCanonical_spec hpos (n - raw)
  have hvalue : ((RaTicks.mk n).canonicalDeltaSince ⟨raw⟩ cpr).value =
      foldTicksCanonical (n - raw) cpr := by
    show foldTicksCanonical (saturate (n - raw)) cpr = _
    rw [hfits]
  rw [hvalue]
  generalize foldTicksCanonical (n - raw) cpr = folded at hm hbandLow hbandHigh ⊢
  obtain ⟨j, hj⟩ := exists_foldToSigned ((raw : ℚ) * 24 / cpr.get) 24
  have hcur : ((RaTicks.mk raw).toMechHa cpr).value = (raw : ℚ) * 24 / cpr.get - 24 * j := by
    rw [RaTicks.toMechHa, if_neg hpos.ne']
    exact hj
  have hband : -(cpr.get : ℚ) ≤ 2 * folded ∧ 2 * (folded : ℚ) < cpr.get := by
    have hint : -(cpr.get : ℤ) ≤ 2 * folded ∧ 2 * folded < cpr.get := by omega
    exact_mod_cast hint
  rw [hcur]
  symm
  refine foldToSigned_eq (by norm_num) ?_ ?_ (k := j - m) ?_
  · rw [deltaHa, le_div_iff₀ hcpr]
    linarith
  · rw [deltaHa, div_lt_iff₀ hcpr]
    linarith
  · have htarget : target = n * 24 / cpr.get := by
      rw [← hwhole]
      field_simp
    rw [htarget, deltaHa, hm]
    push_cast
    field_simp
    ring

/-- The destination of a side, and whether the selector finds the side usable. -/
def targetMechHa (ra : Ra) (lst : Lst) (siteLatitudeDeg : ℚ) (side : PierSide) : MechHa :=
  if side = preFlipSide siteLatitudeDeg then (lst.hourAngleOf ra).toMech
  else (lst.hourAngleOf ra).toMech.flipped

def usable (ra : Ra) (lst : Lst) (current : PierSide) (currentMechHa : MechHa) (zone : ℚ × ℚ)
    (siteLatitudeDeg : ℚ) (side : PierSide) : Bool :=
  !mechHaInBindingZone (targetMechHa ra lst siteLatitudeDeg side).value zone &&
    raPathExists currentMechHa.value (targetMechHa ra lst siteLatitudeDeg side).value
      (side != current) zone

theorem selectPierSideForTarget_eq (ra : Ra) (lst : Lst) (current : PierSide) (currentMechHa : MechHa)
    (zone : ℚ × ℚ) (siteLatitudeDeg : ℚ) :
    selectPierSideForTarget ra lst current currentMechHa zone siteLatitudeDeg =
      if current = .unknown then .unknown
      else if usable ra lst current currentMechHa zone siteLatitudeDeg current then current
      else if usable ra lst current currentMechHa zone siteLatitudeDeg (oppositePierSide current) then
        oppositePierSide current
      else current := rfl

variable {ra : Ra} {lst : Lst} {side : PierSide}

/-- A target on a whole count is on one after a flip as well. -/
theorem targetMechHa_whole (heven : 2 ∣ cpr.get)
    (hwhole : ∃ n : ℤ, (lst.hourAngleOf ra).value * cpr.get / 24 = n) (siteLatitudeDeg : ℚ) :
    ∃ n : ℤ, (targetMechHa ra lst siteLatitudeDeg side).value * cpr.get / 24 = n := by
  obtain ⟨n, hn⟩ := hwhole
  obtain ⟨half, hhalf⟩ := heven
  have hcpr : (cpr.get : ℚ) = 2 * half := by exact_mod_cast hhalf
  obtain ⟨j, hj⟩ := exists_foldToSigned (lst.hourAngleOf ra).value 24
  have hmech : (lst.hourAngleOf ra).toMech.value = (lst.hourAngleOf ra).value - 24 * j := hj
  unfold targetMechHa
  split
  · refine ⟨n - j * cpr.get, ?_⟩
    rw [hmech]
    push_cast
    linarith
  · obtain ⟨i, hi⟩ := exists_foldToSigned ((lst.hourAngleOf ra).toMech.value + 12) 24
    have hflipped : (lst.hourAngleOf ra).toMech.flipped.value =
        (lst.hourAngleOf ra).toMech.value + 12 - 24 * i := hi
    refine ⟨n - j * cpr.get + half - i * cpr.get, ?_⟩
    rw [hflipped, hmech]
    push_cast
    linarith

/-- The counts of a target on a side are those of its destination there. -/
theorem targetEncoder_fst (hpos : 0 < params.cprRa.get) (dec : Dec) {siteLatitudeDeg : ℚ} (hside : side ≠ .unknown) {n : ℤ}
    (hn : (targetMechHa ra lst siteLatitudeDeg side).value * params.cprRa.get / 24 = n) :
    (targetEncoder (isFlippedSide side siteLatitudeDeg) ra dec lst params).1 = ⟨n⟩ := by
  have hticks : ((targetMechHa ra lst siteLatitudeDeg side).toTicks params.cprRa).value = n := by
    rw [toTicks_mechHa hpos, hn]
    exact le_antisymm (roundAway_le le_rfl) (le_roundAway le_rfl)
  rw [← hticks]
  unfold targetMechHa targetEncoder isFlippedSide
  by_cases hpre : side = preFlipSide siteLatitudeDeg
  · rw [if_pos hpre, if_neg (by simp [hpre])]
    rfl
  · rw [if_neg hpre, if_pos (by simp [hpre, hside])]
    rfl

/-- A side that the selector found usable has its RA way. -/
theorem slewAxisDeltas_of_usable (hpos : 0 < params.cprRa.get) (heven : 2 ∣ params.cprRa.get)
    {dec : Dec} {snap : MountSnapshot}
    (hroom : |snap.ra.positionTicks| + params.cprRa.get ≤ 2147483647)
    (hwhole : ∃ n : ℤ, (lst.hourAngleOf ra).value * params.cprRa.get / 24 = n)
    (hside : side ≠ .unknown)
    (husable : usable ra lst (sideOfPier ⟨snap.dec.positionTicks⟩ params.cprDec config.siteLatitudeDeg)
      ((RaTicks.mk snap.ra.positionTicks).toMechHa params.cprRa) config.cwExclusionZone.bounds
      config.siteLatitudeDeg side = true) :
    let (raTicks, decTicks) :=
      targetEncoder (isFlippedSide side config.siteLatitudeDeg) ra dec lst params
    ∃ deltas, slewAxisDeltas texts config snap params raTicks decTicks side = .ok deltas := by
  obtain ⟨n, hn⟩ : ∃ n : ℤ, (targetMechHa ra lst config.siteLatitudeDeg side).value *
      params.cprRa.get / 24 = n := targetMechHa_whole heven hwhole _
  have hticks := targetEncoder_fst hpos dec hside hn
  have hhours := deltaHa_canonicalDeltaSince hpos heven (targetMechHa ra lst config.siteLatitudeDeg
    side).band hn hroom
  have hle := abs_canonicalDeltaSince_le hpos ⟨n⟩ ⟨snap.ra.positionTicks⟩
  have hcpr : (0 : ℚ) < params.cprRa.get := by exact_mod_cast hpos
  unfold usable raPathExists at husable
  simp only [Bool.and_eq_true] at husable
  obtain ⟨-, hpath⟩ := husable
  dsimp only
  unfold slewAxisDeltas
  rw [hticks]
  dsimp only
  rw [← hhours] at hpath
  generalize (RaTicks.canonicalDeltaSince ⟨n⟩ ⟨snap.ra.positionTicks⟩ params.cprRa).value = canonical
    at hpath hle ⊢
  rw [bne_comm] at hpath
  by_cases hflip : (sideOfPier ⟨snap.dec.positionTicks⟩ params.cprDec config.siteLatitudeDeg != side) =
      true
  · rw [if_pos hflip]
    rw [hflip] at hpath
    by_cases hturn : canonical = 0
    · rw [flipSlewRaDelta, if_pos (.inr hturn)]
      exact ⟨_, rfl⟩
    rcases flipSlewRaDelta_cases texts snap.ra.positionTicks config.cwExclusionZone.bounds hpos
        hturn with
      ⟨delta, hok, -⟩ | ⟨-, hshort, hlong⟩
    · rw [hok]
      exact ⟨_, rfl⟩
    · -- the selector tried the same two ways
      have hway : (if 0 < deltaHa canonical params.cprRa then deltaHa canonical params.cprRa - 24
          else deltaHa canonical params.cprRa + 24) = deltaHa (longWay canonical params.cprRa)
            params.cprRa := by
        have hsign : 0 < deltaHa canonical params.cprRa ↔ 0 < canonical := by
          rw [deltaHa, div_pos_iff_of_pos_right hcpr]
          constructor
          · intro h
            exact_mod_cast (by linarith : (0 : ℚ) < canonical)
          · intro h
            have hcast : (0 : ℚ) < canonical := by exact_mod_cast h
            linarith
        rw [longWay_eq hle]
        by_cases hplus : 0 < canonical
        · rw [if_pos (hsign.mpr hplus), if_pos hplus, deltaHa, deltaHa]
          push_cast
          field_simp
        · rw [if_neg (fun h => hplus (hsign.mp h)), if_neg hplus, deltaHa, deltaHa]
          push_cast
          field_simp
      unfold Crosses at hshort hlong
      rw [hway, hshort, hlong] at hpath
      simp at hpath
  · rw [if_neg hflip]
    rw [Bool.not_eq_true] at hflip
    rw [hflip] at hpath
    have hclear : pathCrossesBindingZone ((RaTicks.mk snap.ra.positionTicks).toMechHa
        params.cprRa).value (deltaHa canonical params.cprRa) config.cwExclusionZone.bounds = false := by
      simpa using hpath
    have hok : checkNonFlipRaPath texts canonical snap.ra.positionTicks params.cprRa
        config.cwExclusionZone.bounds = .ok () := by
      unfold checkNonFlipRaPath
      dsimp only
      rw [hclear]
      split <;> rfl
    rw [hok]
    exact ⟨_, rfl⟩

end ra

/-- The check and the routing of the RA axis. The check is exact, a flip that turns takes a way that
does not cross and is refused just where both cross, one that does not turn is not checked, and a
usable side is not refused. -/
theorem ra_routing_complete :
    (∀ (start delta : ℚ) (zone : ℚ × ℚ), -12 ≤ start ∧ start < 12 → |delta| ≤ 24 →
      zone.1 < zone.2 → -12 ≤ zone.1 ∧ zone.2 ≤ 12 →
      (pathCrossesBindingZone start delta zone = true ↔ ∃ k, Meets zone start delta k) ∧
        ∀ k, Meets zone start delta k → k = -1 ∨ k = 0 ∨ k = 1) ∧
    (∀ (texts : SlewTexts) (cpr : Cpr) (raw canonical : ℤ) (zone : ℚ × ℚ), 0 < cpr.get →
      2 ∣ cpr.get → -(cpr.get : ℤ) ≤ 2 * canonical → 2 * canonical < cpr.get →
      (canonical = 0 → flipSlewRaDelta texts canonical raw cpr zone = .ok 0) ∧
      (canonical ≠ 0 →
        (∀ delta, flipSlewRaDelta texts canonical raw cpr zone = .ok delta →
          (∃ m : ℤ, delta = canonical + m * cpr.get) ∧ |delta| ≤ cpr.get ∧
            ¬ Crosses zone cpr raw delta) ∧
        ((∃ e, flipSlewRaDelta texts canonical raw cpr zone = .error e) ↔
          Crosses zone cpr raw canonical ∧
            Crosses zone cpr raw
              (if 0 < canonical then canonical - cpr.get else canonical + cpr.get)))) ∧
    ∀ (texts : SlewTexts) (config : SiteConfig) (params : MountParameters) (ra : Ra) (dec : Dec)
      (lst : Lst) (snap : MountSnapshot) (side : PierSide), 0 < params.cprRa.get →
      2 ∣ params.cprRa.get → |snap.ra.positionTicks| + params.cprRa.get ≤ 2147483647 →
      (∃ n : ℤ, (lst.hourAngleOf ra).value * params.cprRa.get / 24 = n) →
      let current := sideOfPier ⟨snap.dec.positionTicks⟩ params.cprDec config.siteLatitudeDeg
      let currentMechHa := (RaTicks.mk snap.ra.positionTicks).toMechHa params.cprRa
      let zone := config.cwExclusionZone.bounds
      selectPierSideForTarget ra lst current currentMechHa zone config.siteLatitudeDeg = side →
      current ≠ .unknown → usable ra lst current currentMechHa zone config.siteLatitudeDeg side →
      let (raTicks, decTicks) :=
        targetEncoder (isFlippedSide side config.siteLatitudeDeg) ra dec lst params
      ∃ deltas, slewAxisDeltas texts config snap params raTicks decTicks side = .ok deltas := by
  refine ⟨fun start delta zone hstart hdelta hzone hband =>
    pathCrosses_iff_meets hzone hband hstart hdelta, ?_, ?_⟩
  · intro texts cpr raw canonical zone hpos heven hlow hhigh
    have hwithin : |canonical| ≤ cpr.get := by rw [abs_le]; omega
    refine ⟨fun hzero => ?_, fun hturn => ?_⟩
    · rw [flipSlewRaDelta, if_pos (.inr hzero), hzero]
    rw [← longWay_eq hwithin]
    rcases flipSlewRaDelta_cases texts raw zone hpos hturn with
      ⟨taken, hok, hway, hclear, hnot⟩ | ⟨⟨e, herror⟩, hboth⟩
    · refine ⟨fun delta h => ?_, ?_⟩
      · rw [hok] at h
        cases h
        refine ⟨?_, ?_, hclear⟩
        · rcases hway with rfl | rfl
          · exact ⟨0, by omega⟩
          · rw [longWay_eq hwithin]
            split
            · exact ⟨-1, by omega⟩
            · exact ⟨1, by omega⟩
        · rcases hway with rfl | rfl
          · exact hwithin
          · exact abs_longWay_le hwithin
      · simp [hok, hnot]
    · refine ⟨fun delta h => ?_, by simp [herror, hboth]⟩
      rw [herror] at h
      cases h
  · intro texts config params ra dec lst snap side hpos heven hroom hwhole
    intro current currentMechHa zone hselect hknown husable
    refine slewAxisDeltas_of_usable hpos heven hroom hwhole ?_ husable
    rintro rfl
    rw [selectPierSideForTarget_eq, if_neg hknown] at hselect
    have hopposite : oppositePierSide current ≠ .unknown := by
      cases hcurrent : current
      · exact nofun
      · exact nofun
      · exact absurd hcurrent hknown
    split at hselect
    · exact hknown hselect
    · split at hselect
      · exact hopposite hselect
      · exact hknown hselect

/-- Half a revolution east of the meridian clears the shipped zone. -/
theorem ra_routing_complete_east :
    flipSlewRaDelta plainTexts (-1814400) 0 shippedParams.cprRa (19 / 20, 221 / 20) =
        .ok (-1814400) ∧
      ¬ Crosses (19 / 20, 221 / 20) shippedParams.cprRa 0 (-1814400) := by
  have hok : flipSlewRaDelta plainTexts (-1814400) 0 shippedParams.cprRa (19 / 20, 221 / 20) =
      .ok (-1814400) := by decide +kernel
  have hroute := ra_routing_complete.2.1 plainTexts shippedParams.cprRa 0 (-1814400)
    (19 / 20, 221 / 20) (by decide) (by decide) (by decide) (by decide)
  exact ⟨hok, ((hroute.2 (by decide)).1 (-1814400) hok).2.2⟩

/-- A flip that does not turn inside the zone is let go, though both ways lie in it. -/
theorem ra_routing_still :
    flipSlewRaDelta plainTexts 0 302400 shippedParams.cprRa (19 / 20, 221 / 20) = .ok 0 ∧
      Crosses (19 / 20, 221 / 20) shippedParams.cprRa 302400 0 ∧
      Crosses (19 / 20, 221 / 20) shippedParams.cprRa 302400
        (longWay 0 shippedParams.cprRa) := by
  refine ⟨rfl, ?_, ?_⟩ <;> unfold Crosses <;> decide +kernel

/-! ## The Dec way -/

section dec

variable {cpr : Cpr} {start delta pole : ℤ}

/-- The pole below the horizon. -/
def unsafePole (northern : Bool) (cpr : Cpr) : ℤ :=
  if northern then -((cpr.get / 4 : ℕ) : ℤ) else ((cpr.get / 4 : ℕ) : ℤ)

/-- A closed sweep holds a replica of a pole. -/
def Passes (cpr : Cpr) (start delta pole k : ℤ) : Prop :=
  min start (start + delta) ≤ pole + k * cpr.get ∧ pole + k * cpr.get ≤ max start (start + delta)

/-- No step of the check saturates. -/
def Exact (cpr : Cpr) (start delta pole : ℤ) : Prop :=
  let a := min start (start + delta) - pole
  let b := max start (start + delta) - pole
  saturate (start + delta) = start + delta ∧ saturate a = a ∧ saturate b = b ∧
    saturate (b / cpr.get * cpr.get) = b / cpr.get * cpr.get

/-- No step of the check saturates, and it finds every replica. -/
theorem canonicalPathCrossesPole_iff (hpos : 0 < cpr.get)
    (hstart : -8388608 ≤ start ∧ start ≤ 8388607) (hdelta : |delta| ≤ cpr.get)
    (hpole : |pole| ≤ 1073741824) :
    Exact cpr start delta pole ∧
    (canonicalPathCrossesPole start delta pole cpr = true ↔ ∃ k, Passes cpr start delta pole k) := by
  have hwire := cpr.wire
  have hcpr : (0 : ℤ) < cpr.get := by exact_mod_cast hpos
  obtain ⟨hdeltaLow, hdeltaHigh⟩ := abs_le.mp hdelta
  obtain ⟨hpoleLow, hpoleHigh⟩ := abs_le.mp hpole
  have hstop : saturate (start + delta) = start + delta := saturate_eq (by omega) (by omega)
  have ha : saturate (min start (start + delta) - pole) = min start (start + delta) - pole :=
    saturate_eq (by omega) (by omega)
  have hb : saturate (max start (start + delta) - pole) = max start (start + delta) - pole :=
    saturate_eq (by omega) (by omega)
  have hmultiple := Int.emod_add_ediv_mul (max start (start + delta) - pole) cpr.get
  have hlow := Int.emod_nonneg (max start (start + delta) - pole) hcpr.ne'
  have hhigh := Int.emod_lt_of_pos (max start (start + delta) - pole) hcpr
  have hproduct : saturate ((max start (start + delta) - pole) / cpr.get * cpr.get) =
      (max start (start + delta) - pole) / cpr.get * cpr.get := saturate_eq (by omega) (by omega)
  refine ⟨⟨hstop, ha, hb, hproduct⟩, ?_⟩
  unfold canonicalPathCrossesPole
  simp only [hstop, ha, hb, hproduct, decide_eq_true_eq]
  constructor
  · intro hle
    exact ⟨(max start (start + delta) - pole) / cpr.get, by unfold Passes; omega⟩
  · rintro ⟨k, hfrom, hupto⟩
    have hk : k ≤ (max start (start + delta) - pole) / cpr.get :=
      Int.le_ediv_of_mul_le hcpr (by omega)
    have hmul := Int.mul_le_mul_of_nonneg_right hk hcpr.le
    omega

/-- Two places whole revolutions apart, on the two ways between the ends of a revolution, are at one
end each. -/
theorem eq_end_of_ways {lo mid n p q j : ℤ} (hn : 0 < n) (hp : lo ≤ p ∧ p ≤ mid)
    (hq : mid ≤ q ∧ q ≤ lo + n) (hj : q - p = j * n) : (p = mid ∧ q = mid) ∨ (p = lo ∧ q = lo + n) := by
  have hlow : 0 * n ≤ j * n := by omega
  have hhigh : j * n ≤ 1 * n := by omega
  have hlow := Int.le_of_mul_le_mul_right hlow hn
  have hhigh := Int.le_of_mul_le_mul_right hhigh hn
  have hcases : j = 0 ∨ j = 1 := by omega
  rcases hcases with rfl | rfl <;> omega

/-- The check is exact, and the way of a flip passes the unsafe pole only where an end of it is
there. -/
theorem dec_routing_safe (cpr : Cpr) (start canonical : ℤ) (hpos : 0 < cpr.get)
    (hstart : -8388608 ≤ start ∧ start ≤ 8388607)
    (hcanonical : -(cpr.get : ℤ) ≤ 2 * canonical ∧ 2 * canonical ≤ cpr.get) :
    (∀ pole, |pole| ≤ 1073741824 →
      Exact cpr start canonical pole ∧
      (canonicalPathCrossesPole start canonical pole cpr = true ↔
        ∃ k, Passes cpr start canonical pole k)) ∧
    ∀ northern,
      let delta := flipSlewDecDelta canonical start cpr northern
      (∃ m : ℤ, delta = canonical + m * cpr.get) ∧
        ∀ k, Passes cpr start delta (unsafePole northern cpr) k →
          canonical = 0 ∨ (∃ j : ℤ, start = unsafePole northern cpr + j * cpr.get) ∨
            ∃ j : ℤ, start + delta = unsafePole northern cpr + j * cpr.get := by
  have hcpr : (0 : ℤ) < cpr.get := by exact_mod_cast hpos
  have hwithin : |canonical| ≤ cpr.get := by rw [abs_le]; omega
  refine ⟨fun pole hpole => canonicalPathCrossesPole_iff hpos hstart hwithin hpole, ?_⟩
  intro northern delta
  by_cases hturn : canonical = 0
  · have hdelta : delta = canonical := if_pos (.inr hturn)
    exact ⟨⟨0, by omega⟩, fun _ _ => .inl hturn⟩
  have hwire := cpr.wire
  have hpole : |unsafePole northern cpr| ≤ 1073741824 := by
    unfold unsafePole
    split <;> rw [abs_le] <;> omega
  have hcheck := (canonicalPathCrossesPole_iff hpos hstart hwithin hpole).2
  have hdelta : delta = if !canonicalPathCrossesPole start canonical (unsafePole northern cpr) cpr
      then canonical else longWay canonical cpr := if_neg (by omega)
  by_cases hcross : canonicalPathCrossesPole start canonical (unsafePole northern cpr) cpr = true
  · rw [hcross] at hdelta
    obtain ⟨i, hi⟩ := hcheck.mp hcross
    have hlong : delta = if 0 < canonical then canonical - cpr.get else canonical + cpr.get :=
      hdelta.trans (longWay_eq hwithin)
    unfold Passes at hi
    by_cases hplus : 0 < canonical
    · rw [if_pos hplus] at hlong
      refine ⟨⟨-1, by omega⟩, fun k hk => .inr ?_⟩
      unfold Passes at hk
      have hfirst : start + delta ≤ unsafePole northern cpr + k * cpr.get ∧
          unsafePole northern cpr + k * cpr.get ≤ start := by omega
      have hsecond : start ≤ unsafePole northern cpr + i * cpr.get ∧
          unsafePole northern cpr + i * cpr.get ≤ start + delta + cpr.get := by omega
      have hdiff : unsafePole northern cpr + i * cpr.get - (unsafePole northern cpr + k * cpr.get) =
          (i - k) * (cpr.get : ℤ) := by
        rw [Int.sub_mul]
        omega
      rcases eq_end_of_ways hcpr hfirst hsecond hdiff with h | h
      · exact .inl ⟨k, h.1.symm⟩
      · exact .inr ⟨k, h.1.symm⟩
    · rw [if_neg hplus] at hlong
      refine ⟨⟨1, by omega⟩, fun k hk => .inr ?_⟩
      unfold Passes at hk
      have hfirst : start + canonical ≤ unsafePole northern cpr + i * cpr.get ∧
          unsafePole northern cpr + i * cpr.get ≤ start := by omega
      have hsecond : start ≤ unsafePole northern cpr + k * cpr.get ∧
          unsafePole northern cpr + k * cpr.get ≤ start + canonical + cpr.get := by omega
      have hdiff : unsafePole northern cpr + k * cpr.get - (unsafePole northern cpr + i * cpr.get) =
          (k - i) * (cpr.get : ℤ) := by
        rw [Int.sub_mul]
        omega
      rcases eq_end_of_ways hcpr hfirst hsecond hdiff with h | h
      · exact .inl ⟨k, h.2.symm⟩
      · exact .inr ⟨k, by omega⟩
  · have hshort : delta = canonical := by
      rw [hdelta, Bool.not_eq_true _ |>.mp hcross]
      rfl
    rw [hshort]
    exact ⟨⟨0, by omega⟩, fun k hk => absurd (hcheck.mpr ⟨k, hk⟩) hcross⟩

/-- A flip whose short way passes the unsafe pole goes around. -/
theorem dec_routing_safe_north :
    flipSlewDecDelta (-907201) 0 shippedParams.cprDec true = 2721599 ∧
      ¬ Passes shippedParams.cprDec 0 2721599 (unsafePole true shippedParams.cprDec) 0 := by
  have hdelta : flipSlewDecDelta (-907201) 0 shippedParams.cprDec true = 2721599 := by decide +kernel
  refine ⟨hdelta, fun hpasses => ?_⟩
  have hsafe := ((dec_routing_safe shippedParams.cprDec 0 (-907201) (by decide) (by decide)
    (by decide)).2 true).2 0
  simp only [hdelta] at hsafe
  have hpole : unsafePole true shippedParams.cprDec = -907200 := rfl
  have hcpr : (shippedParams.cprDec.get : ℤ) = 3628800 := rfl
  rcases hsafe hpasses with hzero | ⟨j, hj⟩ | ⟨j, hj⟩
  · omega
  · rw [hpole, hcpr] at hj
    omega
  · rw [hpole, hcpr] at hj
    omega

end dec

end RustyPhoton.StarAdventurer
