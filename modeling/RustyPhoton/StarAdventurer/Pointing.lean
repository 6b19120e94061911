import RustyPhoton.StarAdventurer.Coordinates

/-!
# Reading a pointing back

What `encoderToCelestial` makes of the counts of a target. A count is off by half a tick at most,
and neither a whole revolution more nor the fold at half a revolution is seen in what it reads as.
-/

namespace RustyPhoton.StarAdventurer

open Lib.Circle

variable {cpr : Cpr}

/-! ## Counts -/

/-- A quantity of at most half a revolution is a count that saturation leaves alone. -/
theorem satRoundI32_eq (cpr : Cpr) {ticks : ℚ} (hlow : -(cpr.get : ℚ) ≤ ticks) (hhigh : ticks ≤ cpr.get) :
    satRoundI32 ticks = roundAway ticks := by
  have hwire := cpr.wire
  have hle : roundAway ticks ≤ (cpr.get : ℤ) := roundAway_le (by exact_mod_cast hhigh)
  have hge : -(cpr.get : ℤ) ≤ roundAway ticks := le_roundAway (by push_cast; exact hlow)
  exact saturate_eq (by omega) (by omega)

theorem toTicks_mechHa (hpos : 0 < cpr.get) (ha : MechHa) :
    (ha.toTicks cpr).value = roundAway (ha.value * cpr.get / 24) := by
  have hcpr : (0 : ℚ) < cpr.get := by exact_mod_cast hpos
  obtain ⟨hlow, hhigh⟩ := ha.band
  unfold MechHa.toTicks
  rw [if_neg hpos.ne']
  refine satRoundI32_eq cpr ?_ ?_
  · rw [le_div_iff₀ (by norm_num)]
    nlinarith
  · rw [div_le_iff₀ (by norm_num)]
    nlinarith

/-- The hours a count reads as are off by half a tick and whole days. -/
theorem toMechHa_toTicks (hpos : 0 < cpr.get) (ha : MechHa) (k : ℤ) :
    ∃ (off : ℚ) (days : ℤ), |off| ≤ 12 / cpr.get ∧
      (RaTicks.toMechHa ⟨(ha.toTicks cpr).value + k * cpr.get⟩ cpr).value =
        ha.value + off + 24 * days := by
  have hcpr : (0 : ℚ) < cpr.get := by exact_mod_cast hpos
  have hround := abs_roundAway_sub_le (ha.value * cpr.get / 24)
  rw [← toTicks_mechHa hpos ha] at hround
  generalize (ha.toTicks cpr).value = ticks at hround ⊢
  obtain ⟨days, hdays⟩ := exists_foldToSigned ((ticks + k * cpr.get : ℤ) * 24 / cpr.get : ℚ) 24
  refine ⟨(ticks - ha.value * cpr.get / 24) * (24 / cpr.get), k - days, ?_, ?_⟩
  · have hscale : (0 : ℚ) < 24 / cpr.get := by positivity
    rw [abs_mul, abs_of_pos hscale]
    calc |(ticks : ℚ) - ha.value * cpr.get / 24| * (24 / cpr.get)
        ≤ 1 / 2 * (24 / cpr.get) := by gcongr
      _ = 12 / cpr.get := by ring
  · unfold RaTicks.toMechHa
    rw [if_neg hpos.ne']
    show foldToSigned _ 24 = _
    rw [hdays]
    push_cast
    field_simp
    ring

theorem toTicks_mechDec (hpos : 0 < cpr.get) (dec : MechDec) :
    (dec.toTicks cpr).value = roundAway (dec.value * cpr.get / 360) := by
  have hcpr : (0 : ℚ) < cpr.get := by exact_mod_cast hpos
  obtain ⟨hlow, hhigh⟩ := dec.band
  unfold MechDec.toTicks
  rw [if_neg hpos.ne']
  refine satRoundI32_eq cpr ?_ ?_
  · rw [le_div_iff₀ (by norm_num)]
    nlinarith
  · rw [div_le_iff₀ (by norm_num)]
    nlinarith

/-! ## Hour angles -/

section

variable {ra : Ra} {lst : Lst} {cprRa : Cpr}

/-- A right ascension read back: off by half a tick at most, around the circle. -/
def RaReadsBack (ra read : Ra) (cprRa : Cpr) : Prop :=
  ∃ days : ℤ, |read.value - ra.value - 24 * days| ≤ 12 / cprRa.get

theorem toMech_hourAngleOf (lst : Lst) (ra : Ra) :
    ∃ days : ℤ, ((lst.hourAngleOf ra).toMech).value = lst.value - ra.value + 24 * days := by
  obtain ⟨j, hj⟩ := exists_foldToSigned (lst.value - ra.value) 24
  obtain ⟨k, hk⟩ := exists_foldToSigned (lst.hourAngleOf ra).value 24
  refine ⟨-j - k, ?_⟩
  show foldToSigned (lst.hourAngleOf ra).value 24 = _
  rw [hk]
  show foldToSigned (lst.value - ra.value) 24 - 24 * k = _
  rw [hj]
  push_cast
  ring

/-- An hour angle off by half a tick gives the right ascension off by as much. -/
theorem raReadsBack_of_new {hours off : ℚ} (days : ℤ) (hoff : |off| ≤ 12 / cprRa.get)
    (h : hours = ra.value - off + 24 * days) : RaReadsBack ra (.new hours) cprRa := by
  obtain ⟨k, hk⟩ := exists_remEuclid hours 24
  refine ⟨days - k, ?_⟩
  have hread : (Ra.new hours).value - ra.value - 24 * ((days - k : ℤ) : ℚ) = -off := by
    show remEuclid hours 24 - ra.value - _ = _
    rw [hk, h]
    push_cast
    ring
  rw [hread, abs_neg]
  exact hoff

theorem raReadsBack_normal (hpos : 0 < cprRa.get) (k : ℤ) :
    RaReadsBack ra ((RaTicks.toMechHa
      ⟨((lst.hourAngleOf ra).toMech.toTicks cprRa).value + k * cprRa.get⟩ cprRa).toRa lst)
      cprRa := by
  obtain ⟨off, days, hoff, hread⟩ := toMechHa_toTicks hpos (lst.hourAngleOf ra).toMech k
  obtain ⟨more, hmech⟩ := toMech_hourAngleOf lst ra
  refine raReadsBack_of_new (-days - more) hoff ?_
  rw [hread, hmech]
  push_cast
  ring

theorem raReadsBack_flipped (hpos : 0 < cprRa.get) (k : ℤ) :
    RaReadsBack ra ((RaTicks.toMechHa
      ⟨((lst.hourAngleOf ra).toMech.flipped.toTicks cprRa).value + k * cprRa.get⟩
        cprRa).toRaFlipped lst) cprRa := by
  obtain ⟨off, days, hoff, hread⟩ := toMechHa_toTicks hpos (lst.hourAngleOf ra).toMech.flipped k
  obtain ⟨more, hmech⟩ := toMech_hourAngleOf lst ra
  obtain ⟨turn, hturn⟩ := exists_foldToSigned ((lst.hourAngleOf ra).toMech.value + 12) 24
  refine raReadsBack_of_new (turn - days - more) hoff ?_
  have hflipped : ((lst.hourAngleOf ra).toMech.flipped).value =
      (lst.hourAngleOf ra).toMech.value + 12 - 24 * turn := hturn
  rw [hread, hflipped, hmech]
  push_cast
  ring

end

/-! ## Declinations -/

section

variable {cprDec : Cpr} {dec : Dec}

/-- A declination read back, off by half a tick at most. -/
def DecReadsBack (dec read : Dec) (cprDec : Cpr) : Prop :=
  |read.value - dec.value| ≤ 180 / cprDec.get

/-- Half a tick in degrees. -/
theorem abs_degrees_sub_le (hpos : 0 < cprDec.get) {ticks : ℤ} {degrees : ℚ}
    (h : |(ticks : ℚ) - degrees * cprDec.get / 360| ≤ 1 / 2) :
    |(ticks : ℚ) * 360 / cprDec.get - degrees| ≤ 180 / cprDec.get := by
  have hcpr : (0 : ℚ) < cprDec.get := by exact_mod_cast hpos
  have hscale : (0 : ℚ) < 360 / cprDec.get := by positivity
  have hsame : (ticks : ℚ) * 360 / cprDec.get - degrees =
      (ticks - degrees * cprDec.get / 360) * (360 / cprDec.get) := by
    field_simp
  rw [hsame, abs_mul, abs_of_pos hscale]
  calc |(ticks : ℚ) - degrees * cprDec.get / 360| * (360 / cprDec.get)
      ≤ 1 / 2 * (360 / cprDec.get) := by gcongr
    _ = 180 / cprDec.get := by ring

/-- What a count within half a revolution reads as, under any number of whole revolutions. -/
theorem toMechDec_eq (hpos : 0 < cprDec.get) {ticks : ℤ} (hlow : -(cprDec.get : ℤ) ≤ 2 * ticks)
    (hhigh : 2 * ticks < cprDec.get) (k : ℤ) :
    (DecTicks.toMechDec ⟨ticks + k * cprDec.get⟩ cprDec).value = ticks * 360 / cprDec.get := by
  have hcpr : (0 : ℚ) < cprDec.get := by exact_mod_cast hpos
  have hlowQ : -(cprDec.get : ℚ) ≤ 2 * ticks := by exact_mod_cast hlow
  have hhighQ : (2 * ticks : ℚ) < cprDec.get := by exact_mod_cast hhigh
  unfold DecTicks.toMechDec
  rw [if_neg hpos.ne']
  refine foldToSigned_eq (k := k) (by norm_num) ?_ ?_ ?_
  · rw [le_div_iff₀ hcpr]
    linarith
  · rw [div_lt_iff₀ hcpr]
    linarith
  · push_cast
    field_simp

theorem mechDec_new {degrees : ℚ} (hlow : -180 ≤ degrees) (hhigh : degrees < 180) :
    (MechDec.new degrees).value = degrees :=
  foldToSigned_eq (k := 0) (by norm_num) (by linarith) (by linarith) (by simp)

/-- The count of a declination within a quarter of a revolution is within one too. -/
theorem normal_ticks (hpos : 0 < cprDec.get) (hfour : 4 ∣ cprDec.get)
    (hdec : -90 ≤ dec.value ∧ dec.value ≤ 90) :
    |((dec.toMech.toTicks cprDec).value : ℚ) - dec.value * cprDec.get / 360| ≤ 1 / 2 ∧
      |(dec.toMech.toTicks cprDec).value| ≤ (cprDec.get / 4 : ℕ) := by
  obtain ⟨quarter, hquarter⟩ := hfour
  have hcpr : (cprDec.get : ℚ) = 4 * quarter := by exact_mod_cast hquarter
  have hpos' : (0 : ℚ) ≤ quarter := Nat.cast_nonneg _
  have hvalue : dec.toMech.value = dec.value := mechDec_new (by linarith) (by linarith)
  rw [toTicks_mechDec hpos, hvalue]
  refine ⟨abs_roundAway_sub_le _, ?_⟩
  have hdiv : cprDec.get / 4 = quarter := by omega
  rw [hdiv, abs_le]
  constructor
  · refine le_roundAway ?_
    rw [hcpr]
    push_cast
    rw [le_div_iff₀ (by norm_num)]
    nlinarith
  · refine roundAway_le ?_
    rw [hcpr]
    push_cast
    rw [div_le_iff₀ (by norm_num)]
    nlinarith

/-- What a count past the pole reads as. -/
theorem toDecFlipped_eq (hpos : 0 < cprDec.get) (heven : 2 ∣ cprDec.get) {ticks : ℤ}
    (hlow : -(cprDec.get : ℤ) ≤ 2 * ticks) (hhigh : 2 * ticks ≤ cprDec.get) (hne : ticks ≠ 0)
    (k : ℤ) :
    (DecTicks.toMechDec ⟨ticks + k * cprDec.get⟩ cprDec).toDecFlipped.value =
      (if 0 < ticks then 180 else -180) - (ticks : ℚ) * 360 / cprDec.get := by
  have hcpr : (0 : ℚ) < cprDec.get := by exact_mod_cast hpos
  show throughPole (DecTicks.toMechDec ⟨ticks + k * cprDec.get⟩ cprDec).value = _
  rcases Int.lt_or_eq_of_le hhigh with hlt | heq
  · rw [toMechDec_eq hpos hlow hlt]
    unfold throughPole signum
    rcases Int.lt_or_gt_of_ne hne with hneg | hgt
    · have hnegQ : (ticks : ℚ) * 360 / cprDec.get < 0 :=
        div_neg_of_neg_of_pos (by
          have hcast : (ticks : ℚ) < 0 := by exact_mod_cast hneg
          linarith) hcpr
      rw [if_neg (not_le.mpr hnegQ), abs_of_neg hnegQ, if_neg (by omega)]
      ring
    · have hposQ : 0 < (ticks : ℚ) * 360 / cprDec.get := by
        have hcast : (0 : ℚ) < ticks := by exact_mod_cast hgt
        positivity
      rw [if_pos hposQ.le, abs_of_pos hposQ, if_pos hgt]
      ring
  · -- half a revolution one way is the same count as half a revolution the other way
    have hback : ticks + k * cprDec.get = -ticks + (k + 1) * cprDec.get := by
      rw [Int.add_mul, Int.one_mul]
      omega
    have hhalf : (ticks : ℚ) * 360 / cprDec.get = 180 := by
      have hcast : (2 * ticks : ℚ) = cprDec.get := by exact_mod_cast heq
      rw [div_eq_iff hcpr.ne', ← hcast]
      ring
    rw [hback, toMechDec_eq hpos (by omega) (by omega), if_pos (by omega)]
    push_cast
    rw [neg_mul, neg_div, hhalf]
    norm_num [throughPole, signum]

/-- The mechanical declination of a flip, by the sign of the declination. -/
theorem flipped_value (hdec : -90 ≤ dec.value ∧ dec.value ≤ 90) :
    (0 ≤ dec.toMechFlipped.value ∧ dec.toMechFlipped.value = 180 - dec.value) ∨
    (dec.toMechFlipped.value < 0 ∧ dec.toMechFlipped.value = -180 - dec.value) := by
  obtain ⟨hlow, hhigh⟩ := hdec
  rcases lt_trichotomy dec.value 0 with hneg | hzero | hgt
  · have hpole : throughPole dec.value = -180 - dec.value := by
      unfold throughPole signum
      rw [if_neg (not_le.mpr hneg), abs_of_neg hneg]
      ring
    have hvalue : dec.toMechFlipped.value = -180 - dec.value := by
      show (MechDec.new _).value = _
      rw [hpole, mechDec_new (by linarith) (by linarith)]
    exact .inr ⟨by linarith, hvalue⟩
  · have hpole : throughPole dec.value = 180 := by
      rw [hzero]
      norm_num [throughPole, signum]
    have hvalue : dec.toMechFlipped.value = -180 := by
      show foldToSigned (throughPole dec.value) 360 = _
      rw [hpole]
      exact foldToSigned_eq (k := 1) (by norm_num) (by norm_num) (by norm_num) (by norm_num)
    exact .inr ⟨by linarith, by linarith⟩
  · have hpole : throughPole dec.value = 180 - dec.value := by
      unfold throughPole signum
      rw [if_pos hgt.le, abs_of_pos hgt]
      ring
    have hvalue : dec.toMechFlipped.value = 180 - dec.value := by
      show (MechDec.new _).value = _
      rw [hpole, mechDec_new (by linarith) (by linarith)]
    exact .inl ⟨by linarith, hvalue⟩

/-- The count of a flip is within half a revolution. -/
theorem flipped_ticks (hpos : 0 < cprDec.get) (heven : 2 ∣ cprDec.get) (dec : Dec) :
    -(cprDec.get : ℤ) ≤ 2 * (dec.toMechFlipped.toTicks cprDec).value ∧
      2 * (dec.toMechFlipped.toTicks cprDec).value ≤ cprDec.get := by
  obtain ⟨half, hhalf⟩ := heven
  have hcpr : (cprDec.get : ℚ) = 2 * half := by exact_mod_cast hhalf
  have hpos' : (0 : ℚ) ≤ half := Nat.cast_nonneg _
  obtain ⟨hlow, hhigh⟩ := dec.toMechFlipped.band
  have hget : (cprDec.get : ℤ) = 2 * half := by exact_mod_cast hhalf
  rw [toTicks_mechDec hpos]
  have hge : -(half : ℤ) ≤ roundAway (dec.toMechFlipped.value * cprDec.get / 360) := by
    refine le_roundAway ?_
    rw [hcpr]
    push_cast
    rw [le_div_iff₀ (by norm_num)]
    nlinarith
  have hle : roundAway (dec.toMechFlipped.value * cprDec.get / 360) ≤ (half : ℤ) := by
    refine roundAway_le ?_
    rw [hcpr]
    push_cast
    rw [div_le_iff₀ (by norm_num)]
    nlinarith
  constructor <;> omega

theorem decReadsBack_flipped (hpos : 0 < cprDec.get) (heven : 2 ∣ cprDec.get)
    (hdec : -90 ≤ dec.value ∧ dec.value ≤ 90)
    (hne : (dec.toMechFlipped.toTicks cprDec).value ≠ 0) (k : ℤ) :
    DecReadsBack dec (DecTicks.toMechDec
      ⟨(dec.toMechFlipped.toTicks cprDec).value + k * cprDec.get⟩ cprDec).toDecFlipped cprDec := by
  obtain ⟨hlow, hhigh⟩ := flipped_ticks hpos heven dec
  have hread := toDecFlipped_eq hpos heven hlow hhigh hne k
  have hticks := toTicks_mechDec hpos dec.toMechFlipped
  have hround := abs_degrees_sub_le hpos (hticks ▸ abs_roundAway_sub_le
    (dec.toMechFlipped.value * cprDec.get / 360))
  unfold DecReadsBack
  rw [hread]
  have hcpr : (0 : ℚ) < cprDec.get := by exact_mod_cast hpos
  rcases flipped_value hdec with ⟨hsign, hvalue⟩ | ⟨hsign, hvalue⟩
  · have hge : 0 ≤ (dec.toMechFlipped.toTicks cprDec).value := by
      rw [hticks]
      refine le_roundAway ?_
      push_cast
      positivity
    rw [if_pos (by omega), abs_sub_comm]
    have hsame : dec.value - (180 - (dec.toMechFlipped.toTicks cprDec).value * 360 / cprDec.get) =
        ((dec.toMechFlipped.toTicks cprDec).value : ℚ) * 360 / cprDec.get -
          dec.toMechFlipped.value := by
      rw [hvalue]
      ring
    rw [hsame]
    exact hround
  · have hle : (dec.toMechFlipped.toTicks cprDec).value ≤ 0 := by
      rw [hticks]
      refine roundAway_le ?_
      push_cast
      exact div_nonpos_of_nonpos_of_nonneg (mul_nonpos_of_nonpos_of_nonneg hsign.le hcpr.le)
        (by norm_num)
    rw [if_neg (by omega), abs_sub_comm]
    have hsame : dec.value - (-180 - (dec.toMechFlipped.toTicks cprDec).value * 360 / cprDec.get) =
        ((dec.toMechFlipped.toTicks cprDec).value : ℚ) * 360 / cprDec.get -
          dec.toMechFlipped.value := by
      rw [hvalue]
      ring
    rw [hsame]
    exact hround

/-- The fold of a count at most half a revolution from zero, as far as its size goes. -/
theorem abs_fold (hpos : 0 < cprDec.get) (heven : 2 ∣ cprDec.get) {ticks : ℤ}
    (hlow : -(cprDec.get : ℤ) ≤ 2 * ticks) (hhigh : 2 * ticks ≤ cprDec.get) (k : ℤ) :
    |foldTicksCanonical (ticks + k * cprDec.get) cprDec| = |ticks| := by
  rcases Int.lt_or_eq_of_le hhigh with hlt | heq
  · rw [foldTicksCanonical_eq hpos heven hlow hlt]
  · have hback : ticks + k * cprDec.get = -ticks + (k + 1) * cprDec.get := by
      rw [Int.add_mul, Int.one_mul]
      omega
    rw [hback, foldTicksCanonical_eq hpos heven (by omega) (by omega), abs_neg]

end

/-! ## Both solutions -/

/-- Both solutions for a target read back as the target and the side they are for, whatever whole
revolutions stand on the counters. -/
theorem encoderToCelestial_inverts (lst : Lst) (ra : Ra) (dec : Dec) (siteLatitudeDeg : ℚ)
    (cprRa cprDec : Cpr) (hdec : -90 ≤ dec.value ∧ dec.value ≤ 90) (hra : 0 < cprRa.get)
    (hpos : 0 < cprDec.get) (hfour : 4 ∣ cprDec.get) (j k : ℤ) :
    (let target := targetEncoderNormal ra dec lst cprRa cprDec
     let raTicks : RaTicks := ⟨target.1.value + j * cprRa.get⟩
     let decTicks : DecTicks := ⟨target.2.value + k * cprDec.get⟩
     let read := encoderToCelestial raTicks decTicks lst cprRa cprDec siteLatitudeDeg
     RaReadsBack ra read.1 cprRa ∧ DecReadsBack dec read.2 cprDec ∧
       sideOfPier decTicks cprDec siteLatitudeDeg = preFlipSide siteLatitudeDeg) ∧
    (let target := targetEncoderFlipped ra dec lst cprRa cprDec
     let raTicks : RaTicks := ⟨target.1.value + j * cprRa.get⟩
     let decTicks : DecTicks := ⟨target.2.value + k * cprDec.get⟩
     let read := encoderToCelestial raTicks decTicks lst cprRa cprDec siteLatitudeDeg
     (cprDec.get / 4 : ℕ) < |target.2.value| →
     RaReadsBack ra read.1 cprRa ∧ DecReadsBack dec read.2 cprDec ∧
       sideOfPier decTicks cprDec siteLatitudeDeg = flippedSide siteLatitudeDeg) := by
  have heven : 2 ∣ cprDec.get := Nat.dvd_trans (by decide) hfour
  obtain ⟨quarter, hquarter⟩ := hfour
  constructor
  · obtain ⟨hround, hwithin⟩ := normal_ticks hpos ⟨quarter, hquarter⟩ hdec
    have hband := abs_le.mp hwithin
    have hside : sideOfPier ⟨(dec.toMech.toTicks cprDec).value + k * cprDec.get⟩ cprDec
        siteLatitudeDeg = preFlipSide siteLatitudeDeg := by
      rw [sideOfPier_eq hpos, if_neg]
      show ¬ _ < |foldTicksCanonical _ cprDec|
      rw [abs_fold hpos heven (by omega) (by omega)]
      exact not_lt.mpr hwithin
    simp only [targetEncoderNormal, encoderToCelestial, hside, isFlippedSide_preFlipSide]
    refine ⟨raReadsBack_normal hra j, ?_, trivial⟩
    show |(DecTicks.toMechDec _ cprDec).value - dec.value| ≤ _
    rw [toMechDec_eq hpos (by omega) (by omega)]
    exact abs_degrees_sub_le hpos hround
  · intro target raTicks decTicks read hpast
    obtain ⟨hlow, hhigh⟩ := flipped_ticks hpos heven dec
    have hside : sideOfPier ⟨(dec.toMechFlipped.toTicks cprDec).value + k * cprDec.get⟩ cprDec
        siteLatitudeDeg = flippedSide siteLatitudeDeg := by
      rw [sideOfPier_eq hpos, if_pos]
      show _ < |foldTicksCanonical _ cprDec|
      rw [abs_fold hpos heven hlow hhigh]
      exact hpast
    have hne : (dec.toMechFlipped.toTicks cprDec).value ≠ 0 := by
      intro hzero
      have hpast : ((cprDec.get / 4 : ℕ) : ℤ) < |(dec.toMechFlipped.toTicks cprDec).value| := hpast
      rw [hzero, abs_zero] at hpast
      omega
    show RaReadsBack ra (encoderToCelestial _ _ lst cprRa cprDec siteLatitudeDeg).1 cprRa ∧
      DecReadsBack dec (encoderToCelestial _ _ lst cprRa cprDec siteLatitudeDeg).2 cprDec ∧ _
    simp only [target, targetEncoderFlipped, encoderToCelestial, raTicks, decTicks, hside,
      isFlippedSide_flippedSide, if_true]
    exact ⟨raReadsBack_flipped hra j, decReadsBack_flipped hpos heven hdec hne k, trivial⟩

/-- A target east of the meridian, reached by a flip with a day on the RA counter. -/
theorem encoderToCelestial_inverts_gti :
    (let target := targetEncoderFlipped (.new 12) ⟨45⟩ (.new 5) ⟨3628800, by decide⟩
       ⟨2903040, by decide⟩
     let raTicks : RaTicks := ⟨target.1.value + 1 * 3628800⟩
     let decTicks : DecTicks := ⟨target.2.value + 0 * 2903040⟩
     let read := encoderToCelestial raTicks decTicks (.new 5) ⟨3628800, by decide⟩
       ⟨2903040, by decide⟩ 47
     RaReadsBack (.new 12) read.1 ⟨3628800, by decide⟩ ∧
       DecReadsBack ⟨45⟩ read.2 ⟨2903040, by decide⟩ ∧
       sideOfPier decTicks ⟨2903040, by decide⟩ 47 = flippedSide 47) :=
  (encoderToCelestial_inverts (.new 5) (.new 12) ⟨45⟩ 47 ⟨3628800, by decide⟩ ⟨2903040, by decide⟩
    (by norm_num) (by decide) (by decide) (by decide) 1 0).2 (by decide +kernel)

end RustyPhoton.StarAdventurer
