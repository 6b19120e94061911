import RustyPhoton.StarAdventurer.Units

/-!
# Pointing and encoders

The part of `coordinates.rs` that maps a target to a pair of encoder counts and a pair of counts to
the pointing of the telescope, for both sides of the pier.
-/

namespace RustyPhoton.StarAdventurer

inductive PierSide where
  | east
  | west
  | unknown
  deriving DecidableEq

/-- A mount whose Dec axis stands past a pole is on the east side, in the northern hemisphere. -/
def sideOfPier (decTicks : DecTicks) (cprDec : Cpr) (siteLatitudeDeg : ℚ) : PierSide :=
  if cprDec.get = 0 then .unknown
  else
    let quarter : ℤ := (cprDec.get / 4 : ℕ)
    let folded := (decTicks.foldToCanonicalBand cprDec).value
    let eastInNorth := decide (quarter < |folded|)
    if (if 0 ≤ siteLatitudeDeg then eastInNorth else !eastInNorth) then .east else .west

/-- The side on which the counterweight is down. -/
def preFlipSide (siteLatitudeDeg : ℚ) : PierSide :=
  if 0 ≤ siteLatitudeDeg then .west else .east

def isFlippedSide (side : PierSide) (siteLatitudeDeg : ℚ) : Bool :=
  side != preFlipSide siteLatitudeDeg && side != .unknown

def oppositePierSide : PierSide → PierSide
  | .west => .east
  | .east => .west
  | .unknown => .unknown

def targetEncoderNormal (ra : Ra) (dec : Dec) (lst : Lst) (cprRa cprDec : Cpr) :
    RaTicks × DecTicks :=
  ((lst.hourAngleOf ra).toMech.toTicks cprRa, dec.toMech.toTicks cprDec)

def targetEncoderFlipped (ra : Ra) (dec : Dec) (lst : Lst) (cprRa cprDec : Cpr) :
    RaTicks × DecTicks :=
  ((lst.hourAngleOf ra).toMech.flipped.toTicks cprRa, dec.toMechFlipped.toTicks cprDec)

/-- The pointing of the telescope. -/
def encoderToCelestial (raTicks : RaTicks) (decTicks : DecTicks) (lst : Lst) (cprRa cprDec : Cpr)
    (siteLatitudeDeg : ℚ) : Ra × Dec :=
  let mechHa := raTicks.toMechHa cprRa
  let decEnc := decTicks.toMechDec cprDec
  let pier := sideOfPier decTicks cprDec siteLatitudeDeg
  if isFlippedSide pier siteLatitudeDeg then (mechHa.toRaFlipped lst, decEnc.toDecFlipped)
  else (mechHa.toRa lst, decEnc.toDec)

/-- The side opposite to the one with the counterweight down. -/
def flippedSide (siteLatitudeDeg : ℚ) : PierSide := oppositePierSide (preFlipSide siteLatitudeDeg)

theorem isFlippedSide_flippedSide (siteLatitudeDeg : ℚ) :
    isFlippedSide (flippedSide siteLatitudeDeg) siteLatitudeDeg = true := by
  unfold isFlippedSide flippedSide preFlipSide
  split <;> rfl

theorem isFlippedSide_preFlipSide (siteLatitudeDeg : ℚ) :
    isFlippedSide (preFlipSide siteLatitudeDeg) siteLatitudeDeg = false := by
  unfold isFlippedSide preFlipSide
  split <;> rfl

/-- The side is told by whether the folded count is past a quarter of a revolution. -/
theorem sideOfPier_eq {cprDec : Cpr} (hpos : 0 < cprDec.get) (decTicks : DecTicks)
    (siteLatitudeDeg : ℚ) :
    sideOfPier decTicks cprDec siteLatitudeDeg =
      if (cprDec.get / 4 : ℕ) < |(decTicks.foldToCanonicalBand cprDec).value| then
        flippedSide siteLatitudeDeg
      else preFlipSide siteLatitudeDeg := by
  unfold sideOfPier flippedSide preFlipSide
  rw [if_neg hpos.ne']
  by_cases hnorth : 0 ≤ siteLatitudeDeg
  · simp only [if_pos hnorth]
    by_cases hpast : (cprDec.get / 4 : ℕ) < |(decTicks.foldToCanonicalBand cprDec).value|
    · rw [if_pos hpast, if_pos (decide_eq_true hpast)]
      rfl
    · rw [if_neg hpast, if_neg (by simpa using hpast)]
  · simp only [if_neg hnorth]
    by_cases hpast : (cprDec.get / 4 : ℕ) < |(decTicks.foldToCanonicalBand cprDec).value|
    · rw [if_pos hpast, if_neg (by simpa using hpast)]
      rfl
    · rw [if_neg hpast, if_pos (by simpa using hpast)]

end RustyPhoton.StarAdventurer
