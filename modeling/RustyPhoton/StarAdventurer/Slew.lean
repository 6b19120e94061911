import RustyPhoton.StarAdventurer.Coordinates

/-!
# Planning a slew

The counterweight exclusion zone, the choice of the pier side, and the counts each axis is sent by:
`plan_slew` of `inherent.rs` with what it calls, `pickup_deltas` of `watchers.rs` and the gotos of
`start_park_gotos`. The altitude of a target is trigonometry, and a parameter, as the printing of
numbers is.
-/

namespace RustyPhoton.StarAdventurer

open Lib.Circle

inductive AscomErrorCode where
  | invalidValue
  | valueNotSet
  | notConnected
  | invalidWhileParked
  | invalidOperation
  deriving DecidableEq

structure AscomError where
  code : AscomErrorCode
  message : String
  deriving DecidableEq

/-- The counts per revolution that the mount answered. -/
structure MountParameters where
  cprRa : Cpr
  cprDec : Cpr

structure AxisSnapshot where
  positionTicks : ℤ
  running : Bool

structure MountSnapshot where
  ra : AxisSnapshot
  dec : AxisSnapshot

/-! ## The exclusion zone -/

/-- `-12 ≤ min_hours < max_hours ≤ 12`. -/
structure ActiveZone where
  minHours : ℚ
  maxHours : ℚ
  ordered : minHours < maxHours
  band : -12 ≤ minHours ∧ maxHours ≤ 12

inductive CwExclusionZone where
  | active (zone : ActiveZone)
  | disabled

/-- The bounds for the checks. A disabled zone is an empty interval. -/
def CwExclusionZone.bounds : CwExclusionZone → ℚ × ℚ
  | .active zone => (zone.minHours, zone.maxHours)
  | .disabled => (12, -12)

/-- The configuration that the planning reads. -/
structure SiteConfig where
  siteLatitudeDeg : ℚ
  cwExclusionZone : CwExclusionZone
  minAltitudeDegrees : ℚ

/-- The altitude of a target, `ra_dec_to_alt_az`, and the printing of numbers: signed and unsigned
with three decimals, and in full. -/
structure SlewTexts where
  altitude : Ra → Dec → ℚ → Lst → ℚ
  signed : ℚ → String
  fixed : ℚ → String
  plain : ℚ → String

/-- Whether a mechanical hour angle is inside the open zone. -/
def mechHaInBindingZone (mechHa : ℚ) (zone : ℚ × ℚ) : Bool :=
  decide (zone.1 < zone.2 ∧ zone.1 < mechHa ∧ mechHa < zone.2)

/-- Whether a sweep overlaps the zone or one of its neighbours a day away. -/
def pathCrossesBindingZone (startHa deltaHa : ℚ) (zone : ℚ × ℚ) : Bool :=
  if zone.2 ≤ zone.1 then false
  else
    let pathLo := min startHa (startHa + deltaHa)
    let pathHi := max startHa (startHa + deltaHa)
    [-1, 0, 1].any fun k : ℚ => decide (pathLo < zone.2 + 24 * k ∧ zone.1 + 24 * k < pathHi)

def raPathExists (currentMechHa targetMechHa : ℚ) (mayTakeLongWay : Bool) (zone : ℚ × ℚ) : Bool :=
  let delta := (MechHa.new (targetMechHa - currentMechHa)).value
  if !pathCrossesBindingZone currentMechHa delta zone then true
  else if !mayTakeLongWay then false
  else
    let longWay := if 0 < delta then delta - 24 else delta + 24
    !pathCrossesBindingZone currentMechHa longWay zone

/-- The current side where it is usable, else the other where that one is. -/
def selectPierSideForTarget (targetRa : Ra) (lst : Lst) (current : PierSide)
    (currentMechHa : MechHa) (zone : ℚ × ℚ) (siteLatitudeDeg : ℚ) : PierSide :=
  if current = .unknown then .unknown
  else
    let targetHourAngle := (lst.hourAngleOf targetRa).toMech
    let usable (side : PierSide) : Bool :=
      let targetMechHa :=
        if side = preFlipSide siteLatitudeDeg then targetHourAngle else targetHourAngle.flipped
      !mechHaInBindingZone targetMechHa.value zone &&
        raPathExists currentMechHa.value targetMechHa.value (side != current) zone
    if usable current then current
    else if usable (oppositePierSide current) then oppositePierSide current
    else current

/-! ## The way of each axis -/

/-- The way around that ends at the same place. -/
def longWay (canonicalDelta : ℤ) (cpr : Cpr) : ℤ :=
  if 0 < canonicalDelta then saturate (canonicalDelta - cpr.get)
  else saturate (canonicalDelta + cpr.get)

/-- The hours of a number of counts. -/
def deltaHa (delta : ℤ) (cpr : Cpr) : ℚ := delta * 24 / cpr.get

section

variable (texts : SlewTexts)

/-- A flip takes the short way where it clears the zone, else the long way where that one does. -/
def flipSlewRaDelta (canonicalDelta currentTicks : ℤ) (cpr : Cpr) (zone : ℚ × ℚ) :
    Except AscomError ℤ :=
  if cpr.get = 0 ∨ canonicalDelta = 0 then .ok canonicalDelta
  else
    let curHa := (RaTicks.mk currentTicks).toMechHa cpr |>.value
    if !pathCrossesBindingZone curHa (deltaHa canonicalDelta cpr) zone then .ok canonicalDelta
    else if !pathCrossesBindingZone curHa (deltaHa (longWay canonicalDelta cpr) cpr) zone then
      .ok (longWay canonicalDelta cpr)
    else
      .error ⟨.invalidOperation, "no safe RA path from mech_HA " ++ texts.signed curHa ++
        " h: canonical short (" ++ texts.signed (deltaHa canonicalDelta cpr) ++
        " h) and long-way around (" ++ texts.signed (deltaHa (longWay canonicalDelta cpr) cpr) ++
        " h) both cross the CW exclusion zone (" ++ texts.signed zone.1 ++ ", " ++
        texts.signed zone.2 ++ ")"⟩

/-- A slew without a flip has the short way only. -/
def checkNonFlipRaPath (canonicalDelta currentTicks : ℤ) (cpr : Cpr) (zone : ℚ × ℚ) :
    Except AscomError Unit :=
  if cpr.get = 0 ∨ canonicalDelta = 0 then .ok ()
  else
    let curHa := (RaTicks.mk currentTicks).toMechHa cpr |>.value
    if !pathCrossesBindingZone curHa (deltaHa canonicalDelta cpr) zone then .ok ()
    else
      .error ⟨.invalidOperation, "non-flip RA slew from mech_HA " ++ texts.signed curHa ++
        " h by " ++ texts.signed (deltaHa canonicalDelta cpr) ++
        " h crosses the CW exclusion zone (" ++ texts.signed zone.1 ++ ", " ++
        texts.signed zone.2 ++ ")"⟩

/-- Whether a sweep of counts passes a pole, on any revolution. -/
def canonicalPathCrossesPole (start delta poleTicks : ℤ) (cpr : Cpr) : Bool :=
  let stop := saturate (start + delta)
  let a := saturate (min start stop - poleTicks)
  let b := saturate (max start stop - poleTicks)
  decide (a ≤ saturate (b / cpr.get * cpr.get))

/-- A flip passes the pole above the horizon. -/
def flipSlewDecDelta (canonicalDelta currentTicks : ℤ) (cprDec : Cpr) (northern : Bool) : ℤ :=
  if cprDec.get = 0 ∨ canonicalDelta = 0 then canonicalDelta
  else
    let quarter : ℤ := (cprDec.get / 4 : ℕ)
    let unsafePole := if northern then -quarter else quarter
    if !canonicalPathCrossesPole currentTicks canonicalDelta unsafePole cprDec then canonicalDelta
    else longWay canonicalDelta cprDec

/-! ## The plan -/

/-- Where a slew points, on the side that can reach it or on the one that is asked for. -/
inductive SideChoice where
  | reachable
  | pinned (side : PierSide)

structure SlewPlan where
  side : PierSide
  raDelta : ℤ
  decDelta : ℤ
  deriving DecidableEq

/-- The pair of counts of a target on one side. -/
def targetEncoder (flipped : Bool) (ra : Ra) (dec : Dec) (lst : Lst) (params : MountParameters) :
    RaTicks × DecTicks :=
  if flipped then targetEncoderFlipped ra dec lst params.cprRa params.cprDec
  else targetEncoderNormal ra dec lst params.cprRa params.cprDec

variable (config : SiteConfig)

/-- The destination is outside the zone and above the altitude floor. -/
def checkWithinSafeEnvelope (raHours decDegrees lstHours : ℚ) (targetIsFlipped : Bool) :
    Except AscomError Unit :=
  let normal := ((Lst.new lstHours).hourAngleOf (Ra.new raHours)).toMech.value
  let targetMechHa := if targetIsFlipped then (MechHa.new (normal + 12)).value else normal
  let zone := config.cwExclusionZone.bounds
  if mechHaInBindingZone targetMechHa zone then
    .error ⟨.invalidValue, "target mech_HA " ++ texts.fixed targetMechHa ++
      " h is inside the CW exclusion zone (" ++ texts.plain zone.1 ++ ", " ++ texts.plain zone.2 ++
      ") h"⟩
  else
    let floor := config.minAltitudeDegrees
    let targetAlt :=
      texts.altitude (Ra.new raHours) ⟨decDegrees⟩ config.siteLatitudeDeg (Lst.new lstHours)
    if targetAlt < floor then
      .error ⟨.invalidValue, "target altitude " ++ texts.fixed targetAlt ++
        "° is below the configured minimum altitude " ++ texts.fixed floor ++ "°"⟩
    else .ok ()

def slewAxisDeltas (snap : MountSnapshot) (params : MountParameters) (raTicks : RaTicks)
    (decTicks : DecTicks) (chosenSide : PierSide) : Except AscomError (ℤ × ℤ) := do
  let currentSide := sideOfPier ⟨snap.dec.positionTicks⟩ params.cprDec config.siteLatitudeDeg
  let isFlipSlew := currentSide != chosenSide
  let raDeltaCanonical :=
    (raTicks.canonicalDeltaSince ⟨snap.ra.positionTicks⟩ params.cprRa).value
  let zone := config.cwExclusionZone.bounds
  let raDelta ←
    if isFlipSlew then
      flipSlewRaDelta texts raDeltaCanonical snap.ra.positionTicks params.cprRa zone
    else do
      checkNonFlipRaPath texts raDeltaCanonical snap.ra.positionTicks params.cprRa zone
      pure raDeltaCanonical
  let decDeltaCanonical :=
    (decTicks.canonicalDeltaSince ⟨snap.dec.positionTicks⟩ params.cprDec).value
  let decDelta :=
    if isFlipSlew then
      flipSlewDecDelta decDeltaCanonical snap.dec.positionTicks params.cprDec
        (decide (0 ≤ config.siteLatitudeDeg))
    else decDeltaCanonical
  pure (raDelta, decDelta)

/-- The side a plan is made for. -/
def plannedSide (ra : ℚ) (side : SideChoice) (snap : MountSnapshot) (lst : Lst)
    (params : MountParameters) : PierSide :=
  match side with
  | .pinned side => side
  | .reachable =>
      let currentSide := sideOfPier ⟨snap.dec.positionTicks⟩ params.cprDec config.siteLatitudeDeg
      let currentMechHa := (RaTicks.mk snap.ra.positionTicks).toMechHa params.cprRa
      selectPierSideForTarget (Ra.new ra) lst currentSide currentMechHa
        config.cwExclusionZone.bounds config.siteLatitudeDeg

/-- Plan a slew from one reading of both axes. -/
def planSlew (ra dec : ℚ) (side : SideChoice) (snap : MountSnapshot) (lst : Lst)
    (params : MountParameters) : Except AscomError SlewPlan := do
  let side := plannedSide config ra side snap lst params
  let targetIsFlipped := isFlippedSide side config.siteLatitudeDeg
  let (raTicks, decTicks) := targetEncoder targetIsFlipped (Ra.new ra) ⟨dec⟩ lst params
  checkWithinSafeEnvelope texts config ra dec lst.value targetIsFlipped
  let (raDelta, decDelta) ← slewAxisDeltas texts config snap params raTicks decTicks side
  pure ⟨side, raDelta, decDelta⟩

end

/-! ## Pickups and parks -/

/-- The sidereal time after a projection, in nanoseconds. -/
def projectedLst (lst : Lst) (projection : ℕ) : Lst :=
  .new (lst.value + projection / 1000000000 / 3600)

def pickupTargetRaTicks (targetRa : Ra) (currentLst : Lst) (projection : ℕ) (cprRa : Cpr) :
    RaTicks :=
  ((projectedLst currentLst projection).hourAngleOf targetRa).toMech.toTicks cprRa

/-- The counts of a pickup. -/
def pickupDeltas (targetRa targetDec : ℚ) (targetPierSide : Option PierSide) (lst : Lst)
    (projection : ℕ) (params : MountParameters) (siteLatitudeDeg : ℚ) (snap : MountSnapshot) :
    ℤ × ℤ :=
  let targetIsFlipped := targetPierSide.any fun side => isFlippedSide side siteLatitudeDeg
  let (newRa, newDec) :=
    if targetIsFlipped then
      targetEncoderFlipped (Ra.new targetRa) ⟨targetDec⟩ (projectedLst lst projection)
        params.cprRa params.cprDec
    else
      (pickupTargetRaTicks (Ra.new targetRa) lst projection params.cprRa,
        (Dec.mk targetDec).toMech.toTicks params.cprDec)
  ((newRa.canonicalDeltaSince ⟨snap.ra.positionTicks⟩ params.cprRa).value,
    (newDec.canonicalDeltaSince ⟨snap.dec.positionTicks⟩ params.cprDec).value)

/-- A goto to an absolute count: the direction of `:G` and the count of `:S`. -/
structure ParkGoto where
  ccw : Bool
  ticks : ℤ

/-- Park's goto of one axis. -/
def parkGoto (currentTicks targetTicks : ℤ) : ParkGoto :=
  ⟨decide (targetTicks < currentTicks), targetTicks⟩

/-- The counts the firmware turns by: down to the target or up to it. -/
def ParkGoto.delta (goto : ParkGoto) (currentTicks : ℤ) : ℤ :=
  if goto.ccw then -(currentTicks - goto.ticks) else goto.ticks - currentTicks

end RustyPhoton.StarAdventurer
