import RustyPhoton.Rp.Targets.Model

/-!
# The payload rules of a plan write

After `plan_validation.rs` and the parameter types of `targets.rs`: every check of an `add_target`
payload, each failure with the path of its field.
-/

namespace RustyPhoton.Rp.Targets

open Lib
open SessionRunner (isWhiteSpace)

/-! ## Parameters -/

/-- A goal as it is written in a payload. -/
structure GoalWire where
  filter : String
  binning : String
  exposureDuration : String
  desiredCount : Nat
  deriving DecidableEq

/-- `SchedulingWire` and `GradingWire` are the stored types field for field. -/
abbrev SchedulingWire := SchedulingConstraints

abbrev GradingWire := GradingThresholds

/-- The provenance of an import. -/
structure SourceWire where
  kind : String
  client : String
  receivedAt : String
  deriving DecidableEq

structure AddTargetParams where
  catalogRef : Option String
  displayName : Option String
  raHours : Option Binary64
  decDegrees : Option Binary64
  active : Option Bool
  goals : Option (List GoalWire)
  scheduling : Option SchedulingWire
  notes : Option String
  positionAngleDegrees : Option Binary64
  grading : Option GradingWire
  source : Option SourceWire
  deriving DecidableEq

/-- A key that is absent, an explicit `null`, or a value. -/
inductive Patch (α : Type) where
  | keep
  | clear
  | set (value : α)
  deriving DecidableEq

structure UpdateTargetParams where
  slug : String
  displayName : Option String
  raHours : Option Binary64
  decDegrees : Option Binary64
  active : Option Bool
  priority : Option Int
  scheduling : Option SchedulingWire
  notes : Option String
  positionAngleDegrees : Patch Binary64
  grading : Patch GradingWire
  deriving DecidableEq

structure SetGoalsParams where
  slug : String
  goals : List GoalWire
  deriving DecidableEq

/-- The filter names of every wheel. -/
structure Equipment where
  filterWheels : List (List String)

def filterRoster (equipment : Equipment) : List String := equipment.filterWheels.flatten

/-! ## Field errors -/

structure FieldError where
  path : String
  msg : String
  deriving DecidableEq

/-- The first failure as a writer tells it. -/
def renderFirst (errors : List FieldError) : String :=
  match errors with
  | [] => ""
  | e :: _ => e.path ++ ": " ++ e.msg

variable [Crates]

/-- `parse::<u8>`: an optional sign and decimal digits. -/
def parseByte (cs : List Char) : Option (Fin 256) :=
  let digits := match cs with
    | '+' :: rest => rest
    | _ => cs
  if digits.isEmpty || !digits.all Char.isDigit then none
  else
    let n := SessionRunner.Crates.digitsValue digits
    if h : n < 256 then some ⟨n, h⟩ else none

/-- `Binning::from_str`: the factors around the first `x`. -/
def Binning.fromStr (s : String) : Except String Binning :=
  let parsed : Option Binning :=
    match s.toList.dropWhile (· ≠ 'x') with
    | [] => none
    | _ :: after => do
        let x ← parseByte (s.toList.takeWhile (· ≠ 'x'))
        let y ← parseByte after
        pure ⟨x, y⟩
  match parsed with
  | some binning => .ok binning
  | none => .error ("invalid binning " ++ Crates.debugStr s ++ ": expected \"AxB\", e.g. \"1x1\"")

/-- One goal of a payload: its failures, and the goal when its binning and exposure parse. -/
def checkGoal (roster : List String) (pathPrefix : String) (index : Nat) (goal : GoalWire) :
    List FieldError × Option AcquisitionGoal :=
  let path (field : String) := pathPrefix ++ "[" ++ toString index ++ "]." ++ field
  let binning := Binning.fromStr goal.binning
  let exposure := Crates.parseDuration goal.exposureDuration
  let binningErrors := match binning with
    | .ok _ => []
    | .error e => [⟨path "binning", e⟩]
  let exposureErrors := match exposure with
    | .ok d => if d = 0 then [⟨path "exposure_duration", "must be greater than zero"⟩] else []
    | .error e => [⟨path "exposure_duration", Crates.debugStr goal.exposureDuration ++ ": " ++ e⟩]
  let countErrors :=
    if goal.desiredCount = 0 then [⟨path "desired_count", "must be greater than zero"⟩] else []
  let filterErrors :=
    if !roster.isEmpty && !roster.contains goal.filter then
      [⟨path "filter", Crates.debugStr goal.filter ++ " is not in the configured filter roster (" ++
        String.intercalate ", " roster ++ ")"⟩]
    else []
  (binningErrors ++ exposureErrors ++ countErrors ++ filterErrors,
    match binning, exposure with
    | .ok binning, .ok exposure =>
        if exposure = 0 then none else some ⟨goal.filter, binning, exposure, goal.desiredCount⟩
    | _, _ => none)

/-- `validate_goals` of the payload: the store's own rule once every goal parses. -/
def validateGoalsWire (wire : List GoalWire) (roster : List String) (pathPrefix : String) :
    Except (List FieldError) (List AcquisitionGoal) :=
  let checked := wire.mapIdx (checkGoal roster pathPrefix)
  let errors := checked.flatMap Prod.fst
  let parsed := checked.filterMap Prod.snd
  if errors.isEmpty && parsed.length = wire.length then
    match validateGoals parsed with
    | .ok () => .ok parsed
    | .error e => .error [⟨pathPrefix, e.text⟩]
  else if errors.isEmpty then .ok parsed
  else .error errors

/-- A value that is present must be in a closed range. -/
def checkRange (low high : Int) (path msg : String) (value : Option Binary64) : List FieldError :=
  match value with
  | none => []
  | some v =>
      if Binary64.le (Binary64.ofInt low) v && Binary64.le v (Binary64.ofInt high) then []
      else [⟨path, msg⟩]

def validateScheduling (wire : SchedulingWire) (pathPrefix : String) : List FieldError :=
  checkRange (-90) 90 (pathPrefix ++ ".min_altitude_degrees") "must be in [-90, 90]"
      wire.minAltitudeDegrees ++
    checkRange 0 180 (pathPrefix ++ ".min_moon_separation_degrees") "must be in [0, 180]"
      wire.minMoonSeparationDegrees ++
    checkRange 0 1 (pathPrefix ++ ".max_moon_illumination_fraction") "must be in [0, 1]"
      wire.maxMoonIlluminationFraction ++
    checkRange 0 12 (pathPrefix ++ ".meridian_window_hours") "must be in [0, 12]"
      wire.meridianWindowHours

/-- A threshold that is present must be finite and not negative. -/
def finiteNonNegative (path : String) (value : Option Binary64) : List FieldError :=
  match value with
  | none => []
  | some v =>
      if !v.isFinite || Binary64.lt v (Binary64.ofInt 0) then
        [⟨path, "must be a finite, non-negative number"⟩]
      else []

def validateGrading (wire : GradingWire) (pathPrefix : String) : List FieldError :=
  finiteNonNegative (pathPrefix ++ ".max_hfr_pixels") wire.maxHfrPixels ++
    finiteNonNegative (pathPrefix ++ ".max_eccentricity") wire.maxEccentricity ++
    finiteNonNegative (pathPrefix ++ ".min_snr") wire.minSnr

/-- `validate_position_angle`, with the message of `PositionAngleDegrees::try_new`. -/
def validatePositionAngle (value : Option Binary64) (path : String) : List FieldError :=
  match value with
  | none => []
  | some v =>
      if v.isFinite && Binary64.le (Binary64.ofInt 0) v && Binary64.lt v (Binary64.ofInt 360) then []
      else
        [⟨path, "position angle must be a finite number of degrees at least 0.0 and below 360.0, got " ++
          v.toText⟩]

def validateCoord (raHours decDegrees : Binary64) : List FieldError :=
  match IcrsCoord.tryNew raHours decDegrees with
  | .ok _ => []
  | .error (.raOutOfRange ra) => [⟨"ra_hours", (CoordError.raOutOfRange ra).text⟩]
  | .error (.decOutOfRange dec) => [⟨"dec_degrees", (CoordError.decOutOfRange dec).text⟩]

/-! ## The whole payload -/

/-- The fields the import form does not take. -/
def importFormErrors (params : AddTargetParams) : List FieldError :=
  [(params.catalogRef.isSome, "catalog_ref"), (params.displayName.isSome, "display_name"),
      (params.active.isSome, "active"), (params.notes.isSome, "notes"),
      (params.positionAngleDegrees.isSome, "position_angle_degrees"),
      (params.grading.isSome, "grading")].filterMap fun field =>
    if field.1 then some ⟨field.2, "not accepted with `source` (the import form)"⟩ else none

/-- Which form the payload has, and whether it has the coordinates its form needs. -/
def formErrors (params : AddTargetParams) : List FieldError :=
  if params.source.isSome then
    importFormErrors params ++
      if params.raHours.isNone || params.decDegrees.isNone then
        [⟨"ra_hours", "the import form requires ra_hours and dec_degrees"⟩]
      else []
  else
    match params.catalogRef, params.displayName with
    | some _, some _ | none, none =>
        [⟨"display_name", "supply exactly one of catalog_ref or display_name"⟩]
    | none, some _ =>
        if params.raHours.isNone || params.decDegrees.isNone then
          [⟨"ra_hours", "the display_name form requires ra_hours and dec_degrees"⟩]
        else []
    | some _, none =>
        if params.raHours.isSome ≠ params.decDegrees.isSome then
          [⟨"ra_hours", "ra_hours and dec_degrees must both be supplied together"⟩]
        else []

/-- The default goals must be in the roster, too. -/
def defaultGoalErrors (defaults : List AcquisitionGoal) (roster : List String) : List FieldError :=
  if roster.isEmpty then []
  else
    (defaults.mapIdx fun index goal => (index, goal)).filterMap fun entry =>
      if roster.contains entry.2.filter then none
      else some ⟨"goals[" ++ toString entry.1 ++ "].filter",
        "default goal filter " ++ Crates.debugStr entry.2.filter ++
          " is not in the configured filter roster (" ++ String.intercalate ", " roster ++ ")"⟩

def coordErrors (raHours decDegrees : Option Binary64) : List FieldError :=
  match raHours, decDegrees with
  | some ra, some dec => validateCoord ra dec
  | _, _ => []

def goalErrors (goals : Option (List GoalWire)) (defaults : List AcquisitionGoal)
    (roster : List String) : List FieldError :=
  match goals with
  | none => defaultGoalErrors defaults roster
  | some wire =>
      match validateGoalsWire wire roster "goals" with
      | .ok _ => []
      | .error errors => errors

/-- `validate_add_target`. -/
def validateAddTarget (params : AddTargetParams) (defaults : List AcquisitionGoal)
    (equipment : Equipment) : List FieldError :=
  formErrors params ++ coordErrors params.raHours params.decDegrees ++
    validatePositionAngle params.positionAngleDegrees "position_angle_degrees" ++
    (params.scheduling.map fun s => validateScheduling s "scheduling").getD [] ++
    (params.grading.map fun g => validateGrading g "grading").getD [] ++
    goalErrors params.goals defaults (filterRoster equipment)

end RustyPhoton.Rp.Targets
