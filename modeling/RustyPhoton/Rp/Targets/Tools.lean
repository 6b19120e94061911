import RustyPhoton.Rp.Targets.Store
import RustyPhoton.Rp.Targets.Validation

/-!
# The plan tools

After the tools of `targets.rs` that write the store. Each is a program over the store: it reads,
decides and writes, and every read and write is an operation of its own. The clock reading a call
stamps its row with is a parameter of the call.
-/

namespace RustyPhoton.Rp.Targets

open Lib

/-! ## Replies and configuration -/

/-- What a tool answers. A row is answered whole. -/
inductive ToolReply where
  | error (text : String)
  | targetNotFound (name : String) (suggestions : List String)
  | added (slug : TargetSlug) (created : Bool) (target : Target)
  | row (target : Target)
  | deleted (deleted : Bool)
  deriving DecidableEq

def ToolReply.isOk : ToolReply → Bool
  | error _ | targetNotFound _ _ => false
  | added _ _ _ | row _ | deleted _ => true

structure ImportConfig where
  dedupArcsec : Binary64
  namingToleranceArcmin : Binary64
  starNamingToleranceArcmin : Binary64

/-- What the tools read of their handler. -/
structure Handler where
  defaultGoals : List AcquisitionGoal
  importConfig : ImportConfig
  equipment : Equipment

section Geometry

/-! ## Separations -/

/-- `f64::rem_euclid`. -/
def remEuclid (x y : Binary64) : Binary64 :=
  let r := Binary64.rem x y
  if Binary64.lt r (Binary64.ofInt 0) then Binary64.add r y.abs else r

/-- `std::f64::consts::PI`. -/
def piWord : Binary64 := ⟨0x400921FB54442D18#64⟩

/-- `f64::to_radians`. -/
def toRadians (degrees : Binary64) : Binary64 :=
  Binary64.mul degrees (Binary64.div piWord (Binary64.ofInt 180))

variable [Crates]

/-- `flat_separation_degrees`. -/
def flatSeparationDegrees (ra1Hours dec1Degrees ra2Hours dec2Degrees : Binary64) : Binary64 :=
  let euclid := remEuclid (Binary64.sub ra1Hours ra2Hours) (Binary64.ofInt 24)
  let raDiffHours :=
    if Binary64.lt (Binary64.ofInt 12) euclid then Binary64.sub euclid (Binary64.ofInt 24) else euclid
  let raDegDiff :=
    Binary64.mul (Binary64.mul raDiffHours (Binary64.ofInt 15)) (Crates.cos (toRadians dec1Degrees))
  Crates.hypot raDegDiff (Binary64.sub dec1Degrees dec2Degrees)

def dedupToleranceDegrees : Binary64 := Binary64.div (Binary64.ofInt 10) (Binary64.ofInt 60)

/-- `same_object`. -/
def sameObject (ra1Hours dec1Degrees ra2Hours dec2Degrees : Binary64) : Bool :=
  Binary64.lt (flatSeparationDegrees ra1Hours dec1Degrees ra2Hours dec2Degrees) dedupToleranceDegrees

/-- The order of `total_cmp`. -/
def totalKey (x : Binary64) : Int := if x.sign then -1 - x.magnitude else x.magnitude

/-- `min_by` with `total_cmp`: the first of the least. -/
def leastBy : List (Target × Binary64) → Option Target
  | [] => none
  | first :: rest =>
      some (rest.foldl (fun best next => if totalKey next.2 < totalKey best.2 then next else best)
        first).1

/-- The nearest stored row within the proximity window of an import. -/
def neighbor (config : ImportConfig) (raHours decDegrees : Binary64) (all : List Target) :
    Option Target :=
  let dedupDegrees := Binary64.div config.dedupArcsec (Binary64.ofInt 3600)
  leastBy ((all.map fun t =>
      (t, flatSeparationDegrees raHours decDegrees t.coord.raHours t.coord.decDegrees)).filter
    fun entry => Binary64.lt entry.2 dedupDegrees)

end Geometry

variable [Crates]

/-! ## Slug allocation -/

/-- The candidate `"{base}-{n}"`. -/
def suffixed (base : TargetSlug) (n : Nat) : Except TargetSlugError TargetSlug :=
  TargetSlug.new (base.text ++ "-" ++ toString n)

/-- The loop of `allocate_suffix`, with the number of suffixes that are left. -/
def probeSuffix (base : TargetSlug) (n : Nat) :
    Nat → Program targetStore (Except String TargetSlug)
  | 0 => .done (.error "slug suffix space exhausted")
  | left + 1 =>
      match suffixed base n with
      | .error e => .done (.error e.text)
      | .ok candidate =>
          .call (.get candidate) fun found =>
            match (found : Option Target) with
            | none => .done (.ok candidate)
            | some _ => probeSuffix base (n + 1) left

/-- The last suffix of a `u32`. -/
def lastSuffix : Nat := 2 ^ 32 - 1

/-- `allocate_suffix`: from 2 up. -/
def allocateSuffix (base : TargetSlug) : Program targetStore (Except String TargetSlug) :=
  probeSuffix base 2 (lastSuffix - 1)

/-! ## Goals -/

/-- `parse_goals`. -/
def parseGoals (wire : Option (List GoalWire)) (defaults : List AcquisitionGoal)
    (equipment : Equipment) : Except String (List AcquisitionGoal) :=
  match wire with
  | none => .ok defaults
  | some wire =>
      match validateGoalsWire wire (filterRoster equipment) "goals" with
      | .ok goals => .ok goals
      | .error errors => .error (renderFirst errors)

/-- `validate_position_angle` of the tools. -/
def checkPositionAngle (value : Option Binary64) : Except String (Option Binary64) :=
  match validatePositionAngle value "position_angle_degrees" with
  | [] => .ok value
  | e :: errors => .error (renderFirst (e :: errors))

/-- The end of every tool that upserts a row. -/
def upsertAndReply (target : Target) (reply : ToolReply) : Program targetStore ToolReply :=
  .call (.upsert target) fun answer =>
    match (answer : Except TargetStoreError Unit) with
    | .error e => .done (.error ("target store error: " ++ e.text))
    | .ok () => .done reply

/-! ## The operator form of `add_target` -/

/-- What a payload names: its pointing, and what the catalog says of it. -/
structure Named where
  displayName : String
  raHours : Binary64
  decDegrees : Binary64
  catalogRef : Option String
  objectType : Option String
  magnitude : Option Binary64
  sizeArcmin : Option Binary64
  baseSlugInput : String

def named (params : AddTargetParams) : Except ToolReply Named :=
  match params.catalogRef, params.displayName with
  | some _, some _ | none, none =>
      .error (.error "supply exactly one of catalog_ref or display_name")
  | some cat, none =>
      match Crates.resolve cat with
      | .error suggestions => .error (.targetNotFound cat suggestions)
      | .ok resolved =>
          let pointed (ra dec : Binary64) : Named :=
            ⟨resolved.name, ra, dec, some resolved.name, some resolved.objectType,
              resolved.magnitude, resolved.sizeArcmin, resolved.name⟩
          match params.raHours, params.decDegrees with
          | some ra, some dec => .ok (pointed ra dec)
          | none, none => .ok (pointed resolved.coord.raHours resolved.coord.decDegrees)
          | _, _ => .error (.error "ra_hours and dec_degrees must both be supplied together")
  | none, some name =>
      match params.raHours, params.decDegrees with
      | some ra, some dec => .ok ⟨name, ra, dec, none, none, none, none, name⟩
      | _, _ => .error (.error "the display_name form requires ra_hours and dec_degrees")

/-- What is decided of a payload before the store is read. -/
structure Prepared where
  name : Named
  coord : IcrsCoord
  base : TargetSlug

def prepare (handler : Handler) (params : AddTargetParams) : Except ToolReply Prepared :=
  match validateAddTarget params handler.defaultGoals handler.equipment with
  | e :: errors => .error (.error (renderFirst (e :: errors)))
  | [] =>
      match named params with
      | .error reply => .error reply
      | .ok name =>
          match IcrsCoord.tryNew name.raHours name.decDegrees with
          | .error e => .error (.error e.text)
          | .ok coord =>
              match TargetSlug.fromDisplayName name.baseSlugInput with
              | .error e => .error (.error e.text)
              | .ok base => .ok ⟨name, coord, base⟩

/-- The slug of the row and whether it is new: the base slug where it is free or names the same
object. -/
def resolveSlug (name : Named) (base : TargetSlug) :
    Program targetStore (Except String (TargetSlug × Bool)) :=
  .call (.get base) fun existing =>
    match (existing : Option Target) with
    | none => .done (.ok (base, true))
    | some existing =>
        if sameObject name.raHours name.decDegrees existing.coord.raHours existing.coord.decDegrees
        then .done (.ok (base, false))
        else (allocateSuffix base).bind fun allocated =>
          match allocated with
          | .error e => .done (.error e)
          | .ok slug => .done (.ok (slug, true))

/-- The row of an operator's `add_target`. -/
def operatorRow (params : AddTargetParams) (now : String) (prepared : Prepared) (slug : TargetSlug)
    (goals : List AcquisitionGoal) (angle : Option Binary64) : Target where
  slug := slug
  displayName := prepared.name.displayName
  coord := prepared.coord
  catalogRef := prepared.name.catalogRef
  objectType := prepared.name.objectType
  magnitude := prepared.name.magnitude
  sizeArcmin := prepared.name.sizeArcmin
  positionAngleDegrees := angle
  priority := 0
  active := params.active.getD true
  goals := goals
  scheduling := params.scheduling
  grading := params.grading
  notes := params.notes
  createdAt := now
  updatedAt := now
  createdBy := operatorWriter
  updatedBy := operatorWriter

/-- What follows the slug: the goals, the angle and the write. -/
def addResolved (handler : Handler) (params : AddTargetParams) (now : String) (prepared : Prepared)
    (resolved : Except String (TargetSlug × Bool)) : Program targetStore ToolReply :=
  match resolved with
  | .error e => .done (.error ("target store error: " ++ e))
  | .ok (slug, created) =>
      match parseGoals params.goals handler.defaultGoals handler.equipment with
      | .error e => .done (.error e)
      | .ok goals =>
          match checkPositionAngle params.positionAngleDegrees with
          | .error e => .done (.error e)
          | .ok angle =>
              let target := operatorRow params now prepared slug goals angle
              upsertAndReply target (.added target.slug created target)

def addTargetOperator (handler : Handler) (params : AddTargetParams) (now : String) :
    Program targetStore ToolReply :=
  match prepare handler params with
  | .error reply => .done reply
  | .ok prepared =>
      (resolveSlug prepared.name prepared.base).bind (addResolved handler params now prepared)

/-! ## The import form of `add_target` -/

/-- The name of the catalog entry with the offset of the pointing, to a tenth of an arc minute. -/
def offsetComponent (valueArcmin : Binary64) (axis : String) : Option String :=
  let magnitude := valueArcmin.abs
  if Binary64.lt magnitude (Binary64.div (Binary64.ofInt 5) (Binary64.ofInt 100)) then none
  else
    let sign := if Binary64.lt valueArcmin (Binary64.ofInt 0) then "\u2212" else "+"
    let rendered := Crates.oneDecimal magnitude
    let rendered :=
      if [ '.', '0' ].isSuffixOf rendered.toList then
        String.ofList (rendered.toList.take (rendered.toList.length - 2))
      else rendered
    some (sign ++ rendered ++ "\u2032" ++ axis)

def offsetDisplayName (base : String) (eastArcmin northArcmin : Binary64) : String :=
  [offsetComponent eastArcmin "E", offsetComponent northArcmin "N"].foldl
    (fun name component => match component with
      | some component => name ++ " " ++ component
      | none => name) base

/-- The `as u32` cast. -/
def asU32 (x : Binary64) : Nat :=
  if x.isNaN then 0
  else if x.isFinite then (max 0 (min (2 ^ 32 - 1) (Binary64.truncate x.toRat))).toNat
  else if x.sign then 0
  else 2 ^ 32 - 1

/-- `truncated_minutes`: rounded to a micro-minute before the truncation. -/
def truncatedMinutes (value : Binary64) : Nat × Nat :=
  let scaled := Binary64.mul (Binary64.mul value (Binary64.ofInt 60)) (Binary64.ofInt 1000000)
  let totalMinutes := asU32 (Binary64.div scaled.round (Binary64.ofInt 1000000))
  (totalMinutes / 60, totalMinutes % 60)

/-- `{n:02}`. -/
def twoDigits (n : Nat) : String := if n < 10 then "0" ++ toString n else toString n

/-- The display name and the slug of a pointing without a catalog entry. -/
def coordinateForms (raHours decDegrees : Binary64) : String × String :=
  let ra := truncatedMinutes raHours
  let raHh := min ra.1 23
  let dec := truncatedMinutes decDegrees.abs
  let south := Binary64.lt decDegrees (Binary64.ofInt 0)
  ("J" ++ twoDigits raHh ++ twoDigits ra.2 ++ (if south then "-" else "+") ++ twoDigits dec.1 ++
      twoDigits dec.2,
    "j" ++ twoDigits raHh ++ twoDigits ra.2 ++ (if south then "m" else "p") ++ twoDigits dec.1 ++
      twoDigits dec.2)

/-- What the reverse cone search names an import. -/
structure ImportNaming where
  displayName : String
  catalogRef : Option String
  objectType : Option String
  magnitude : Option Binary64
  sizeArcmin : Option Binary64
  baseSlugInput : String

/-- `import_naming`: the plain name is for a centred import of an object no row claims yet. -/
def importNaming (config : ImportConfig) (coord : IcrsCoord) (raHours decDegrees : Binary64)
    (all : List Target) : ImportNaming :=
  match Crates.nearest coord ⟨config.namingToleranceArcmin, config.starNamingToleranceArcmin⟩ with
  | some hit =>
      let name := hit.target.name
      let soleClaim := !all.any fun t => t.catalogRef = some name
      let centered :=
        Binary64.le (Binary64.mul hit.separationArcmin (Binary64.ofInt 60)) config.dedupArcsec
      let display :=
        if soleClaim && centered then name
        else offsetDisplayName name hit.eastOffsetArcmin hit.northOffsetArcmin
      ⟨display, some name, some hit.target.objectType, hit.target.magnitude, hit.target.sizeArcmin,
        name⟩
  | none =>
      let forms := coordinateForms raHours decDegrees
      ⟨forms.1, none, none, none, none, forms.2⟩

/-- `provenance_line`. -/
def provenanceLine (source : SourceWire) : String :=
  "Imported via " ++ source.kind ++ " from " ++ source.client ++ " at " ++ source.receivedAt

/-- A writer identity an import may not claim. -/
def refusedKind (kind : String) : Bool :=
  kind.toList.all SessionRunner.isWhiteSpace || kind = operatorWriter

/-- `reject_import_incompatible_fields`. -/
def rejectImportFields (params : AddTargetParams) (source : SourceWire) : Option ToolReply :=
  if params.catalogRef.isSome || params.displayName.isSome then
    some (.error "catalog_ref and display_name are not accepted with source — rp names imports itself")
  else if params.active.isSome then
    some (.error "active is not accepted with source — imports always land paused (active: false)")
  else if params.positionAngleDegrees.isSome then
    some (.error ("position_angle_degrees is not accepted with source — imports never carry a " ++
      "framing angle (it is entered by the operator)"))
  else if params.notes.isSome then
    some (.error "notes is not accepted with source — rp writes the provenance line itself")
  else if params.grading.isSome then
    some (.error ("grading is not accepted with source — imports inherit " ++
      "target_store.default_grading until the operator sets thresholds"))
  else if refusedKind source.kind then
    some (.error ("source.kind must be a non-empty writer identity other than " ++
      Crates.debugStr operatorWriter))
  else none

/-- Whether an import may refresh a row: pending, and last written by the same importer. -/
def refreshable (source : SourceWire) (existing : Target) : Bool :=
  !existing.active && existing.updatedBy = source.kind

/-- What `refresh_import_in_place` makes of a row. -/
def refreshed (coord : IcrsCoord) (source : SourceWire) (now : String) (existing : Target) : Target :=
  { existing with
    coord := coord, notes := some (provenanceLine source), updatedAt := now
    updatedBy := source.kind }

/-- The row of an import. -/
def importRow (params : AddTargetParams) (source : SourceWire) (now : String) (coord : IcrsCoord)
    (naming : ImportNaming) (slug : TargetSlug) (goals : List AcquisitionGoal) : Target where
  slug := slug
  displayName := naming.displayName
  coord := coord
  catalogRef := naming.catalogRef
  objectType := naming.objectType
  magnitude := naming.magnitude
  sizeArcmin := naming.sizeArcmin
  positionAngleDegrees := none
  priority := 0
  active := false
  goals := goals
  scheduling := params.scheduling
  grading := none
  notes := some (provenanceLine source)
  createdAt := now
  updatedAt := now
  createdBy := source.kind
  updatedBy := source.kind

/-- A slug that is free: an import never takes one over. -/
def freeSlug (base : TargetSlug) : Program targetStore (Except String TargetSlug) :=
  .call (.get base) fun existing =>
    match (existing : Option Target) with
    | none => .done (.ok base)
    | some _ => allocateSuffix base

/-- A new pending row beside the others. -/
def importBeside (handler : Handler) (params : AddTargetParams) (source : SourceWire) (now : String)
    (coord : IcrsCoord) (goals : List AcquisitionGoal) (all : List Target) :
    Program targetStore ToolReply :=
  let naming := importNaming handler.importConfig coord coord.raHours coord.decDegrees all
  match TargetSlug.fromDisplayName naming.baseSlugInput with
  | .error e => .done (.error e.text)
  | .ok base =>
      (freeSlug base).bind fun allocated =>
        match allocated with
        | .error e => .done (.error ("target store error: " ++ e))
        | .ok slug =>
            let target := importRow params source now coord naming slug goals
            upsertAndReply target (.added target.slug true target)

/-- What an import does with the rows it read. -/
def importListed (handler : Handler) (params : AddTargetParams) (source : SourceWire) (now : String)
    (coord : IcrsCoord) (goals : List AcquisitionGoal) (all : List Target) :
    Program targetStore ToolReply :=
  match (neighbor handler.importConfig coord.raHours coord.decDegrees all).filter
      (refreshable source) with
  | some existing =>
      let target := refreshed coord source now existing
      upsertAndReply target (.added target.slug false target)
  | none => importBeside handler params source now coord goals all

/-- What is decided of an import before the store is read. -/
def prepareImport (handler : Handler) (params : AddTargetParams) (source : SourceWire) :
    Except ToolReply (IcrsCoord × List AcquisitionGoal) :=
  match rejectImportFields params source with
  | some rejected => .error rejected
  | none =>
      match params.raHours, params.decDegrees with
      | some raHours, some decDegrees =>
          match IcrsCoord.tryNew raHours decDegrees with
          | .error e => .error (.error e.text)
          | .ok coord =>
              match parseGoals params.goals handler.defaultGoals handler.equipment with
              | .error e => .error (.error e)
              | .ok goals => .ok (coord, goals)
      | _, _ => .error (.error "the source form requires ra_hours and dec_degrees")

def addTargetImport (handler : Handler) (params : AddTargetParams) (source : SourceWire)
    (now : String) : Program targetStore ToolReply :=
  match prepareImport handler params source with
  | .error reply => .done reply
  | .ok (coord, goals) =>
      .call .list fun all => importListed handler params source now coord goals all

/-- `add_target`. -/
def addTarget (handler : Handler) (params : AddTargetParams) (now : String) :
    Program targetStore ToolReply :=
  match params.source with
  | some source => addTargetImport handler params source now
  | none => addTargetOperator handler params now

/-! ## The other tools -/

/-- The pointing of an edit: what is given, and the rest as it is. -/
def editCoord (params : UpdateTargetParams) (coord : IcrsCoord) : Except String IcrsCoord :=
  if params.raHours.isSome || params.decDegrees.isSome then
    match IcrsCoord.tryNew (params.raHours.getD coord.raHours)
        (params.decDegrees.getD coord.decDegrees) with
    | .ok coord => .ok coord
    | .error e => .error e.text
  else .ok coord

def editScheduling (params : UpdateTargetParams) (scheduling : Option SchedulingConstraints) :
    Except String (Option SchedulingConstraints) :=
  match params.scheduling with
  | none => .ok scheduling
  | some v =>
      match validateScheduling v "scheduling" with
      | [] => .ok (some v)
      | e :: errors => .error (renderFirst (e :: errors))

def editPositionAngle (patch : Patch Binary64) (angle : Option Binary64) :
    Except String (Option Binary64) :=
  match patch with
  | .keep => .ok angle
  | .clear => .ok none
  | .set v => checkPositionAngle (some v)

def editGrading (patch : Patch GradingWire) (grading : Option GradingThresholds) :
    Except String (Option GradingThresholds) :=
  match patch with
  | .keep => .ok grading
  | .clear => .ok none
  | .set g =>
      match validateGrading g "grading" with
      | [] => .ok (some g)
      | e :: errors => .error (renderFirst (e :: errors))

/-- What `update_target` makes of the row it read. -/
def edit (params : UpdateTargetParams) (now : String) (target : Target) : Except String Target := do
  let coord ← editCoord params target.coord
  let scheduling ← editScheduling params target.scheduling
  let angle ← editPositionAngle params.positionAngleDegrees target.positionAngleDegrees
  let grading ← editGrading params.grading target.grading
  pure { target with
    displayName := params.displayName.getD target.displayName
    coord := coord
    active := params.active.getD target.active
    priority := params.priority.getD target.priority
    scheduling := scheduling
    notes := params.notes.or target.notes
    positionAngleDegrees := angle
    grading := grading
    updatedAt := now
    updatedBy := operatorWriter }

def noTarget (slug : String) : ToolReply := .error ("no target with slug " ++ Crates.debugStr slug)

def updateTarget (params : UpdateTargetParams) (now : String) : Program targetStore ToolReply :=
  match TargetSlug.new params.slug with
  | .error e => .done (.error e.text)
  | .ok slug =>
      .call (.get slug) fun found =>
        match (found : Option Target) with
        | none => .done (noTarget params.slug)
        | some target =>
            match edit params now target with
            | .error e => .done (.error e)
            | .ok target => upsertAndReply target (.row target)

def deleteTarget (slug : String) : Program targetStore ToolReply :=
  match TargetSlug.new slug with
  | .error e => .done (.error e.text)
  | .ok slug => .call (.delete slug) fun deleted => .done (.deleted deleted)

def setGoals (handler : Handler) (params : SetGoalsParams) (now : String) :
    Program targetStore ToolReply :=
  match TargetSlug.new params.slug with
  | .error e => .done (.error e.text)
  | .ok slug =>
      match validateGoalsWire params.goals (filterRoster handler.equipment) "goals" with
      | .error errors => .done (.error (renderFirst errors))
      | .ok goals =>
          .call (.setGoals slug goals ⟨now, operatorWriter⟩) fun answer =>
            match (answer : Except TargetStoreError Unit) with
            | .error e => .done (.error ("target store error: " ++ e.text))
            | .ok () =>
                .call (.get slug) fun found =>
                  match (found : Option Target) with
                  | some target => .done (.row target)
                  | none => .done (noTarget params.slug)

/-! ## Calls -/

/-- One call of a tool that writes, with its reading of the clock. -/
inductive ToolCall where
  | addTarget (params : AddTargetParams) (now : String)
  | updateTarget (params : UpdateTargetParams) (now : String)
  | deleteTarget (slug : String)
  | setGoals (params : SetGoalsParams) (now : String)

def ToolCall.program (handler : Handler) : ToolCall → Program targetStore ToolReply
  | addTarget params now => Targets.addTarget handler params now
  | updateTarget params now => Targets.updateTarget params now
  | deleteTarget slug => Targets.deleteTarget slug
  | setGoals params now => Targets.setGoals handler params now

/-- The calls before any of them has a turn. -/
def opened (handler : Handler) (calls : List ToolCall) (store : Store) :
    Turns targetStore ToolReply :=
  ⟨store, calls.map (ToolCall.program handler)⟩

end RustyPhoton.Rp.Targets

/-! ## Evaluation -/

namespace RustyPhoton.Rp.Targets.Evaluation

open Lib

/-- A rig without filter wheels and without default goals. -/
def bareRig : Handler := ⟨[], ⟨Binary64.ofInt 30, Binary64.ofInt 10, Binary64.ofInt 2⟩, ⟨[]⟩⟩

def origin : IcrsCoord := ⟨Binary64.ofInt 0, Binary64.ofInt 0, raInRange_zero, decInRange_zero⟩

/-- A payload with a pointing and nothing else. -/
def bare : AddTargetParams where
  catalogRef := none
  displayName := none
  raHours := some origin.raHours
  decDegrees := some origin.decDegrees
  active := none
  goals := none
  scheduling := none
  notes := none
  positionAngleDegrees := none
  grading := none
  source := none

def bridge : SourceWire := ⟨"planetarium-bridge", "192.0.2.10:52441", "2026-07-30T01:23:45.678Z"⟩

end RustyPhoton.Rp.Targets.Evaluation
