import Mathlib.Data.List.GetD
import RustyPhoton.Lib.JsonPointer
import RustyPhoton.Rp.Targets.Model

/-!
# Progress derived from the frames on disk

After `progress_scan.rs`: the walk over the night directories of a target, the bucket of every frame
it counts, and the counts of the goals. The two compiled naming templates and the disk are given by
what reading them answers.
-/

namespace RustyPhoton.Rp.Planner

open Lib Targets

/-- The literal `capture` writes for a train without a filter wheel. -/
def unfilteredToken : String := "NA"

inductive FrameType where
  | light
  | dark
  | flat
  | bias
  deriving DecidableEq

/-- What a template reads back from a name; the fields the scan does not look at are left out. -/
structure TemplateFields where
  target : Option TargetSlug
  filter : Option String
  binning : Option Binning
  exposureDuration : Option Duration
  frameType : Option FrameType
  deriving DecidableEq

/-- The compiled patterns: how many components a directory has, and what the names parse to. -/
structure NamingTemplates where
  directoryComponents : Nat
  parseDirectory : String → Option TemplateFields
  parseFile : String → Option TemplateFields

/-- A path below the data directory, by its components. -/
abbrev Path := List String

/-- A directory entry: its name when it is UTF-8, and whether it is a directory when that can be
read. -/
structure DirEntry where
  name : Option String
  isDir : Option Bool

/-- What reads of the disk give: the entries of a directory up to the first that fails, and the JSON
value of a file that can be read and parsed. -/
structure Disk where
  readDir : Path → Option (List DirEntry)
  readJson : Path → Option Value

/-- The counts of one goal: two 32-bit counters. -/
structure GoalProgress where
  good : Nat
  total : Nat
  deriving DecidableEq

namespace GoalProgress

def zero : GoalProgress := ⟨0, 0⟩

end GoalProgress

/-- `u32::saturating_add(1)`. -/
def bump (n : Nat) : Nat := if n < 2 ^ 32 - 1 then n + 1 else n

/-! ## Bucket keys -/

def normalizeFilter (filter : String) : String :=
  if filter = unfilteredToken then "" else filter

structure SubSpec where
  filter : String
  binning : Binning
  exposureDuration : Duration
  deriving DecidableEq

namespace SubSpec

def fromGoal (goal : AcquisitionGoal) : SubSpec where
  filter := normalizeFilter goal.filter
  binning := goal.binning
  exposureDuration := goal.exposureDuration

def fromFields (fields : TemplateFields) : Option SubSpec := do
  let filter ← fields.filter
  let binning ← fields.binning
  let exposureDuration ← fields.exposureDuration
  pure ⟨normalizeFilter filter, binning, exposureDuration⟩

end SubSpec

/-! ## Grading -/

/-- Whether the thresholds judge anything at all. -/
def judgesAnything (thresholds : GradingThresholds) : Bool :=
  thresholds.maxHfrPixels.isSome || thresholds.minStarCount.isSome ||
    thresholds.maxEccentricity.isSome || thresholds.minSnr.isSome

structure GradingMetrics where
  hfr : Option Binary64
  starCount : Option Nat
  eccentricity : Option Binary64
  snr : Option Binary64
  deriving DecidableEq

namespace GradingMetrics

/-- An `Option<f64>` field: absent and `null` are nothing, any other value must be a number. -/
def floatField : Option Value → Option (Option Binary64)
  | none | some .null => some none
  | some (.number n) => some (some n.asF64)
  | some _ => none

/-- An `Option<u32>` field. -/
def countField : Option Value → Option (Option Nat)
  | none | some .null => some none
  | some (.number n) =>
      match n.asU64 with
      | some count => if count < 2 ^ 32 then some (some count) else none
      | none => none
  | some _ => none

def ofFields (hfr starCount eccentricity snr : Option Value) : Option GradingMetrics := do
  let hfr ← floatField hfr
  let starCount ← countField starCount
  let eccentricity ← floatField eccentricity
  let snr ← floatField snr
  pure ⟨hfr, starCount, eccentricity, snr⟩

/-- `serde_json::from_value`: an object by its keys, an array of at most four by its positions. -/
def fromValue : Value → Option GradingMetrics
  | .object members =>
      ofFields (members.lookup "hfr") (members.lookup "star_count") (members.lookup "eccentricity")
        (members.lookup "snr")
  | .array items =>
      if items.length ≤ 4 then ofFields items[0]? items[1]? items[2]? items[3]? else none
  | _ => none

def above : Option Binary64 → Option Binary64 → Bool
  | some value, some limit => Binary64.lt limit value
  | _, _ => false

def below : Option Binary64 → Option Binary64 → Bool
  | some value, some limit => Binary64.lt value limit
  | _, _ => false

def tooFew : Option Nat → Option Nat → Bool
  | some count, some least => count < least
  | _, _ => false

/-- Whether a metric that is present violates its threshold. -/
def violates (metrics : GradingMetrics) (thresholds : GradingThresholds) : Bool :=
  above metrics.hfr thresholds.maxHfrPixels ||
    above metrics.eccentricity thresholds.maxEccentricity ||
    below metrics.snr thresholds.minSnr || tooFew metrics.starCount thresholds.minStarCount

end GradingMetrics

/-! ## The walk -/

/-- `file_stem` and `extension`: the name around its last dot, unless that is its first character. -/
def splitExtension (name : String) : String × Option String :=
  let reversed := name.toList.reverse
  match reversed.dropWhile (· ≠ '.') with
  | [] | ['.'] => (name, none)
  | _ :: before =>
      (String.ofList before.reverse, some (String.ofList (reversed.takeWhile (· ≠ '.')).reverse))

/-- A directory the walk kept, with what its name told. -/
structure CandidateDir where
  path : Path
  fields : TemplateFields
  deriving DecidableEq

section Walk

variable (disk : Disk) (templates : NamingTemplates)

/-- The directories in one directory. -/
def subdirectories (path : Path) : List Path :=
  ((disk.readDir path).getD []).filterMap fun entry =>
    match entry.isDir, entry.name with
    | some true, some name => some (path ++ [name])
    | _, _ => none

/-- The directories a number of levels below the frontier. -/
def descend : Nat → List Path → List Path
  | 0, frontier => frontier
  | depth + 1, frontier => descend depth (frontier.flatMap (subdirectories disk))

/-- `candidate_directories`: a name that does not parse, or names another target, is left out. -/
def candidateDirectories (slug : TargetSlug) : List CandidateDir :=
  (descend disk templates.directoryComponents [[]]).filterMap fun path =>
    match templates.parseDirectory (String.intercalate "/" path) with
    | none => none
    | some fields => if fields.target.any (· ≠ slug) then none else some ⟨path, fields⟩

/-- A frame the scan counts, with its bucket. -/
structure Frame where
  dir : CandidateDir
  stem : String
  fields : TemplateFields
  spec : SubSpec
  deriving DecidableEq

/-- The frame an entry of a candidate directory is. What the name of the file says comes first, what
the directory says fills in. -/
def frameOf (slug : TargetSlug) (dir : CandidateDir) (entry : DirEntry) : Option Frame :=
  match entry.name with
  | none => none
  | some name =>
      if (splitExtension name).2 ≠ some "fits" then none
      else
        match templates.parseFile (splitExtension name).1 with
        | none => none
        | some fields =>
            if (fields.frameType.or dir.fields.frameType).any (· ≠ .light) then none
            else if (fields.target.or dir.fields.target).all (· ≠ slug) then none
            else (SubSpec.fromFields fields).map fun spec =>
              ⟨dir, (splitExtension name).1, fields, spec⟩

/-- The frames of a target on the disk, in the order of the walk. -/
def frames (slug : TargetSlug) : List Frame :=
  (candidateDirectories disk templates slug).flatMap fun dir =>
    ((disk.readDir dir.path).getD []).filterMap (frameOf templates slug dir)

/-- `is_rejected`: only a section with a violating metric rejects. -/
def isRejected (frame : Frame) (thresholds : GradingThresholds) : Bool :=
  match disk.readJson (frame.dir.path ++ [frame.stem ++ ".json"]) with
  | none => false
  | some document =>
      match document.pointer "/sections/grading" with
      | none => false
      | some section_ =>
          match GradingMetrics.fromValue section_ with
          | some metrics => metrics.violates thresholds
          | none => false

/-- One more frame in its bucket. -/
def countFrame (thresholds : GradingThresholds) (buckets : List (SubSpec × GoalProgress))
    (frame : Frame) : List (SubSpec × GoalProgress) :=
  let counts := (buckets.lookup frame.spec).getD .zero
  let rejected := judgesAnything thresholds && isRejected disk frame thresholds
  Assoc.insert frame.spec ⟨if rejected then counts.good else bump counts.good, bump counts.total⟩
    buckets

/-- `allocate`. -/
def allocate (goals : List AcquisitionGoal) (buckets : List (SubSpec × GoalProgress)) :
    List GoalProgress :=
  goals.map fun goal => (buckets.lookup (SubSpec.fromGoal goal)).getD .zero

/-- `scan_target`. -/
def scanTarget (templates : Option NamingTemplates) (target : Target)
    (thresholds : GradingThresholds) : List GoalProgress :=
  match templates with
  | none => target.goals.map fun _ => .zero
  | some templates =>
      allocate target.goals ((frames disk templates target.slug).foldl (countFrame disk thresholds) [])

end Walk

end RustyPhoton.Rp.Planner
