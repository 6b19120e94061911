import RustyPhoton.SessionRunner.Document.Duration

/-!
# The plan data model

After `model.rs` of `rp-targets` and `binning.rs` and `coord.rs` of `rp-vocabulary`: a target, its
goals and the two constructors of its slug. A slug and a pointing carry their validity, so a row of
the store cannot hold an invalid one.
-/

namespace RustyPhoton.Rp.Targets

open Lib
open SessionRunner (isWhiteSpace)

/-- A `std::time::Duration`, in nanoseconds. -/
abbrev Duration := Nat

/-- Frame binning: two bytes. -/
structure Binning where
  x : Fin 256
  y : Fin 256
  deriving DecidableEq

def Binning.text (b : Binning) : String := toString b.x.val ++ "x" ++ toString b.y.val

/-! ## Coordinates -/

/-- `(0.0..24.0).contains(&ra_hours)`. -/
def raInRange (raHours : Binary64) : Bool :=
  Binary64.le (Binary64.ofInt 0) raHours && Binary64.lt raHours (Binary64.ofInt 24)

/-- `(-90.0..=90.0).contains(&dec_degrees)`. -/
def decInRange (decDegrees : Binary64) : Bool :=
  Binary64.le (Binary64.ofInt (-90)) decDegrees && Binary64.le decDegrees (Binary64.ofInt 90)

/-- A pointing, in range by construction. -/
structure IcrsCoord where
  raHours : Binary64
  decDegrees : Binary64
  raOk : raInRange raHours = true
  decOk : decInRange decDegrees = true
  deriving DecidableEq

theorem raInRange_zero : raInRange (Binary64.ofInt 0) = true := by decide +kernel

theorem decInRange_zero : decInRange (Binary64.ofInt 0) = true := by decide +kernel

inductive CoordError where
  | raOutOfRange (raHours : Binary64)
  | decOutOfRange (decDegrees : Binary64)
  deriving DecidableEq

def CoordError.text : CoordError → String
  | raOutOfRange ra => "ra_hours " ++ ra.toText ++ " is outside [0, 24)"
  | decOutOfRange dec => "dec_degrees " ++ dec.toText ++ " is outside [-90, 90]"

/-- `IcrsCoord::try_new`: the right ascension is checked first. -/
def IcrsCoord.tryNew (raHours decDegrees : Binary64) : Except CoordError IcrsCoord :=
  if hra : raInRange raHours = true then
    if hdec : decInRange decDegrees = true then .ok ⟨raHours, decDegrees, hra, hdec⟩
    else .error (.decOutOfRange decDegrees)
  else .error (.raOutOfRange raHours)

theorem IcrsCoord.tryNew_self (coord : IcrsCoord) :
    IcrsCoord.tryNew coord.raHours coord.decDegrees = .ok coord := by
  rw [tryNew, dif_pos coord.raOk, dif_pos coord.decOk]

theorem IcrsCoord.tryNew_eq_ok {raHours decDegrees : Binary64} {coord : IcrsCoord}
    (h : IcrsCoord.tryNew raHours decDegrees = .ok coord) :
    coord.raHours = raHours ∧ coord.decDegrees = decDegrees := by
  rw [tryNew] at h
  split at h
  · split at h
    · cases h
      exact ⟨rfl, rfl⟩
    · cases h
  · cases h

/-! ## What the standard library and the third-party crates decide -/

/-- A catalog entry. -/
structure ResolvedTarget where
  name : String
  objectType : String
  coord : IcrsCoord
  magnitude : Option Binary64
  sizeArcmin : Option Binary64
  deriving DecidableEq

/-- A catalog entry near a pointing, with the offset of the pointing from it. -/
structure NearestMatch where
  target : ResolvedTarget
  separationArcmin : Binary64
  eastOffsetArcmin : Binary64
  northOffsetArcmin : Binary64

structure NearestTolerances where
  dsoArcmin : Binary64
  starArcmin : Binary64

/-- The Unicode and formatting tables of the standard library, its elementary functions, `humantime`
and the embedded catalog. -/
class Crates where
  /-- `char::to_lowercase`: one character or several. -/
  toLowercase : Char → List Char
  toLowercase_ne_nil : ∀ c, toLowercase c ≠ []
  /-- The `Debug` text of a string. -/
  debugStr : String → String
  /-- The `Debug` text of a duration. -/
  debugDuration : Duration → String
  /-- A float with one digit after the point, `{:.1}`. -/
  oneDecimal : Binary64 → String
  /-- `f64::cos`. -/
  cos : Binary64 → Binary64
  /-- `f64::hypot`. -/
  hypot : Binary64 → Binary64 → Binary64
  /-- `humantime::parse_duration`. -/
  parseDuration : String → Except String Duration
  /-- `Catalog::resolve`, with the suggestions of a miss. -/
  resolve : String → Except (List String) ResolvedTarget
  /-- `Catalog::nearest`. -/
  nearest : IcrsCoord → NearestTolerances → Option NearestMatch

/-- The characters of a slug. -/
def isSlugChar (c : Char) : Bool :=
  ('a' ≤ c && c ≤ 'z') || c.isDigit || c = '-'

/-- What the functions of `Crates` are documented to do on what this program relies on. -/
structure Crates.Lawful [Crates] : Prop where
  /-- A character of a slug has no other lower case. -/
  lower : ∀ c, isSlugChar c = true → Crates.toLowercase c = [c]
  /-- A cosine is a number. -/
  cos : ∀ x : Binary64, x.isFinite = true → (Crates.cos x).isFinite = true
  /-- The hypotenuse of two zeros is zero. -/
  hypot : ∀ x y : Binary64, x.isZero = true → y.isZero = true →
    Crates.hypot x y = Binary64.ofInt 0

section Rows

variable [Crates]

/-! ## Slugs -/

/-- The identity of a target and its token in the names of its frames. -/
structure TargetSlug where
  text : String
  nonempty : text.toList ≠ []
  canonical : text.toList.all isSlugChar = true
  deriving DecidableEq

inductive TargetSlugError where
  | empty
  | whitespace (input suggestion : String)
  | invalidChars (input : String)
  deriving DecidableEq

def TargetSlugError.text : TargetSlugError → String
  | empty => "target slug cannot be empty"
  | whitespace input suggestion =>
      "target slug " ++ Crates.debugStr input ++ " contains whitespace — use " ++
        Crates.debugStr suggestion
  | invalidChars input =>
      "target slug " ++ Crates.debugStr input ++ " contains characters outside [a-z0-9-]"

/-- `split_whitespace`. -/
def splitWhitespace (cs : List Char) : List (List Char) :=
  (cs.splitOnP isWhiteSpace).filter fun word => !word.isEmpty

/-- The words, lower-cased and joined with hyphens. -/
def hyphenate (input : String) : String :=
  String.ofList (List.intercalate ['-']
    ((splitWhitespace input.toList).map fun word => word.flatMap Crates.toLowercase))

theorem flatMap_toLowercase_ne_nil {cs : List Char} (h : ¬ cs.all isWhiteSpace = true) :
    cs.flatMap Crates.toLowercase ≠ [] := by
  cases cs with
  | nil => exact absurd rfl h
  | cons c rest =>
    rw [List.flatMap_cons]
    exact List.append_ne_nil_of_left_ne_nil (Crates.toLowercase_ne_nil c) _

/-- `TargetSlug::new`: a canonical token, lower-cased. -/
def TargetSlug.new (input : String) : Except TargetSlugError TargetSlug :=
  if hblank : input.toList.all isWhiteSpace = true then .error .empty
  else if input.toList.any isWhiteSpace then .error (.whitespace input (hyphenate input))
  else if h : (input.toList.flatMap Crates.toLowercase).all isSlugChar = true then
    .ok ⟨String.ofList (input.toList.flatMap Crates.toLowercase),
      by rw [String.toList_ofList]; exact flatMap_toLowercase_ne_nil hblank,
      by rw [String.toList_ofList]; exact h⟩
  else .error (.invalidChars input)

/-- `TargetSlug::from_display_name`. -/
def TargetSlug.fromDisplayName (displayName : String) : Except TargetSlugError TargetSlug :=
  TargetSlug.new (hyphenate displayName)

/-! ## Targets -/

/-- The desired frame count of one filter, binning and exposure. -/
structure AcquisitionGoal where
  filter : String
  binning : Binning
  exposureDuration : Duration
  desiredCount : Nat
  deriving DecidableEq

structure SchedulingConstraints where
  minAltitudeDegrees : Option Binary64
  minMoonSeparationDegrees : Option Binary64
  maxMoonIlluminationFraction : Option Binary64
  meridianWindowHours : Option Binary64
  deriving DecidableEq

structure GradingThresholds where
  maxHfrPixels : Option Binary64
  minStarCount : Option Nat
  maxEccentricity : Option Binary64
  minSnr : Option Binary64
  deriving DecidableEq

structure Target where
  slug : TargetSlug
  displayName : String
  coord : IcrsCoord
  catalogRef : Option String
  objectType : Option String
  magnitude : Option Binary64
  sizeArcmin : Option Binary64
  positionAngleDegrees : Option Binary64
  priority : Int
  active : Bool
  goals : List AcquisitionGoal
  scheduling : Option SchedulingConstraints
  grading : Option GradingThresholds
  notes : Option String
  createdAt : String
  updatedAt : String
  createdBy : String
  updatedBy : String
  deriving DecidableEq

/-- The writer identity of the operator's tools. -/
def operatorWriter : String := "operator"

/-- The attribution of a `set_goals`. -/
structure WriteStamp where
  updatedAt : String
  updatedBy : String
  deriving DecidableEq

/-- The errors that a store whose reads and writes succeed answers with. -/
inductive TargetStoreError where
  | notFound (slug : String)
  | invalidGoals (reason : String)
  deriving DecidableEq

def TargetStoreError.text : TargetStoreError → String
  | notFound slug => "no target with slug " ++ Crates.debugStr slug
  | invalidGoals reason => "invalid acquisition goal set: " ++ reason

/-- Whether two goals are for the same frames, as the store compares them. -/
def AcquisitionGoal.sameKey (a b : AcquisitionGoal) : Bool :=
  a.filter = b.filter && a.binning = b.binning && a.exposureDuration = b.exposureDuration

/-- The first goal with a zero count or a zero exposure. -/
def zeroGoal : List AcquisitionGoal → Option TargetStoreError
  | [] => none
  | goal :: rest =>
      if goal.desiredCount = 0 then
        some (.invalidGoals ("goal for filter " ++ Crates.debugStr goal.filter ++ " at " ++
          goal.binning.text ++ " has desired_count == 0"))
      else if goal.exposureDuration = 0 then
        some (.invalidGoals ("goal for filter " ++ Crates.debugStr goal.filter ++ " at " ++
          goal.binning.text ++ " has a zero exposure_duration"))
      else zeroGoal rest

/-- The first goal whose key a later one repeats. -/
def repeatedGoal : List AcquisitionGoal → Option TargetStoreError
  | [] => none
  | goal :: rest =>
      if rest.any goal.sameKey then
        some (.invalidGoals ("duplicate goal key: filter " ++ Crates.debugStr goal.filter ++
          ", binning " ++ goal.binning.text ++ ", exposure_duration " ++
          Crates.debugDuration goal.exposureDuration))
      else repeatedGoal rest

/-- `validate_goals`. -/
def validateGoals (goals : List AcquisitionGoal) : Except TargetStoreError Unit :=
  match zeroGoal goals with
  | some e => .error e
  | none =>
      match repeatedGoal goals with
      | some e => .error e
      | none => .ok ()

theorem repeatedGoal_eq_none {goals : List AcquisitionGoal} (h : repeatedGoal goals = none) :
    goals.Pairwise fun a b => a.sameKey b = false := by
  induction goals with
  | nil => exact .nil
  | cons goal rest ih =>
    rw [repeatedGoal] at h
    split at h
    · cases h
    · next hany =>
        refine .cons ?_ (ih h)
        intro other hmem
        have hall := List.any_eq_false.mp (Bool.eq_false_iff.mpr hany) other hmem
        exact Bool.eq_false_iff.mpr hall

/-- The goals of an accepted list have different keys. -/
theorem validateGoals_pairwise {goals : List AcquisitionGoal} (h : validateGoals goals = .ok ()) :
    goals.Pairwise fun a b => a.sameKey b = false := by
  rw [validateGoals] at h
  split at h
  · cases h
  · split at h
    · cases h
    · next hrepeated => exact repeatedGoal_eq_none hrepeated

end Rows

/-! ## Evaluation

The tables on ASCII text, durations of whole seconds and pointings on the equator, enough to run the
model. -/

namespace Crates

@[reducible] def plain : Crates where
  toLowercase c := [c.toLower]
  toLowercase_ne_nil _ := by simp
  debugStr s := "\"" ++ s ++ "\""
  debugDuration d := toString (d / 10 ^ 9) ++ "s"
  oneDecimal x := x.toText
  cos _ := Binary64.ofInt 1
  hypot x y := if x.isZero then y.abs else x.abs
  parseDuration := SessionRunner.Crates.parseSeconds
  resolve _ := .error []
  nearest _ _ := none

theorem toLower_of_isSlugChar {c : Char} (h : isSlugChar c = true) : c.toLower = c := by
  delta Char.toLower
  rw [dif_neg]
  intro hupper
  have hbounds : 65 ≤ c.toNat ∧ c.toNat ≤ 90 :=
    ⟨UInt32.le_iff_toNat_le.mp hupper.1, UInt32.le_iff_toNat_le.mp hupper.2⟩
  have houtside : 97 ≤ c.toNat ∨ c.toNat ≤ 57 := by
    rw [isSlugChar] at h
    simp only [Bool.or_eq_true, Bool.and_eq_true, decide_eq_true_eq, Char.isDigit] at h
    rcases h with (h | h) | h
    · exact .inl (UInt32.le_iff_toNat_le.mp h.1)
    · exact .inr (UInt32.le_iff_toNat_le.mp h.2)
    · exact .inr (by rw [h]; decide)
  omega

theorem lawful_plain : @Lawful plain :=
  @Lawful.mk plain
    (fun c h => congrArg (fun c => [c]) (toLower_of_isSlugChar h))
    (fun _ _ => show (Binary64.ofInt 1).isFinite = true by decide +kernel)
    (fun x y hx hy => by
      have hmag : y.magnitude = 0 := of_decide_eq_true hy
      show (if x.isZero = true then y.abs else x.abs) = Binary64.ofInt 0
      rw [if_pos hx, Binary64.abs, hmag]
      decide +kernel)

end Crates

end RustyPhoton.Rp.Targets
