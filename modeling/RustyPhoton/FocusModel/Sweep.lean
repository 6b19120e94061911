import Mathlib.Data.List.Sort
import Mathlib.Data.Rat.Init
import RustyPhoton.Lib.Saturating
import RustyPhoton.Lib.TracedLeaves

/-!
# The V-curve sweep

The grid and its clamp, the star list each attempt measures at every frame, the gate, the fit with its
bound and its threshold, the confirmation frame and the bounded retry. The sweep talks to the rig
through `SweepOps`; the fit itself is a parameter, and so is the arithmetic of `f64`.
-/

namespace RustyPhoton.FocusModel

open Lib

/-- The operations on `f64` that the sweep makes. Nothing is asked of them. -/
class F64 (F : Type) where
  ofRat : ℚ → F
  ofI32 : I32 → F
  isFinite : F → Bool
  partialCmp : F → F → Option Ordering
  totalCmp : F → F → Ordering
  add : F → F → F
  sub : F → F → F
  mul : F → F → F
  div : F → F → F
  max : F → F → F
  midpoint : F → F → F
  abs : F → F
  mulAdd : F → F → F → F
  /-- The nearest whole number, held to what an `i32` holds. -/
  roundI32 : F → I32
  fixed : ℕ → F → String
  display : F → String

variable {F : Type} [F64 F]

def F64.lt (a b : F) : Bool := F64.partialCmp a b = some .lt

/-! ## Errors -/

inductive FocusModelError where
  | Config (message : String)
  | Io (message : String)
  | ToolCall (message : String)
  | Cancelled (reason : String)
  | Workflow (message : String)
  | Sweep (message : String)
  | Server (message : String)
  | Store (message : String)
  deriving DecidableEq

/-- The text a tool error carries back to the caller. -/
def FocusModelError.toolMessage : FocusModelError → String
  | .ToolCall message => message
  | .Workflow message => message
  | .Sweep message => message
  | .Config message => "config error: " ++ message
  | .Io message => "io error: " ++ message
  | .Cancelled reason => "cancelled: " ++ reason
  | .Server message => "server error: " ++ message
  | .Store message => "store error: " ++ message

def FocusModelError.isCancelled : FocusModelError → Bool
  | .Cancelled _ => true
  | _ => false

/-! ## What a sweep measures -/

/-- The most grid positions a sweep may walk. -/
def MAX_GRID_POINTS : ℕ := 1000

/-- The fewest listed stars a sample, or the confirmation frame, must measure. -/
def MIN_SAMPLE_STARS : ℕ := 2

/-- The list keeps the stars whose HFR lies within this fraction of the frame's median of it. -/
def LIST_HFR_BAND : ℚ := 1 / 2

inductive Rejection where
  | Sparse
  deriving DecidableEq

/-- A star an attempt measures at every frame, where it was last seen. -/
structure ListedStar (F : Type) where
  x : F
  y : F
  radius : F
  deriving DecidableEq

/-- A star the reference frame measured. -/
structure ReferenceStar (F : Type) where
  x : F
  y : F
  radius : F
  hfr : F

structure ReferenceFrame (F : Type) where
  documentId : String
  stars : List (ReferenceStar F)

/-- An attempt's reference frame, as the result and the record keep it. -/
structure Reference where
  position : I32
  documentId : String
  listed : ℕ
  deriving DecidableEq

inductive ConfirmationRejection where
  | Starless
  | Sparse
  | Worse
  deriving DecidableEq

/-- One measured point of the sweep. -/
structure CurvePoint (F : Type) where
  position : I32
  hfr : Option F
  starCount : ℕ
  documentId : String
  rejected : Option Rejection
  deriving DecidableEq

/-- A position, what was measured there and the stars it was measured on. -/
abbrev Sample (F : Type) := I32 × F × ℕ

/-- What the fit consumes, or nothing for a starless or rejected sample. -/
def CurvePoint.acceptedSample {F : Type} (point : CurvePoint F) : Option (Sample F) :=
  match point.hfr, point.rejected with
  | some hfr, none => some (point.position, hfr, point.starCount)
  | _, _ => none

/-- What one grid position measured. -/
structure Measurement (F : Type) where
  hfr : Option F
  starCount : ℕ
  documentId : String

/-- The frame captured at the fitted position, and its verdict. -/
structure Confirmation (F : Type) where
  documentId : String
  hfr : Option F
  starCount : ℕ
  accepted : Bool
  rejected : Option ConfirmationRejection

inductive Direction where
  | Ascending
  | Descending
  deriving DecidableEq

/-- What the sweep needs beyond the grid's centre. -/
structure SweepParams (F : Type) where
  stepSize : I32
  halfWidth : I32
  minFitPoints : ℕ
  minFitRSquared : Option F
  confirmationTolerance : F
  maxAttempts : ℕ
  /-- The attempts are counted in a `u32`. -/
  maxAttempts_le : maxAttempts ≤ 4294967295
  direction : Direction
  minPosition : Option I32
  maxPosition : Option I32

/-- The travel a position must lie in, where it is bounded. -/
abbrev Bounds := Option I32 × Option I32

def SweepParams.bounds (params : SweepParams F) : Bounds := (params.minPosition, params.maxPosition)

/-- Whether a position lies inside the travel. -/
def inBounds (bounds : Bounds) (position : I32) : Bool :=
  bounds.1.all (fun low => decide (low ≤ position)) && bounds.2.all (fun high => decide (position ≤ high))

/-- Why a sweep's accepted samples produced no trusted vertex. -/
inductive FitError (F : Type) where
  | NotEnoughStars (got needed : ℕ)
  | MonotonicCurve (why : String)
  | VertexOutside (vertex sampledMin sampledMax : I32)
  | PoorFit (rSquared threshold : F)

/-- The name a failed fit is recorded under. -/
inductive FitOutcome where
  | NotEnoughStars
  | MonotonicCurve
  | PoorFit
  deriving DecidableEq

def FitError.outcome : FitError F → FitOutcome
  | .NotEnoughStars _ _ => .NotEnoughStars
  | .MonotonicCurve _ => .MonotonicCurve
  | .VertexOutside _ _ _ => .MonotonicCurve
  | .PoorFit _ _ => .PoorFit

/-- The R² a poor fit was refused on. -/
def FitError.fitRSquared : FitError F → Option F
  | .PoorFit rSquared _ => some rSquared
  | _ => none

def FitError.toString : FitError F → String
  | .NotEnoughStars got needed =>
      s!"not enough stars: only {got} of {needed} required samples are accepted " ++
        "(non-null HFR, past the sparse gate)"
  | .MonotonicCurve why => s!"monotonic curve: {why}"
  | .VertexOutside vertex low high =>
      s!"monotonic curve: fitted vertex {vertex.val} is outside sampled grid " ++
        s!"[{low.val}, {high.val}]"
  | .PoorFit rSquared threshold =>
      s!"poor fit: fit_r_squared {F64.fixed 3 rSquared} is below min_fit_r_squared " ++
        F64.display threshold

/-- What a run did after an attempt that failed to fit. -/
inductive Retry where
  | SameGrid
  | Shift
  | ShiftAbsorbed
  | GridTooSmall
  | NoAttemptsLeft
  deriving DecidableEq

/-- One attempt that failed to fit, as the run records it. -/
structure FailedAttempt where
  attempt : ℕ
  outcome : FitOutcome
  error : String
  centre : I32
  listed : ℕ
  points : ℕ
  accepted : ℕ
  sparse : ℕ
  starless : ℕ
  retry : Retry
  nextCentre : Option I32
  deriving DecidableEq

/-- How a sweep ended when it did not end in a curve. -/
inductive SweepFailure (F : Type) where
  | Fit (error : FitError F) (attempts : ℕ) (attemptsLog : List FailedAttempt)
      (reference : Option Reference) (curvePoints : List (CurvePoint F))
  | Grid (message : String)
  | Rig (error : FocusModelError) (attemptsLog : List FailedAttempt)
      (reference : Option Reference) (curvePoints : List (CurvePoint F))

/-- A sweep that produced a trusted position. -/
structure SweepOutcome (F : Type) where
  position : I32
  hfr : F
  bestPosition : I32
  bestHfr : F
  fitRSquared : F
  samplesUsed : ℕ
  attempts : ℕ
  attemptsLog : List FailedAttempt
  wingSlope : Option F
  confirmed : Bool
  confirmation : Confirmation F
  reference : Reference
  curvePoints : List (CurvePoint F)

/-- What the sweep needs from the rig. -/
structure SweepOps (S N F : Type) where
  /-- Move the focuser and return the read-back position. -/
  moveFocuser : I32 → Traced S FocusModelError N I32
  /-- Capture at the current position and detect its stars. -/
  reference : Traced S FocusModelError N (ReferenceFrame F)
  /-- Capture and measure the listed stars, with where each was seen. -/
  measure : List (ListedStar F) → Traced S FocusModelError N (Measurement F × List (ListedStar F))
  checkCancelled : Traced S FocusModelError N Unit

/-! ## Reading the samples -/

/-- A measured HFR the fit may use. -/
def finiteHfr (hfr : Option F) : Option F := hfr.filter F64.isFinite

/-- The stars of a reference frame an attempt measures at every frame. -/
def starList (stars : List (ReferenceStar F)) : List (ListedStar F) :=
  let hfrs := (stars.map fun star => star.hfr).insertionSort fun a b => F64.totalCmp a b ≠ .gt
  let middle := hfrs.length / 2
  let lower := if middle = 0 then none else hfrs[middle - 1]?
  match hfrs[middle]?, lower with
  | none, _ => []
  | some upper, lower =>
      let median := match lower with
        | some lower => if hfrs.length % 2 = 0 then F64.midpoint lower upper else upper
        | none => upper
      (stars.filter fun star =>
        F64.lt (F64.abs (F64.sub star.hfr median)) (F64.mul (F64.ofRat LIST_HFR_BAND) median)).map
        fun star => ⟨star.x, star.y, star.radius⟩

/-- Mark one sample as sparse where too few listed stars were measured. -/
def CurvePoint.gated {F : Type} (point : CurvePoint F) : CurvePoint F :=
  if point.hfr.isSome ∧ point.starCount < MIN_SAMPLE_STARS then
    { point with rejected := some .Sparse }
  else point

def applyStarFloor {F : Type} (points : List (CurvePoint F)) : List (CurvePoint F) :=
  points.map CurvePoint.gated

/-- Whether a sample is lower than another; ties go to the denser frame. -/
def sampleOrder (a b : Sample F) : Ordering :=
  ((F64.partialCmp a.2.1 b.2.1).getD .eq).then (compare b.2.2 a.2.2)

/-- The lowest-HFR sample, the first of several. -/
def lowestSample : List (Sample F) → Option (Sample F)
  | [] => none
  | first :: rest => some (rest.foldl (fun low sample =>
      if sampleOrder low sample = .gt then sample else low) first)

/-- The confirmation verdict, `none` when accepted. -/
def confirmationVerdict (hfr : Option F) (starCount : ℕ) (lowestHfr tolerance : F) :
    Option ConfirmationRejection :=
  match hfr with
  | none => some .Starless
  | some hfr =>
      if starCount < MIN_SAMPLE_STARS then some .Sparse
      else if F64.partialCmp hfr (F64.mul lowestHfr (F64.add (F64.ofRat 1) tolerance)) = some .gt then
        some .Worse
      else none

/-- Ordinary least-squares slope of HFR against position. -/
def lineSlope (samples : List (I32 × F)) : Option F :=
  if samples.length < 2 then none
  else
    let zero : F := F64.ofRat 0
    let n := samples.foldl (fun n _ => F64.add n (F64.ofRat 1)) zero
    let sumX := samples.foldl (fun sum sample => F64.add sum (F64.ofI32 sample.1)) zero
    let sumY := samples.foldl (fun sum sample => F64.add sum sample.2) zero
    let meanX := F64.div sumX n
    let meanY := F64.div sumY n
    let sxx := samples.foldl (fun sum sample =>
      let dx := F64.sub (F64.ofI32 sample.1) meanX
      F64.mulAdd dx dx sum) zero
    let sxy := samples.foldl (fun sum sample =>
      F64.mulAdd (F64.sub (F64.ofI32 sample.1) meanX) (F64.sub sample.2 meanY) sum) zero
    if F64.lt zero sxx then some (F64.div sxy sxx) else none

/-- The steeper of the two wings, in HFR pixels per 100 focuser steps. -/
def wingSlope (points : List (CurvePoint F)) : Option F :=
  let accepted := points.filterMap CurvePoint.acceptedSample
  match lowestSample accepted with
  | none => none
  | some (lowestPosition, _, _) =>
      let wing (onSide : I32 → I32 → Bool) : Option F :=
        (lineSlope ((accepted.filter fun sample => onSide sample.1 lowestPosition).map
          fun sample => (sample.1, sample.2.1))).map
          fun slope => F64.mul (F64.abs slope) (F64.ofRat 100)
      match wing (fun position lowest => position < lowest),
          wing (fun position lowest => lowest < position) with
      | some inner, some outer => some (F64.max inner outer)
      | inner, outer => inner.or outer

/-- Which way focus lies from a sweep whose stars ran out on one side only. -/
def oneSidedStarvation (curvePoints : List (CurvePoint F)) : Option Ordering :=
  let ordered := curvePoints.insertionSort fun a b => a.position ≤ b.position
  let accepted := (ordered.filterMap CurvePoint.acceptedSample).map fun sample =>
    (sample.1, sample.2.1)
  match accepted, accepted.getLast? with
  | (lowestAccepted, _) :: _ :: _, some (highestAccepted, _) =>
      if accepted.length = ordered.length then none
      else
        let notAccepted := (ordered.filter fun point => point.acceptedSample.isNone).map
          fun point => point.position
        let pairs := accepted.zip accepted.tail
        if notAccepted.all fun position => highestAccepted < position then
          if pairs.all fun pair => pair.1.1 < pair.2.1 && F64.lt pair.1.2 pair.2.2 then some .lt
          else none
        else if notAccepted.all fun position => position < lowestAccepted then
          if pairs.all fun pair => pair.1.1 < pair.2.1 &&
              F64.partialCmp pair.1.2 pair.2.2 = some .gt then some .gt
          else none
        else none
  | _, _ => none

/-! ## Where the next attempt goes -/

/-- Where a failed attempt sends the next grid. -/
structure RetryPlan where
  retry : Retry
  centre : I32
  deriving DecidableEq

def I32.three : I32 := I32.clamp 3

/-- Where a monotonic curve's retry centres on the vertex its fit extrapolated: the vertex, when it
lies past the end of the samples that `side` names, at most three half widths from the centre. -/
def vertexCentre (vertex : I32) (side : Ordering) (accepted : List (Sample F))
    (centre halfWidth : I32) : Option I32 :=
  match (accepted.map fun sample => sample.1).min?, (accepted.map fun sample => sample.1).max? with
  | some lowEnd, some highEnd =>
      let reach := halfWidth.satMul I32.three
      match side with
      | .lt => if vertex < lowEnd then some (max vertex (centre.satSub reach)) else none
      | .gt => if highEnd < vertex then some (min vertex (centre.satAdd reach)) else none
      | .eq => none
  | _, _ => none

/-- Which way focus lies from a sweep whose curve fell toward one end. -/
def monotonicSide (lowest : I32) (accepted : List (Sample F)) (curvePoints : List (CurvePoint F)) :
    Ordering :=
  let ends := accepted.foldl (fun ends sample => (min ends.1 sample.1, max ends.2 sample.1))
    (lowest, lowest)
  let side := compare (lowest.val - ends.1.val).natAbs (ends.2.val - lowest.val).natAbs
  let pastEnd (position : I32) : Bool := match side with
    | .lt => position < ends.1
    | .gt => ends.2 < position
    | .eq => false
  if curvePoints.any fun point => point.acceptedSample.isNone && pastEnd point.position then .eq
  else side

/-- A position held to the travel. -/
def clampToBounds (bounds : Bounds) (position : I32) : I32 :=
  let position := bounds.1.elim position fun low => max position low
  bounds.2.elim position fun high => min position high

/-- Which way an attempt that failed to fit says focus lies. -/
def retryDirection (error : FitError F) (lowestPosition : I32) (accepted : List (Sample F))
    (curvePoints : List (CurvePoint F)) : Ordering :=
  match error with
  | .MonotonicCurve _ => monotonicSide lowestPosition accepted curvePoints
  | .VertexOutside _ _ _ => monotonicSide lowestPosition accepted curvePoints
  | .NotEnoughStars _ _ => (oneSidedStarvation curvePoints).getD .eq
  | .PoorFit _ _ => .eq

/-- The centre that the fit's own vertex gives a retry, when the fit placed one. -/
def extrapolatedCentre (error : FitError F) (direction : Ordering) (accepted : List (Sample F))
    (centre halfWidth : I32) : Option I32 :=
  match error with
  | .VertexOutside vertex _ _ => vertexCentre vertex direction accepted centre halfWidth
  | _ => none

/-- Where the next attempt's grid is centred after a failed fit. -/
def retryCentre (centre : I32) (error : FitError F) (curvePoints : List (CurvePoint F))
    (halfWidth : I32) (bounds : Bounds) : RetryPlan :=
  let accepted := curvePoints.filterMap CurvePoint.acceptedSample
  match lowestSample accepted with
  | none => ⟨.SameGrid, centre⟩
  | some (lowestPosition, _, _) =>
      let direction := retryDirection error lowestPosition accepted curvePoints
      let extrapolated := extrapolatedCentre error direction accepted centre halfWidth
      let shift (byHalfWidth : I32) : RetryPlan :=
        let shifted := clampToBounds bounds (extrapolated.getD byHalfWidth)
        if shifted = centre then ⟨.ShiftAbsorbed, centre⟩ else ⟨.Shift, shifted⟩
      match direction with
      | .lt => shift (centre.satSub halfWidth)
      | .gt => shift (centre.satAdd halfWidth)
      | .eq => ⟨.SameGrid, centre⟩

/-- The accepted, sparse and starless points of one attempt. -/
def gateCounts {F : Type} (curvePoints : List (CurvePoint F)) : ℕ × ℕ × ℕ :=
  (curvePoints.countP fun point => point.acceptedSample.isSome,
    curvePoints.countP fun point => point.hfr.isSome && point.rejected.isSome,
    curvePoints.countP fun point => point.hfr.isNone)

/-! ## The grid -/

/-- The walk of `buildGrid` from a position, with so many visits left. -/
def gridFrom (step finish : I32) (bounds : Bounds) : ℕ → I32 → List I32
  | 0, _ => []
  | left + 1, p =>
      let next := p.satAdd step
      let rest := if p = finish ∨ next ≤ p ∨ finish < next then [] else gridFrom step finish bounds left next
      if inBounds bounds p then p :: rest else rest

/-- The grid `[centre − halfWidth, centre + halfWidth]` in steps, without what the bounds exclude. -/
def buildGrid (centre step halfWidth : I32) (bounds : Bounds) : List I32 :=
  -- the walk stops once it has visited more than the cap
  gridFrom step (centre.satAdd halfWidth) bounds (MAX_GRID_POINTS + 1) (centre.satSub halfWidth)

/-- How many positions a walk visits, before any clamping. -/
def plannedPoints (halfWidth stepSize : I32) : ℕ :=
  (max (halfWidth.val * 2) 0 / max stepSize.val 1 + 1).toNat

/-- Whether a sweep this wide at this step can be walked at all. -/
def checkSpan {F : Type} (halfWidth stepSize : I32) : Except (SweepFailure F) Unit :=
  let planned := plannedPoints halfWidth stepSize
  if MAX_GRID_POINTS < planned then
    .error (.Grid (s!"the sweep grid would hold {planned} positions, more than the cap of " ++
      s!"{MAX_GRID_POINTS} (raise step_size or lower half_width)"))
  else .ok ()

/-- The walk-ordered grid around `centre`. -/
def sweepGrid (centre : I32) (params : SweepParams F) : Except (SweepFailure F) (List I32) :=
  match checkSpan params.halfWidth params.stepSize with
  | .error failure => .error failure
  | .ok () =>
      let grid := buildGrid centre params.stepSize params.halfWidth params.bounds
      if grid.length < params.minFitPoints then
        .error (.Grid (s!"the sweep grid holds {grid.length} positions after clamping to the " ++
          s!"focuser's bounds; min_fit_points is {params.minFitPoints}"))
      else if params.direction = .Descending then .ok grid.reverse
      else .ok grid

/-- Whether the sweep around `centre` can be walked at all. -/
def checkGrid (centre : I32) (params : SweepParams F) : Except (SweepFailure F) Unit :=
  (sweepGrid centre params).map fun _ => ()

/-! ## Gate and fit -/

/-- The fitted hyperbola, as far as the sweep reads it. -/
structure HyperbolaFit (F : Type) where
  centre : F
  minimum : F
  rSquared : F

/-- The curve's own failures. -/
inductive CurveError where
  | NotEnoughStars (got : ℕ)
  | MonotonicCurve (why : String)

/-- The fit of the accepted samples, by another crate. -/
abbrev FitHyperbola (F : Type) := List (Sample F) → Except CurveError (HyperbolaFit F)

def fit {F : Type} (fitHyperbola : FitHyperbola F) (accepted : List (Sample F)) :
    Except (FitError F) (HyperbolaFit F) :=
  match fitHyperbola accepted with
  | .ok fitted => .ok fitted
  | .error (.NotEnoughStars got) => .error (.NotEnoughStars got 3)
  | .error (.MonotonicCurve why) => .error (.MonotonicCurve why)

/-- What the gate-and-fit stage hands to the confirmation stage. -/
structure FitStage (F : Type) where
  bestPosition : I32
  bestHfr : F
  rSquared : F
  lowestPosition : I32
  lowestHfr : F
  samplesUsed : ℕ

/-- The vertex of a fit, held against the positions its samples were measured at, and the fit held to
the threshold. -/
def validate (fitted : HyperbolaFit F) (accepted : List (Sample F)) (params : SweepParams F) :
    Except (FitError F) (FitStage F) :=
  let bestPosition := F64.roundI32 fitted.centre
  match (accepted.map fun sample => sample.1).min?, (accepted.map fun sample => sample.1).max? with
  | some sampledMin, some sampledMax =>
      if bestPosition < sampledMin ∨ sampledMax < bestPosition then
        .error (.VertexOutside bestPosition sampledMin sampledMax)
      else
        match params.minFitRSquared.filter fun threshold => F64.lt fitted.rSquared threshold with
        | some threshold => .error (.PoorFit fitted.rSquared threshold)
        | none =>
            match lowestSample accepted with
            | none => .error (.MonotonicCurve "no accepted sample to hold the confirmation against")
            | some (lowestPosition, lowestHfr, _) =>
                .ok ⟨bestPosition, fitted.minimum, fitted.rSquared, lowestPosition, lowestHfr,
                  accepted.length⟩
  | _, _ => .error (.MonotonicCurve "no accepted sample to bound the vertex with")

/-- Gate the sweep and fit the accepted samples; the marked points come back either way. -/
def gateAndFit (fitHyperbola : FitHyperbola F) (curvePoints : List (CurvePoint F))
    (params : SweepParams F) : List (CurvePoint F) × Except (FitError F) (FitStage F) :=
  let curvePoints := applyStarFloor curvePoints
  let accepted := curvePoints.filterMap CurvePoint.acceptedSample
  if accepted.length < params.minFitPoints then
    (curvePoints, .error (.NotEnoughStars accepted.length params.minFitPoints))
  else
    match fit fitHyperbola accepted with
    | .error error => (curvePoints, .error error)
    | .ok fitted => (curvePoints, validate fitted accepted params)

/-! ## The run -/

section Run

variable {S N : Type}

/-- The first attempt finds the focuser at its centre already, a retry moves to its own. -/
def arrive (ops : SweepOps S N F) (centre : I32) (first : Bool) : Traced S FocusModelError N I32 :=
  if first then pure centre else ops.moveFocuser centre

/-- An attempt's reference frame at its centre, and the list it gives. -/
def takeReference (ops : SweepOps S N F) (centre : I32) (first : Bool) :
    Traced S FocusModelError N (Reference × List (ListedStar F)) := do
  ops.checkCancelled
  let position ← arrive ops centre first
  ops.checkCancelled
  let frame ← ops.reference
  let list := starList frame.stars
  pure (⟨position, frame.documentId, list.length⟩, list)

/-- One position of the walk: the sample belongs where the focuser reports it is. -/
def samplePoint (ops : SweepOps S N F) (position : I32) (list : List (ListedStar F)) :
    Traced S FocusModelError N (CurvePoint F × List (ListedStar F)) := do
  ops.checkCancelled
  let reached ← ops.moveFocuser position
  ops.checkCancelled
  let measured ← ops.measure list
  pure (⟨reached, finiteHfr measured.1.hfr, measured.1.starCount, measured.1.documentId, none⟩,
    measured.2)

/-- One walk of `grid`. A failure part-way leaves the points measured so far. -/
def walk (ops : SweepOps S N F) : List I32 → List (ListedStar F) → List (CurvePoint F) →
    Traced S FocusModelError N (Except FocusModelError (List (ListedStar F)) × List (CurvePoint F))
  | [], list, curvePoints => pure (.ok list, curvePoints)
  | position :: grid, list, curvePoints =>
      Traced.attempt (samplePoint ops position list) >>= fun
        | .error error => pure (.error error, curvePoints)
        | .ok (point, list) => walk ops grid list (curvePoints ++ [point])

/-- Back to the lowest sample, when the confirmation frame was not accepted. A focuser that settles
short of it is measured where it is. -/
def fallBack (ops : SweepOps S N F) (stage : FitStage F) (list : List (ListedStar F)) :
    Traced S FocusModelError N (I32 × F) := do
  ops.checkCancelled
  let position ← ops.moveFocuser stage.lowestPosition
  if position = stage.lowestPosition then
    pure (position, stage.lowestHfr)
  else do
    ops.checkCancelled
    let measured ← ops.measure list
    match finiteHfr measured.1.hfr with
    | some hfr => pure (position, hfr)
    | none => Traced.halt (.Workflow (s!"the focuser settled at {position.val} instead of " ++
        s!"{stage.lowestPosition.val}, and that position measured no stars"))

/-- Move to the fitted vertex, measure the confirmation frame, and settle on the better of the two
measured positions. -/
def confirm (ops : SweepOps S N F) (params : SweepParams F) (stage : FitStage F)
    (list : List (ListedStar F)) : Traced S FocusModelError N (Confirmation F × I32 × F) := do
  ops.checkCancelled
  let movedTo ← ops.moveFocuser stage.bestPosition
  ops.checkCancelled
  let measured ← ops.measure list
  let hfr := finiteHfr measured.1.hfr
  let rejected := confirmationVerdict hfr measured.1.starCount stage.lowestHfr
    params.confirmationTolerance
  let confirmation : Confirmation F :=
    ⟨measured.1.documentId, hfr, measured.1.starCount, rejected.isNone, rejected⟩
  match rejected, hfr with
  | none, some hfr => pure (confirmation, movedTo, hfr)
  | _, _ => do
      let settled ← fallBack ops stage measured.2
      pure (confirmation, settled)

/-- The account of an attempt that failed to fit, and the grid the next attempt walks, if any. -/
def failedAttempt (number : ℕ) (centre : I32) (reference : Reference)
    (curvePoints : List (CurvePoint F)) (error : FitError F) (params : SweepParams F) :
    FailedAttempt × Option (I32 × List I32) :=
  let counts := gateCounts curvePoints
  let account (retry : Retry) (nextCentre : Option I32) : FailedAttempt :=
    { attempt := number, outcome := error.outcome, error := error.toString, centre := centre,
      listed := reference.listed, points := curvePoints.length, accepted := counts.1,
      sparse := counts.2.1, starless := counts.2.2, retry := retry, nextCentre := nextCentre }
  if number < params.maxAttempts then
    let plan := retryCentre centre error curvePoints params.halfWidth params.bounds
    match sweepGrid plan.centre params with
    | .ok nextGrid => (account plan.retry (some plan.centre), some (plan.centre, nextGrid))
    | .error _ => (account .GridTooSmall (some plan.centre), none)
  else (account .NoAttemptsLeft none, none)

/-- Only a run with attempts left has a next grid. -/
theorem number_lt_of_failedAttempt {number : ℕ} {centre : I32} {reference : Reference}
    {curvePoints : List (CurvePoint F)} {error : FitError F} {params : SweepParams F}
    {failed : FailedAttempt} {next : I32 × List I32}
    (h : failedAttempt number centre reference curvePoints error params = (failed, some next)) :
    number < params.maxAttempts := by
  by_contra hlast
  simp only [failedAttempt, if_neg hlast, Prod.mk.injEq, reduceCtorEq, and_false] at h

/-- The attempts that are left, from the one with this number. -/
def sweepFrom (ops : SweepOps S N F) (fitHyperbola : FitHyperbola F) (params : SweepParams F)
    (number : ℕ) (centre : I32) (grid : List I32) (measured : List (CurvePoint F))
    (attemptsLog : List FailedAttempt) :
    Traced S FocusModelError N (Except (SweepFailure F) (SweepOutcome F)) :=
  Traced.attempt (takeReference ops centre (number = 1)) >>= fun
  | .error error => pure (.error (.Rig error attemptsLog none measured))
  | .ok (reference, list) =>
    walk ops grid list [] >>= fun
    | (.error error, curvePoints) =>
        pure (.error (.Rig error attemptsLog (some reference) (measured ++ curvePoints)))
    | (.ok list, curvePoints) =>
        match gateAndFit fitHyperbola curvePoints params with
        | (curvePoints, .ok stage) =>
            Traced.attempt (confirm ops params stage list) >>= fun
            | .error error =>
                pure (.error (.Rig error attemptsLog (some reference) (measured ++ curvePoints)))
            | .ok (confirmation, position, hfr) => pure (.ok
                { position := position, hfr := hfr, bestPosition := stage.bestPosition,
                  bestHfr := stage.bestHfr, fitRSquared := stage.rSquared,
                  samplesUsed := stage.samplesUsed, attempts := number,
                  attemptsLog := attemptsLog, wingSlope := wingSlope curvePoints,
                  confirmed := confirmation.accepted, confirmation := confirmation,
                  reference := reference, curvePoints := measured ++ curvePoints })
        | (curvePoints, .error error) =>
            match _hnext : failedAttempt number centre reference curvePoints error params with
            | (failed, some (nextCentre, nextGrid)) =>
                sweepFrom ops fitHyperbola params (min (number + 1) 4294967295) nextCentre nextGrid
                  (measured ++ curvePoints) (attemptsLog ++ [failed])
            | (failed, none) => pure (.error (.Fit error number (attemptsLog ++ [failed])
                (some reference) (measured ++ curvePoints)))
  termination_by params.maxAttempts - number
  decreasing_by
    have hlt := number_lt_of_failedAttempt _hnext
    have hle := params.maxAttempts_le
    omega

/-- Run the V-curve around `centre`, where the focuser is when it starts. -/
def runSweep (ops : SweepOps S N F) (fitHyperbola : FitHyperbola F) (centre : I32)
    (params : SweepParams F) :
    Traced S FocusModelError N (Except (SweepFailure F) (SweepOutcome F)) :=
  match sweepGrid centre params with
  | .error failure => pure (.error failure)
  | .ok grid => sweepFrom ops fitHyperbola params 1 centre grid [] []

end Run

end RustyPhoton.FocusModel
