import RustyPhoton.Lib.Instant
import RustyPhoton.Lib.Json

/-!
# The guide focus watch

The guider service keeps its last frames in a ring, which it clears when guiding is started through
it and at no other time. The watch polls that ring, takes the median of its oldest valid frames for
a baseline when it has none, and compares the median of the newest ones with it. A focus event of
the guiding train, or a poll that finds guiding off, drops the baseline.
-/

namespace RustyPhoton.Rp.Guiding

open Lib (Binary64 checkedAdd)

/-! ## The configuration -/

/-- `GUIDER_METRICS_WINDOW`, which is the guider service's `METRICS_WINDOW`. -/
def guiderMetricsWindow : Nat := 50

structure WatchWindow where
  value : Nat
  low : 3 ≤ value
  high : value ≤ guiderMetricsWindow

/-- 1.0 -/
def one : Binary64 := ⟨0x3FF0000000000000#64⟩

/-- A finite number above 1.0. -/
structure DegradeRatio where
  value : Binary64
  finite : value.isFinite = true
  above : one.lt value = true

/-- Durations and instants are counted in nanoseconds. -/
structure FocusWatchConfig where
  window : WatchWindow
  degradeRatio : DegradeRatio
  cooldown : Nat
  escalationDeadline : Nat

/-! ## The trend state machine -/

inductive WatchEvent where
  | degraded (baselineHfd currentHfd : Binary64)
  | escalation (baselineHfd currentHfd : Binary64)

structure Episode where
  firedAt : Nat
  escalated : Bool

structure WatchCore where
  config : FocusWatchConfig
  baseline : Option Binary64
  episode : Option Episode
  cooldownUntil : Option Nat

/-- Median of a non-empty list, the upper one for even lengths. -/
def median (values : List Binary64) : Binary64 :=
  let sorted := values.insertionSort fun a b => b.lt a = false
  sorted[sorted.length / 2]?.getD .nan

namespace WatchCore

def new (config : FocusWatchConfig) : WatchCore := ⟨config, none, none, none⟩

def rearm (core : WatchCore) : WatchCore :=
  { core with baseline := none, episode := none, cooldownUntil := none }

def exceeds (config : FocusWatchConfig) (baseline current : Binary64) : Bool :=
  (baseline.mul config.degradeRatio.value).lt current

/-- Whether this observation sets the baseline. -/
def adopts (core : WatchCore) (validHfds : List Binary64) : Bool :=
  core.baseline.isNone && decide (core.config.window.value ≤ validHfds.length)

def adopt (core : WatchCore) (validHfds : List Binary64) : WatchCore :=
  if core.adopts validHfds then
    { core with baseline := some (median (validHfds.take core.config.window.value)) }
  else core

/-- The baseline and the trailing median, once there are both. -/
def reading (core : WatchCore) (validHfds : List Binary64) : Option (Binary64 × Binary64) :=
  match core.baseline with
  | none => none
  | some baseline =>
      if validHfds.length < core.config.window.value then none
      else some (baseline,
        median (validHfds.drop (validHfds.length - core.config.window.value)))

/-- The events a trailing median asks for. -/
def judge (core : WatchCore) (baseline current : Binary64) (now : Nat) :
    WatchCore × List WatchEvent :=
  match core.episode, exceeds core.config baseline current with
  | none, true =>
      if core.cooldownUntil.any fun until' => now < until' then (core, [])
      else
        ({ core with
            episode := some ⟨now, false⟩
            -- an overflow degrades to a cooldown that has elapsed
            cooldownUntil := some ((checkedAdd now core.config.cooldown).getD now) },
          [.degraded baseline current])
  | some episode, true =>
      if !episode.escalated &&
          (checkedAdd episode.firedAt core.config.escalationDeadline).any (· ≤ now) then
        ({ core with episode := some { episode with escalated := true } },
          [.escalation baseline current])
      else (core, [])
  | some _, false => ({ core with episode := none }, [])
  | none, false => (core, [])

/-- One observation: the ring's valid HFDs, oldest first. -/
def observe (core : WatchCore) (guiding : Bool) (validHfds : List Binary64) (now : Nat) :
    WatchCore × List WatchEvent :=
  if guiding then
    match (core.adopt validHfds).reading validHfds with
    | none => (core.adopt validHfds, [])
    | some (baseline, current) => (core.adopt validHfds).judge baseline current now
  else (core.rearm, [])

end WatchCore

/-! ## Focus events -/

/-- Where the watch looks for the guiding train. -/
structure Scope where
  guidingTrainId : Option String
  guidingFocusers : List String

def textAt (payload : Lib.Value) (key : String) : Option String :=
  (payload.get key).bind Lib.Value.asStr

def Scope.stepTouchesGuiding (scope : Scope) (step : Lib.Value) : Bool :=
  scope.guidingTrainId.any (fun id =>
    textAt step "train_id" = some id || textAt step "run_train_id" = some id) ||
  (textAt step "focuser_id").any (scope.guidingFocusers.contains ·)

def Scope.anyStepTouchesGuiding (scope : Scope) (payload : Lib.Value) : Bool :=
  match payload.get "steps" with
  | some (.array steps) => steps.any scope.stepTouchesGuiding
  | _ => false

/-- Whether an event means the guiding train's focus changed. -/
def Scope.rearmsBaseline (scope : Scope) (event : String) (payload : Lib.Value) : Bool :=
  event = "focus_complete" &&
    (scope.stepTouchesGuiding payload || scope.anyStepTouchesGuiding payload)

/-! ## The ring and the watch -/

/-- An entry of the metrics ring; when it was recorded is not part of what is sent. -/
structure FrameMetrics where
  frame : Nat
  hfd : Option Binary64
  starLost : Bool
  recordedAt : Nat

/-- The HFDs of the frames that have one, oldest first. -/
def validHfds (frames : List FrameMetrics) : List Binary64 :=
  (frames.filter fun f => !f.starLost).filterMap (·.hfd)

/-- The frames that count, each with its HFD. -/
def valid (frames : List FrameMetrics) : List (FrameMetrics × Binary64) :=
  (frames.filter fun f => !f.starLost).filterMap fun f => f.hfd.map (f, ·)

/-- Where the poll stands. Nothing else of the watch happens before it is back at `idle`. -/
inductive Poll where
  | idle
  | asked (guiding : Bool)
  | read (guiding : Bool) (frames : List FrameMetrics)
  | ended

structure Watch where
  clock : Nat
  guiding : Bool
  ring : List FrameMetrics
  poll : Poll
  core : WatchCore

inductive WatchInput where
  | tick (duration : Nat)
  /-- PHD2's application state becomes, or stops being, `Guiding`. -/
  | phd2 (guiding : Bool)
  | guideStep (frame : Nat) (hfd : Option Binary64)
  | starLost (frame : Nat)
  /-- `guiding/start` on the guider service. -/
  | startGuiding
  | getAppState
  | readRing
  | unavailable
  | observe
  | heard (event : String) (payload : Lib.Value)
  | lagged
  | closed

/-- What the watch did, in order. -/
inductive WatchTrace where
  | rearmed (time : Nat)
  | adopted (frames : List (FrameMetrics × Binary64)) (baseline : Binary64)
  | judged (baseline current : Binary64)
  | emitted (time : Nat) (event : WatchEvent)

namespace Watch

def new (config : FocusWatchConfig) : Watch := ⟨0, false, [], .idle, .new config⟩

def pushMetrics (s : Watch) (entry : FrameMetrics) : Watch :=
  if s.ring.length = guiderMetricsWindow then { s with ring := s.ring.tail ++ [entry] }
  else { s with ring := s.ring ++ [entry] }

/-- What an observation that sets the baseline leaves in the log. -/
def adoption (core : WatchCore) (frames : List FrameMetrics) : List WatchTrace :=
  if core.adopts (validHfds frames) then
    [.adopted ((valid frames).take core.config.window.value)
      (median ((validHfds frames).take core.config.window.value))]
  else []

/-- What an observation that compares the medians leaves in the log. -/
def judgement (core : WatchCore) (frames : List FrameMetrics) (now : Nat) : List WatchTrace :=
  match core.reading (validHfds frames) with
  | none => []
  | some (baseline, current) =>
      .judged baseline current :: (core.judge baseline current now).2.map (.emitted now)

def observed (s : Watch) (guiding : Bool) (frames : List FrameMetrics) :
    Watch × List WatchTrace :=
  ({ s with poll := .idle, core := (s.core.observe guiding (validHfds frames) s.clock).1 },
    if guiding then
      adoption s.core frames ++ judgement (s.core.adopt (validHfds frames)) frames s.clock
    else [.rearmed s.clock])

def step (scope : Scope) (s : Watch) : WatchInput → Option (Watch × List WatchTrace)
  | .tick duration => some ({ s with clock := s.clock + duration }, [])
  | .phd2 guiding => some ({ s with guiding := guiding }, [])
  | .guideStep frame hfd => some (s.pushMetrics ⟨frame, hfd, false, s.clock⟩, [])
  | .starLost frame => some (s.pushMetrics ⟨frame, none, true, s.clock⟩, [])
  | .startGuiding => some ({ s with ring := [] }, [])
  | .getAppState =>
      match s.poll with
      | .idle => some ({ s with poll := .asked s.guiding }, [])
      | _ => none
  | .readRing =>
      match s.poll with
      | .asked guiding => some ({ s with poll := .read guiding s.ring }, [])
      | _ => none
  | .unavailable =>
      match s.poll with
      | .idle | .ended => none
      | _ => some ({ s with poll := .idle }, [])
  | .observe =>
      match s.poll with
      | .read guiding frames => some (s.observed guiding frames)
      | _ => none
  | .heard event payload =>
      match s.poll with
      | .idle =>
          if scope.rearmsBaseline event payload then
            some ({ s with core := s.core.rearm }, [.rearmed s.clock])
          else some (s, [])
      | _ => none
  | .lagged =>
      match s.poll with
      | .idle => some (s, [])
      | _ => none
  | .closed =>
      match s.poll with
      | .idle => some ({ s with poll := .ended }, [])
      | _ => none

end Watch

end RustyPhoton.Rp.Guiding
