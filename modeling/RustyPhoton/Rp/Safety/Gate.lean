import RustyPhoton.Lib.Json

/-!
# Tool classes, the gate and the calls in flight

After `mcp/gate.rs`, `mcp/inflight.rs` and the status of `safety.rs`: which calls the safety gate
refuses, the flag it reads, and the registry through which the unsafe transition cancels. The `since`
stamps, and the names of tools and requests that only the log prints, are left out.
-/

namespace RustyPhoton.Rp.Safety

open Lib

/-- Whether a tool call is refused while unsafe and cancelled by the unsafe transition. -/
inductive ToolClass where
  | gated
  | ungated
  deriving DecidableEq

inductive FrameType where
  | light
  | dark
  | flat
  | bias
  deriving DecidableEq

/-- What lights a frame. -/
inductive LightSource where
  | panel
  | sky
  deriving DecidableEq

def FrameType.ofName : String → Option FrameType
  | "Light" => some .light
  | "Dark" => some .dark
  | "Flat" => some .flat
  | "Bias" => some .bias
  | _ => none

def LightSource.ofName : String → Option LightSource
  | "panel" => some .panel
  | "sky" => some .sky
  | _ => none

/-- The name of a variant without data: a text, or an object of that one member with nothing in it. -/
def variantName : Value → Option String
  | .string name => some name
  | .object [(name, .null)] => some name
  | _ => none

/-- One optional argument: absent and `null` are both no value; nothing comes back for one that does not
parse. -/
def argument {α : Type} (ofName : String → Option α) (arguments : Option (List (String × Value)))
    (name : String) : Option (Option α) :=
  match arguments.bind fun members => members.lookup name with
  | none | some .null => some none
  | some value => ((variantName value).bind ofName).map some

/-- Whether a `capture` asks for a frame that needs the sky. -/
def captureNeedsTheSky : Option FrameType → Option LightSource → Bool
  | some .dark, _ | some .bias, _ | some .flat, some .panel | none, some .panel => false
  | some .light, _ | some .flat, some .sky | some .flat, none | none, some .sky | none, none => true

/-- A frame type or light source that does not parse counts as needing the sky. -/
def captureArgumentsNeedTheSky (arguments : Option (List (String × Value))) : Bool :=
  match argument FrameType.ofName arguments "frame_type",
    argument LightSource.ofName arguments "light_source" with
  | some frameType, some lightSource => captureNeedsTheSky frameType lightSource
  | _, _ => true

/-- The class of one call: the table's, except for a capture of a frame that needs the sky. -/
def callClass (tool : String) (toolClass : ToolClass) (arguments : Option (List (String × Value))) :
    ToolClass :=
  if toolClass = .ungated ∧ tool = "capture" ∧ captureArgumentsNeedTheSky arguments = true then .gated
  else toolClass

/-! ## The gate -/

/-- The gate flag and the last reading of each monitor, by its id. -/
structure SafetyStatus where
  overall : Bool
  monitors : List (String × Bool)

namespace SafetyStatus

/-- Safe, no monitors polled yet. -/
def default : SafetyStatus := ⟨true, []⟩

def recordMonitor (status : SafetyStatus) (id : String) (safe : Bool) : SafetyStatus :=
  { status with monitors := Assoc.insertSorted id safe status.monitors }

def setOverall (status : SafetyStatus) (safe : Bool) : SafetyStatus := { status with overall := safe }

/-- An unsafe monitor to name on a refusal: the first in id order. -/
def unsafeMonitor (status : SafetyStatus) : Option String :=
  (status.monitors.find? fun reading => !reading.2).map Prod.fst

end SafetyStatus

/-! ## Calls in flight -/

inductive CancelReason where
  | safety
  | clientDisconnected
  deriving DecidableEq

/-- A body's view of its own cancellation; a cancellation through the request's token sets no reason. -/
structure Cancel where
  isCancelled : Bool
  explicit : Option CancelReason

namespace Cancel

def new : Cancel := ⟨false, none⟩

/-- The first cancellation wins. -/
def cancel (c : Cancel) (reason : CancelReason) : Cancel :=
  if c.isCancelled then c else ⟨true, some reason⟩

/-- The request's own token is cancelled. -/
def parentCancelled (c : Cancel) : Cancel := { c with isCancelled := true }

def reason (c : Cancel) : CancelReason := c.explicit.getD .clientDisconnected

@[simp] theorem isCancelled_cancel (c : Cancel) (reason : CancelReason) :
    (c.cancel reason).isCancelled = true := by
  rw [cancel]
  split
  · assumption
  · rfl

end Cancel

/-- Keys are unsigned 64-bit numbers, and wrap. -/
def keyModulus : Nat := 2 ^ 64

/-- The registry: the calls in flight by key, each by its number among the calls. -/
structure InFlight where
  entries : List (Nat × Nat)
  nextKey : Nat

namespace InFlight

def empty : InFlight := ⟨[], 0⟩

/-- `register`, with the key its guard keeps. -/
def register (registry : InFlight) (call : Nat) : InFlight × Nat :=
  (⟨Assoc.insert registry.nextKey call registry.entries, (registry.nextKey + 1) % keyModulus⟩,
    registry.nextKey)

def remove (registry : InFlight) (key : Nat) : InFlight :=
  { registry with entries := Assoc.erase key registry.entries }

end InFlight

end RustyPhoton.Rp.Safety
