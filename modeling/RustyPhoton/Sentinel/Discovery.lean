import Mathlib.Data.List.Nodup

/-!
# Discovered services

What a discovery pass knows of the installed services. The registry maps a name to its service; a
pass replaces it whole.
-/

namespace RustyPhoton.Sentinel

/-- How a discovered unit is classified. -/
inductive RunState where
  | running
  | failed
  | inert
  | stopped
  | disabled
  deriving DecidableEq, Repr

/-- Whether autonomous supervision probes and restarts this state. -/
def RunState.supervised : RunState → Bool
  | .running | .failed => true
  | .inert | .stopped | .disabled => false

/-- What is derivable from a service's `server` block. -/
structure ProbeSpec where
  healthUrl : String
  alpacaBase : String
  port : Nat
  deriving DecidableEq, Repr

structure DiscoveredService where
  name : String
  unit : String
  state : RunState
  probe : Option ProbeSpec
  deriving DecidableEq, Repr

/-- A map from names to services. -/
structure Services where
  values : List DiscoveredService
  nodup : (values.map (·.name)).Nodup

namespace Services

def empty : Services := ⟨[], List.nodup_nil⟩

def get (services : Services) (name : String) : Option DiscoveredService :=
  services.values.find? (·.name = name)

def containsKey (services : Services) (name : String) : Bool :=
  (services.values.map (·.name)).contains name

/-- Whether the service is there, in a state that supervision looks after. -/
def supervises (services : Services) (name : String) : Bool :=
  (services.get name).any (·.state.supervised)

/-- The tasks whose service left the supervised set. -/
def reaped (services : Services) (tasks : List (String × Nat)) : List Nat :=
  (tasks.filter fun t => !services.supervises t.1).map (·.2)

/-- The tasks that stay. -/
def kept (services : Services) (tasks : List (String × Nat)) : List (String × Nat) :=
  tasks.filter fun t => services.supervises t.1

/-- The supervised services that have no task. -/
def newlySupervised (services : Services) (tasks : List (String × Nat)) : List String :=
  (services.values.map (·.name)).filter fun name =>
    services.supervises name && !(tasks.map (·.1)).contains name

variable {services : Services} {name : String} {svc : DiscoveredService}

theorem containsKey_iff : services.containsKey name = true ↔
    ∃ svc ∈ services.values, svc.name = name := by
  unfold containsKey
  rw [List.contains_iff_mem, List.mem_map]

theorem name_of_get (h : services.get name = some svc) : svc.name = name := by
  have hname := List.find?_some h
  simpa using hname

theorem mem_of_get (h : services.get name = some svc) : svc ∈ services.values :=
  List.mem_of_find?_eq_some h

theorem get_of_mem (h : svc ∈ services.values) : services.get svc.name = some svc := by
  have hunique : ∀ other ∈ services.values, other.name = svc.name → other = svc := by
    intro other hother hname
    exact List.inj_on_of_nodup_map services.nodup hother h hname
  unfold get
  cases hfind : services.values.find? (·.name = svc.name) with
  | none =>
    have hnot := List.find?_eq_none.mp hfind svc h
    simp at hnot
  | some other =>
    have hname := List.find?_some hfind
    rw [hunique other (List.mem_of_find?_eq_some hfind) (by simpa using hname)]

theorem supervises_of_mem (h : svc ∈ services.values) :
    services.supervises svc.name = svc.state.supervised := by
  unfold supervises
  rw [get_of_mem h]
  rfl

theorem containsKey_of_supervises (h : services.supervises name = true) :
    services.containsKey name = true := by
  unfold supervises at h
  obtain ⟨svc, hget, -⟩ := (Option.any_eq_true _ _).mp h
  exact containsKey_iff.mpr ⟨svc, mem_of_get hget, name_of_get hget⟩

end Services

end RustyPhoton.Sentinel
