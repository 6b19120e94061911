import RustyPhoton.SessionRunner.Crates

/-!
# The run registry

After `RunRegistry` in `runs.rs`: every run the process knows, in start order. A run is looked up
by its id, first match, and nothing in a state change checks the state it leaves.
-/

namespace RustyPhoton.SessionRunner.Runs

open Lib

/-- Where a run is in its lifecycle. -/
inductive RunState where
  | running
  | paused
  | complete
  | failed
  | stopped
  deriving DecidableEq

/-- Running or paused: the run still owns the rig. -/
def RunState.isActive : RunState → Bool
  | running | paused => true
  | complete | failed | stopped => false

/-- A state a run can end in. -/
abbrev EndState := { state : RunState // state.isActive = false }

def EndState.complete : EndState := ⟨.complete, rfl⟩
def EndState.failed : EndState := ⟨.failed, rfl⟩
def EndState.stopped : EndState := ⟨.stopped, rfl⟩

/-- One run as the routes report it. -/
structure RunRecord where
  runId : String
  sessionId : String
  workflow : String
  state : RunState
  pausedReason : Option String
  pausedDetail : Option String
  startedAt : DateTime
  endedAt : Option DateTime
  outcome : Option Value
  /-- Whether the stop token has been cancelled. -/
  stop : Bool
  deriving DecidableEq

def RunRecord.isActive (r : RunRecord) : Bool := r.state.isActive

/-- The record with its stop token cancelled. -/
def RunRecord.cancel (r : RunRecord) : RunRecord := { r with stop := true }

theorem RunRecord.cancel_runId (r : RunRecord) : r.cancel.runId = r.runId := rfl

/-- Why a stop request was refused. -/
inductive StopError where
  | notFound
  | alreadyEnded (state : RunState)
  deriving DecidableEq

abbrev RunRegistry := List RunRecord

namespace RunRegistry

/-- The id of the run that is running or paused, if any. -/
def active (registry : RunRegistry) : Option String :=
  (registry.find? RunRecord.isActive).map RunRecord.runId

/-- Register a new running run, or the id of the run that is still active. -/
def start (runId sessionId workflow : String) (startedAt : DateTime) (registry : RunRegistry) :
    Except String RunRegistry :=
  match registry.find? RunRecord.isActive with
  | some active => .error active.runId
  | none => .ok (registry ++ [⟨runId, sessionId, workflow, .running, none, none, startedAt, none,
      none, false⟩])

def get (runId : String) (registry : RunRegistry) : Option RunRecord :=
  registry.find? fun r => r.runId = runId

/-- Change the record of a run; without one the change is dropped. -/
def update (runId : String) (apply : RunRecord → RunRecord) : RunRegistry → RunRegistry
  | [] => []
  | r :: rest => if r.runId = runId then apply r :: rest else r :: update runId apply rest

def markRunning (runId : String) : RunRegistry → RunRegistry :=
  update runId fun r => { r with state := .running, pausedReason := none, pausedDetail := none }

def markPaused (runId reason detail : String) : RunRegistry → RunRegistry :=
  update runId fun r =>
    { r with state := .paused, pausedReason := some reason, pausedDetail := some detail }

def markEnded (runId : String) (state : RunState) (outcome : Value) (at_ : DateTime) :
    RunRegistry → RunRegistry :=
  update runId fun r =>
    { r with state, pausedReason := none, pausedDetail := none, endedAt := some at_
             outcome := some outcome }

/-- Fire a run's stop token. -/
def stop (runId : String) (registry : RunRegistry) : Except StopError RunRegistry :=
  match registry.get runId with
  | none => .error .notFound
  | some r =>
      if r.isActive then .ok (registry.update runId RunRecord.cancel)
      else .error (.alreadyEnded r.state)

/-- Whether a run's stop token has been cancelled. -/
def cancelled (runId : String) (registry : RunRegistry) : Bool :=
  (registry.get runId).any RunRecord.stop

/-! ## What a change does -/

/-- The ids of the active runs. -/
def activeIds (registry : RunRegistry) : List String :=
  (registry.filter RunRecord.isActive).map RunRecord.runId

def ids (registry : RunRegistry) : List String := registry.map RunRecord.runId

@[simp] theorem get_nil (runId : String) : get runId [] = none := rfl

theorem get_cons (runId : String) (r : RunRecord) (rest : RunRegistry) :
    get runId (r :: rest) = if r.runId = runId then some r else get runId rest := by
  by_cases h : r.runId = runId <;> simp [get, h]

theorem runId_of_get {runId : String} {registry : RunRegistry} {r : RunRecord}
    (h : registry.get runId = some r) : r.runId = runId := by
  simpa using List.find?_some h

variable {registry : RunRegistry} {runId other : String} {apply : RunRecord → RunRecord}

theorem ids_update (hid : ∀ r, (apply r).runId = r.runId) (registry : RunRegistry) :
    (registry.update runId apply).ids = registry.ids := by
  induction registry with
  | nil => rfl
  | cons r rest ih =>
    rw [update]
    split
    · simp [ids, hid]
    · simpa [ids] using ih

theorem get_update_self (hid : ∀ r, (apply r).runId = r.runId) (registry : RunRegistry) :
    (registry.update runId apply).get runId = (registry.get runId).map apply := by
  induction registry with
  | nil => rfl
  | cons r rest ih =>
    by_cases h : r.runId = runId <;> simp [update, get_cons, h, hid, ih]

theorem get_update_of_ne (hid : ∀ r, (apply r).runId = r.runId) (hne : other ≠ runId)
    (registry : RunRegistry) : (registry.update runId apply).get other = registry.get other := by
  induction registry with
  | nil => rfl
  | cons r rest ih =>
    by_cases h : r.runId = runId
    · simp [update, get_cons, h, hid, hne.symm]
    · simp [update, get_cons, h, ih]

/-- A change of a run that keeps it active keeps the active runs. -/
theorem activeIds_update (hid : ∀ r, (apply r).runId = r.runId)
    (hactive : ∀ r ∈ registry, r.runId = runId → (apply r).isActive = r.isActive) :
    (registry.update runId apply).activeIds = registry.activeIds := by
  induction registry with
  | nil => rfl
  | cons r rest ih =>
    rw [update]
    split
    · next h => simp [activeIds, List.filter_cons, hactive r (by simp) h, apply_ite, hid]
    · have := ih fun r' hr' => hactive r' (List.mem_cons_of_mem _ hr')
      simp only [activeIds, List.filter_cons] at this ⊢
      split <;> simp [this]

theorem mem_ids_of_activeIds (h : runId ∈ registry.activeIds) : runId ∈ registry.ids := by
  obtain ⟨r, hr, rfl⟩ := List.mem_map.mp h
  exact List.mem_map_of_mem (List.mem_of_mem_filter hr)

theorem get_eq_some_of_mem (hdistinct : registry.ids.Nodup) {r : RunRecord} (h : r ∈ registry) :
    registry.get r.runId = some r := by
  induction registry with
  | nil => simp at h
  | cons head rest ih =>
    rw [ids, List.map_cons, List.nodup_cons] at hdistinct
    rw [get_cons]
    rcases List.mem_cons.mp h with rfl | h
    · simp
    · have hne : head.runId ≠ r.runId := fun e =>
        hdistinct.1 (e ▸ List.mem_map_of_mem h)
      rw [if_neg hne, ih hdistinct.2 h]

/-- With distinct ids, a run is active exactly when the record under its id is. -/
theorem mem_activeIds (hdistinct : registry.ids.Nodup) :
    runId ∈ registry.activeIds ↔ ∃ r, registry.get runId = some r ∧ r.isActive = true := by
  constructor
  · intro h
    obtain ⟨r, hr, rfl⟩ := List.mem_map.mp h
    obtain ⟨hmem, hactive⟩ := List.mem_filter.mp hr
    exact ⟨r, get_eq_some_of_mem hdistinct hmem, hactive⟩
  · rintro ⟨r, hget, hactive⟩
    have hr : r ∈ registry := List.mem_of_find?_eq_some hget
    rw [← runId_of_get hget]
    exact List.mem_map_of_mem (List.mem_filter.mpr ⟨hr, hactive⟩)

/-- Ending the one active run leaves none. -/
theorem activeIds_update_ended (hid : ∀ r, (apply r).runId = r.runId)
    (hended : ∀ r, (apply r).isActive = false) (hdistinct : registry.ids.Nodup)
    (h : registry.activeIds = [runId]) : (registry.update runId apply).activeIds = [] := by
  rw [List.eq_nil_iff_forall_not_mem]
  intro id hmem
  have hdistinct' : (registry.update runId apply).ids.Nodup := by rwa [ids_update hid]
  obtain ⟨r, hget, hactive⟩ := (mem_activeIds hdistinct').mp hmem
  by_cases he : id = runId
  · subst he
    rw [get_update_self hid] at hget
    obtain ⟨r', -, rfl⟩ := Option.map_eq_some_iff.mp hget
    rw [hended] at hactive
    cases hactive
  · rw [get_update_of_ne hid he] at hget
    have := (mem_activeIds hdistinct).mpr ⟨r, hget, hactive⟩
    rw [h] at this
    exact he (List.mem_singleton.mp this)

/-- A stop is accepted exactly where the run's record is active. -/
theorem stop_ok {registry' : RunRegistry} (h : registry.stop runId = .ok registry') :
    registry' = registry.update runId RunRecord.cancel ∧
      ∃ r, registry.get runId = some r ∧ r.isActive = true := by
  unfold stop at h
  split at h
  · cases h
  · next r hget =>
      split at h
      · next hactive => exact ⟨(Except.ok.inj h).symm, r, hget, hactive⟩
      · cases h

theorem stop_error {e : StopError} (h : registry.stop runId = .error e) :
    ∀ r, registry.get runId = some r → r.isActive = false := by
  intro r hget
  rw [stop, hget] at h
  by_contra hactive
  rw [Bool.not_eq_false] at hactive
  simp [hactive] at h

/-- A change of a run leaves the records of the others in place. -/
theorem getElem?_update_of_ne {k : Nat} {r : RunRecord} (h : registry[k]? = some r)
    (hne : r.runId ≠ runId) : (registry.update runId apply)[k]? = some r := by
  induction registry generalizing k with
  | nil => simp at h
  | cons head rest ih =>
    rw [update]
    cases k with
    | zero =>
      obtain rfl : head = r := by simpa using h
      simp [hne]
    | succ k =>
      split
      · simpa using h
      · simpa using ih (by simpa using h)

/-- A run is registered only where none is active; it is then the only active one. -/
theorem start_ok {sessionId workflow : String} {startedAt : DateTime} {registry' : RunRegistry}
    (h : registry.start runId sessionId workflow startedAt = .ok registry') :
    registry.activeIds = [] ∧ registry'.activeIds = [runId] ∧
      registry' = registry ++ [⟨runId, sessionId, workflow, .running, none, none, startedAt, none,
        none, false⟩] := by
  unfold start at h
  split at h
  · cases h
  · next hfind =>
      obtain rfl := Except.ok.inj h
      have hnone : registry.activeIds = [] := by
        rw [activeIds, List.map_eq_nil_iff, List.filter_eq_nil_iff]
        simpa [List.find?_eq_none] using hfind
      refine ⟨hnone, ?_, rfl⟩
      rw [activeIds, List.filter_append, List.map_append, ← activeIds, hnone]
      rfl

end RunRegistry

end RustyPhoton.SessionRunner.Runs
