import RustyPhoton.Rp.Cooling.Controller

/-!
# Superseded tasks

A task that is told to stop still does what it has to do before it next waits. If it waits already, the
camera's record is its successor's alone; if not, it writes over what its successor began with.
-/

namespace RustyPhoton.Rp.Cooling

open Lib

/-! ## What supersession promises -/

/-- What the controller promises of its log: a camera returned as warming has no rung until a pass is
spawned for it, and a superseded task writes nothing any more. -/
structure Supersedes (log : List ControlRecord) (s : Controller) : Prop where
  cold : ∀ before warming after, log = before ++ .warmupReturned warming :: after → ∀ camera ∈ warming,
    (∀ task, .cooldownSpawned task camera ∉ after) → s.rungFor camera = none
  silent : ∀ before task after, log = before ++ .superseded task :: after → .wrote task ∉ after

/-- The task a call has spawned and is about to store. -/
def Caller.held : Caller → Option Nat
  | .storing _ id _ _ | .storingRamp _ id _ _ => some id
  | _ => none

/-- Every ramp a call is to spawn is for a camera it warms. -/
def Caller.Placed : Caller → Prop
  | .ramping toSpawn warming => ∀ entry ∈ toSpawn, entry.1 ∈ warming
  | .storingRamp camera _ toSpawn warming => camera ∈ warming ∧ ∀ entry ∈ toSpawn, entry.1 ∈ warming
  | _ => True

/-- The cameras a call is warming. -/
def Caller.warming : Caller → List String
  | .ramping _ warming | .storingRamp _ _ _ warming => warming
  | _ => []

namespace Controller

/-- None of the tasks has a write of its camera's record to do before it waits again. -/
def Parked (s : Controller) (ids : List Nat) : Prop :=
  ∀ id ∈ ids, ∀ task, s.tasks[id]? = some task → task.writesNext = false

/-- A call has spawned a pass for the camera and not stored it yet. -/
def Holding (s : Controller) (camera : String) : Prop :=
  ∃ task rest driving, .storing camera task rest driving ∈ s.callers

/-- A call has collected the camera as warming and not returned yet. -/
def Collecting (s : Controller) (camera : String) : Prop :=
  ∃ caller ∈ s.callers, camera ∈ caller.warming

/-- Where the calls and the tasks they supersede do not cross: what is aborted waits, a camera is
collected as warming only if no call holds a pass for it, and no pass is spawned for it before that call
has returned. -/
def Orderly (ladders : List (String × List Int)) (s : Controller) : ControlInput → Prop
  | .advance index _ => ∀ caller, s.callers[index]? = some caller → match caller with
      | .replacing camera _ _ _ | .storing camera _ _ _ | .storingRamp camera _ _ _ =>
          s.Parked (s.stored camera)
      | .spawning camera _ _ _ => ¬ s.Collecting camera
      | .warmup => s.Parked ((cameras ladders).flatMap s.replaced) ∧
          ∀ camera ∈ cameras ladders, s.warms camera = true → ¬ s.Holding camera
      | _ => True
  | _ => True

end Controller

/-! ## Tasks -/

/-- The task writes nothing any more. -/
def CoolingTask.Quiet (task : CoolingTask) : Prop :=
  task.writesNext = false ∧ (task.aborted = true ∨ task.point = none)

/-- The points of `run_warmup`. -/
def TaskPoint.InWarmup : TaskPoint → Prop
  | .warmupSpawned _ | .heatSink _ | .tick .. | .commandRamp .. | .warmupOff => True
  | _ => False

/-- A ramp sets no rung. -/
structure CoolingTask.Ramps (task : CoolingTask) : Prop where
  pending : ∀ rung, .setRung rung ∉ task.pending
  point : ∀ point, task.point = some point → point.InWarmup

theorem nextRamp_warmup (setpoint warmTarget : ℚ) :
    (∀ rung, .setRung rung ∉ (nextRamp setpoint warmTarget).1) ∧
      ∀ point, (nextRamp setpoint warmTarget).2 = some point → point.InWarmup := by
  rw [nextRamp]
  split
  · refine ⟨by simp, fun point h => ?_⟩
    cases h
    trivial
  · refine ⟨by simp, fun point h => ?_⟩
    cases h
    trivial

/-- What a ramp does next is a ramp's. -/
theorem resume_warmup {config : CoolingConfig} {ladder : List Int} {now : Nat} {point : TaskPoint}
    {answer : Answer} {resumed : Resumed} (hpoint : point.InWarmup)
    (h : resume config ladder now point answer = some resumed) :
    (∀ rung, .setRung rung ∉ resumed.1) ∧ ∀ point, resumed.2 = some point → point.InWarmup := by
  cases point with
  | warmupSpawned fromC =>
    cases answer with
    | flag connected =>
      cases h
      by_cases hconnected : connected = some true
      · rw [if_pos hconnected]
        exact ⟨by simp, fun point h => by cases h; trivial⟩
      · rw [if_neg hconnected]
        exact ⟨by simp, fun point h => by cases h⟩
    | _ => cases h
  | heatSink fromC =>
    cases answer with
    | number temp =>
      cases h
      exact ⟨by simp, fun point h => by cases h; trivial⟩
    | _ => cases h
  | tick setpoint warmTarget =>
    cases answer with
    | woke =>
      cases h
      exact nextRamp_warmup setpoint warmTarget
    | _ => cases h
  | commandRamp setpoint warmTarget =>
    cases answer with
    | done ok =>
      cases h
      cases ok with
      | true => exact ⟨by simp, fun point h => by cases h; trivial⟩
      | false => exact ⟨by simp, fun point h => by cases h; trivial⟩
    | _ => cases h
  | warmupOff =>
    cases answer with
    | done ok =>
      cases h
      exact ⟨by simp, fun point h => by cases h⟩
    | _ => cases h
  | _ => cases hpoint

namespace Controller

variable {tasks : List CoolingTask} {ids : List Nat} {id : Nat}

theorem getElem?_abort {task : CoolingTask}
    (h : (abort tasks ids)[id]? = some task) : ∃ old, tasks[id]? = some old ∧
      task = { old with aborted := if id ∈ ids then true else old.aborted } := by
  rw [abort, List.getElem?_mapIdx] at h
  obtain ⟨old, hold, rfl⟩ := Option.map_eq_some_iff.mp h
  refine ⟨old, hold, ?_⟩
  split
  · rfl
  · rfl

@[simp] theorem length_abort (tasks : List CoolingTask) (ids : List Nat) :
    (abort tasks ids).length = tasks.length := List.length_mapIdx

/-- A camera that warms: it has no rung, and none of its passes will write one. -/
structure Cold (s : Controller) (camera : String) : Prop where
  rung : s.rungFor camera = none
  quiet : ∀ (id : Nat) (task : CoolingTask), s.tasks[id]? = some task → task.camera = camera →
    task.kind = .cooldown → task.Quiet

/-- What the passes are after a step that spawns none. -/
def Follows (s s' : Controller) : Prop :=
  ∀ (id : Nat) (task' : CoolingTask), s'.tasks[id]? = some task' → task'.kind = .cooldown →
    ∃ task, s.tasks[id]? = some task ∧ task'.camera = task.camera ∧ task'.kind = task.kind ∧
      (task.Quiet → task'.Quiet)

variable {s s' : Controller}

theorem Cold.follows {camera : String} (h : s.Cold camera) (hfollows : s.Follows s')
    (hrung : s'.rungFor camera = none) : s'.Cold camera := by
  refine ⟨hrung, fun id task' htask hcamera hkind => ?_⟩
  obtain ⟨task, hold, hcamera', hkind', hquiet⟩ := hfollows id task' htask hkind
  exact hquiet (h.quiet id task hold (hcamera' ▸ hcamera) (hkind' ▸ hkind))

theorem Follows.of_tasks_eq (h : s'.tasks = s.tasks) : s.Follows s' := by
  intro id task htask _
  rw [h] at htask
  exact ⟨task, htask, rfl, rfl, fun hquiet => hquiet⟩

theorem Quiet.abort {task : CoolingTask} (h : task.Quiet) (p : Prop) [Decidable p] :
    ({ task with aborted := if p then true else task.aborted } : CoolingTask).Quiet := by
  refine ⟨h.1, ?_⟩
  rcases h.2 with haborted | hpoint
  · left
    show (if p then true else task.aborted) = true
    rw [haborted, ite_self]
  · exact .inr hpoint

theorem follows_abort (h : s'.tasks = abort s.tasks ids) :
    s.Follows s' := by
  intro id task htask _
  rw [h] at htask
  obtain ⟨old, hold, rfl⟩ := getElem?_abort htask
  exact ⟨old, hold, rfl, rfl, fun hquiet => Quiet.abort hquiet _⟩

/-- Either the task is the one at `id`, or it was there before. -/
theorem getElem?_set_task {i : Nat} {task t : CoolingTask}
    (h : (tasks.set id task)[i]? = some t) : i = id ∧ t = task ∨ i ≠ id ∧ tasks[i]? = some t := by
  rw [List.getElem?_set] at h
  split at h
  · next heq =>
      split at h
      · cases h
        exact .inl ⟨heq.symm, rfl⟩
      · cases h
  · next hne => exact .inr ⟨Ne.symm hne, h⟩

theorem follows_set {task task' : CoolingTask}
    (h : s'.tasks = s.tasks.set id task') (htask : s.tasks[id]? = some task)
    (hcamera : task'.camera = task.camera) (hkind : task'.kind = task.kind)
    (hquiet : task.Quiet → task'.Quiet) : s.Follows s' := by
  intro i t ht _
  rw [h] at ht
  rcases getElem?_set_task ht with ⟨rfl, rfl⟩ | ⟨_, ht⟩
  · exact ⟨task, htask, hcamera, hkind, hquiet⟩
  · exact ⟨t, ht, rfl, rfl, fun hquiet => hquiet⟩

/-- Either the task is the one just spawned, or it was there before. -/
theorem getElem?_spawn {i : Nat} {task t : CoolingTask}
    (h : (tasks ++ [task])[i]? = some t) : i = tasks.length ∧ t = task ∨ tasks[i]? = some t := by
  rw [List.getElem?_append] at h
  split at h
  · exact .inr h
  · next hge =>
      obtain ⟨hlt, hget⟩ := List.getElem?_eq_some_iff.mp h
      have hzero : i - tasks.length = 0 := by simpa using hlt
      simp at hget
      exact .inl ⟨by omega, hget.symm⟩

theorem follows_spawn_ramp {task : CoolingTask} (h : s'.tasks = s.tasks ++ [task])
    (hkind : task.kind = .warmup) : s.Follows s' := by
  intro i t ht hcooldown
  rw [h] at ht
  rcases getElem?_spawn ht with ⟨_, rfl⟩ | ht
  · rw [hkind] at hcooldown
    cases hcooldown
  · exact ⟨t, ht, rfl, rfl, fun hquiet => hquiet⟩

/-- A task that waits will still write. -/
theorem not_quiet_of_waits {task : CoolingTask} {point : TaskPoint} (h : task.waitsAt = some point) :
    task.pending = [] ∧ task.aborted = false ∧ task.point = some point ∧ ¬ task.Quiet := by
  rw [CoolingTask.waitsAt] at h
  split at h
  · next hwaits =>
      refine ⟨hwaits.1, hwaits.2, h, fun hquiet => ?_⟩
      rcases hquiet.2 with haborted | hpoint
      · rw [hwaits.2] at haborted
        cases haborted
      · rw [h] at hpoint
        cases hpoint
  · cases h

/-! ## What holds of the tasks -/

/-- What holds of the tasks in every run that is orderly. -/
structure Tasked (log : List ControlRecord) (s : Controller) : Prop where
  storedBound : ∀ camera, ∀ id ∈ s.stored camera, id < s.tasks.length
  heldBound : ∀ caller ∈ s.callers, ∀ id ∈ caller.held, id < s.tasks.length
  quiet : ∀ (id : Nat) (task : CoolingTask), s.tasks[id]? = some task → task.aborted = true →
    task.writesNext = false
  ramps : ∀ (id : Nat) (task : CoolingTask), s.tasks[id]? = some task → task.kind = .warmup → task.Ramps
  superseded : ∀ id, .superseded id ∈ log → id < s.tasks.length ∧
    ∀ task, s.tasks[id]? = some task → task.aborted = true
  silent : Justified (fun before entry => ∀ id, entry = .wrote id → .superseded id ∉ before) log

theorem Tasked.start : Tasked [] Controller.start where
  storedBound _ _ h := absurd h List.not_mem_nil
  heldBound _ h := absurd h List.not_mem_nil
  quiet _ _ h := by cases h
  ramps _ _ h := by cases h
  superseded _ h := absurd h List.not_mem_nil
  silent := .nil

section Tasked

variable {log : List ControlRecord} {s s' : Controller}

variable {index : Nat}

theorem mem_set_caller {callers : List Caller} {caller c : Caller}
    (h : c ∈ callers.set index caller) : c = caller ∨ c ∈ callers :=
  (List.mem_or_eq_of_mem_set h).symm

variable {more : List ControlRecord}

/-- A call takes a step that leaves the tasks alone. -/
theorem Tasked.caller (h : Tasked log s) {caller : Caller} (hheld : caller.held = none)
    (hmore : ∀ entry ∈ more, ∃ warming, entry = .warmupReturned warming) :
    Tasked (log ++ more) (s.setCaller index caller) := by
  refine ⟨h.storedBound, fun c hc id hid => ?_, h.quiet, h.ramps, fun id hmem => ?_, ?_⟩
  · rcases mem_set_caller hc with rfl | hc
    · rw [hheld] at hid
      cases hid
    · exact h.heldBound c hc id hid
  · rcases List.mem_append.mp hmem with hmem | hmem
    · exact h.superseded id hmem
    · obtain ⟨_, hno⟩ := hmore _ hmem
      cases hno
  · refine h.silent.append fun entry hentry before id hwrote => ?_
    obtain ⟨_, hno⟩ := hmore _ hentry
    rw [hwrote] at hno
    cases hno

/-- Tasks that wait are told to stop. -/
theorem Tasked.abort (h : Tasked log s) {ids : List Nat} (hparked : s.Parked ids)
    (hbound : ∀ id ∈ ids, id < s.tasks.length) (htasks : s'.tasks = Controller.abort s.tasks ids)
    (hstored : ∀ camera, ∀ id ∈ s'.stored camera, id < s.tasks.length)
    (hheld : ∀ caller ∈ s'.callers, ∀ id ∈ caller.held, id < s.tasks.length) :
    Tasked (log ++ ids.map .superseded) s' := by
  refine ⟨?_, ?_, fun id task htask haborted => ?_, fun id task htask hkind => ?_, fun id hmem => ?_, ?_⟩
  · rw [htasks, length_abort]
    exact hstored
  · rw [htasks, length_abort]
    exact hheld
  · rw [htasks] at htask
    obtain ⟨old, hold, rfl⟩ := getElem?_abort htask
    have hsame : ∀ (a : Bool), ({ old with aborted := a } : CoolingTask).writesNext = old.writesNext :=
      fun _ => rfl
    rw [hsame]
    by_cases hin : id ∈ ids
    · exact hparked id hin old hold
    · rw [if_neg hin] at haborted
      exact h.quiet id old hold haborted
  · rw [htasks] at htask
    obtain ⟨old, hold, rfl⟩ := getElem?_abort htask
    obtain ⟨hpending, hpoint⟩ := h.ramps id old hold hkind
    exact ⟨hpending, hpoint⟩
  · have hlength : s'.tasks.length = s.tasks.length := by rw [htasks, length_abort]
    rw [hlength]
    rcases List.mem_append.mp hmem with hmem | hmem
    · obtain ⟨hlt, haborted⟩ := h.superseded id hmem
      refine ⟨hlt, fun task htask => ?_⟩
      rw [htasks] at htask
      obtain ⟨old, hold, rfl⟩ := getElem?_abort htask
      show (if id ∈ ids then true else old.aborted) = true
      rw [haborted old hold, ite_self]
    · obtain ⟨i, hi, heq⟩ := List.mem_map.mp hmem
      cases heq
      refine ⟨hbound id hi, fun task htask => ?_⟩
      rw [htasks] at htask
      obtain ⟨old, _, rfl⟩ := getElem?_abort htask
      exact if_pos hi
  · refine h.silent.append fun entry hentry before id hwrote => ?_
    obtain ⟨_, _, rfl⟩ := List.mem_map.mp hentry
    cases hwrote

/-- A task is spawned. -/
theorem Tasked.spawn (h : Tasked log s) {task : CoolingTask} (hpending : task.pending = [])
    (hramps : task.kind = .warmup → task.Ramps) (htasks : s'.tasks = s.tasks ++ [task])
    (hstates : s'.states = s.states)
    (hheld : ∀ caller ∈ s'.callers, ∀ id ∈ caller.held, id ≤ s.tasks.length)
    (hmore : ∀ entry ∈ more, ∃ camera, entry = .cooldownSpawned s.tasks.length camera) :
    Tasked (log ++ more) s' := by
  have hlength : s'.tasks.length = s.tasks.length + 1 := by rw [htasks, List.length_append]; rfl
  refine ⟨fun camera id hid => ?_, fun caller hc id hid => ?_, fun id t ht haborted => ?_,
    fun id t ht hkind => ?_, fun id hmem => ?_, ?_⟩
  · rw [hlength]
    have hold : id ∈ s.stored camera := by
      rw [stored, hstates] at hid
      exact hid
    exact Nat.lt_succ_of_lt (h.storedBound camera id hold)
  · rw [hlength]
    exact Nat.lt_succ_of_le (hheld caller hc id hid)
  · rw [htasks] at ht
    rcases getElem?_spawn ht with ⟨_, rfl⟩ | ht
    · rw [CoolingTask.writesNext, hpending]
      rfl
    · exact h.quiet id t ht haborted
  · rw [htasks] at ht
    rcases getElem?_spawn ht with ⟨_, rfl⟩ | ht
    · exact hramps hkind
    · exact h.ramps id t ht hkind
  · rw [hlength]
    rcases List.mem_append.mp hmem with hmem | hmem
    · obtain ⟨hlt, haborted⟩ := h.superseded id hmem
      refine ⟨Nat.lt_succ_of_lt hlt, fun t ht => ?_⟩
      rw [htasks] at ht
      rcases getElem?_spawn ht with ⟨rfl, _⟩ | ht
      · exact absurd hlt (Nat.lt_irrefl _)
      · exact haborted t ht
    · obtain ⟨_, hno⟩ := hmore _ hmem
      cases hno
  · refine h.silent.append fun entry hentry before id hwrote => ?_
    obtain ⟨_, hno⟩ := hmore _ hentry
    rw [hwrote] at hno
    cases hno

/-- One task changes: what it was told stays, and it writes only if it was not told to stop. -/
theorem Tasked.task (h : Tasked log s) {id : Nat} {task task' : CoolingTask}
    (htask : s.tasks[id]? = some task) (htasks : s'.tasks = s.tasks.set id task')
    (hstored : ∀ camera, s'.stored camera = s.stored camera) (hcallers : s'.callers = s.callers)
    (haborted : task'.aborted = task.aborted)
    (hquiet : task'.aborted = true → task.writesNext = false → task'.writesNext = false)
    (hkind : task'.kind = task.kind) (hramps : task.Ramps → task'.Ramps)
    (hmore : more = [] ∨ more = [.wrote id] ∧ task.writesNext = true) :
    Tasked (log ++ more) s' := by
  have hlength : s'.tasks.length = s.tasks.length := by rw [htasks, List.length_set]
  refine ⟨fun camera i hi => ?_, fun caller hc i hi => ?_, fun i t ht hold => ?_, fun i t ht hold => ?_,
    fun i hmem => ?_, ?_⟩
  · rw [hlength]
    rw [hstored] at hi
    exact h.storedBound camera i hi
  · rw [hlength]
    rw [hcallers] at hc
    exact h.heldBound caller hc i hi
  · rw [htasks] at ht
    rcases getElem?_set_task ht with ⟨rfl, rfl⟩ | ⟨_, ht⟩
    · exact hquiet hold (h.quiet i task htask (haborted ▸ hold))
    · exact h.quiet i t ht hold
  · rw [htasks] at ht
    rcases getElem?_set_task ht with ⟨rfl, rfl⟩ | ⟨_, ht⟩
    · exact hramps (h.ramps i task htask (hkind ▸ hold))
    · exact h.ramps i t ht hold
  · rw [hlength]
    rcases List.mem_append.mp hmem with hmem | hmem
    · obtain ⟨hlt, htold⟩ := h.superseded i hmem
      refine ⟨hlt, fun t ht => ?_⟩
      rw [htasks] at ht
      rcases getElem?_set_task ht with ⟨rfl, rfl⟩ | ⟨_, ht⟩
      · rw [haborted]
        exact htold task htask
      · exact htold t ht
    · rcases hmore with rfl | ⟨rfl, _⟩
      · cases hmem
      · cases List.mem_singleton.mp hmem
  · -- a task that writes has not been told to stop
    have hnot : task.writesNext = true → .superseded id ∉ log := by
      intro hwrites hmem
      have htold := (h.superseded id hmem).2 task htask
      rw [h.quiet id task htask htold] at hwrites
      cases hwrites
    rcases hmore with rfl | ⟨rfl, hwrites⟩
    · rw [List.append_nil]
      exact h.silent
    · refine h.silent.snoc fun i hwrote => ?_
      cases hwrote
      exact hnot hwrites

end Tasked

/-! ## What holds of the cameras -/

/-- A pass is stopped, stored, or about to be. -/
def Accounted (s : Controller) (id : Nat) (task : CoolingTask) : Prop :=
  task.Quiet ∨ (s.states task.camera).task = some (.cooldown, id) ∨
    ∃ rest driving, .storing task.camera id rest driving ∈ s.callers

/-- What holds of the cameras in every run that is orderly. -/
structure Warm (log : List ControlRecord) (s : Controller) : Prop where
  accounted : ∀ (id : Nat) (task : CoolingTask), s.tasks[id]? = some task → task.kind = .cooldown →
    s.Accounted id task
  ramped : ∀ camera id, (s.states camera).task = some (.warmup, id) → ¬ s.Holding camera → s.Cold camera
  collecting : ∀ camera, s.Collecting camera → s.Cold camera
  placed : ∀ caller ∈ s.callers, caller.Placed
  returned : ∀ before warming after, log = before ++ .warmupReturned warming :: after →
    ∀ camera ∈ warming, (∀ task, .cooldownSpawned task camera ∉ after) → s.Cold camera

theorem Warm.start : Warm [] Controller.start where
  accounted _ _ h := by cases h
  ramped _ _ h := by cases h
  collecting _ h := by
    obtain ⟨_, hmem, _⟩ := h
    cases hmem
  placed _ h := absurd h List.not_mem_nil
  returned _ _ _ h := by simp at h

section Warm

variable {log : List ControlRecord} {s s' : Controller}

variable {more : List ControlRecord}

/-- What a step has to show: who is accounted for, which cameras warm, and that those that did still do. -/
theorem Warm.step (h : Warm log s)
    (hcold : ∀ camera, (∀ task, .cooldownSpawned task camera ∉ more) → s.Cold camera → s'.Cold camera)
    (haccounted : ∀ (id : Nat) (task : CoolingTask), s'.tasks[id]? = some task → task.kind = .cooldown →
      s'.Accounted id task)
    (hramped : ∀ camera id, (s'.states camera).task = some (.warmup, id) → ¬ s'.Holding camera →
      s'.Cold camera)
    (hcollecting : ∀ camera, s'.Collecting camera → s'.Cold camera)
    (hplaced : ∀ caller ∈ s'.callers, caller.Placed)
    (hreturned : ∀ warming, .warmupReturned warming ∈ more → ∀ camera ∈ warming, s'.Cold camera) :
    Warm (log ++ more) s' := by
  refine ⟨haccounted, hramped, hcollecting, hplaced, fun before warming after heq camera hmem hnone => ?_⟩
  rcases List.append_eq_append_iff.mp heq with ⟨rest, _, hrest⟩ | ⟨rest, hlog, hrest⟩
  · exact hreturned warming (hrest ▸ List.mem_append_right _ List.mem_cons_self) camera hmem
  · cases rest with
    | nil =>
      rw [List.nil_append] at hrest
      exact hreturned warming (hrest ▸ List.mem_cons_self) camera hmem
    | cons first rest =>
      obtain ⟨rfl, rfl⟩ := List.cons.inj hrest
      refine hcold camera (fun task hin => hnone task (List.mem_append_right _ hin)) ?_
      exact h.returned before warming rest hlog camera hmem
        fun task hin => hnone task (List.mem_append_left _ hin)

variable {index : Nat}

/-- The other calls go on as they were. -/
theorem mem_set_of_ne {callers : List Caller} {old caller c : Caller}
    (hold : callers[index]? = some old) (hne : c ≠ old) (hc : c ∈ callers) :
    c ∈ callers.set index caller := by
  obtain ⟨i, hi⟩ := List.mem_iff_getElem?.mp hc
  have hindex : index ≠ i := by
    rintro rfl
    rw [hold] at hi
    exact hne (Option.some.inj hi).symm
  refine List.mem_of_getElem? (i := i) ?_
  rw [List.getElem?_set_ne hindex]
  exact hi

/-- A step that spawns no pass and stores nothing. -/
theorem Warm.quiet (h : Warm log s) (hfollows : s.Follows s')
    (hrung : ∀ camera, s.Cold camera → s'.rungFor camera = none)
    (htask : ∀ camera, (s'.states camera).task = (s.states camera).task)
    (hcallers : ∀ c ∈ s'.callers, c ∈ s.callers ∨ c.Placed ∧ ∀ camera ∈ c.warming, s.Collecting camera)
    (hholding : ∀ camera id rest driving, .storing camera id rest driving ∈ s.callers →
      .storing camera id rest driving ∈ s'.callers)
    (hmore : ∀ warming, .warmupReturned warming ∈ more → ∀ camera ∈ warming, s.Collecting camera) :
    Warm (log ++ more) s' := by
  have hcold : ∀ camera, s.Cold camera → s'.Cold camera := fun camera hc => hc.follows hfollows (hrung camera hc)
  refine h.step (fun camera _ => hcold camera) (fun id task' htask' hkind => ?_)
    (fun camera id hstored hnot => ?_) (fun camera hcollecting => ?_) (fun c hc => ?_)
    (fun warming hmem camera hcamera => hcold camera (h.collecting camera (hmore warming hmem camera hcamera)))
  · obtain ⟨task, hold, hcamera, hkind', hquiet⟩ := hfollows id task' htask' hkind
    rcases h.accounted id task hold (hkind' ▸ hkind) with hq | hstored | ⟨rest, driving, hmem⟩
    · exact .inl (hquiet hq)
    · refine .inr (.inl ?_)
      rw [htask, hcamera]
      exact hstored
    · refine .inr (.inr ⟨rest, driving, ?_⟩)
      rw [hcamera]
      exact hholding _ _ _ _ hmem
  · rw [htask] at hstored
    refine hcold camera (h.ramped camera id hstored fun hholds => hnot ?_)
    obtain ⟨i, rest, driving, hmem⟩ := hholds
    exact ⟨i, rest, driving, hholding _ _ _ _ hmem⟩
  · obtain ⟨c, hc, hwarming⟩ := hcollecting
    rcases hcallers c hc with hc | ⟨_, hwarm⟩
    · exact hcold camera (h.collecting camera ⟨c, hc, hwarming⟩)
    · exact hcold camera (h.collecting camera (hwarm camera hwarming))
  · rcases hcallers c hc with hc | ⟨hplaced, _⟩
    · exact h.placed c hc
    · exact hplaced

/-- Where stored tasks are told to stop, the passes are still accounted for. -/
theorem Warm.accounted_abort (h : Warm log s) {ids : List Nat} (hparked : s.Parked ids)
    (htasks : s'.tasks = Controller.abort s.tasks ids)
    (hkept : ∀ camera, (s'.states camera).task = (s.states camera).task ∨ ∀ id ∈ s.stored camera, id ∈ ids)
    (hholding : ∀ camera id rest driving, .storing camera id rest driving ∈ s.callers →
      .storing camera id rest driving ∈ s'.callers ∨ (s'.states camera).task = some (.cooldown, id)) :
    ∀ (id : Nat) (task : CoolingTask), s'.tasks[id]? = some task → task.kind = .cooldown →
      s'.Accounted id task := by
  intro id task' htask' hkind
  rw [htasks] at htask'
  obtain ⟨task, hold, rfl⟩ := getElem?_abort htask'
  rcases h.accounted id task hold hkind with hquiet | hstored | ⟨rest, driving, hmem⟩
  · exact .inl (Quiet.abort hquiet _)
  · rcases hkept task.camera with hsame | hstopped
    · refine .inr (.inl ?_)
      rw [hsame]
      exact hstored
    · have hin : id ∈ ids := by
        refine hstopped id ?_
        rw [stored, hstored]
        exact List.mem_singleton_self _
      exact .inl ⟨hparked id hin task hold, .inl (if_pos hin)⟩
  · rcases hholding _ _ _ _ hmem with hmem | hstored
    · exact .inr (.inr ⟨rest, driving, hmem⟩)
    · exact .inr (.inl hstored)

variable {camera : String}

/-- The task stored for a camera is told to stop, and another one stored in its place, or none. -/
theorem Warm.swap (h : Warm log s) {old caller : Caller}
    {task : Option (TaskKind × Nat)} (hcaller : s.callers[index]? = some old)
    (hparked : s.Parked (s.stored camera))
    (htasks : s'.tasks = Controller.abort s.tasks (s.stored camera))
    (hcallers : s'.callers = s.callers.set index caller)
    (hstates : s'.states = Function.update s.states camera { s.states camera with task })
    (hheld : ∀ other id rest driving, old = .storing other id rest driving →
      other = camera ∧ task = some (.cooldown, id))
    (hramp : ∀ id, task = some (.warmup, id) → s.Collecting camera)
    (hplaced : caller.Placed) (hwarming : ∀ other ∈ caller.warming, s.Collecting other) :
    Warm (log ++ (s.stored camera).map .superseded) s' := by
  have hself : s'.states camera = { s.states camera with task } := by rw [hstates, Function.update_self]
  have hother : ∀ other, other ≠ camera → s'.states other = s.states other := by
    intro other hne
    rw [hstates, Function.update_of_ne hne]
  have hcold : ∀ other, s.Cold other → s'.Cold other := by
    intro other hc
    refine hc.follows (follows_abort htasks) ?_
    rw [rungFor]
    by_cases heq : other = camera
    · subst heq
      rw [hself]
      exact hc.rung
    · rw [hother other heq]
      exact hc.rung
  have hholding : ∀ other id rest driving, .storing other id rest driving ∈ s.callers →
      .storing other id rest driving ∈ s'.callers ∨ other = camera ∧ task = some (.cooldown, id) := by
    intro other id rest driving hmem
    by_cases heq : Caller.storing other id rest driving = old
    · exact .inr (hheld other id rest driving heq.symm)
    · rw [hcallers]
      exact .inl (mem_set_of_ne hcaller heq hmem)
  refine h.step (fun other _ => hcold other) (h.accounted_abort hparked htasks (fun other => ?_)
    fun other id rest driving hmem => ?_)
    (fun other id hstored hnot => ?_) (fun other hcollecting => ?_) (fun c hc => ?_) (by simp)
  · by_cases heq : other = camera
    · subst heq
      exact .inr fun id hid => hid
    · rw [hother other heq]
      exact .inl rfl
  · rcases hholding other id rest driving hmem with hmem | ⟨rfl, htask⟩
    · exact .inl hmem
    · rw [hself]
      exact .inr htask
  · by_cases heq : other = camera
    · subst heq
      rw [hself] at hstored
      exact hcold other (h.collecting other (hramp id hstored))
    · rw [hother other heq] at hstored
      refine hcold other (h.ramped other id hstored fun hholds => hnot ?_)
      obtain ⟨i, rest, driving, hmem⟩ := hholds
      rcases hholding other i rest driving hmem with hmem | ⟨hsame, _⟩
      · exact ⟨i, rest, driving, hmem⟩
      · exact absurd hsame heq
  · obtain ⟨c, hc, hwarms⟩ := hcollecting
    rw [hcallers] at hc
    rcases mem_set_caller hc with rfl | hc
    · exact hcold other (h.collecting other (hwarming other hwarms))
    · exact hcold other (h.collecting other ⟨c, hc, hwarms⟩)
  · rw [hcallers] at hc
    rcases mem_set_caller hc with rfl | hc
    · exact hplaced
    · exact h.placed c hc

/-- A pass is spawned for a camera that no call is warming. -/
theorem Warm.spawn (h : Warm log s) {ladder : List Int}
    {rest : List (String × List Int)} {driving : List String}
    (hcaller : s.callers[index]? = some (.spawning camera ladder rest driving))
    (hfree : ¬ s.Collecting camera) :
    Warm (log ++ [.cooldownSpawned s.tasks.length camera])
      ((s.spawnTask (.spawn camera .cooldown ladder .cooldownSpawned)).setCaller index
        (.storing camera s.tasks.length rest driving)) := by
  have hindex : index < s.callers.length := (List.getElem?_eq_some_iff.mp hcaller).1
  have hholding : ∀ other id rest' driving', .storing other id rest' driving' ∈ s.callers →
      .storing other id rest' driving' ∈ s.callers.set index (.storing camera s.tasks.length rest driving) :=
    fun other id rest' driving' hmem => mem_set_of_ne hcaller (by simp) hmem
  have hspawned : .storing camera s.tasks.length rest driving ∈
      s.callers.set index (.storing camera s.tasks.length rest driving) := List.mem_set hindex _
  have hcold : ∀ other, other ≠ camera → s.Cold other →
      ((s.spawnTask (.spawn camera .cooldown ladder .cooldownSpawned)).setCaller index
        (.storing camera s.tasks.length rest driving)).Cold other := by
    intro other hne hc
    refine ⟨hc.rung, fun id task htask hcamera hkind => ?_⟩
    rcases getElem?_spawn htask with ⟨_, rfl⟩ | hold
    · exact absurd hcamera.symm hne
    · exact hc.quiet id task hold hcamera hkind
  refine h.step (fun other hnone => hcold other ?_) (fun id task htask hkind => ?_)
    (fun other id hstored hnot => ?_) (fun other hcollecting => ?_) (fun c hc => ?_) (by simp)
  · rintro rfl
    exact hnone _ (List.mem_singleton_self _)
  · rcases getElem?_spawn htask with ⟨rfl, rfl⟩ | hold
    · exact .inr (.inr ⟨rest, driving, hspawned⟩)
    · rcases h.accounted id task hold hkind with hquiet | hstored | ⟨rest', driving', hmem⟩
      · exact .inl hquiet
      · exact .inr (.inl hstored)
      · exact .inr (.inr ⟨rest', driving', hholding _ _ _ _ hmem⟩)
  · have hne : other ≠ camera := by
      rintro rfl
      exact hnot ⟨_, rest, driving, hspawned⟩
    refine hcold other hne (h.ramped other id hstored fun hholds => hnot ?_)
    obtain ⟨i, rest', driving', hmem⟩ := hholds
    exact ⟨i, rest', driving', hholding _ _ _ _ hmem⟩
  · obtain ⟨c, hc, hwarms⟩ := hcollecting
    rcases mem_set_caller hc with rfl | hc
    · cases hwarms
    · have hold : s.Collecting other := ⟨c, hc, hwarms⟩
      exact hcold other (fun heq => hfree (heq ▸ hold)) (h.collecting other hold)
  · rcases mem_set_caller hc with rfl | hc
    · trivial
    · exact h.placed c hc

/-- A running ramp is one that is stored. -/
theorem isWarming_stored (h : s.isWarming camera = true) :
    ∃ id, (s.states camera).task = some (.warmup, id) := by
  have hrunning : s.runningTask camera = some .warmup := of_decide_eq_true h
  obtain ⟨⟨kind, id⟩, hstored, hkind⟩ := Option.bind_eq_some_iff.mp hrunning
  refine ⟨id, hstored.trans ?_⟩
  simp only at hkind
  split at hkind
  · cases hkind
  · cases hkind
    rfl

/-- The cameras are collected: those that warm are cold from here on. -/
theorem Warm.collect (h : Warm log s) {ladders : List (String × List Int)}
    (hcaller : s.callers[index]? = some .warmup)
    (hparked : s.Parked ((cameras ladders).flatMap s.replaced))
    (hfree : ∀ camera ∈ cameras ladders, s.warms camera = true → ¬ s.Holding camera) :
    Warm (log ++ ((cameras ladders).flatMap s.replaced).map .superseded)
      ((s.collect ladders).setCaller index
        (.ramping ((cameras ladders).filterMap s.rampFrom) ((cameras ladders).filter s.warms))) := by
  have hstates : ∀ camera, (s.collect ladders).states camera =
      if camera ∈ cameras ladders then s.collected camera else s.states camera := fun _ => rfl
  have hrung : ∀ camera, s.rungFor camera = none → (s.collect ladders).rungFor camera = none := by
    intro camera hnone
    rw [rungFor, hstates]
    split
    · rw [collected]
      split
      · exact hnone
      · show (if _ then none else (s.states camera).rungC) = none
        split
        · rfl
        · exact hnone
    · exact hnone
  have hcold : ∀ camera, s.Cold camera →
      ((s.collect ladders).setCaller index (.ramping ((cameras ladders).filterMap s.rampFrom)
        ((cameras ladders).filter s.warms))).Cold camera :=
    fun camera hc => hc.follows (follows_abort rfl) (hrung camera hc.rung)
  have hholding : ∀ camera id rest driving, .storing camera id rest driving ∈ s.callers →
      .storing camera id rest driving ∈ s.callers.set index
        (.ramping ((cameras ladders).filterMap s.rampFrom) ((cameras ladders).filter s.warms)) :=
    fun camera id rest driving hmem => mem_set_of_ne hcaller (by simp) hmem
  have hkept : ∀ camera, ((s.collect ladders).states camera).task = (s.states camera).task ∨
      ∀ id ∈ s.stored camera, id ∈ (cameras ladders).flatMap s.replaced := by
    intro camera
    rw [hstates]
    by_cases hin : camera ∈ cameras ladders
    · rw [if_pos hin, collected]
      by_cases hwarming : s.isWarming camera = true
      · rw [if_pos hwarming]
        exact .inl rfl
      · refine .inr fun id hid => List.mem_flatMap.mpr ⟨camera, hin, ?_⟩
        rw [replaced, if_neg hwarming]
        exact hid
    · rw [if_neg hin]
      exact .inl rfl
  have hwarm : ∀ camera ∈ (cameras ladders).filter s.warms,
      ((s.collect ladders).setCaller index (.ramping ((cameras ladders).filterMap s.rampFrom)
        ((cameras ladders).filter s.warms))).Cold camera := by
    intro camera hmem
    obtain ⟨hin, hwarms⟩ := List.mem_filter.mp hmem
    have hnot := hfree camera hin hwarms
    by_cases hwarming : s.isWarming camera = true
    · obtain ⟨id, hstored⟩ := isWarming_stored hwarming
      exact hcold camera (h.ramped camera id hstored hnot)
    · rw [warms, Bool.eq_false_iff.mpr hwarming, Bool.false_or] at hwarms
      refine ⟨?_, fun id task' htask' hcamera hkind => ?_⟩
      · show ((s.collect ladders).states camera).rungC = none
        rw [hstates, if_pos hin, collected, if_neg hwarming]
        exact if_pos hwarms
      · obtain ⟨task, hold, rfl⟩ := getElem?_abort htask'
        have hcamera : task.camera = camera := hcamera
        rcases h.accounted id task hold hkind with hquiet | hstored | ⟨rest, driving, hheld⟩
        · exact Quiet.abort hquiet _
        · have hid : id ∈ (cameras ladders).flatMap s.replaced := by
            refine List.mem_flatMap.mpr ⟨camera, hin, ?_⟩
            rw [replaced, if_neg hwarming, stored, ← hcamera, hstored]
            exact List.mem_singleton_self _
          exact ⟨hparked id hid task hold, .inl (if_pos hid)⟩
        · rw [hcamera] at hheld
          exact absurd ⟨id, rest, driving, hheld⟩ hnot
  refine h.step (fun camera _ => hcold camera) (h.accounted_abort hparked rfl hkept
    fun camera id rest driving hmem => .inl (hholding camera id rest driving hmem))
    (fun camera id hstored hnot => ?_) (fun camera hcollecting => ?_) (fun c hc => ?_) (by simp)
  · have hold : (s.states camera).task = some (.warmup, id) := by
      have hstored : ((s.collect ladders).states camera).task = some (.warmup, id) := hstored
      rw [hstates] at hstored
      split at hstored
      · rw [collected] at hstored
        split at hstored
        · exact hstored
        · cases hstored
      · exact hstored
    refine hcold camera (h.ramped camera id hold fun hholds => hnot ?_)
    obtain ⟨i, rest, driving, hmem⟩ := hholds
    exact ⟨i, rest, driving, hholding _ _ _ _ hmem⟩
  · obtain ⟨c, hc, hwarms⟩ := hcollecting
    rcases mem_set_caller hc with rfl | hc
    · exact hwarm camera hwarms
    · exact hcold camera (h.collecting camera ⟨c, hc, hwarms⟩)
  · rcases mem_set_caller hc with rfl | hc
    · intro entry hentry
      obtain ⟨camera, hin, hramp⟩ := List.mem_filterMap.mp hentry
      rw [rampFrom] at hramp
      split at hramp
      · cases hramp
      · obtain ⟨fromC, hfrom, rfl⟩ := Option.map_eq_some_iff.mp hramp
        refine List.mem_filter.mpr ⟨hin, ?_⟩
        rw [warms, hfrom]
        exact Bool.or_true _
    · exact h.placed c hc

end Warm

/-! ## Runs -/

/-- What holds in every run that is orderly. -/
def Tidy (log : List ControlRecord) (s : Controller) : Prop := Tasked log s ∧ Warm log s

section Step

variable {config : CoolingConfig} {ladders : List (String × List Int)} {log : List ControlRecord}
  {s s' : Controller} {more : List ControlRecord}

variable {index : Nat}

/-- The calls after one of them has taken a step hold what they held, or the task just named. -/
theorem held_set (h : Tasked log s) {bound : Nat} {caller : Caller}
    (hbound : s.tasks.length ≤ bound) (hcaller : ∀ id ∈ caller.held, id < bound) :
    ∀ c ∈ s.callers.set index caller, ∀ id ∈ c.held, id < bound := by
  intro c hc id hid
  rcases mem_set_caller hc with rfl | hc
  · exact hcaller id hid
  · exact (h.heldBound c hc id hid).trans_le hbound

/-- A call takes a step that leaves tasks and records alone. -/
theorem tidy_caller (h : Tidy log s) {old caller : Caller}
    (hcaller : s.callers[index]? = some old) (hheld : caller.held = none) (hplaced : caller.Placed)
    (hwarming : caller.warming = [])
    (hnot : ∀ camera id rest driving, old ≠ .storing camera id rest driving)
    (hmore : ∀ entry ∈ more, ∃ warming, entry = .warmupReturned warming ∧ warming = old.warming) :
    Tidy (log ++ more) (s.setCaller index caller) := by
  have hfollows : s.Follows (s.setCaller index caller) := .of_tasks_eq rfl
  refine ⟨h.1.caller hheld fun entry hentry => ?_, h.2.quiet hfollows (fun _ hc => hc.rung)
    (fun _ => rfl) (fun c hc => ?_) (fun camera id rest driving hmem => ?_)
    fun warming hmem camera hcamera => ?_⟩
  · obtain ⟨warming, heq, _⟩ := hmore entry hentry
    exact ⟨warming, heq⟩
  · rcases mem_set_caller hc with rfl | hc
    · exact .inr ⟨hplaced, by rw [hwarming]; simp⟩
    · exact .inl hc
  · exact mem_set_of_ne hcaller (fun heq => hnot _ _ _ _ heq.symm) hmem
  · obtain ⟨_, heq, hsame⟩ := hmore _ hmem
    cases heq
    exact ⟨old, List.mem_of_getElem? hcaller, hsame ▸ hcamera⟩

variable {camera : String}

/-- The stored task of a camera is told to stop, and another one stored in its place, or none. -/
theorem tidy_swap (h : Tidy log s) {old caller : Caller}
    {task : Option (TaskKind × Nat)} (hcaller : s.callers[index]? = some old)
    (hparked : s.Parked (s.stored camera))
    (htasks : s'.tasks = Controller.abort s.tasks (s.stored camera))
    (hcallers : s'.callers = s.callers.set index caller)
    (hstates : s'.states = Function.update s.states camera { s.states camera with task })
    (hbound : ∀ kind id, task = some (kind, id) → id ∈ old.held)
    (hnone : caller.held = none)
    (hheld : ∀ other id rest driving, old = .storing other id rest driving →
      other = camera ∧ task = some (.cooldown, id))
    (hramp : ∀ id, task = some (.warmup, id) → s.Collecting camera)
    (hplaced : caller.Placed) (hwarming : ∀ other ∈ caller.warming, s.Collecting other) :
    Tidy (log ++ (s.stored camera).map .superseded) s' := by
  refine ⟨h.1.abort hparked (h.1.storedBound camera) htasks (fun other id hid => ?_) ?_,
    h.2.swap hcaller hparked htasks hcallers hstates hheld hramp hplaced hwarming⟩
  · rw [stored, hstates] at hid
    by_cases heq : other = camera
    · subst heq
      rw [Function.update_self] at hid
      cases htask : task with
      | none =>
        rw [htask] at hid
        cases hid
      | some entry =>
        rw [htask] at hid
        cases List.mem_singleton.mp hid
        exact h.1.heldBound old (List.mem_of_getElem? hcaller) _ (hbound entry.1 entry.2 htask)
    · rw [Function.update_of_ne heq] at hid
      exact h.1.storedBound other id hid
  · rw [hcallers]
    refine held_set h.1 le_rfl fun id hid => ?_
    rw [hnone] at hid
    cases hid

/-- A call takes a step. -/
theorem tidy_advance (h : Tidy log s) {caller : Caller}
    (hcaller : s.callers[index]? = some caller) (horderly : s.Orderly ladders (.advance index camera))
    (hstep : s.advanceCaller ladders index camera caller = some (s', more)) : Tidy (log ++ more) s' := by
  have horderly := horderly caller hcaller
  have hmem := List.mem_of_getElem? hcaller
  cases caller with
  | cooldown rest driving =>
    cases rest with
    | nil =>
      cases hstep
      exact tidy_caller h hcaller rfl trivial rfl (by simp) (by simp)
    | cons first rest =>
      cases hstep
      split
      · exact tidy_caller h hcaller rfl trivial rfl (by simp) (by simp)
      · exact tidy_caller h hcaller rfl trivial rfl (by simp) (by simp)
  | replacing other ladder rest driving =>
    cases hstep
    exact tidy_swap h hcaller horderly rfl rfl rfl (by simp) rfl (by simp) (by simp) trivial (by simp [Caller.warming])
  | spawning other ladder rest driving =>
    cases hstep
    let task := CoolingTask.spawn other .cooldown ladder .cooldownSpawned
    have hramps : task.kind = .warmup → task.Ramps := fun hkind => by cases hkind
    have htasks : ((s.spawnTask task).setCaller index (.storing other s.tasks.length rest driving)).tasks =
        s.tasks ++ [task] := rfl
    have hstates : ((s.spawnTask task).setCaller index
        (.storing other s.tasks.length rest driving)).states = s.states := rfl
    refine ⟨h.1.spawn rfl hramps htasks hstates ?_
      (fun _ hentry => ⟨other, List.mem_singleton.mp hentry⟩), h.2.spawn hcaller horderly⟩
    intro c hc id hid
    refine Nat.le_of_lt_succ (held_set h.1 (Nat.le_succ _) ?_ c hc id hid)
    intro i hi
    cases hi
    exact Nat.lt_succ_self _
  | storing other id rest driving =>
    cases hstep
    refine tidy_swap h hcaller horderly rfl rfl rfl (fun kind i heq => ?_) rfl
      (fun camera' i rest' driving' heq => ?_) (fun i heq => ?_) trivial (by simp [Caller.warming])
    · cases heq
      rfl
    · cases heq
      exact ⟨rfl, rfl⟩
    · cases heq
  | cooldownReturned => cases hstep
  | warmup =>
    cases hstep
    have hbound : ∀ id ∈ (cameras ladders).flatMap s.replaced, id < s.tasks.length := by
      intro id hid
      obtain ⟨other, _, hid⟩ := List.mem_flatMap.mp hid
      rw [replaced] at hid
      split at hid
      · cases hid
      · exact h.1.storedBound other id hid
    refine ⟨h.1.abort horderly.1 hbound rfl (fun other id hid => ?_) ?_,
      h.2.collect hcaller horderly.1 horderly.2⟩
    · have hold : id ∈ s.stored other := by
        have hid : id ∈ (s.collect ladders).stored other := hid
        rw [stored, collect] at hid
        simp only at hid
        split at hid
        · rw [collected] at hid
          split at hid
          · exact hid
          · cases hid
        · exact hid
      exact h.1.storedBound other id hold
    · exact held_set h.1 le_rfl (by simp [Caller.held])
  | ramping toSpawn warming =>
    cases toSpawn with
    | nil =>
      cases hstep
      refine tidy_caller h hcaller rfl trivial rfl (by simp) fun entry hentry => ?_
      cases List.mem_singleton.mp hentry
      exact ⟨warming, rfl, rfl⟩
    | cons first rest =>
      simp only [advanceCaller] at hstep
      obtain ⟨fromC, hlookup, heq⟩ := Option.map_eq_some_iff.mp hstep
      cases heq
      have hplaced : ∀ entry ∈ first :: rest, entry.1 ∈ warming := h.2.placed _ hmem
      have hcollecting : ∀ other ∈ warming, s.Collecting other := fun other hin => ⟨_, hmem, hin⟩
      let task := CoolingTask.spawn camera .warmup [] (.warmupSpawned fromC)
      have hramps : task.Ramps := by
        refine ⟨fun _ => List.not_mem_nil, fun point hpoint => ?_⟩
        cases hpoint
        trivial
      have htasks : ((s.spawnTask task).setCaller index (.storingRamp camera s.tasks.length
          (Assoc.erase camera (first :: rest)) warming)).tasks = s.tasks ++ [task] := rfl
      have hstates : ((s.spawnTask task).setCaller index (.storingRamp camera s.tasks.length
          (Assoc.erase camera (first :: rest)) warming)).states = s.states := rfl
      refine ⟨h.1.spawn rfl (fun _ => hramps) htasks hstates ?_
          (fun _ hentry => absurd hentry List.not_mem_nil),
        h.2.quiet (follows_spawn_ramp htasks rfl) (fun _ hc => hc.rung) (fun _ => rfl) (fun c hc => ?_)
          (fun other id rest' driving' hheld => ?_) (fun _ hentry => absurd hentry List.not_mem_nil)⟩
      · intro c hc id hid
        refine Nat.le_of_lt_succ (held_set h.1 (Nat.le_succ _) ?_ c hc id hid)
        intro i hi
        cases hi
        exact Nat.lt_succ_self _
      · rcases mem_set_caller hc with rfl | hc
        · refine .inr ⟨⟨hplaced _ (Assoc.mem_of_lookup hlookup), fun entry hentry => ?_⟩, hcollecting⟩
          exact hplaced entry (List.mem_of_mem_filter hentry)
        · exact .inl hc
      · exact mem_set_of_ne hcaller (by simp) hheld
  | storingRamp other id toSpawn warming =>
    cases hstep
    have hplaced := h.2.placed _ hmem
    refine tidy_swap h hcaller horderly rfl rfl rfl (fun kind i heq => ?_) rfl (by simp)
      (fun i heq => ⟨_, hmem, hplaced.1⟩) hplaced.2 fun c hc => ⟨_, hmem, hc⟩
    cases heq
    rfl
  | warmupReturned => cases hstep

/-- A call comes in. -/
theorem tidy_call (h : Tidy log s) {caller : Caller} (hheld : caller.held = none) (hplaced : caller.Placed)
    (hwarming : caller.warming = []) :
    Tidy (log ++ []) { s with callers := s.callers ++ [caller] } := by
  have hfollows : s.Follows { s with callers := s.callers ++ [caller] } := .of_tasks_eq rfl
  refine ⟨?_, h.2.quiet hfollows (fun _ hc => hc.rung) (fun _ => rfl) (fun c hc => ?_)
    (fun _ _ _ _ hmem => List.mem_append_left _ hmem) (by simp)⟩
  · obtain ⟨hstored, hold, hquiet, hramps, hsuperseded, hsilent⟩ := h.1
    rw [List.append_nil]
    refine ⟨hstored, fun c hc id hid => ?_, hquiet, hramps, hsuperseded, hsilent⟩
    rcases List.mem_append.mp hc with hc | hc
    · exact hold c hc id hid
    · rw [List.mem_singleton.mp hc, hheld] at hid
      cases hid
  · rcases List.mem_append.mp hc with hc | hc
    · exact .inl hc
    · rw [List.mem_singleton.mp hc]
      exact .inr ⟨hplaced, by rw [hwarming]; simp⟩

variable {id : Nat}

/-- A task is answered: it was not told to stop. -/
theorem tidy_answer (h : Tidy log s) {elapsed : Nat} {answer : Answer} {task : CoolingTask}
    {point : TaskPoint} {resumed : Resumed} (htask : s.tasks[id]? = some task)
    (hwaits : task.waitsAt = some point)
    (hresumed : resume config task.ladder (s.clock + elapsed) point answer = some resumed) :
    Tidy (log ++ []) { s.setTask id { task with pending := resumed.1, point := resumed.2 } with
      clock := s.clock + elapsed } := by
  obtain ⟨_, hnot, hpoint, hloud⟩ := not_quiet_of_waits hwaits
  let task' : CoolingTask := { task with pending := resumed.1, point := resumed.2 }
  let s' : Controller := { s.setTask id task' with clock := s.clock + elapsed }
  have htasks : s'.tasks = s.tasks.set id task' := rfl
  have hfollows : s.Follows s' :=
    follows_set htasks htask rfl rfl fun hquiet => absurd hquiet hloud
  refine ⟨h.1.task htask htasks (fun _ => rfl) rfl rfl (fun htold => ?_) rfl (fun hramps => ?_) (.inl rfl),
    h.2.quiet hfollows (fun _ hc => hc.rung) (fun _ => rfl) (fun _ hc => .inl hc) (fun _ _ _ _ hmem => hmem)
      (by simp)⟩
  · rw [show _ = false from hnot] at htold
    cases htold
  · obtain ⟨hpending, hnext⟩ := resume_warmup (hramps.point point hpoint) hresumed
    exact ⟨hpending, hnext⟩

/-- A task does its next effect; if that writes a rung, the camera is not cold. -/
theorem tidy_act (h : Tidy log s) {task : CoolingTask} {effect : Effect} {rest : List Effect}
    (htask : s.tasks[id]? = some task) (hpending : task.pending = effect :: rest) :
    Tidy (log ++ if effect.writes then [.wrote id] else [])
      ((s.setTask id { task with pending := rest }).update task.camera
        ((s.states task.camera).write effect)) := by
  let task' : CoolingTask := { task with pending := rest }
  let s' := (s.setTask id task').update task.camera ((s.states task.camera).write effect)
  have hnext : task.writesNext = (effect.writes || task'.writesNext) := by
    rw [CoolingTask.writesNext, hpending]
    rfl
  have hrest : task.writesNext = false → task'.writesNext = false := by
    intro hnone
    rw [hnext, Bool.or_eq_false_iff] at hnone
    exact hnone.2
  have htasks : s'.tasks = s.tasks.set id task' := rfl
  have hfollows : s.Follows s' :=
    follows_set htasks htask rfl rfl fun hquiet => ⟨hrest hquiet.1, hquiet.2⟩
  have hstored : ∀ camera, (s'.states camera).task = (s.states camera).task := by
    intro camera
    show (Function.update s.states task.camera ((s.states task.camera).write effect) camera).task = _
    by_cases heq : camera = task.camera
    · subst heq
      rw [Function.update_self]
      cases effect <;> rfl
    · rw [Function.update_of_ne heq]
  refine ⟨h.1.task htask htasks (fun camera => ?_) rfl rfl (fun _ => hrest) rfl (fun hramps => ?_) ?_,
    h.2.quiet hfollows (fun camera hc => ?_) hstored (fun _ hc => .inl hc) (fun _ _ _ _ hmem => hmem) ?_⟩
  · rw [stored, stored, hstored]
  · refine ⟨fun rung hmem => hramps.pending rung ?_, hramps.point⟩
    rw [hpending]
    exact List.mem_cons_of_mem _ hmem
  · cases hwrites : effect.writes with
    | true => exact .inr ⟨rfl, by rw [hnext, hwrites]; rfl⟩
    | false => exact .inl rfl
  · show (Function.update s.states task.camera ((s.states task.camera).write effect) camera).rungC = none
    by_cases heq : camera = task.camera
    · subst heq
      rw [Function.update_self]
      have hcold : (s.states task.camera).rungC = none := hc.rung
      cases effect with
      | setRung rung =>
        -- only a pass sets a rung, and the passes of a cold camera are quiet
        cases hkind : task.kind with
        | cooldown =>
          have hquiet := (hc.quiet id task htask rfl hkind).1
          rw [hnext] at hquiet
          cases hquiet
        | warmup =>
          refine absurd ?_ ((h.1.ramps id task htask hkind).pending rung)
          rw [hpending]
          exact List.mem_cons_self
      | clearState => rfl
      | _ => exact hcold
    · rw [Function.update_of_ne heq]
      exact hc.rung
  · intro warming hmem
    split at hmem
    · cases List.mem_singleton.mp hmem
    · cases hmem

/-- A task is reported finished. -/
theorem tidy_finish (h : Tidy log s) {task : CoolingTask} (htask : s.tasks[id]? = some task) :
    Tidy (log ++ []) (s.setTask id { task with finished := true }) := by
  let task' : CoolingTask := { task with finished := true }
  have htasks : (s.setTask id task').tasks = s.tasks.set id task' := rfl
  have hfollows : s.Follows (s.setTask id task') :=
    follows_set htasks htask rfl rfl fun hquiet => ⟨hquiet.1, hquiet.2⟩
  refine ⟨h.1.task htask htasks (fun _ => rfl) rfl rfl (fun _ hnone => hnone) rfl
      (fun hramps => ⟨hramps.pending, hramps.point⟩) (.inl rfl),
    h.2.quiet hfollows (fun _ hc => hc.rung) (fun _ => rfl) (fun _ hc => .inl hc) (fun _ _ _ _ hmem => hmem)
      (by simp)⟩

/-- Every orderly step keeps what holds. -/
theorem tidy_step (h : Tidy log s) {i : ControlInput} (horderly : s.Orderly ladders i)
    (hstep : s.step config ladders i = some (s', more)) : Tidy (log ++ more) s' := by
  cases i with
  | startCooldown =>
    cases hstep
    exact tidy_call h rfl trivial rfl
  | startWarmup =>
    cases hstep
    exact tidy_call h rfl trivial rfl
  | advance index camera =>
    obtain ⟨caller, hcaller, hadvance⟩ := Option.bind_eq_some_iff.mp hstep
    exact tidy_advance h hcaller horderly hadvance
  | answer id elapsed answer =>
    obtain ⟨task, htask, hrest⟩ := Option.bind_eq_some_iff.mp hstep
    obtain ⟨point, hwaits, hrest⟩ := Option.bind_eq_some_iff.mp hrest
    obtain ⟨resumed, hresumed, heq⟩ := Option.map_eq_some_iff.mp hrest
    cases heq
    exact tidy_answer h htask hwaits hresumed
  | act id =>
    obtain ⟨task, htask, hrest⟩ := Option.bind_eq_some_iff.mp hstep
    cases hpending : task.pending with
    | nil =>
      rw [hpending] at hrest
      cases hrest
    | cons effect rest =>
      rw [hpending] at hrest
      cases hrest
      exact tidy_act h htask hpending
  | finish id =>
    obtain ⟨task, htask, hrest⟩ := Option.bind_eq_some_iff.mp hstep
    split at hrest
    · cases hrest
      exact tidy_finish h htask
    · cases hrest

end Step

/-- Runs of the controller, with every step allowed. -/
abbrev ControlRun (config : CoolingConfig) (cameras : List (String × List Int))
    (allowed : List ControlRecord → Controller → ControlInput → Prop) :=
  History (step config (ladderCameras cameras)) allowed start

theorem run_tidy {config : CoolingConfig} {cameras : List (String × List Int)} {inputs : List ControlInput}
    {log : List ControlRecord}
    (h : ControlRun config cameras (fun _ s i => s.Orderly (ladderCameras cameras) i) inputs log s) :
    Tidy log s :=
  h.invariant Tidy ⟨.start, .start⟩ fun hinv horderly hstep => tidy_step hinv horderly hstep

/-- In every run whose steps are orderly, superseded tasks write nothing and warming cameras have no
rung. -/
theorem run_supersedes {config : CoolingConfig} {cameras : List (String × List Int)}
    {inputs : List ControlInput} {log : List ControlRecord} {s : Controller}
    (h : ControlRun config cameras (fun _ s i => s.Orderly (ladderCameras cameras) i) inputs log s) :
    Supersedes log s := by
  obtain ⟨htasked, hwarm⟩ := run_tidy h
  refine ⟨fun before warming after heq camera hmem hnone =>
    (hwarm.returned before warming after heq camera hmem hnone).rung, fun before task after heq hmem => ?_⟩
  obtain ⟨earlier, later, rfl⟩ := List.append_of_mem hmem
  have hjust := htasked.silent (before ++ .superseded task :: earlier) (.wrote task) later
    (by rw [heq, List.append_assoc]; rfl)
  exact hjust task rfl (List.mem_append_right _ List.mem_cons_self)

end Controller

namespace Evaluation

/-- One camera with one rung. -/
def oneCamera : List (String × List Int) := [("main-cam", [-20])]

/-- A pass is spawned, finds the cooler off, and commands its rung; both commands come back. -/
def commanded : List ControlInput :=
  [.startCooldown, .advance 0 "", .advance 0 "", .advance 0 "", .advance 0 "", .advance 0 "",
    .answer 0 0 (.flag (some true)), .answer 0 0 (.flag (some false)), .answer 0 0 (.flag (some true)),
    .answer 0 0 (.flag (some false)), .act 0, .act 0, .answer 0 0 (.done true), .act 0,
    .answer 0 0 (.done true)]

/-- A whole `start_warmup`. -/
def warmedUp : List ControlInput :=
  [.startWarmup, .advance 1 "", .advance 1 "main-cam", .advance 1 "", .advance 1 ""]

theorem ladderCameras_oneCamera : ladderCameras oneCamera = oneCamera := by
  simp [ladderCameras, oneCamera, ladderOf]

/-- A run, by the log and the rung it comes to. -/
theorem played {allowed : List ControlRecord → Controller → ControlInput → Prop}
    [∀ log s i, Decidable (allowed log s i)] {inputs : List ControlInput} {log : List ControlRecord}
    {rung : Option Int}
    (h : (History.play (Controller.step CoolingConfig.default oneCamera) allowed [] Controller.start
      inputs).map (fun reached => (reached.1, reached.2.rungFor "main-cam")) = some (log, rung)) :
    ∃ s, Controller.ControlRun CoolingConfig.default oneCamera allowed inputs log s ∧
      s.rungFor "main-cam" = rung := by
  obtain ⟨⟨log', s⟩, hplay, heq⟩ := Option.map_eq_some_iff.mp h
  cases heq
  rw [Controller.ControlRun, ladderCameras_oneCamera]
  exact ⟨s, .of_play hplay, rfl⟩

/-- Nothing is about to write, and no two calls are at the same camera. -/
def apart (s : Controller) : ControlInput → Bool
  | .advance index _ =>
      s.tasks.all (fun task => !task.writesNext) &&
        match s.callers[index]? with
        | some .warmup => s.callers.all fun caller => caller.held = none
        | some (.spawning ..) => s.callers.all fun caller => caller.warming = []
        | _ => true
  | _ => true

theorem orderly_of_apart {ladders : List (String × List Int)} {s : Controller} {i : ControlInput}
    (h : apart s i = true) : s.Orderly ladders i := by
  cases i with
  | advance index camera =>
    intro caller hcaller
    rw [apart, hcaller, Bool.and_eq_true] at h
    obtain ⟨htasks, hcallers⟩ := h
    have hparked : ∀ ids, s.Parked ids := by
      intro ids id _ task htask
      simpa using List.all_eq_true.mp htasks task (List.mem_of_getElem? htask)
    cases caller with
    | replacing => exact hparked _
    | storing => exact hparked _
    | storingRamp => exact hparked _
    | spawning other =>
      intro hcollecting
      obtain ⟨c, hc, hwarms⟩ := hcollecting
      have hnone : c.warming = [] := of_decide_eq_true (List.all_eq_true.mp hcallers c hc)
      rw [hnone] at hwarms
      cases hwarms
    | warmup =>
      refine ⟨hparked _, fun other _ _ hholding => ?_⟩
      obtain ⟨id, rest, driving, hmem⟩ := hholding
      have hnone := of_decide_eq_true (List.all_eq_true.mp hcallers _ hmem)
      cases hnone
    | _ => trivial
  | _ => trivial

def warmLog : List ControlRecord :=
  [.cooldownSpawned 0 "main-cam", .wrote 0, .wrote 0, .superseded 0, .warmupReturned ["main-cam"]]

/-- The pass has set its rung when the camera is warmed: it is cold, and stays so. -/
theorem warmed_supersedes : ∃ s, Controller.ControlRun CoolingConfig.default oneCamera
      (fun _ s i => s.Orderly (ladderCameras oneCamera) i) (commanded ++ [.act 0] ++ warmedUp) warmLog s ∧
    s.rungFor "main-cam" = none ∧ Supersedes warmLog s := by
  obtain ⟨s, hrun, hrung⟩ : ∃ s, Controller.ControlRun CoolingConfig.default oneCamera
      (fun _ s i => apart s i = true) (commanded ++ [.act 0] ++ warmedUp) warmLog s ∧
      s.rungFor "main-cam" = none := played (by decide +kernel)
  have horderly : Controller.ControlRun CoolingConfig.default oneCamera
      (fun _ s i => s.Orderly (ladderCameras oneCamera) i) (commanded ++ [.act 0] ++ warmedUp) warmLog s :=
    hrun.mono fun _ _ _ h => orderly_of_apart h
  exact ⟨s, horderly, hrung, Controller.run_supersedes horderly⟩

def lateLog : List ControlRecord :=
  [.cooldownSpawned 0 "main-cam", .wrote 0, .superseded 0, .warmupReturned ["main-cam"], .wrote 0]

/-- The camera is warmed between the answer to `CoolerOn` and the write of the rung. -/
theorem late_rung : ∃ s, Controller.ControlRun CoolingConfig.default oneCamera (fun _ _ _ => True)
      (commanded ++ warmedUp ++ [.act 0]) lateLog s ∧
    s.rungFor "main-cam" = some (-20) ∧ ¬ Supersedes lateLog s := by
  obtain ⟨s, hrun, hrung⟩ : ∃ s, Controller.ControlRun CoolingConfig.default oneCamera (fun _ _ _ => True)
      (commanded ++ warmedUp ++ [.act 0]) lateLog s ∧ s.rungFor "main-cam" = some (-20) :=
    played (by decide +kernel)
  refine ⟨s, hrun, hrung, fun hsupersedes => ?_⟩
  have hcold := hsupersedes.cold [.cooldownSpawned 0 "main-cam", .wrote 0, .superseded 0] ["main-cam"]
    [.wrote 0] rfl "main-cam" List.mem_cons_self (by simp)
  rw [hrung] at hcold
  cases hcold

end Evaluation

end RustyPhoton.Rp.Cooling
