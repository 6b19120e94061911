import RustyPhoton.SessionRunner.Engine.Script
import RustyPhoton.SessionRunner.Runs.Service

/-!
# One active run

The registry checks nothing when a record changes state. That at most one run is active and that
an ended one stays as it ended follows from who changes which record: the active runs are exactly
those of the tasks, there is at most one task, and the step that ends a run is the last one of its
task. `registry_is_consistent` is the result for every history.
-/

namespace RustyPhoton.SessionRunner.Runs

open Lib RunRegistry

/-! ## What a task's step keeps -/

/-- A task goes on with its run, and returns exactly when it has ended the run's record. -/
structure Move.OfRun (t : Task) (m : Move) : Prop where
  manifest : ∀ t' ∈ m.task, t'.manifest = t.manifest
  returns : m.task = none ↔ ∃ state outcome at_, m.note = some (.ended state outcome at_)

theorem Task.supervise_manifest (config : Config) (m : RunManifest) (launch : Option Document) :
    (supervise config m launch).manifest = m := by
  unfold supervise
  split <;> rfl

variable {dir : Dir} {t : Task} {m : Move}

theorem Task.Goes.ofRun [Crates] {config : Config} {registry : RunRegistry}
    {answer : Answered} (h : t.Goes config registry dir answer m) : m.OfRun t := by
  cases h with
  | launched => exact ⟨by simp [supervise_manifest], by simp⟩
  | notLaunched | recorded => exact ⟨by simp, by simp⟩
  | _ => exact ⟨fun _ h => Option.some.inj h ▸ rfl, by simp⟩

/-- The change of the record. -/
def Note.change : Note → RunRecord → RunRecord
  | running, r => { r with state := .running, pausedReason := none, pausedDetail := none }
  | paused reason detail, r =>
      { r with state := .paused, pausedReason := some reason, pausedDetail := some detail }
  | ended state outcome at_, r =>
      { r with state := state.1, pausedReason := none, pausedDetail := none, endedAt := some at_
               outcome := some outcome }

theorem Note.apply_eq (note : Note) (runId : String) (registry : RunRegistry) :
    note.apply runId registry = registry.update runId note.change := by
  cases note <;> rfl

theorem Note.change_runId (note : Note) (r : RunRecord) : (note.change r).runId = r.runId := by
  cases note <;> rfl

theorem Note.ids_apply (note : Note) (runId : String) (registry : RunRegistry) :
    (note.apply runId registry).ids = registry.ids := by
  rw [note.apply_eq, ids_update note.change_runId]

/-! ## The registry's invariant -/

/-- The ids are distinct, and the active runs are those of the tasks, of which there is at most
one. -/
structure Process.Owned (p : Process) : Prop where
  distinct : p.registry.ids.Nodup
  owners : p.registry.activeIds = p.tasks.map Task.runId
  single : p.tasks.length ≤ 1

def Service.Owned (s : Service) : Prop := ∀ p ∈ s.process, p.Owned

/-- The run an input registers is not in the registry. -/
def Service.FreshId (s : Service) : Input → Prop
  | .post r => ∀ p ∈ s.process, r.runId ∉ p.registry.ids
  | .resume => ∀ p ∈ s.process, ∀ m ∈ p.resuming.head?, m.runId ∉ p.registry.ids
  | _ => True

namespace Process.Owned

variable {p : Process}

/-- The task at an index is the only one, and its run the only active one. -/
theorem of_task (h : p.Owned) {index : Nat} {t : Task} (ht : p.tasks[index]? = some t) :
    index = 0 ∧ p.tasks = [t] ∧ p.registry.activeIds = [t.runId] := by
  have hlength : index < p.tasks.length := (List.getElem?_eq_some_iff.mp ht).1
  have hsingle := h.single
  obtain ⟨only, honly⟩ : ∃ only, p.tasks = [only] := List.length_eq_one_iff.mp (by omega)
  obtain rfl : index = 0 := by omega
  obtain rfl : only = t := by simpa [honly] using ht
  exact ⟨rfl, honly, by rw [h.owners, honly]; rfl⟩

variable {runId : String}

/-- With a run active there is a task, and it is that run's. -/
theorem of_active (h : p.Owned) (hactive : runId ∈ p.registry.activeIds) :
    ∃ t, p.tasks = [t] ∧ t.runId = runId := by
  rw [h.owners] at hactive
  obtain ⟨t, ht, rfl⟩ := List.mem_map.mp hactive
  obtain ⟨index, hindex⟩ := List.mem_iff_getElem?.mp ht
  exact ⟨t, (h.of_task hindex).2.1, rfl⟩

variable {registry : RunRegistry}

/-- A run registered where none was active is the only one. -/
theorem register (h : p.Owned) {m : RunManifest} {task : Task} {rest : List RunManifest}
    (hfresh : m.runId ∉ p.registry.ids) (htask : task.manifest = m)
    (started : p.registry.start m.runId m.sessionId m.workflow m.startedAt = .ok registry) :
    ({ p with registry, tasks := p.tasks ++ [task], resuming := rest } : Process).Owned := by
  obtain ⟨hnone, hactive, rfl⟩ := start_ok started
  have htasks : p.tasks = [] := by simpa [hnone] using h.owners.symm
  refine ⟨?_, ?_, by simp [htasks]⟩
  · have hids := List.nodup_append.mpr ⟨h.distinct, List.nodup_singleton m.runId,
      fun a ha b hb => by
        rintro rfl
        exact hfresh (List.mem_singleton.mp hb ▸ ha)⟩
    simpa [ids] using hids
  · rw [hactive, htasks]
    simp [Task.runId, htask]

theorem stop (h : p.Owned)
    (fired : p.registry.stop runId = .ok registry) : ({ p with registry } : Process).Owned := by
  obtain ⟨rfl, -⟩ := stop_ok fired
  refine ⟨?_, ?_, h.single⟩
  · exact (ids_update RunRecord.cancel_runId p.registry).symm ▸ h.distinct
  · exact (activeIds_update RunRecord.cancel_runId fun _ _ _ => rfl).trans h.owners

/-- A note that does not end a run keeps the active runs, where the run is active. -/
theorem activeIds_apply (h : p.Owned) {note : Note} (hactive : p.registry.activeIds = [runId])
    (hgoes : ∀ state outcome at_, note ≠ .ended state outcome at_) :
    (note.apply runId p.registry).activeIds = p.registry.activeIds := by
  have hrun : ∀ r ∈ p.registry, r.runId = runId → r.isActive = true := by
    intro r hr hid
    obtain ⟨r', hget, hr'⟩ :=
      (mem_activeIds h.distinct).mp (hactive ▸ List.mem_singleton.mpr rfl)
    rw [← hid, get_eq_some_of_mem h.distinct hr] at hget
    exact Option.some.inj hget ▸ hr'
  rw [note.apply_eq]
  refine activeIds_update note.change_runId fun r hr hid => ?_
  cases note with
  | running => exact (hrun r hr hid).symm
  | paused reason detail => exact (hrun r hr hid).symm
  | ended state outcome at_ => exact absurd rfl (hgoes state outcome at_)

end Process.Owned

/-- A step of the one task keeps the invariant. -/
theorem Process.Owned.advance {p p' : Process} (h : p.Owned) {index : Nat}
    (ht : p.tasks[index]? = some t) (hm : m.OfRun t)
    (hp : (Service.apply dir p index t m).process = some p') : p'.Owned := by
  obtain ⟨rfl, htasks, hactive⟩ := h.of_task ht
  obtain rfl := Option.some.inj hp
  have htasks' : p.tasks.take 0 ++ m.task.toList ++ p.tasks.drop 1 = m.task.toList := by
    simp [htasks]
  refine ⟨?_, ?_, ?_⟩
  · show ((m.note.map (Note.apply t.runId)).elim p.registry (· p.registry)).ids.Nodup
    cases m.note with
    | none => exact h.distinct
    | some note => exact (note.ids_apply t.runId p.registry).symm ▸ h.distinct
  · show ((m.note.map (Note.apply t.runId)).elim p.registry (· p.registry)).activeIds =
      (p.tasks.take 0 ++ m.task.toList ++ p.tasks.drop 1).map Task.runId
    rw [htasks']
    cases htask : m.task with
    | none =>
      obtain ⟨state, outcome, at_, hnote⟩ := hm.returns.mp htask
      rw [hnote]
      exact activeIds_update_ended
        (Note.change_runId (.ended state outcome at_)) (fun _ => state.2) h.distinct hactive
    | some t' =>
      have hids : [t'].map Task.runId = p.registry.activeIds := by
        rw [hactive, List.map_singleton, Task.runId, hm.manifest t' htask, Task.runId]
      rw [Option.toList_some, hids]
      cases hnote : m.note with
      | none => rfl
      | some note =>
        refine h.activeIds_apply hactive fun state outcome at_ hended => ?_
        have := hm.returns.mpr ⟨state, outcome, at_, hnote.trans (congrArg some hended)⟩
        rw [htask] at this
        cases this
  · show (p.tasks.take 0 ++ m.task.toList ++ p.tasks.drop 1).length ≤ 1
    rw [htasks']
    cases m.task <;> simp

section

variable [Crates]

variable {i : Input} {events : List Event}

/-- Every step that registers only new ids keeps the invariant. -/
theorem Transition.owned {s s' : Service} (h : s.Owned)
    (hfresh : s.FreshId i) (ht : Transition s i s' events) : s'.Owned := by
  cases ht with
  | restarted =>
    rintro p ⟨⟩
    exact ⟨List.nodup_nil, rfl, Nat.zero_le 1⟩
  | crashed => rintro p ⟨⟩
  | resumed next started =>
    rintro p ⟨⟩
    exact (h _ rfl).register (hfresh _ rfl _ (by simp [next])) (Task.supervise_manifest ..) started
  | passedOver next =>
    rintro p ⟨⟩
    exact ⟨(h _ rfl).distinct, (h _ rfl).owners, (h _ rfl).single⟩
  | @posted dir p r doc registry serving valid started =>
    rintro p ⟨⟩
    exact (h _ rfl).register (m := r.manifest) (hfresh _ rfl) rfl started
  | refused | stopRefused => exact h
  | stopped fired =>
    rintro p ⟨⟩
    exact (h _ rfl).stop fired
  | advanced at_ moved =>
    intro p' hp'
    exact (h _ rfl).advance at_ (Task.step_cases moved).ofRun hp'

/-! ## Ended runs -/

/-- The ended records of a registry stand in another one. -/
def RunRegistry.EndedIn (registry registry' : RunRegistry) : Prop :=
  ∀ (k : Nat) (r : RunRecord), registry[k]? = some r → r.isActive = false → registry'[k]? = some r

omit [Crates] in
theorem RunRegistry.EndedIn.trans {a b c : RunRegistry} (h : a.EndedIn b) (h' : b.EndedIn c) :
    a.EndedIn c :=
  fun k r hr hended => h' k r (h k r hr hended) hended

omit [Crates] in
theorem RunRegistry.EndedIn.append (registry more : RunRegistry) :
    registry.EndedIn (registry ++ more) := by
  intro k r hr _
  rw [List.getElem?_append_left (List.getElem?_eq_some_iff.mp hr).1]
  exact hr

variable {p : Process}

omit [Crates] in
/-- A change of an active run leaves the ended ones as they are. -/
theorem Process.Owned.endedIn_update (h : p.Owned) {runId : String}
    {apply : RunRecord → RunRecord} (hactive : runId ∈ p.registry.activeIds) :
    p.registry.EndedIn (p.registry.update runId apply) := by
  intro k r hr hended
  refine getElem?_update_of_ne hr fun hid => ?_
  obtain ⟨r', hget, hr'⟩ := (mem_activeIds h.distinct).mp hactive
  rw [← hid, get_eq_some_of_mem h.distinct (List.mem_of_getElem? hr)] at hget
  rw [← Option.some.inj hget, hended] at hr'
  cases hr'

/-- While the process lives, no step changes an ended record. -/
theorem Transition.keeps_ended {s s' : Service}
    (h : s.Owned) (hp : s.process = some p) (ht : Transition s i s' events)
    (halive : ∀ written, i ≠ .crash written) :
    ∃ p', s'.process = some p' ∧ p.registry.EndedIn p'.registry := by
  cases ht with
  | restarted => cases hp
  | crashed => exact absurd rfl (halive _)
  | resumed next started =>
    obtain rfl := Option.some.inj hp
    obtain ⟨-, -, rfl⟩ := start_ok started
    exact ⟨_, rfl, .append _ _⟩
  | passedOver next =>
    obtain rfl := Option.some.inj hp
    exact ⟨_, rfl, fun _ _ hr _ => hr⟩
  | posted serving valid started =>
    obtain rfl := Option.some.inj hp
    obtain ⟨-, -, rfl⟩ := start_ok started
    exact ⟨_, rfl, .append _ _⟩
  | refused | stopRefused => exact ⟨p, hp, fun _ _ hr _ => hr⟩
  | stopped fired =>
    obtain rfl := Option.some.inj hp
    obtain ⟨rfl, hactive⟩ := stop_ok fired
    have howned := h _ rfl
    exact ⟨_, rfl, howned.endedIn_update ((mem_activeIds howned.distinct).mpr hactive)⟩
  | @advanced _ _ _ _ t m at_ moved =>
    obtain rfl := Option.some.inj hp
    have howned := h _ rfl
    refine ⟨_, rfl, ?_⟩
    show EndedIn _ ((m.note.map (Note.apply t.runId)).elim _ (· _))
    cases m.note with
    | none => exact fun _ _ hr _ => hr
    | some note =>
      simp only [Option.map_some, Option.elim_some, note.apply_eq]
      exact howned.endedIn_update (by simp [(howned.of_task at_).2.2])

/-- In every history whose run ids are distinct, at most one run is active; a run that has ended
keeps its record as long as the process lives; and a stop is accepted exactly where the run's
record is active. -/
theorem registry_is_consistent {dir : Dir} {inputs : List Input} {log : List Event} {s : Service}
    {p : Process} (h : History Service.step (fun _ s i => s.FreshId i) ⟨dir, none⟩ inputs log s)
    (hp : s.process = some p) :
    (p.registry.filter RunRecord.isActive).length ≤ 1 ∧
      (∀ {inputs' : List Input} {log' : List Event} {s' : Service},
        History Service.step (fun _ s i => s.FreshId i ∧ ∀ written, i ≠ .crash written) s
          inputs' log' s' →
        ∃ p', s'.process = some p' ∧ p.registry.EndedIn p'.registry) ∧
      ∀ {runId : String} {s' : Service} {events : List Event},
        s.step (.stop runId) = some (s', events) →
        (events = [.stopAnswered runId (.ok ())] ↔
          ∃ r, p.registry.get runId = some r ∧ r.isActive = true) := by
  have howned : s.Owned :=
    h.invariant (fun _ s => s.Owned) (by rintro p ⟨⟩)
      fun hinv hfresh hstep => (Service.step_cases hstep).owned hinv hfresh
  refine ⟨?_, fun hlater => ?_, fun hstop => ?_⟩
  · have hactive := congrArg List.length (howned p hp).owners
    rw [activeIds, List.length_map, List.length_map] at hactive
    exact hactive ▸ (howned p hp).single
  · have hinv := hlater.invariant
      (fun _ s' => s'.Owned ∧ ∃ p', s'.process = some p' ∧ p.registry.EndedIn p'.registry)
      ⟨howned, p, hp, fun _ _ hr _ => hr⟩
      fun hall hmoves hstep => by
        obtain ⟨howned, p', hp', hkept⟩ := hall
        obtain ⟨hfresh, halive⟩ := hmoves
        have ht := Service.step_cases hstep
        obtain ⟨p'', hp'', hkept'⟩ := ht.keeps_ended howned hp' halive
        exact ⟨ht.owned howned hfresh, p'', hp'', hkept.trans hkept'⟩
    exact hinv.2
  · cases Service.step_cases hstop with
    | stopped fired =>
      obtain rfl := Option.some.inj hp
      simpa using (stop_ok fired).2
    | stopRefused notFired =>
      obtain rfl := Option.some.inj hp
      refine ⟨fun he => by simp at he, ?_⟩
      rintro ⟨r, hget, hactive⟩
      rw [stop_error notFired r hget] at hactive
      cases hactive

end

/-! ## A bench -/

instance (s : Service) (i : Input) : Decidable (s.FreshId i) :=
  match i with
  | .post r => inferInstanceAs (Decidable (∀ p ∈ s.process, r.runId ∉ p.registry.ids))
  | .resume => inferInstanceAs
      (Decidable (∀ p ∈ s.process, ∀ m ∈ p.resuming.head?, m.runId ∉ p.registry.ids))
  | .stop _ | .advance _ _ | .crash _ | .restart _ _ => .isTrue trivial

def benchConfig : Config := ⟨some "http://rp/mcp", Duration.ofSecs 600, true⟩

/-- A request to run a document under these ids. -/
def requestFor (runId sessionId : String) (doc : Document) : Request :=
  ⟨runId, sessionId, "flats", .object [], 0, some doc⟩

def captureDocument : Document := Engine.rootDocument (Engine.callTo "capture")

/-- A request whose manifest cannot be written, then another one, refused one and a stop. -/
def busyBench : List Input :=
  [.restart benchConfig [], .post (requestFor "run-1" "night" captureDocument),
    .advance 0 (.manifestWrite (.failed "disk full" false) 1),
    .post (requestFor "run-2" "night" captureDocument),
    .post (requestFor "run-3" "dawn" captureDocument),
    .advance 0 (.manifestWrite .written 2), .stop "run-2"]

/-- The bench's registry: the failed run stays failed while the next one is stopped. -/
theorem busyBench_is_consistent :
    letI := Crates.wholeSeconds
    ∃ log s p, History Service.step (fun _ s i => s.FreshId i) ⟨[], none⟩ busyBench log s ∧
      s.process = some p ∧ p.registry.map RunRecord.state = [.failed, .running] ∧
      (p.registry.filter RunRecord.isActive).length ≤ 1 := by
  let _ := Crates.wholeSeconds
  have hplay : ∃ log s p, History.play Service.step (fun _ s i => s.FreshId i) [] ⟨[], none⟩
      busyBench = some (log, s) ∧ s.process = some p ∧
      p.registry.map RunRecord.state = [.failed, .running] := ⟨_, _, _, rfl, rfl, rfl⟩
  obtain ⟨log, s, p, hplay, hp, hstates⟩ := hplay
  have h := History.of_play hplay
  exact ⟨log, s, p, h, hp, hstates, (registry_is_consistent h hp).1⟩

end RustyPhoton.SessionRunner.Runs
