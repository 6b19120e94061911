import RustyPhoton.SessionRunner.Runs.Active

/-!
# The files of a session

Two names in one directory are made from every session id. A step of a task writes or deletes only
files under the names of its own session, so two sessions leave each other's files alone exactly
where their names differ; `session_files_apart` says when they do.
-/

namespace RustyPhoton.SessionRunner.Runs

open Lib

/-- An accepted session id. -/
abbrev SessionId := { sessionId : String // validSessionId sessionId = true }

/-- The names of two sessions' files do not collide. -/
structure NamesApart (s t : String) : Prop where
  crossed : blackboardName s ≠ manifestName t
  blackboards : s ≠ t → blackboardName s ≠ blackboardName t
  manifests : s ≠ t → manifestName s ≠ manifestName t

theorem namesApart_iff {s t : String} : NamesApart s t ↔ s ≠ t ++ ".run" := by
  constructor
  · exact fun h he => h.crossed (blackboardName_eq_manifestName.mpr he)
  · exact fun h => ⟨fun he => h (blackboardName_eq_manifestName.mp he),
      fun hne he => hne (blackboardName_injective he), fun hne he => hne (manifestName_injective he)⟩

/-- The directory after a move. -/
def Move.dirAfter (m : Move) (dir : Dir) : Dir :=
  (m.file.map fun (name, file) => dir.put name file).getD dir

theorem Move.lookup_dirAfter {m : Move} {dir : Dir} {name : String}
    (h : ∀ f ∈ m.file, name ≠ f.1) : (m.dirAfter dir).lookup name = dir.lookup name := by
  unfold dirAfter
  cases hfile : m.file with
  | none => rfl
  | some f => exact lookup_put_of_ne f.2 dir (h f hfile)

section

variable [Crates]

/-- A task touches files of its own session only. -/
theorem Task.Goes.file_name {config : Config} {registry : RunRegistry} {dir : Dir} {t : Task}
    {answer : Answered} {m : Move} (h : t.Goes config registry dir answer m) :
    ∀ f ∈ m.file, f.1 = manifestName t.sessionId ∨ f.1 = blackboardName t.sessionId := by
  intro f hf
  cases h with
  | launched | manifestGone => exact .inl (Option.some.inj hf ▸ rfl)
  | replaced | blackboardGone => exact .inr (Option.some.inj hf ▸ rfl)
  | @notLaunched _ _ replaced =>
    cases replaced with
    | true => exact .inl (Option.some.inj hf ▸ rfl)
    | false => cases hf
  | ended | paused =>
    simp only [Task.fileAfter] at hf
    split at hf
    · cases hf
    · exact .inr (Option.some.inj hf ▸ rfl)
  | _ => cases hf

/-- Two accepted session ids have files under different names exactly where the one is not the
other followed by `.run`; and where neither is, no step of a run of the one changes a file of the
other. -/
theorem session_files_apart (s t : SessionId) :
    (NamesApart s t ↔ s.1 ≠ t.1 ++ ".run") ∧
      (s ≠ t → s.1 ≠ t.1 ++ ".run" → t.1 ≠ s.1 ++ ".run" →
        ∀ {config : Config} {registry : RunRegistry} {dir : Dir} {task : Task} {answer : Answered}
          {m : Move}, task.sessionId = s → task.step config registry dir answer = some m →
        (m.dirAfter dir).lookup (manifestName t) = dir.lookup (manifestName t) ∧
          (m.dirAfter dir).lookup (blackboardName t) = dir.lookup (blackboardName t)) := by
  refine ⟨namesApart_iff, fun hne hst hts => ?_⟩
  intro config registry dir task answer m hsession hstep
  have hst' := namesApart_iff.mpr hst
  have hts' := namesApart_iff.mpr hts
  have hne' : s.1 ≠ t.1 := fun h => hne (Subtype.ext h)
  refine ⟨Move.lookup_dirAfter fun f hf he => ?_, Move.lookup_dirAfter fun f hf he => ?_⟩
  · rcases (Task.step_cases hstep).file_name f hf with hname | hname <;> rw [hname, hsession] at he
    · exact hst'.manifests hne' he.symm
    · exact hst'.crossed he.symm
  · rcases (Task.step_cases hstep).file_name f hf with hname | hname <;> rw [hname, hsession] at he
    · exact hts'.crossed he
    · exact hst'.blackboards hne' he.symm

end

/-- The blackboard of the session `night.run` has the name of the manifest of `night`. -/
theorem run_suffix_collides : ¬ ∀ s t : SessionId, NamesApart s t := by
  intro h
  exact (h ⟨"night.run", by decide⟩ ⟨"night", by decide⟩).crossed (by decide)

/-- Unlinking the manifest of `night` leaves the files of `dawn` alone. -/
theorem night_leaves_dawn_alone :
    letI := Crates.wholeSeconds
    ∃ dir : Dir, (Move.dirAfter
        { task := none, file := some (manifestName "night", none) } dir).lookup (manifestName "dawn") =
      dir.lookup (manifestName "dawn") ∧ (dir.lookup (manifestName "dawn")).isSome = true := by
  let _ := Crates.wholeSeconds
  let m : RunManifest := ⟨"run-1", "night", "flats", .object [], 0⟩
  let task : Task := ⟨m, none, none, .unlinkManifest .complete .null⟩
  let dir : Dir := [(manifestName "night", .manifest m), (manifestName "dawn", .manifest
    ⟨"run-2", "dawn", "flats", .object [], 1⟩)]
  have hstep : task.step benchConfig [] dir (.unlinked true) = some
      { task := some (task.goto (.unlinkBlackboard .complete .null))
        file := some (manifestName "night", none)
        events := [.unlinked "run-1"] } := rfl
  have h := (session_files_apart ⟨"night", by decide⟩ ⟨"dawn", by decide⟩).2 (by decide) (by decide)
    (by decide) rfl hstep
  exact ⟨dir, h.1, by decide⟩

end RustyPhoton.SessionRunner.Runs
