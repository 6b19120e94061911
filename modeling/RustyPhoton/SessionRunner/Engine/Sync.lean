import RustyPhoton.SessionRunner.Engine.Ledger
import RustyPhoton.SessionRunner.Engine.Script

/-!
# The blackboard and its file

Every change of the session object is followed by a write of it, so at a tool call, at a safe point
and at the end of a pass the file holds the object in memory, if writes succeed. The one change that
is not followed by a write is that of a `set` of several entries that fails after the first of them:
the entries written before the failure stay in memory.
-/

set_option linter.unusedSectionVars false

namespace RustyPhoton.SessionRunner.Engine

open Lib Traced

/-- A `set` that fails leaves the session as it found it. -/
def KeptOnFailure (writes : List (List String × Value)) (session : Value) : Prop :=
  (writeAll writes session).2 ≠ none → (writeAll writes session).1 = session

/-- Every `set` of this trace that fails leaves the session as it found it. -/
def WritesKept (l : Trace) : Prop :=
  ∀ writes session, .mark (.writes writes session) ∈ steps l → KeptOnFailure writes session

/-- Wherever the blackboard was recorded, reloading the file gives the session. -/
def SnapshotsSynced (l : Trace) : Prop :=
  ∀ session file, .mark (.snapshot session file) ∈ steps l → session = loadSession file

variable {l : Trace}

theorem writesKept_append {l' : Trace} : WritesKept (l ++ l') ↔ WritesKept l ∧ WritesKept l' := by
  simp only [WritesKept, steps_append, List.mem_append, or_imp, forall_and]

theorem snapshotsSynced_append {l' : Trace} :
    SnapshotsSynced (l ++ l') ↔ SnapshotsSynced l ∧ SnapshotsSynced l' := by
  simp only [SnapshotsSynced, steps_append, List.mem_append, or_imp, forall_and]

theorem snapshotsSynced_nil : SnapshotsSynced [] := by simp [SnapshotsSynced]

variable {label : Label} {o : Option Halt}

theorem writesKept_span :
    WritesKept [.span label l o] ↔ WritesKept l := by
  simp [WritesKept]

theorem snapshotsSynced_span :
    SnapshotsSynced [.span label l o] ↔ SnapshotsSynced l := by
  simp [SnapshotsSynced]

/-- Whether a mark is one of the blackboard. -/
def Mark.isSnapshot : Mark → Bool
  | .snapshot _ _ => true
  | _ => false

theorem snapshotsSynced_mark {m : Mark} (hm : m.isSnapshot = false) : SnapshotsSynced [.mark m] := by
  intro session file hmem
  obtain rfl : .snapshot session file = m := by simpa using hmem
  cases hm

section Relation

variable [Crates] {σ : Type}

/-- Reloading the file gives the session. -/
def Synced (s : State σ) : Prop := s.session = loadSession s.file

/-- A run from a synced state stays synced, if its failing `set`s leave the session alone. -/
def SyncRel (_ : List Instruction) (s : State σ) (l : Trace) (_ : Option Halt) (t : State σ) :
    Prop :=
  Synced s → WritesKept l → Synced t ∧ SnapshotsSynced l

variable {s t : State σ} {o : Option Halt}

theorem SyncRel.of_books {ns : List Instruction}
    (ht : t.books = s.books) : SyncRel ns s [] o t := by
  intro hs _
  have hsession : t.session = s.session := congrArg Books.session ht
  have hfile : t.file = s.file := congrArg Books.file ht
  exact ⟨by rw [Synced, hsession, hfile]; exact hs, by simp [SnapshotsSynced]⟩

theorem SyncRel.of_mark {ns : List Instruction} {m : Mark}
    (hm : m.isSnapshot = false) (hsession : t.session = s.session) (hfile : t.file = s.file) :
    SyncRel ns s [.mark m] none t := by
  intro hs _
  exact ⟨by rw [Synced, hsession, hfile]; exact hs, snapshotsSynced_mark hm⟩

theorem SyncRel.span {ns : List Instruction} {l : Trace}
    (label : Label) (h : SyncRel ns s l o t) : SyncRel ns s [.span label l o] o t := by
  intro hs hl
  obtain ⟨ht, hsnap⟩ := h hs (writesKept_span.mp hl)
  exact ⟨ht, snapshotsSynced_span.mpr hsnap⟩

theorem syncRel_composes (ns : List Instruction) : Composes (SyncRel (σ := σ) ns) where
  refl _ := .of_books rfl
  trans h h' hs hl := by
    obtain ⟨hl, hl'⟩ := writesKept_append.mp hl
    obtain ⟨ht, hsnap⟩ := h hs hl
    obtain ⟨hu, hsnap'⟩ := h' ht hl'
    exact ⟨hu, snapshotsSynced_append.mpr ⟨hsnap, hsnap'⟩⟩

variable {ns : List Instruction}

theorem popPending_syncs : Sat (SyncRel ns) (popPending (σ := σ)) := by
  intro s
  simp only [popPending, Traced.step]
  split
  · exact .of_books rfl
  · exact .of_mark rfl rfl rfl

theorem runAction_syncs {run : RunBlock σ} {t : Trigger} (hrun : Sat (SyncRel ns) (run t.actions))
    (i : Nat) (payload : Value) : Sat (SyncRel ns) (runAction run i t payload) := by
  intro s
  have hbody : run t.actions (s.inAction payload) = run t.actions (s.inAction payload) := rfl
  obtain ⟨hlog, hst, -⟩ := run_action_run (i := i) hbody
  rw [hlog, hst]
  exact (hrun (s.inAction payload)).span (.action i)

section Writes

variable {x : Exec σ} (hw : x.host.WritesSucceed)

include hw

/-- A recorded change is in the file. -/
theorem record_syncs (f : Value → Value) (onError : String → WorkflowError) {m : Mark}
    (hm : m.isSnapshot = false) : Sat (SyncRel ns) (record x f onError m) := by
  intro s _ _
  obtain ⟨h, file, hst, ⟨-, hlog, rfl⟩ | ⟨-, -, -, hfails⟩⟩ := record_run x f onError m s
  · rw [hst, hlog]
    exact ⟨rfl, snapshotsSynced_mark hm⟩
  · exact absurd hw hfails

/-- A `set`: written at the end, or failed with the session kept. -/
theorem commit_syncs (ins : Instruction) (writes : List (SetEntry × Value)) :
    Sat (SyncRel ns) (commit x ins writes) := by
  intro s hs hl
  obtain ⟨hlog, h, f, hst, hcase⟩ := commit_run x ins writes s rfl
  rw [hlog] at hl ⊢
  rw [hst]
  refine ⟨?_, snapshotsSynced_mark rfl⟩
  rcases hcase with ⟨rfl, hfailed⟩ | ⟨-, rfl | ⟨-, hfails⟩⟩
  · have hkept := hl _ _ (List.mem_singleton_self _) hfailed
    rw [Synced, hkept]
    exact hs
  · rfl
  · exact absurd hw hfails

theorem syncRel_ledger : Ledger x (fun _ => True) SyncRel where
  composes := syncRel_composes
  mono _ h := h
  any _ h := h
  silent := .of_books
  span _ h := h.span _
  clock _ _ _ := .of_mark rfl rfl rfl
  snapshot _ s hs _ := by
    refine ⟨hs, fun session file hmem => ?_⟩
    obtain ⟨rfl, rfl⟩ : session = s.session ∧ file = s.file := by simpa using hmem
    exact hs
  called _ _ _ _ _ _ := .of_mark rfl rfl rfl
  stopRaised _ _ := .of_mark rfl rfl rfl
  receive _ _ _ := .of_mark rfl rfl rfl
  synthesize _ _ _ := .of_mark rfl rfl rfl
  consume _ name s := by
    simp only [consumeOccurrence, Traced.step]
    split
    · exact .of_mark rfl rfl rfl
    · split
      · exact .of_mark rfl rfl rfl
      · exact .of_books rfl
  commit _ ins writes _ _ := commit_syncs hw ins writes

theorem syncRel_rules : Rules x (fun _ => True) SyncRel where
  toSteps := (syncRel_ledger hw).steps
  pumpOne ns s _ := ((syncRel_ledger hw).steps.turns ns).pumpOne_of popPending_syncs (fun h => h.span _)
    (fun _ _ _ => .of_mark rfl rfl rfl) (fun _ _ _ => .of_mark rfl rfl rfl) s
  poll ns i t tool args _ s _ := ((syncRel_ledger hw).steps.turns ns).poll_of
    (fun _ _ _ => .of_mark rfl rfl rfl) i t tool args s
  fireQueued ns run i t _ hrun s _ := by
    refine ((syncRel_ledger hw).steps.turns ns).fireQueued_of (fun _ _ hs _ => ⟨hs, snapshotsSynced_nil⟩) i t
      (runAction_syncs (hrun.sat t.actions fun _ _ => trivial) i) ?_ s
    exact (syncRel_ledger hw).completeFiring_of ns i t fun _ _ => record_syncs hw _ _ rfl
  try_ := (syncRel_ledger hw).try_
  instruction ins _ _ := (syncRel_ledger hw).instruction_of ins (fun h => h.span _)
    (fun _ _ => .of_mark rfl rfl rfl) fun _ _ => record_syncs hw _ _ rfl

end Writes

end Relation

/-- The blackboards recorded in a trace. -/
def snapshotsOf (l : Trace) : List (Value × Option Value) :=
  (steps l).filterMap fun
    | .mark (.snapshot session file) => some (session, file)
    | _ => none

/-- A `set` of one entry, then a call. -/
def noteThenCapture : Instruction :=
  .mk none none (.sequence
    [.mk none none (.set [⟨["target"], ⟨"'dark'", .str "dark" ⟨0, 6⟩⟩⟩]), callTo "capture"])

/-- Its pass. -/
def notedCapture : Run (State Script) Halt Node Unit :=
  letI := Crates.wholeSeconds
  runWithStop 3 (rootDocument noteThenCapture) .null reliable none {}

/-- Whether a mark's writes all land. -/
def writesLand : Step → Bool
  | .mark (.writes writes session) => (writeAll writes session).2.isNone
  | _ => true

example : writesLand (.mark .stopRaised) = true := by decide +kernel

end RustyPhoton.SessionRunner.Engine
