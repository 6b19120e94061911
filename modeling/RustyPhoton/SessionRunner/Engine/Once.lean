import RustyPhoton.SessionRunner.Document.Accepted
import RustyPhoton.SessionRunner.Engine.Ledger
import RustyPhoton.SessionRunner.Engine.Script
import RustyPhoton.SessionRunner.Engine.Session

/-!
# Idempotency keys

An instruction with a `once` key that has completed is recorded under its key and skipped from then
on, in the pass and in every later one. The record is read before the body and written after it, so
the body itself must not complete the key: the document has each key once, a body runs what is below
its instruction and, on the tree, the actions of the triggers, and an action runs no other.
-/

set_option linter.unusedSectionVars false

namespace RustyPhoton.SessionRunner.Engine

open Lib Traced

/-- The key a mark records. -/
def Mark.completion : Mark → Option String
  | .onceCompleted key => some key
  | _ => none

def Step.completion : Step → Option String
  | .mark m => m.completion
  | _ => none

/-- The keys completed in these steps. -/
def completions (sts : List Step) : List String := sts.filterMap Step.completion

/-- What a step owes to the keys already done: a key is completed only if it is not, and an
instruction whose key is done is skipped on the spot. -/
def Step.Respects (done : String → Prop) (st : Step) (rest : List Step) : Prop :=
  match st with
  | .mark (.onceCompleted key) => ¬ done key
  | .enter (.instruction ins) => ∀ key, ins.once = some key → done key →
      ∃ rest', rest = .mark (.onceSkipped key) :: .leave (.instruction ins) none :: rest'
  | _ => True

/-- Every step respects the keys done before it. -/
def Respects (done : String → Prop) : List Step → Prop
  | [] => True
  | st :: rest => st.Respects done rest ∧
      Respects (fun key => done key ∨ st.completion = some key) rest

theorem completions_append (a b : List Step) :
    completions (a ++ b) = completions a ++ completions b := List.filterMap_append

variable {key : String}

theorem mem_completions_cons {st : Step} {rest : List Step} :
    key ∈ completions (st :: rest) ↔ st.completion = some key ∨ key ∈ completions rest := by
  unfold completions
  rw [List.filterMap_cons]
  cases h : st.completion with
  | none => simp
  | some key' => simp [eq_comm]

variable {done : String → Prop} {sts : List Step}

/-- Fewer keys done ask for less. -/
theorem Respects.anti {done' : String → Prop} (h : Respects done sts)
    (hsub : ∀ key, done' key → done key) : Respects done' sts := by
  induction sts generalizing done done' with
  | nil => trivial
  | cons st rest ih =>
    obtain ⟨hst, hrest⟩ := h
    refine ⟨?_, ih hrest fun key hkey => hkey.imp (hsub key) id⟩
    unfold Step.Respects at hst ⊢
    split
    · exact fun hdone => hst (hsub _ hdone)
    · exact fun key hkey hdone => hst key hkey (hsub key hdone)
    · trivial

theorem Respects.append {a b : List Step} (ha : Respects done a)
    (hb : Respects (fun key => done key ∨ key ∈ completions a) b) : Respects done (a ++ b) := by
  induction a generalizing done with
  | nil => exact hb.anti fun key hkey => .inl hkey
  | cons st rest ih =>
    obtain ⟨hst, hrest⟩ := ha
    refine ⟨?_, ih hrest (hb.anti fun key hkey => ?_)⟩
    · unfold Step.Respects at hst ⊢
      split
      · exact hst
      · intro key hkey hdone
        obtain ⟨rest', rfl⟩ := hst key hkey hdone
        exact ⟨rest' ++ b, rfl⟩
      · trivial
    · rw [mem_completions_cons]
      exact or_assoc.mp hkey

/-- A key that is done is not completed again, another one at most once. -/
theorem Respects.count (h : Respects done sts) (key : String) :
    (completions sts).count key ≤ 1 ∧ (done key → key ∉ completions sts) := by
  induction sts generalizing done with
  | nil => simp [completions]
  | cons st rest ih =>
    obtain ⟨hst, hrest⟩ := h
    obtain ⟨hcount, hdone⟩ := ih hrest
    by_cases hst' : st.completion = some key
    · have hnot : key ∉ completions rest := hdone (.inr hst')
      have heq : completions (st :: rest) = key :: completions rest := by
        simp [completions, hst']
      rw [heq]
      refine ⟨by simp [List.count_eq_zero_of_not_mem hnot], fun hkey => ?_⟩
      have hrespects : ¬ done key := by
        cases st with
        | mark m =>
          cases m with
          | onceCompleted key' =>
            obtain rfl : key' = key := Option.some.inj hst'
            exact hst
          | _ => cases hst'
        | _ => cases hst'
      exact absurd hkey hrespects
    · have hmem : key ∈ completions (st :: rest) ↔ key ∈ completions rest := by
        rw [mem_completions_cons]
        simp [hst']
      refine ⟨?_, fun hkey => fun h => hdone (.inl hkey) (hmem.mp h)⟩
      have heq : (completions (st :: rest)).count key = (completions rest).count key := by
        unfold completions
        rw [List.filterMap_cons]
        cases hc : st.completion with
        | none => rfl
        | some key' =>
          rw [List.count_cons_of_ne]
          rintro rfl
          exact hst' hc
      rw [heq]
      exact hcount

/-- Once a key is completed, its instruction is skipped wherever it is reached. -/
theorem Respects.skipped_after {before after : List Step} {ins : Instruction}
    (h : Respects done (before ++ .enter (.instruction ins) :: after))
    (hdone : key ∈ completions before) (honce : ins.once = some key) :
    ∃ rest, after = .mark (.onceSkipped key) :: .leave (.instruction ins) none :: rest := by
  -- what is done grows along the steps, with what they complete
  have hgeneral : ∀ {done : String → Prop}, Respects done
      (before ++ .enter (.instruction ins) :: after) → done key ∨ key ∈ completions before →
      ∃ rest, after = .mark (.onceSkipped key) :: .leave (.instruction ins) none :: rest := by
    clear hdone h
    induction before with
    | nil =>
      rintro done h (hdone | hdone)
      · exact h.1 key honce hdone
      · cases hdone
    | cons st before ih =>
      intro done h hdone
      refine ih h.2 ?_
      rw [mem_completions_cons, ← or_assoc] at hdone
      exact hdone
  exact hgeneral h (.inr hdone)

/-! ## The relation -/

section Relation

variable [Crates] {σ : Type}

/-- The keys of the trigger actions. -/
def triggerKeys (triggers : List Trigger) : List String :=
  onceKeys (triggers.flatMap fun t => blockNodes t.actions)

/-- The instruction does not carry its key a second time below it. -/
def KeyFresh (ins : Instruction) : Prop :=
  ∀ key, ins.once = some key → key ∉ onceKeys ins.kind.nodes

/-- A key is recorded, in memory and in the file. -/
def Done (s : State σ) (key : String) : Prop := onceDone s.session key = true

def FileDone (s : State σ) (key : String) : Prop := onceDone (loadSession s.file) key = true

/-- The blackboard is one: the session and the content of the file are objects, and the file has no
key the session has not. -/
structure BoardOk (s : State σ) : Prop where
  session : IsSession s.session
  content : IsSession (loadSession s.file)
  behind : ∀ key, FileDone s key → Done s key

/-- A run that may execute these instructions keeps what is done, records what it completes, and
respects what was done before. -/
structure OnceKept (x : Exec σ) (ns : List Instruction) (s : State σ) (l : Trace) (t : State σ) :
    Prop where
  scope : t.inTriggerAction = s.inTriggerAction
  board : BoardOk t
  kept : ∀ key, Done s key → Done t key
  keptFile : ∀ key, FileDone s key → FileDone t key
  recorded : ∀ key ∈ completions (steps l), FileDone t key
  keys : ∀ key ∈ completions (steps l),
    key ∈ onceKeys ns ∨ s.inTriggerAction = false ∧ key ∈ triggerKeys x.triggers
  respects : Respects (Done s) (steps l)

/-- On the tree the instructions have no key of a trigger action. -/
def Apart (x : Exec σ) (ns : List Instruction) (s : State σ) : Prop :=
  s.inTriggerAction = false → ∀ key ∈ onceKeys ns, key ∉ triggerKeys x.triggers

def OnceRel (x : Exec σ) (ns : List Instruction) (s : State σ) (l : Trace) (_ : Option Halt)
    (t : State σ) : Prop :=
  BoardOk s → Apart x ns s → OnceKept x ns s l t

variable {x : Exec σ} {ns : List Instruction} {s t u : State σ} {l l' : Trace}

/-- A blackboard after a write that keeps the keys, into the file or not. -/
theorem BoardOk.write (hs : BoardOk s) (hsession : IsSession t.session)
    (hkeys : ∀ key, Done s key → Done t key) (hfile : t.file = some t.session ∨ t.file = s.file) :
    BoardOk t ∧ ∀ key, FileDone s key → FileDone t key := by
  rcases hfile with hwritten | hkept
  · have hload : loadSession t.file = t.session := by rw [hwritten]; rfl
    have hdone : ∀ key, FileDone t key ↔ Done t key := fun key => by rw [FileDone, hload, Done]
    refine ⟨⟨hsession, by rw [hload]; exact hsession, fun key => (hdone key).mp⟩, fun key h => ?_⟩
    exact (hdone key).mpr (hkeys key (hs.behind key h))
  · have hdone : ∀ key, FileDone t key ↔ FileDone s key := fun key => by
      rw [FileDone, FileDone, hkept]
    refine ⟨⟨hsession, by rw [hkept]; exact hs.content, fun key h => ?_⟩, fun key h => ?_⟩
    · exact hkeys key (hs.behind key ((hdone key).mp h))
    · exact (hdone key).mpr h

/-- Steps that complete nothing. -/
theorem OnceKept.of_write (hs : BoardOk s) (hl : completions (steps l) = [])
    (hrespects : Respects (Done s) (steps l)) (hscope : t.inTriggerAction = s.inTriggerAction)
    (hsession : IsSession t.session) (hkeys : ∀ key, Done s key → Done t key)
    (hfile : t.file = some t.session ∨ t.file = s.file) : OnceKept x ns s l t := by
  obtain ⟨hboard, hkept⟩ := hs.write hsession hkeys hfile
  exact ⟨hscope, hboard, hkeys, hkept, by simp [hl], by simp [hl], hrespects⟩

variable {o : Option Halt}

theorem OnceRel.still (hscope : t.inTriggerAction = s.inTriggerAction)
    (hsession : t.session = s.session) (hfile : t.file = s.file) : OnceRel x ns s [] o t :=
  fun hs _ => .of_write hs rfl trivial hscope (hsession ▸ hs.session)
    (fun _ h => by rwa [Done, hsession]) (.inr hfile)

variable {m : Mark}

theorem respects_mark (hm : m.completion = none) (done : String → Prop) :
    Respects done [.mark m] := by
  refine ⟨?_, trivial⟩
  cases m with
  | onceCompleted key => cases hm
  | _ => trivial

theorem completions_mark (hm : m.completion = none) :
    completions (steps [.mark m]) = [] := by
  simp [completions, Step.completion, hm]

theorem OnceRel.of_mark (hm : m.completion = none)
    (hscope : t.inTriggerAction = s.inTriggerAction) (hsession : t.session = s.session)
    (hfile : t.file = s.file) : OnceRel x ns s [.mark m] o t :=
  fun hs _ => .of_write hs (completions_mark hm) (respects_mark hm _) hscope
    (hsession ▸ hs.session) (fun _ h => by rwa [Done, hsession]) (.inr hfile)

theorem OnceKept.trans (h : OnceKept x ns s l t) (h' : OnceKept x ns t l' u) :
    OnceKept x ns s (l ++ l') u where
  scope := h'.scope.trans h.scope
  board := h'.board
  kept key hkey := h'.kept key (h.kept key hkey)
  keptFile key hkey := h'.keptFile key (h.keptFile key hkey)
  recorded key hkey := by
    rw [steps_append, completions_append] at hkey
    rcases List.mem_append.mp hkey with hkey | hkey
    · exact h'.keptFile key (h.recorded key hkey)
    · exact h'.recorded key hkey
  keys key hkey := by
    rw [steps_append, completions_append] at hkey
    rcases List.mem_append.mp hkey with hkey | hkey
    · exact h.keys key hkey
    · rw [← h.scope]
      exact h'.keys key hkey
  respects := by
    rw [steps_append]
    refine h.respects.append (h'.respects.anti fun key hkey => ?_)
    rcases hkey with hkey | hkey
    · exact h.kept key hkey
    · exact h.board.behind key (h.recorded key hkey)

theorem onceRel_composes (x : Exec σ) (ns : List Instruction) : Composes (OnceRel x ns) where
  refl _ := .still rfl rfl rfl
  trans h h' hs hapart := by
    have hfirst := h hs hapart
    exact hfirst.trans (h' hfirst.board fun ht => hapart (hfirst.scope ▸ ht))

theorem OnceRel.mono {ns' : List Instruction} (hsub : ns ⊆ ns')
    (h : OnceRel x ns s l o t) : OnceRel x ns' s l o t := by
  intro hs hapart
  have hkeys : onceKeys ns ⊆ onceKeys ns' := List.filterMap_subset _ hsub
  have hkept := h hs fun htree key hkey => hapart htree key (hkeys hkey)
  exact { hkept with keys := fun key hkey => (hkept.keys key hkey).imp_left (hkeys ·) }

variable {label : Label}

/-- A span; an instruction's is that of one whose key is not done. -/
theorem OnceKept.span
    (hlabel : ∀ ins, label = .instruction ins → ∀ key, ins.once = some key → ¬ Done s key)
    (h : OnceKept x ns s l t) : OnceKept x ns s [.span label l o] t := by
  have hsteps : completions (steps [.span label l o]) = completions (steps l) := by
    simp [completions, List.filterMap_cons, Step.completion]
  obtain ⟨hscope, hboard, hkept, hkeptFile, hrecorded, hkeys, hrespects⟩ := h
  refine ⟨hscope, hboard, hkept, hkeptFile, by rwa [hsteps], by rwa [hsteps], ?_⟩
  have hleave : Respects (fun key => Done s key ∨ key ∈ completions (steps l)) [.leave label o] :=
    ⟨trivial, trivial⟩
  rw [steps_cons, steps_nil, List.append_nil, steps_span]
  refine ⟨?_, (hrespects.append hleave).anti fun key hkey => ?_⟩
  · cases label with
    | instruction ins => exact fun key hkey hdone => absurd hdone (hlabel ins rfl key hkey)
    | _ => trivial
  · rcases hkey with hkey | hkey
    · exact hkey
    · cases hkey

/-- The record of a key that was not done and that the steps before it did not complete. -/
theorem OnceKept.completed {key : String} (h : OnceKept x ns s l t) (hnew : ¬ Done s key)
    (hl : key ∉ completions (steps l)) (hkey : key ∈ onceKeys ns)
    (hscope : u.inTriggerAction = t.inTriggerAction)
    (hsession : u.session = markOnce key t.session) (hfile : u.file = some u.session) :
    OnceKept x ns s (l ++ [.mark (.onceCompleted key)]) u := by
  have hdone : ∀ other, Done u other ↔ other = key ∨ Done t other := fun other => by
    rw [Done, hsession, onceDone_markOnce h.board.session]
    simp [Done]
  obtain ⟨hboard, hkept⟩ := h.board.write
    (by rw [hsession]; exact updateRoot_isSession h.board.session)
    (fun other hother => (hdone other).mpr (.inr hother)) (.inl hfile)
  have hcompletions : completions (steps (l ++ [.mark (.onceCompleted key)])) =
      completions (steps l) ++ [key] := by
    rw [steps_append, completions_append]
    rfl
  have hload : loadSession u.file = u.session := by rw [hfile]; rfl
  refine ⟨hscope.trans h.scope, hboard, fun other hother => ?_, fun other hother => ?_,
    fun other hother => ?_, fun other hother => ?_, ?_⟩
  · exact (hdone other).mpr (.inr (h.kept other hother))
  · exact hkept other (h.keptFile other hother)
  · rw [hcompletions] at hother
    rcases List.mem_append.mp hother with hother | hother
    · exact hkept other (h.recorded other hother)
    · rw [FileDone, hload]
      exact (hdone other).mpr (.inl (List.mem_singleton.mp hother))
  · rw [hcompletions] at hother
    rcases List.mem_append.mp hother with hother | hother
    · exact h.keys other hother
    · exact .inl (List.mem_singleton.mp hother ▸ hkey)
  · rw [steps_append]
    refine h.respects.append ⟨?_, trivial⟩
    rintro (hdone | hcompleted)
    · exact hnew hdone
    · exact hl hcompleted

/-! ## The rules -/

/-- A `set` keeps the keys. -/
theorem commit_once (ins : Instruction) (writes : List (SetEntry × Value)) :
    Sat (OnceRel x ns) (commit x ins writes) := by
  intro s hs _
  obtain ⟨hlog, h, f, hst, hcase⟩ := commit_run x ins writes s rfl
  obtain ⟨hsession, hget⟩ := get_writeAll (by decide : onceKey.toList.head? = some '_')
    (writes.map fun w => (w.1.path, w.2)) hs.session
  rw [hlog, hst]
  refine .of_write hs rfl ⟨trivial, trivial⟩ rfl hsession (fun key hkey => ?_) ?_
  · exact (onceDone_congr hget key).trans hkey
  · rcases hcase with ⟨hkept, -⟩ | ⟨-, hwritten | ⟨hkept, -⟩⟩
    · exact .inr hkept
    · exact .inl hwritten
    · exact .inr hkept

/-- The bookkeeping of a firing keeps the keys. -/
theorem recordFiring_once (t : Trigger) (i : Nat) (at_ : DateTime)
    (onError : String → WorkflowError) :
    Sat (OnceRel x ns)
      (record x (markTriggerFired t.id at_ t.once) onError (.triggerCompleted i at_)) := by
  intro s hs _
  have hkeys : ∀ key, Done s key → onceDone (markTriggerFired t.id at_ t.once s.session) key :=
    fun key hkey => by rwa [onceDone_markTriggerFired]
  have hsession : IsSession (markTriggerFired t.id at_ t.once s.session) :=
    updateRoot_isSession hs.session
  obtain ⟨h, file, hst, ⟨-, hlog, hfile⟩ | ⟨-, hlog, hfile, -⟩⟩ := record_run x _ onError
    (.triggerCompleted i at_) s
  · rw [hst, hlog]
    exact .of_write hs rfl ⟨trivial, trivial⟩ rfl hsession hkeys (.inl hfile)
  · rw [hst, hlog]
    exact .of_write hs rfl trivial rfl hsession hkeys hfile

theorem onceRel_ledger (x : Exec σ) : Ledger x KeyFresh (OnceRel x) where
  composes := onceRel_composes x
  mono := .mono
  any _ h := h
  silent ht := .still (congrArg Books.inTriggerAction ht) (congrArg Books.session ht)
    (congrArg Books.file ht)
  span hlabel h hs hapart := by
    refine (h hs hapart).span fun ins hins => ?_
    subst hins
    cases hlabel
  clock _ _ _ := .of_mark rfl rfl rfl rfl
  snapshot _ _ := .of_mark rfl rfl rfl rfl
  called _ _ _ _ _ _ := .of_mark rfl rfl rfl rfl
  stopRaised _ _ := .of_mark rfl rfl rfl rfl
  receive _ _ _ := .of_mark rfl rfl rfl rfl
  synthesize _ _ _ := .of_mark rfl rfl rfl rfl
  consume _ name s := by
    simp only [consumeOccurrence, Traced.step]
    split
    · exact .of_mark rfl rfl rfl rfl
    · split
      · exact .of_mark rfl rfl rfl rfl
      · exact .still rfl rfl rfl
  commit _ ins writes _ _ := commit_once ins writes

variable {run : RunBlock σ} {trigger : Trigger} {i : Nat}

/-- An action completes keys of its own block only, which are the triggers'. -/
theorem runAction_once (hmem : x.triggers[i]? = some trigger)
    (hrun : Sat (OnceRel x (blockNodes trigger.actions)) (run trigger.actions)) (payload : Value)
    {s : State σ} (hs : s.inTriggerAction = false) :
    SatAt (OnceRel x ns) (runAction run i trigger payload) s := by
  intro hboard _
  generalize ha : run trigger.actions (s.inAction payload) = a
  obtain ⟨hlog, hst, -⟩ := run_action_run (i := i) ha
  have haction : OnceKept x (blockNodes trigger.actions) (s.inAction payload) a.log a.st := by
    rw [← ha]
    exact hrun _ ⟨hboard.session, hboard.content, hboard.behind⟩ fun htree => by cases htree
  obtain ⟨-, hboard', hkept, hkeptFile, hrecorded, hkeys, hrespects⟩ := haction
  rw [hlog, hst]
  refine OnceKept.span (by simp) ⟨hs.symm, ⟨hboard'.session, hboard'.content, hboard'.behind⟩, hkept,
    hkeptFile, hrecorded, fun key hkey => .inr ⟨hs, ?_⟩, hrespects⟩
  rcases hkeys key hkey with hkey | ⟨htree, -⟩
  · have hsub : blockNodes trigger.actions ⊆ x.triggers.flatMap fun t => blockNodes t.actions :=
      fun n hn => List.mem_flatMap.mpr ⟨trigger, List.mem_of_getElem? hmem, hn⟩
    exact List.filterMap_subset _ hsub hkey
  · cases htree

theorem fireQueued_once (hmem : x.triggers[i]? = some trigger)
    (hrun : Sat (OnceRel x (blockNodes trigger.actions)) (run trigger.actions)) {s : State σ}
    (hs : s.inTriggerAction = false) : SatAt (OnceRel x ns) (fireQueued x run i trigger) s := by
  have hsteps := (onceRel_ledger x).steps
  have hcomposes := onceRel_composes x ns
  refine SatAt.bind hcomposes (OnceRel.still rfl rfl rfl) fun queued _ => ?_
  cases queued with
  | none => exact hsteps.pure () _
  | some payload =>
    refine SatAt.bind hcomposes ((hsteps.turns ns).gatePasses trigger _ payload _ _)
      fun passes _ => ?_
    split
    · refine SatAt.bind hcomposes (runAction_once hmem hrun payload ?_) fun _ _ => ?_
      · exact tree_turns.gatePasses trigger _ payload _ _ hs
      · exact (onceRel_ledger x).completeFiring_of ns i trigger
          (fun at_ onError => recordFiring_once trigger i at_ onError) _
    · exact hsteps.pure () _

variable {body : M σ Unit}

/-- An instruction completes its key at its end, after a body that cannot. -/
theorem instruction_once {ins : Instruction} (hins : KeyFresh ins)
    (hbody : Sat (OnceRel x ins.kind.nodes) body) :
    Sat (OnceRel x ins.nodes) (instructionWith x ins body) := by
  intro s hs hapart
  have hsub : ins.kind.nodes ⊆ ins.nodes := by
    obtain ⟨id, once, kind⟩ := ins
    exact List.subset_cons_self _ _
  have hmem : ∀ key, ins.once = some key → key ∈ onceKeys ins.nodes := by
    obtain ⟨id, once, kind⟩ := ins
    exact fun key honce => List.mem_filterMap.mpr ⟨_, List.mem_cons_self, honce⟩
  have hinner : OnceKept x ins.nodes s (body s).log (body s).st :=
    OnceRel.mono (o := none) hsub (fun hs hapart => hbody s hs hapart) hs hapart
  rcases instruction_run x ins body s with
    ⟨key, honce, hdone, heq⟩ | ⟨hnew, ⟨hlog, -, hst⟩ | ⟨key, onError, honce, hlog, -, hst⟩⟩
  · rw [heq]
    refine .of_write hs rfl ⟨?_, trivial, trivial, trivial⟩ rfl hs.session (fun _ h => h) (.inr rfl)
    intro key' honce' _
    obtain rfl : key = key' := Option.some.inj (honce.symm.trans honce')
    exact ⟨[], rfl⟩
  · rw [hlog, hst]
    exact hinner.span fun ins' hins' key honce => by
      obtain rfl := Label.instruction.inj hins'
      simp [Done, hnew key honce]
  · have hkey : ¬ Done s key := by simp [Done, hnew key honce]
    have hfresh : key ∉ completions (steps (body s).log) := by
      intro hkey
      have hself := hbody s hs (fun htree k hk => hapart htree k (List.filterMap_subset _ hsub hk))
      rcases hself.keys key hkey with hbelow | ⟨htree, htrigger⟩
      · exact hins key honce hbelow
      · exact hapart htree key (hmem key honce) htrigger
    have hspan : ∀ {l : Trace} {t : State σ}, OnceKept x ins.nodes s l t →
        OnceKept x ins.nodes s [.span (.instruction ins) l (instructionWith x ins body s).halt] t :=
      fun h => h.span fun ins' hins' key honce => by
        obtain rfl := Label.instruction.inj hins'
        simp [Done, hnew key honce]
    rw [hlog, hst]
    refine hspan ?_
    obtain ⟨h, file, hrec, ⟨-, hreclog, hfile⟩ | ⟨-, hreclog, hfile, -⟩⟩ := record_run x
      (markOnce key) onError (.onceCompleted key) (body s).st
    · rw [hrec, hreclog]
      exact hinner.completed hkey hfresh (hmem key honce) rfl rfl hfile
    · rw [hrec, hreclog]
      refine hinner.trans (.of_write hinner.board rfl trivial rfl
        (updateRoot_isSession hinner.board.session) (fun other hother => ?_) hfile)
      rw [Done, onceDone_markOnce hinner.board.session]
      simp [show onceDone _ _ = true from hother]

theorem onceRel_rules (x : Exec σ)
    (hactions : ∀ t ∈ x.triggers, ∀ n ∈ blockNodes t.actions, KeyFresh n) :
    Rules x KeyFresh (OnceRel x) where
  toSteps := (onceRel_ledger x).steps
  pumpOne ns s _ := by
    refine ((onceRel_ledger x).steps.turns ns).pumpOne_of (fun s => ?_) (fun h hs hapart => ?_)
      (fun _ _ _ => .of_mark rfl rfl rfl rfl) (fun _ _ _ => .of_mark rfl rfl rfl rfl) s
    · simp only [popPending, Traced.step]
      split
      · exact .still rfl rfl rfl
      · exact .of_mark rfl rfl rfl rfl
    · exact (h hs hapart).span (by simp)
  poll ns i t tool args _ s _ := ((onceRel_ledger x).steps.turns ns).poll_of
    (fun _ _ _ => .of_mark rfl rfl rfl rfl) i t tool args s
  fireQueued ns run i t hmem hrun s hs :=
    fireQueued_once hmem (hrun.sat t.actions (hactions t (List.mem_of_getElem? hmem))) hs
  try_ := (onceRel_ledger x).try_
  instruction _ _ hins := instruction_once hins

/-! ## Where a completion shows -/

/-- Every instruction with a key that returned was skipped, or recorded its key last. -/
def Tells (l : Trace) : Prop :=
  ∀ ins sub key, Occurs (.span (.instruction ins) sub none) l → ins.once = some key →
    sub = [.mark (.onceSkipped key)] ∨ ∃ sub', sub = sub' ++ [.mark (.onceCompleted key)]

theorem tells_nil : Tells [] := fun _ _ _ hocc => absurd hocc not_occurs_nil

theorem tells_mark (m : Mark) : Tells [.mark m] := fun _ _ _ hocc => by
  cases occurs_mark.mp hocc

theorem tells_append {l l' : Trace} (h : Tells l) (h' : Tells l') : Tells (l ++ l') := by
  intro ins sub key hocc
  rcases occurs_append.mp hocc with hocc | hocc
  · exact h ins sub key hocc
  · exact h' ins sub key hocc

theorem tells_span {l : Trace} (h : Tells l)
    (hlabel : ∀ ins key, label = .instruction ins → o = none → ins.once = some key →
      l = [.mark (.onceSkipped key)] ∨ ∃ l', l = l' ++ [.mark (.onceCompleted key)]) :
    Tells [.span label l o] := by
  intro ins sub key hocc
  rcases occurs_span.mp hocc with heq | hocc
  · obtain ⟨rfl, rfl, rfl⟩ := Node.span.inj heq
    exact hlabel ins key rfl rfl
  · exact h ins sub key hocc

theorem tells_ledger (x : Exec σ) : Ledger x (fun _ => True) fun _ _ l _ _ => Tells l where
  composes _ := ⟨fun _ => tells_nil, tells_append⟩
  mono _ h := h
  any _ h := h
  silent _ := tells_nil
  span hlabel h := tells_span h fun ins _ hins => by
    subst hins
    cases hlabel
  clock _ _ _ := tells_mark _
  snapshot _ _ := tells_mark _
  called _ _ _ _ _ _ := tells_mark _
  stopRaised _ _ := tells_mark _
  receive _ _ _ := tells_mark _
  synthesize _ _ _ := tells_mark _
  consume _ name s := by
    simp only [consumeOccurrence, Traced.step]
    split
    · exact tells_mark _
    · split
      · exact tells_mark _
      · exact tells_nil
  commit _ ins writes _ _ s := by
    rw [(commit_run x ins writes s rfl).1]
    exact tells_mark _

theorem record_tells (f : Value → Value) (onError : String → WorkflowError) (m : Mark)
    (s : State σ) : Tells (record x f onError m s).log := by
  obtain ⟨h, file, -, ⟨-, hlog, -⟩ | ⟨-, hlog, -⟩⟩ := record_run x f onError m s
  · rw [hlog]
    exact tells_mark m
  · rw [hlog]
    exact tells_nil

theorem instruction_tells (ins : Instruction) (hbody : ∀ s, Tells (body s).log)
    (s : State σ) : Tells (instructionWith x ins body s).log := by
  rcases instruction_run x ins body s with
    ⟨key, honce, -, heq⟩ | ⟨-, ⟨hlog, hhalt, -⟩ | ⟨key, onError, honce, hlog, hhalt, -⟩⟩
  · rw [heq]
    refine tells_span (tells_mark _) fun ins' key' hins _ honce' => ?_
    obtain rfl := Label.instruction.inj hins
    obtain rfl : key = key' := Option.some.inj (honce.symm.trans honce')
    exact .inl rfl
  · rw [hlog]
    refine tells_span (hbody s) fun ins' key hins hnone honce => ?_
    obtain rfl := Label.instruction.inj hins
    rw [hhalt hnone] at honce
    cases honce
  · rw [hlog]
    refine tells_span (tells_append (hbody s) (record_tells _ _ _ _))
      fun ins' key' hins hnone honce' => ?_
    obtain rfl := Label.instruction.inj hins
    obtain rfl : key = key' := Option.some.inj (honce.symm.trans honce')
    rw [hhalt] at hnone
    obtain ⟨h, file, -, ⟨-, hreclog, -⟩ | ⟨⟨e, he⟩, -⟩⟩ := record_run x (markOnce key) onError
      (.onceCompleted key) (body s).st
    · exact .inr ⟨_, by rw [hreclog]⟩
    · rw [hnone] at he
      cases he

theorem tells_rules (x : Exec σ) : Rules x (fun _ => True) fun _ _ l _ _ => Tells l where
  toSteps := (tells_ledger x).steps
  pumpOne ns s _ := by
    refine ((tells_ledger x).steps.turns ns).pumpOne_of (fun s => ?_) (fun h => tells_span h (by simp))
      (fun _ _ _ => tells_mark _) (fun _ _ _ => tells_mark _) s
    simp only [popPending, Traced.step]
    split
    · exact tells_nil
    · exact tells_mark _
  poll ns i t tool args _ s _ := ((tells_ledger x).steps.turns ns).poll_of (fun _ _ _ => tells_mark _) i t
    tool args s
  fireQueued ns run i t _ hrun s _ := by
    refine ((tells_ledger x).steps.turns ns).fireQueued_of (fun _ _ => tells_nil) i t (fun payload s => ?_)
      ((tells_ledger x).completeFiring_of ns i t fun _ _ => record_tells _ _ _) s
    rw [(run_action_run rfl).1]
    exact tells_span (hrun.sat t.actions (fun _ _ => trivial) _) (by simp)
  try_ := (tells_ledger x).try_
  instruction ins _ _ := instruction_tells ins

end Relation

/-! ## Sessions -/

section Sessions

variable [Crates] {doc : Document}

/-- In an accepted document no instruction has its key a second time below it. -/
theorem keyFresh_of_accepted (hdoc : doc.Accepted) {ins : Instruction} (hins : ins ∈ doc.nodes) :
    KeyFresh ins := by
  intro key honce hmem
  have hnodup : (onceKeys ins.nodes).Nodup :=
    ((Document.nodes_sublist hins).filterMap _).nodup hdoc.keys
  have hkeys : onceKeys ins.nodes = key :: onceKeys ins.kind.nodes := by
    obtain ⟨id, once, kind⟩ := ins
    obtain rfl : once = some key := honce
    rfl
  rw [hkeys] at hnodup
  exact (List.nodup_cons.mp hnodup).1 hmem

/-- In an accepted document the tree and the trigger actions have no key in common. -/
theorem apart_of_accepted (hdoc : doc.Accepted) {key : String}
    (hroot : key ∈ onceKeys (blockNodes [doc.root])) : key ∉ triggerKeys doc.triggers := by
  have hkeys : onceKeys doc.nodes = onceKeys (blockNodes [doc.root]) ++ triggerKeys doc.triggers := by
    simp [Document.nodes, onceKeys, triggerKeys, blockNodes]
  have hnodup := hdoc.keys
  rw [hkeys, List.nodup_append] at hnodup
  exact fun hmem => hnodup.2.2 key hroot key hmem rfl

/-- The keys recorded in a file. -/
def RecordedIn (file : Option Value) (key : String) : Prop := onceDone (loadSession file) key = true

variable {file : Option Value}

/-- A pass respects the keys of the file it starts from, and leaves them and its own in the file. -/
theorem pass_keeps_keys (hdoc : doc.Accepted) (p : Pass) (hfile : IsSession (loadSession file)) :
    Respects (RecordedIn file) (steps (p.run doc file).log) ∧
      IsSession (loadSession (p.run doc file).st.file) ∧
      (∀ key, RecordedIn file key → RecordedIn (p.run doc file).st.file key) ∧
      ∀ key ∈ completions (steps (p.run doc file).log), RecordedIn (p.run doc file).st.file key := by
  have hrules := onceRel_rules ⟨p.params, doc.triggers, p.host⟩ fun t ht n hn =>
    keyFresh_of_accepted hdoc
      (List.mem_append_right _ (List.mem_flatMap.mpr ⟨t, ht, hn⟩))
  have hroot : ∀ n ∈ blockNodes [doc.root], KeyFresh n := fun n hn =>
    keyFresh_of_accepted hdoc (List.mem_append_left _ (by simpa [blockNodes] using hn))
  have hrun := hrules.runWithStop hroot p.fuel file p.start
  have hkept := hrun ⟨hfile, hfile, fun _ h => h⟩ fun _ key => apart_of_accepted hdoc
  exact ⟨hkept.respects, hkept.board.content, hkept.keptFile, hkept.recorded⟩

/-- A session respects the keys of the file it starts from. -/
theorem session_respects (hdoc : doc.Accepted) (passes : List Pass)
    (hfile : IsSession (loadSession file)) :
    Respects (RecordedIn file) (steps (runSession doc file passes).1) := by
  induction passes generalizing file with
  | nil => trivial
  | cons p rest ih =>
    obtain ⟨hrespects, hleft, hkept, hrecorded⟩ := pass_keeps_keys hdoc p hfile
    show Respects _ (steps ((p.run doc file).log ++
      (runSession doc (p.run doc file).st.file rest).1))
    rw [steps_append]
    refine hrespects.append ((ih hleft).anti fun key hkey => ?_)
    rcases hkey with hkey | hkey
    · exact hkept key hkey
    · exact hrecorded key hkey

theorem session_tells (doc : Document) (passes : List Pass) (file : Option Value) :
    Tells (runSession doc file passes).1 := by
  induction passes generalizing file with
  | nil => exact tells_nil
  | cons p rest ih =>
    have hrun := (tells_rules ⟨p.params, doc.triggers, p.host⟩).runWithStop (fun _ _ => trivial)
      p.fuel file p.start
    exact tells_append hrun (ih _)

/-- Over the passes of a session of an accepted document a key is completed at most once; an
instruction reached after that is skipped on the spot; one that returns was skipped or completed its
key; a skip leaves everything as it is; and a `set` leaves the keys and the trigger bookkeeping as
they are. -/
theorem once_completes_once {value : Value} (hbuild : build value = .ok doc) {file : Option Value}
    (hfile : IsSession (loadSession file)) (passes : List Pass) (key : String) {l : Trace}
    (hl : (runSession doc file passes).1 = l) :
    (completions (steps l)).count key ≤ 1 ∧
    (∀ before after ins, steps l = before ++ .enter (.instruction ins) :: after →
      ins.once = some key → key ∈ completions before →
      ∃ rest, after = .mark (.onceSkipped key) :: .leave (.instruction ins) none :: rest) ∧
    (∀ ins sub, Occurs (.span (.instruction ins) sub none) l → ins.once = some key →
      sub = [.mark (.onceSkipped key)] ∨ ∃ sub', sub = sub' ++ [.mark (.onceCompleted key)]) ∧
    (∀ (σ : Type) (x : Exec σ) (fuel : Nat) (run : RunBlock σ) (ins : Instruction) (s : State σ),
      ins.once = some key → onceDone s.session key = true → execInstruction x fuel run ins s =
        ⟨.ok (), [.span (.instruction ins) [.mark (.onceSkipped key)] none], s⟩) ∧
    ∀ (σ : Type) (x : Exec σ) (ins : Instruction) (entries : List SetEntry) (s : State σ),
      ins.kind = .set entries → IsSession s.session → ∀ root ∈ [onceKey, triggersKey],
        (execSet x ins entries s).st.session.get root = s.session.get root ∧
          ((loadSession (execSet x ins entries s).st.file).get root =
              (loadSession s.file).get root ∨
            (loadSession (execSet x ins entries s).st.file).get root = s.session.get root) := by
  have hdoc := (accepted_of_build hbuild).2
  have hrespects := session_respects hdoc passes hfile
  have htells := session_tells doc passes file
  rw [hl] at hrespects htells
  refine ⟨(hrespects.count key).1, fun before after ins heq honce hdone => ?_,
    fun ins sub => htells ins sub key, fun σ x fuel run ins s honce hdone => ?_,
    fun σ x ins entries s hkind hs => ?_⟩
  · rw [heq] at hrespects
    exact hrespects.skipped_after hdone honce
  · rcases instruction_run x ins (execKind x fuel run ins) s with
      ⟨key', honce', -, heq⟩ | ⟨hnew, -⟩
    · obtain rfl : key = key' := Option.some.inj (honce.symm.trans honce')
      exact heq
    · rw [hnew key honce] at hdone
      cases hdone
  · exact (@Steps.execSet _ _ _ _ _ [] (keepsBookkeeping_ledger x).steps ins entries trivial hkind s
      hs).2.2

end Sessions

/-- A document that cools the camera once and captures. -/
def coolThenCapture : Value :=
  documentOf [("sequence", .array
    [.object [("tool", .string "cool_camera"), ("once", .string "cooled")], toolStep "capture"])]

/-- A pass that pauses at the capture, and the one that resumes. -/
def pausedAndResumed : List Pass :=
  [⟨Script, 4, .null, scripted, { answers := [.ok .null, .error (.unavailable "no route")] }⟩,
    ⟨Script, 4, .null, scripted, {}⟩]

/-- The resumed pass skips what the paused one completed. -/
theorem cooled_completes_once :
    letI := Crates.wholeSeconds
    ∃ doc, build coolThenCapture = .ok doc ∧
      (completions (steps (runSession doc none pausedAndResumed).1)).count "cooled" ≤ 1 ∧
      "cooled" ∈ completions (steps (runSession doc none pausedAndResumed).1) ∧
      (callsOf (runSession doc none pausedAndResumed).1).map Prod.fst =
        ["cool_camera", "capture", "capture"] := by
  let _ := Crates.wholeSeconds
  have hrun : (build coolThenCapture).toOption.map (fun doc =>
      (completions (steps (runSession doc none pausedAndResumed).1),
        (callsOf (runSession doc none pausedAndResumed).1).map Prod.fst)) =
      some (["cooled"], ["cool_camera", "capture", "capture"]) := by decide +kernel
  cases hbuild : build coolThenCapture with
  | error issues =>
    rw [hbuild] at hrun
    cases hrun
  | ok doc =>
    rw [hbuild] at hrun
    obtain ⟨hkeys, hcalls⟩ := Prod.mk.inj (Option.some.inj hrun)
    refine ⟨doc, rfl, ?_, by rw [hkeys]; exact List.mem_singleton_self _, hcalls⟩
    exact (once_completes_once hbuild ⟨[], rfl⟩ pausedAndResumed "cooled" rfl).1

end RustyPhoton.SessionRunner.Engine
