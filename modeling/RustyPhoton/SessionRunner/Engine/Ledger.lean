import RustyPhoton.SessionRunner.Engine.Rules

/-!
# Ledgers

A relation about the books of a run (the blackboard, the markers, the event counters, the queued
firings) holds however the run ends: an interrupt leaves the books as they are, and so does whatever
becomes of it. Such a family passes through `try` by itself; `Ledger.steps` and `Ledger.try_` derive
it from the steps that write the books.
-/

set_option linter.unusedSectionVars false

namespace RustyPhoton.SessionRunner.Engine

open Lib Traced

variable [Crates] {σ : Type}

/-- The books of a run. -/
structure Books where
  session : Value
  file : Option Value
  inTriggerAction : Bool
  pending : List EngineEvent
  occurrences : List (String × Nat)
  queued : List (Option Value)

def State.books (s : State σ) : Books :=
  ⟨s.session, s.file, s.inTriggerAction, s.pending, s.occurrences, s.queued⟩

/-- The spans that group without meaning anything for the books. -/
def Label.isPlain : Label → Bool
  | .instruction _ | .action _ | .considering _ => false
  | _ => true

/-- What is left to prove of a family about the books. -/
structure Ledger (x : Exec σ) (V : Instruction → Prop) (R : Family σ) : Prop where
  composes : ∀ ns, Composes (R ns)
  mono : ∀ {ns ns' s l o t}, ns ⊆ ns' → R ns s l o t → R ns' s l o t
  any : ∀ {ns s l o t} o', R ns s l o t → R ns s l o' t
  silent : ∀ {ns} {s t : State σ}, t.books = s.books → R ns s [] none t
  span : ∀ {ns label s l o t}, label.isPlain = true → R ns s l o t →
    R ns s [.span label l o] o t
  clock : ∀ ns s t, R ns s [.mark (.clock t)] none s
  snapshot : ∀ ns s, R ns s [.mark (.snapshot s.session s.file)] none s
  called : ∀ ns s tool args answer honoured, R ns s [.mark (.call tool args answer honoured)] none s
  stopRaised : ∀ ns s, R ns s [.mark .stopRaised] none s
  receive : ∀ ns e, Sat (R ns) (receive e)
  synthesize : ∀ ns e, Sat (R ns) (synthesize e)
  consume : ∀ ns name, Sat (R ns) (consumeOccurrence name)
  commit : ∀ ns ins writes, V ins → ins.kind = .set (writes.map Prod.fst) →
    Sat (R ns) (commit x ins writes)

namespace Ledger

variable {x : Exec σ} {V : Instruction → Prop} {R : Family σ} (h : Ledger x V R)
  {ns : List Instruction}

include h

/-- However the first part ended, the second follows. -/
theorem trans {s t u : State σ} {l l' : Trace} {o o' : Option Halt} (hR : R ns s l o t)
    (hR' : R ns t l' o' u) : R ns s (l ++ l') o' u :=
  (h.composes ns).trans (h.any none hR) hR'

/-- Only the books matter around a run. -/
theorem around {s s' t t' : State σ} {l : Trace} {o : Option Halt} (hs : s'.books = s.books)
    (hR : R ns s' l o t') (ht : t.books = t'.books) : R ns s l o t := by
  have hright := h.trans hR (h.silent ht)
  rw [List.append_nil] at hright
  exact h.any o (h.trans (h.silent hs) hright)

theorem callOrPause (tool : String) (args : List (String × Value)) :
    Sat (R ns) (callOrPause x tool args) := by
  intro s
  obtain ⟨hlog, -, hst⟩ := call_or_pause_run x tool args s
  rw [hlog, hst]
  exact h.any _ (h.trans (h.snapshot ns s)
    (h.around rfl (h.called ns s tool args _ _)
      rfl))

theorem checkStop : Sat (R ns) (checkStop x) := by
  intro s
  obtain ⟨⟨host, c, hst⟩, ⟨hlog, -⟩ | ⟨-, hlog, -⟩⟩ := check_stop_run x s
  · rw [hst, hlog]
    exact h.any _ (h.silent rfl)
  · rw [hst, hlog]
    exact h.any _ (h.around rfl (h.stopRaised ns s)
      rfl)

theorem steps : Steps x V R where
  composes := h.composes
  mono := h.mono
  fuel ns s := h.any _ ((h.composes ns).refl s)
  error ns _ s := h.any _ ((h.composes ns).refl s)
  host _ _ _ := h.silent rfl
  clock := h.clock
  snapshot := h.snapshot
  cancel _ _ := h.silent rfl
  due _ _ _ := h.silent rfl
  result _ _ _ := h.silent rfl
  receive := h.receive
  synthesize := h.synthesize
  call _ := h.callOrPause
  commit := h.commit
  consume := h.consume
  checkStop _ := h.checkStop
  safePoint _ _ hm s := h.span rfl (hm s)

section Try

variable {run : RunBlock σ} {body : List Instruction}
  {catch_ finally_ : Option (List Instruction)} {s t : State σ} {l : Trace} {o : Option Halt}

/-- A block of a `try`, run from a state with the same books. -/
theorem block {block : List Instruction} {label : Label} {t' u : State σ}
    (hblock : Sat (R ns) (run block)) (hlabel : label.isPlain = true) (ht : t'.books = t.books)
    (hu : u.books = (run block t').st.books) :
    R ns t [blockSpan label run block t'] (run block t').halt u :=
  h.around ht (h.span hlabel (hblock t')) hu

theorem afterCatch (hbody : Sat (R ns) (run body))
    (hcatch : ∀ block, catch_ = some block → Sat (R ns) (run block))
    (hway : AfterCatch run body catch_ finally_ s l o t) : R ns s l o t := by
  cases hway with
  | body hpause =>
    exact h.block hbody rfl rfl rfl
  | caught herror hblock ht =>
    subst ht
    have hfirst : R ns s [blockSpan .body run body s] (run body s).halt (run body s).st :=
      h.block hbody rfl rfl rfl
    exact h.trans hfirst (h.block (hcatch _ hblock) rfl rfl
      rfl)

theorem tryRun (hbody : Sat (R ns) (run body))
    (hcatch : ∀ block, catch_ = some block → Sat (R ns) (run block))
    (hfinally : ∀ block, finally_ = some block → Sat (R ns) (run block))
    (hway : TryRun run body catch_ finally_ s l o t) : R ns s l o t := by
  cases hway with
  | paused hpause =>
    exact h.any _
      (h.block hbody rfl rfl rfl)
  | bare hafter hnone => exact h.afterCatch hbody hcatch hafter
  | cut hafter hfin => exact h.afterCatch hbody hcatch hafter
  | success hafter hfin =>
    exact h.trans (h.afterCatch hbody hcatch hafter)
      (h.block (hfinally _ hfin) rfl rfl rfl)
  | failed hafter hfin ht =>
    subst ht
    exact h.any _ (h.trans (h.afterCatch hbody hcatch hafter)
      (h.block (hfinally _ hfin) rfl rfl
        rfl))
  | unwound hafter hfin hi ht =>
    subst ht
    exact h.any _ (h.trans (h.afterCatch hbody hcatch hafter)
      (h.block (hfinally _ hfin) rfl rfl
        rfl))

end Try

/-- A family about the books passes through `try`. -/
theorem try_ (run : RunBlock σ) (body : List Instruction)
    (catch_ finally_ : Option (List Instruction)) (hrun : Runs V R run)
    (hV : ∀ n ∈ blockNodes body ++ optionNodes catch_ ++ optionNodes finally_, V n) :
    Sat (R (blockNodes body ++ optionNodes catch_ ++ optionNodes finally_))
      (execTry run body catch_ finally_) := by
  intro s
  have hblock : ∀ block, blockNodes block ⊆
      blockNodes body ++ optionNodes catch_ ++ optionNodes finally_ →
      Sat (R (blockNodes body ++ optionNodes catch_ ++ optionNodes finally_)) (run block) :=
    fun block hsub => h.steps.weaken hsub (hrun.sat block fun n hn => hV n (hsub hn))
  obtain ⟨l, hlog, hway⟩ := exec_try_run run body catch_ finally_ s
  rw [hlog]
  refine h.span rfl (h.tryRun (hblock body ?_) (fun block hc => hblock block ?_)
    (fun block hf => hblock block ?_) hway)
  · intro n hn
    simp [hn]
  · intro n hn
    simp [hc, optionNodes, hn]
  · intro n hn
    simp [hf, optionNodes, hn]

variable (ns) in
/-- The end of a firing, for a family that says nothing of its time. -/
theorem completeFiring_of (i : Nat) (t : Trigger)
    (hrecord : ∀ at_ onError, Sat (R ns)
      (record x (markTriggerFired t.id at_ t.once) onError (.triggerCompleted i at_))) :
    Sat (R ns) (completeFiring x i t) :=
  (h.steps.turns ns).bind (h.steps.turns ns).now fun at_ => hrecord at_ _

/-- An instruction, for a family that says nothing of its `once` key. -/
theorem instruction_of (ins : Instruction) {body : M σ Unit}
    (hspan : ∀ {s l o t}, R ins.nodes s l o t →
      R ins.nodes s [.span (.instruction ins) l o] o t)
    (hskipped : ∀ s key, R ins.nodes s [.mark (.onceSkipped key)] none s)
    (hrecord : ∀ key onError,
      Sat (R ins.nodes) (record x (markOnce key) onError (.onceCompleted key)))
    (hbody : Sat (R ins.kind.nodes) body) : Sat (R ins.nodes) (instructionWith x ins body) := by
  have hsub : ins.kind.nodes ⊆ ins.nodes := by
    obtain ⟨id, once, kind⟩ := ins
    exact List.subset_cons_self _ _
  have hskip : Sat (R ins.nodes) (skipOnce ins) := by
    unfold skipOnce
    split
    · exact h.steps.pure _
    · refine h.steps.bind h.steps.read fun s => ?_
      split
      · exact h.steps.bind (fun s => hskipped s _) fun _ => h.steps.pure _
      · exact h.steps.pure _
  refine fun s => hspan (h.steps.bind hskip (fun skipped => ?_) s)
  split
  · exact h.steps.pure _
  · refine h.steps.bind (h.steps.weaken hsub hbody) fun _ => ?_
    unfold completeOnce
    split
    · exact h.steps.pure _
    · exact hrecord _ _

end Ledger

/-! ## What a `set` leaves alone -/

section Bookkeeping

variable {s t : State σ} {l : Trace}

/-- The engine's own entries stay, in memory and, written or not, in the file. -/
def KeepsBookkeeping (s : State σ) (_ : Trace) (_ : Option Halt) (t : State σ) : Prop :=
  IsSession s.session → IsSession t.session ∧
    (IsSession (loadSession s.file) → IsSession (loadSession t.file)) ∧
    ∀ root ∈ [onceKey, triggersKey], t.session.get root = s.session.get root ∧
      ((loadSession t.file).get root = (loadSession s.file).get root ∨
        (loadSession t.file).get root = s.session.get root)

theorem KeepsBookkeeping.of_books {o : Option Halt} (hsession : t.session = s.session)
    (hfile : t.file = s.file) : KeepsBookkeeping s l o t :=
  fun hs => ⟨hsession ▸ hs, fun hc => hfile ▸ hc,
    fun _ _ => ⟨by rw [hsession], .inl (by rw [hfile])⟩⟩

theorem keepsBookkeeping_composes : Composes (KeepsBookkeeping (σ := σ)) where
  refl _ := .of_books rfl rfl
  trans h h' hs := by
    obtain ⟨ht, hcontent, hkept⟩ := h hs
    obtain ⟨hu, hcontent', hkept'⟩ := h' ht
    refine ⟨hu, fun hc => hcontent' (hcontent hc), fun root hroot => ?_⟩
    obtain ⟨hmem, hfile⟩ := hkept root hroot
    obtain ⟨hmem', hfile'⟩ := hkept' root hroot
    refine ⟨hmem'.trans hmem, ?_⟩
    rcases hfile' with hfile' | hfile'
    · rwa [hfile']
    · exact .inr (hfile'.trans hmem)

theorem commit_keepsBookkeeping (x : Exec σ) (ins : Instruction)
    (writes : List (SetEntry × Value)) : Sat KeepsBookkeeping (commit x ins writes) := by
  intro s hs
  obtain ⟨-, h, f, hst, hcase⟩ := commit_run x ins writes s rfl
  have hreserved : ∀ root ∈ [onceKey, triggersKey], root.toList.head? = some '_' := by decide
  have hsession := (get_writeAll (hreserved onceKey (by decide))
    (writes.map fun w => (w.1.path, w.2)) hs).1
  rw [hst]
  refine ⟨hsession, fun hc => ?_, fun root hroot => ?_⟩
  · rcases hcase with ⟨rfl, -⟩ | ⟨-, rfl | ⟨rfl, -⟩⟩
    · exact hc
    · exact hsession
    · exact hc
  · have hget := (get_writeAll (hreserved root hroot) (writes.map fun w => (w.1.path, w.2)) hs).2
    refine ⟨hget, ?_⟩
    rcases hcase with ⟨rfl, -⟩ | ⟨-, rfl | ⟨rfl, -⟩⟩
    · exact .inl rfl
    · exact .inr hget
    · exact .inl rfl

theorem keepsBookkeeping_ledger (x : Exec σ) :
    Ledger x (fun _ => True) fun _ => KeepsBookkeeping where
  composes _ := keepsBookkeeping_composes
  mono _ h := h
  any _ h := h
  silent ht := .of_books (congrArg Books.session ht) (congrArg Books.file ht)
  span _ h := h
  clock _ _ _ := .of_books rfl rfl
  snapshot _ _ := .of_books rfl rfl
  called _ _ _ _ _ _ := .of_books rfl rfl
  stopRaised _ _ := .of_books rfl rfl
  receive _ _ _ := .of_books rfl rfl
  synthesize _ _ _ := .of_books rfl rfl
  consume _ name s := by
    simp only [consumeOccurrence, Traced.step]
    split
    · exact .of_books rfl rfl
    · split
      · exact .of_books rfl rfl
      · exact .of_books rfl rfl
  commit _ ins writes _ _ := commit_keepsBookkeeping x ins writes

end Bookkeeping

end RustyPhoton.SessionRunner.Engine
