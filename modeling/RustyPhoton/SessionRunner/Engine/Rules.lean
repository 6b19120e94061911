import RustyPhoton.SessionRunner.Engine.Turns

/-!
# The rule of a whole run

A relation over the runs of the engine is indexed by the instructions the run may execute. If it
composes along sequencing, every primitive step is in it, and it passes through the constructs that
look at an outcome (`try`, a trigger's action, an instruction's `once`), then every block execution
is in it. The induction over the walk is done here once; each property of the engine is an instance.
-/

set_option linter.unusedSectionVars false

namespace RustyPhoton.SessionRunner.Engine

open Lib Expr Traced

variable [Crates] {σ : Type}

/-- The values of a `set` go to its entries, in order. -/
theorem setValues_entries {x : Exec σ} {ins : Instruction} {entries : List SetEntry} {s : State σ}
    {writes : List (SetEntry × Value)} (h : (setValues x ins entries s).out = .ok writes) :
    writes.map Prod.fst = entries := by
  induction entries generalizing s writes with
  | nil =>
    obtain rfl : [] = writes := Except.ok.inj h
    rfl
  | cons entry rest ih =>
    obtain ⟨value, -, h⟩ := bind_out_eq_ok.mp h
    obtain ⟨tail, htail, h⟩ := bind_out_eq_ok.mp h
    obtain rfl : (entry, value) :: tail = writes := Except.ok.inj h
    rw [List.map_cons, ih htail]

/-- A family of relations, by the instructions a run may execute. -/
abbrev Family (σ : Type) := List Instruction → Rel (State σ) Halt Node

/-- Every block of valid instructions runs within the family, and leaves a trace of its shape. -/
structure Runs (V : Instruction → Prop) (R : Family σ) (run : RunBlock σ) : Prop where
  sat : ∀ block, (∀ n ∈ blockNodes block, V n) → Sat (R (blockNodes block)) (run block)
  shaped : Shaped run

/-- The primitive steps a family has to contain. -/
structure Steps (x : Exec σ) (V : Instruction → Prop) (R : Family σ) : Prop where
  composes : ∀ ns, Composes (R ns)
  mono : ∀ {ns ns' s l o t}, ns ⊆ ns' → R ns s l o t → R ns' s l o t
  fuel : ∀ ns s, R ns s [] (some .fuel) s
  error : ∀ ns e s, R ns s [] (some (.interrupt (.error e))) s
  host : ∀ ns s h, R ns s [] none { s with host := h }
  clock : ∀ ns s t, R ns s [.mark (.clock t)] none s
  snapshot : ∀ ns s, R ns s [.mark (.snapshot s.session s.file)] none s
  cancel : ∀ ns s, R ns s [] none { s with cancelled := true }
  due : ∀ ns s d, R ns s [] none { s with pollDue := d }
  result : ∀ ns s v, R ns s [] none { s with result := v }
  receive : ∀ ns e, Sat (R ns) (receive e)
  synthesize : ∀ ns e, Sat (R ns) (synthesize e)
  call : ∀ ns tool args, Sat (R ns) (callOrPause x tool args)
  commit : ∀ ns ins writes, V ins → ins.kind = .set (writes.map Prod.fst) →
    Sat (R ns) (commit x ins writes)
  consume : ∀ ns name, Sat (R ns) (consumeOccurrence name)
  checkStop : ∀ ns, Sat (R ns) (checkStop x)
  safePoint : ∀ ns (m : M σ Unit), Sat (R ns) m → Sat (R ns) (span .safePoint m)

/-- The steps, the turns of the pump, and the constructs that look at what their parts did. The pump
turns on the procedure tree, never inside a trigger action. -/
structure Rules (x : Exec σ) (V : Instruction → Prop) (R : Family σ) : Prop
    extends Steps x V R where
  pumpOne : ∀ ns, ∀ s : State σ, s.inTriggerAction = false → SatAt (R ns) (pumpOne x) s
  poll : ∀ ns i t tool args, x.triggers[i]? = some t → ∀ s : State σ,
    s.inTriggerAction = false → SatAt (R ns) (pollDue x i t tool args) s
  fireQueued : ∀ ns run i t, x.triggers[i]? = some t → Runs V R run → ∀ s : State σ,
    s.inTriggerAction = false → SatAt (R ns) (fireQueued x run i t) s
  try_ : ∀ run body catch_ finally_, Runs V R run →
    (∀ n ∈ blockNodes body ++ optionNodes catch_ ++ optionNodes finally_, V n) →
    Sat (R (blockNodes body ++ optionNodes catch_ ++ optionNodes finally_))
      (execTry run body catch_ finally_)
  instruction : ∀ ins body, V ins → Sat (R ins.kind.nodes) body →
    Sat (R ins.nodes) (instructionWith x ins body)

variable {x : Exec σ} {V : Instruction → Prop} {R : Family σ} {ns : List Instruction}
  {run : RunBlock σ}

namespace Steps

variable (h : Steps x V R)

include h

variable (ns) in
/-- The steps of the safe points are among them, at every index. -/
theorem turns : Turns x (R ns) where
  composes := h.composes ns
  fuel := h.fuel ns
  error := h.error ns
  host := h.host ns
  clock := h.clock ns
  snapshot := h.snapshot ns
  due := h.due ns
  receive := h.receive ns
  synthesize := h.synthesize ns
  call := h.call ns
  checkStop := h.checkStop ns
  safePoint := h.safePoint ns

theorem bind {α β : Type} {m : M σ α} {f : α → M σ β} (hm : Sat (R ns) m)
    (hf : ∀ a, Sat (R ns) (f a)) : Sat (R ns) (m >>= f) :=
  (h.turns ns).bind hm hf

theorem pure {α : Type} (a : α) : Sat (R ns) (Pure.pure a : M σ α) :=
  (h.turns ns).pure a

theorem read : Sat (R ns) (Traced.read : M σ (State σ)) :=
  (h.turns ns).read

theorem ask {α : Type} (f : σ → α × σ) : Sat (R ns) (ask f) :=
  (h.turns ns).ask f

theorem errorHere {α : Type} (ins : Instruction) (message : String) :
    Sat (R ns) (errorHere ins message : M σ α) :=
  (h.turns ns).raiseError _

theorem evalAt (ins : Instruction) (e : Expression) (role : String) :
    Sat (R ns) (evalAt x ins e role) := by
  refine h.bind (h.turns ns).ctx fun c => ?_
  split
  · exact h.pure _
  · exact h.errorHere ins _

theorem condition (ins : Instruction) (e : Expression) (role : String) :
    Sat (R ns) (condition x ins e role) := by
  refine h.bind (h.evalAt ins e role) fun v => ?_
  split
  · exact h.pure _
  · exact h.errorHere ins _

theorem setResult (v : Value) : Sat (R ns) (setResult v) :=
  fun s => h.result ns s v

theorem toolArgs (ins : Instruction) (args : List (String × ArgValue)) :
    Sat (R ns) (toolArgs x ins args) := by
  induction args with
  | nil => exact h.pure _
  | cons arg rest ih =>
    obtain ⟨name, arg⟩ := arg
    cases arg with
    | literal v => exact h.bind ih fun _ => h.pure _
    | expr e => exact h.bind (h.evalAt ins e _) fun _ => h.bind ih fun _ => h.pure _

theorem callOnce (call : ToolCall) (args : List (String × Value)) {onFailed : String → M σ Unit}
    (hf : ∀ message, Sat (R ns) (onFailed message)) : Sat (R ns) (callOnce x call args onFailed) := by
  refine h.bind (h.call ns _ args) fun answer => ?_
  cases answer with
  | ok result => exact h.bind ((h.turns ns).acceptCorrection result) fun _ => h.setResult result
  | error message => exact hf message

theorem backoff (call : ToolCall) : Sat (R ns) (backoff x call) := by
  unfold Engine.backoff
  split
  · exact h.ask _
  · exact h.pure _

theorem execTool (ins : Instruction) (call : ToolCall) : Sat (R ns) (execTool x ins call) := by
  refine h.bind (h.toolArgs ins _) fun args => ?_
  generalize (call.retry.map Retry.maxAttempts).getD 1 = maxAttempts
  show Sat (R ns) (callLoop x ins call args maxAttempts (maxAttempts - 1))
  induction maxAttempts - 1 with
  | zero => exact h.callOnce call args fun _ => (h.turns ns).raiseError _
  | succ retries ih => exact h.callOnce call args fun _ => h.bind (h.backoff call) fun _ => ih

theorem boundValue (ins : Instruction) (b : Bound) (role : String) :
    Sat (R ns) (boundValue x ins b role) := by
  cases b with
  | literal n => exact h.pure n
  | expr e =>
    refine h.bind (h.evalAt ins e role) fun v => ?_
    split
    · exact h.pure _
    · exact h.errorHere ins _

theorem evalBound (ins : Instruction) (b : Bound) (role : String) (minimum : Nat) :
    Sat (R ns) (evalBound x ins b role minimum) := by
  refine h.bind (h.boundValue ins b role) fun n => ?_
  split
  · exact h.errorHere ins _
  · exact h.pure n

theorem checkGuard (ins : Instruction) (n : Nat) (b : Option Bound) :
    Sat (R ns) (checkGuard x ins n b) := by
  cases b with
  | none => exact h.pure _
  | some b =>
    refine h.bind (h.evalBound ins b _ 1) fun max => ?_
    split
    · exact h.errorHere ins _
    · exact h.pure _

section Loops

variable {body : List Instruction} (hrun : Sat (R ns) (run body))

include hrun

theorem repeatUntil (ins : Instruction) (cond : Expression) (left iterations : Nat) :
    Sat (R ns) (repeatUntil x run ins cond body left iterations) := by
  induction left generalizing iterations with
  | zero => exact h.pure _
  | succ left ih =>
    refine h.bind hrun fun _ => h.bind (h.condition ins cond _) fun converged => ?_
    split
    · exact h.pure _
    · exact ih _

theorem repeatWhile (ins : Instruction) (cond : Expression) (left iterations : Nat) :
    Sat (R ns) (repeatWhile x run ins cond body left iterations) := by
  induction left generalizing iterations with
  | zero =>
    refine h.bind (h.condition ins cond _) fun more => ?_
    split
    · exact h.pure _
    · exact h.pure _
  | succ left ih =>
    refine h.bind (h.condition ins cond _) fun more => ?_
    split
    · exact h.bind hrun fun _ => ih _
    · exact h.pure _

theorem repeatCount (left : Nat) : Sat (R ns) (repeatCount run body left) := by
  induction left with
  | zero => exact h.pure _
  | succ left ih => exact h.bind hrun fun _ => ih

theorem execRepeat (ins : Instruction) (mode : RepeatMode) :
    Sat (R ns) (execRepeat x run ins mode body) := by
  cases mode with
  | until_ cond maxIterations =>
    exact h.bind (h.evalBound ins _ _ 1) fun _ =>
      h.bind (h.repeatUntil hrun ins cond _ 0) fun _ => h.setResult _
  | while_ cond maxIterations =>
    exact h.bind (h.evalBound ins _ _ 1) fun _ =>
      h.bind (h.repeatWhile hrun ins cond _ 0) fun _ => h.setResult _
  | count count maxIterations =>
    exact h.bind (h.evalBound ins _ _ 0) fun _ => h.bind (h.checkGuard ins _ _) fun _ =>
      h.bind (h.repeatCount hrun _) fun _ => h.setResult _

end Loops

theorem setValues (ins : Instruction) (entries : List SetEntry) :
    Sat (R ns) (setValues x ins entries) := by
  induction entries with
  | nil => exact h.pure _
  | cons entry rest ih =>
    exact h.bind (h.evalAt ins entry.value _) fun _ => h.bind ih fun _ => h.pure _

theorem execSet (ins : Instruction) (entries : List SetEntry) (hins : V ins)
    (hkind : ins.kind = .set entries) : Sat (R ns) (execSet x ins entries) :=
  Sat.bind' (h.composes ns) (h.setValues ins entries) fun s writes hwrites =>
    h.commit ns ins writes hins (by rw [hkind, setValues_entries hwrites]) _

theorem execFail (ins : Instruction) (message : Expression) :
    Sat (R ns) (execFail x ins message) := by
  refine h.bind (h.evalAt ins message _) fun v => ?_
  split
  · exact h.errorHere ins _
  · exact h.errorHere ins _

theorem execLog (ins : Instruction) (values : List (String × Expression)) :
    Sat (R ns) (execLog x ins values) := by
  induction values with
  | nil => exact h.pure _
  | cons entry rest ih => exact h.bind (h.evalAt ins entry.2 _) fun _ => ih

/-! ## Waits -/

theorem nextPollDueIn : Sat (R ns) (nextPollDueIn x) := by
  refine h.bind h.read fun s => ?_
  split
  · exact h.pure _
  · exact h.bind (h.ask _) fun _ => h.pure _

theorem select (d : Duration) : Sat (R ns) (select x d) := by
  refine h.bind h.read fun s => h.bind (h.ask _) fun wake => ?_
  cases wake with
  | stop =>
    dsimp only
    split
    · exact fun s => h.cancel ns s
    · exact h.pure _
  | event e => exact h.receive ns e
  | slept => exact h.pure _

theorem waitSegment (remaining : Duration) : Sat (R ns) (waitSegment x remaining) :=
  h.bind h.nextPollDueIn fun _ => h.bind (h.ask _) fun _ => h.bind (h.select _) fun _ =>
    h.bind (h.ask _) fun _ => h.pure _

section Waits

variable {safe : M σ Unit} (hsafe : Sat (R ns) safe)

include hsafe

theorem waitDuration (fuel : Nat) (remaining : Duration) :
    Sat (R ns) (waitDuration x safe fuel remaining) := by
  induction fuel generalizing remaining with
  | zero => exact fun s => h.fuel ns s
  | succ fuel ih =>
    refine h.bind hsafe fun _ => ?_
    split
    · exact h.pure _
    · exact h.bind (h.waitSegment _) fun _ => ih _

theorem waitUntilEvent (ins : Instruction) (event : String) (timeout : Duration) (fuel : Nat)
    (elapsed : Duration) : Sat (R ns) (waitUntilEvent x safe ins event timeout fuel elapsed) := by
  induction fuel generalizing elapsed with
  | zero => exact fun s => h.fuel ns s
  | succ fuel ih =>
    refine h.bind hsafe fun _ => h.bind (h.consume ns event) fun arrived => ?_
    split
    · exact h.pure _
    · split
      · exact h.errorHere ins _
      · exact h.bind (h.waitSegment _) fun _ => ih _

theorem waitUntil (ins : Instruction) (cond : Expression) (pollInterval timeout : Duration)
    (fuel : Nat) (elapsed : Duration) :
    Sat (R ns) (waitUntil x safe ins cond pollInterval timeout fuel elapsed) := by
  induction fuel generalizing elapsed with
  | zero => exact fun s => h.fuel ns s
  | succ fuel ih =>
    refine h.bind hsafe fun _ => h.bind (h.condition ins cond _) fun holds => ?_
    split
    · exact h.pure _
    · split
      · exact h.errorHere ins _
      · exact h.bind (h.waitSegment _) fun _ => ih _

end Waits

theorem weaken {ns' : List Instruction} {α : Type} {m : M σ α} (hsub : ns ⊆ ns')
    (hm : Sat (R ns) m) : Sat (R ns') m :=
  hm.mono fun _ _ _ _ => h.mono hsub

end Steps

namespace Rules

variable (h : Rules x V R)

include h

/-- What a safe point does, at any index. -/
theorem pumps (ns : List Instruction) (hrun : Runs V R run) : Pumps x (R ns) run where
  toTurns := h.turns ns
  pumpOne := h.pumpOne ns
  poll := h.poll ns
  fireQueued i t ht := h.fireQueued ns run i t ht hrun

/-- A safe point runs within the family at any index. -/
theorem safe (hrun : Runs V R run) (fuel : Nat) : Sat (R ns) (Engine.safePoint x fuel run) :=
  (h.pumps ns hrun).safe fuel

theorem execWait (hrun : Runs V R run) (fuel : Nat) (ins : Instruction) (wait : Wait) :
    Sat (R ns) (execWait x fuel run ins wait) := by
  cases wait with
  | duration d => exact h.waitDuration (h.safe hrun fuel) fuel d
  | untilEvent event timeout => exact h.waitUntilEvent (h.safe hrun fuel) ins event timeout fuel 0
  | until_ cond pollInterval timeout =>
    exact h.waitUntil (h.safe hrun fuel) ins cond pollInterval timeout fuel 0

/-! ## Instructions and blocks -/

theorem execKind (hrun : Runs V R run) (fuel : Nat) (ins : Instruction)
    (hins : ∀ n ∈ ins.nodes, V n) : Sat (R ins.kind.nodes) (execKind x fuel run ins) := by
  obtain ⟨id, once, kind⟩ := ins
  have hself : V (.mk id once kind) := hins _ (by simp [Instruction.nodes])
  have hkind : ∀ n ∈ kind.nodes, V n := fun n hn => hins n (by simp [Instruction.nodes, hn])
  cases kind with
  | tool call => exact h.execTool _ call
  | sequence body => exact hrun.sat body hkind
  | repeat_ mode body => exact h.execRepeat (hrun.sat body hkind) _ mode
  | if_ cond then_ otherwise =>
    refine h.bind (h.condition _ cond _) fun holds => ?_
    split
    · exact h.weaken (List.subset_append_left _ _)
        (hrun.sat then_ fun n hn => hkind n (List.mem_append_left _ hn))
    · cases otherwise with
      | none => exact h.pure _
      | some block =>
        exact h.weaken (List.subset_append_right _ _)
          (hrun.sat block fun n hn => hkind n (List.mem_append_right _ hn))
  | set entries => exact h.execSet _ entries hself rfl
  | try_ body catch_ finally_ => exact h.try_ run body catch_ finally_ hrun hkind
  | fail message => exact h.execFail _ message
  | wait wait => exact h.execWait hrun fuel _ wait
  | log log => exact h.execLog _ log.values

theorem execInstruction (hrun : Runs V R run) (fuel : Nat) (ins : Instruction)
    (hins : ∀ n ∈ ins.nodes, V n) : Sat (R ins.nodes) (execInstruction x fuel run ins) := by
  refine h.instruction ins _ (hins ins ?_) (h.execKind hrun fuel ins hins)
  obtain ⟨id, once, kind⟩ := ins
  simp [Instruction.nodes]

theorem execEach (hrun : Runs V R run) (fuel : Nat) (block : List Instruction)
    (hblock : ∀ n ∈ blockNodes block, V n) :
    Sat (R (blockNodes block))
      (execEach (Engine.execInstruction x fuel run) (Engine.safePoint x fuel run) block) := by
  induction block with
  | nil => exact h.pure _
  | cons ins rest ih =>
    have hins : ∀ n ∈ ins.nodes, V n := fun n hn => hblock n (List.mem_append_left _ hn)
    have hrest : ∀ n ∈ blockNodes rest, V n := fun n hn => hblock n (List.mem_append_right _ hn)
    exact h.bind (h.weaken (List.subset_append_left _ _) (h.execInstruction hrun fuel ins hins))
      fun _ => h.bind (h.safe hrun fuel) fun _ =>
        h.weaken (List.subset_append_right _ _) (ih hrest)

/-- Every block execution runs within the family. -/
theorem execBlock (fuel : Nat) : Runs V R (execBlock x fuel) := by
  refine ⟨?_, execBlock_shaped x fuel⟩
  induction fuel with
  | zero => exact fun _ _ s => h.fuel _ s
  | succ fuel ih =>
    exact fun block hblock => h.execEach ⟨ih, execBlock_shaped x fuel⟩ fuel block hblock

end Rules

/-- Every pass runs within the family. -/
theorem Rules.runWithStop {doc : Document} {params : Value} {host : Host σ}
    (hR : Rules ⟨params, doc.triggers, host⟩ V R) (hV : ∀ n ∈ blockNodes [doc.root], V n)
    (fuel : Nat) (file : Option Value) (h : σ) :
    R (blockNodes [doc.root])
      (Exec.start ⟨params, doc.triggers, host⟩ (loadSession file) file h)
      (runWithStop fuel doc params host file h).log (runWithStop fuel doc params host file h).halt
      (runWithStop fuel doc params host file h).st :=
  (hR.execBlock fuel).sat [doc.root] hV _

end RustyPhoton.SessionRunner.Engine
