import RustyPhoton.Lib.Transition
import RustyPhoton.Rp.Safety.Gate

/-!
# The safety enforcer and the dispatch

After `poll_once`, `on_unsafe` and `on_safe` of `safety.rs` and `call_tool` of `mcp/mod.rs`, side by
side: a call registers, reads the gate, runs its body and leaves; the enforcer reads one monitor after
the other and acts when the outcome of a pass differs from the one before. One monitor's answer is
recorded, and closes the gate if it is unsafe, without an await in between.
-/

namespace RustyPhoton.Rp.Safety

open Lib

/-- Where a call is. -/
inductive CallPhase where
  | registered
  | running
  /-- Answered with `SafetyUnsafe`, naming a monitor if there is one to name. -/
  | refused (monitor : Option String)
  | ended
  deriving DecidableEq

structure Call where
  /-- The class it was registered with; a tool without one is not registered. -/
  toolClass : Option ToolClass
  key : Option Nat
  cancel : Cancel
  phase : CallPhase

/-- Where the enforcer is. -/
inductive Control where
  | idle (overall : Bool)
  /-- The monitors still to read, the outcome so far and that of the pass before. -/
  | polling (rest : List String) (overall prevOverall : Bool)
  /-- `on_safe`. -/
  | opening
  /-- `on_unsafe`, up to the gate. -/
  | closing
  /-- `on_unsafe`, the gate closed and the leases ended. -/
  | sweeping
  /-- `on_unsafe`, from the sweep on: acknowledgements, exposures, guiding, mount. -/
  | settling
  deriving DecidableEq

structure World where
  status : SafetyStatus
  registry : InFlight
  calls : List Call
  perMonitor : List (String × Bool)
  control : Control

inductive Input where
  | call (tool : String) (arguments : Option (List (String × Value)))
  | check (call : Nat)
  | finish (call : Nat)
  /-- The request's token is cancelled. -/
  | disconnect (call : Nat)
  | startPass
  /-- The next monitor answers, or its read fails. -/
  | answer (reading : Except String Bool)
  | endPass
  /-- The next step of a transition. -/
  | act

/-- What the log keeps of the enforcer. -/
inductive Record where
  | read (monitor : String) (safe : Bool)
  /-- The event `safety_changed`. -/
  | changed (monitor : String) (safe : Bool)
  | passed
  | onUnsafe
  | swept
  | cancelled (call : Nat)
  | opened
  deriving DecidableEq

/-- A failed read is unsafe. -/
def readingOf : Except String Bool → Bool
  | .ok reading => reading
  | .error _ => false

namespace World

def setCall (s : World) (index : Nat) (call : Call) : World :=
  { s with calls := s.calls.set index call }

/-- The registry's entries of class gated, by their calls. -/
def gatedEntries (s : World) : List Nat :=
  (s.registry.entries.map Prod.snd).filter fun index =>
    (s.calls[index]?).any fun call => call.toolClass = some .gated

/-- The cancellations of `cancel_for_safety`. -/
def cancelAll (calls : List Call) (indices : List Nat) : List Call :=
  calls.mapIdx fun index call =>
    if index ∈ indices then { call with cancel := call.cancel.cancel .safety } else call

variable (classes : String → Option ToolClass) (probes : List String)

/-- The class of a call, read once. -/
def classOfCall (tool : String) (arguments : Option (List (String × Value))) : Option ToolClass :=
  (classes tool).map fun toolClass => callClass tool toolClass arguments

/-- One monitor's answer in `poll_once`. -/
def pollProbe (s : World) (monitor : String) (rest : List String) (overall prevOverall reading : Bool) :
    World × List Record :=
  let recorded := s.status.recordMonitor monitor reading
  let prev := (s.perMonitor.lookup monitor).getD true
  ({ s with
      status := if reading then recorded else recorded.setOverall false
      perMonitor := Assoc.insert monitor reading s.perMonitor
      control := .polling rest (overall && reading) prevOverall },
    .read monitor reading :: if prev ≠ reading then [.changed monitor reading] else [])

def step (s : World) : Input → Option (World × List Record)
  | .call tool arguments =>
      match classOfCall classes tool arguments with
      | some toolClass =>
          let (registry, key) := s.registry.register s.calls.length
          some ({ s with registry, calls := s.calls ++ [⟨some toolClass, some key, .new, .registered⟩] }, [])
      | none => some ({ s with calls := s.calls ++ [⟨none, none, .new, .registered⟩] }, [])
  | .check index =>
      match s.calls[index]? with
      | some call =>
          if call.phase = .registered then
            if call.toolClass = some .gated ∧ s.status.overall = false then
              some (s.setCall index { call with phase := .refused s.status.unsafeMonitor }, [])
            else some (s.setCall index { call with phase := .running }, [])
          else none
      | none => none
  | .finish index =>
      match s.calls[index]? with
      | some call =>
          match call.phase with
          | .running | .refused _ =>
              let registry := match call.key with
                | some key => s.registry.remove key
                | none => s.registry
              some ({ s.setCall index { call with phase := .ended } with registry }, [])
          | _ => none
      | none => none
  | .disconnect index =>
      match s.calls[index]? with
      | some call => some (s.setCall index { call with cancel := call.cancel.parentCancelled }, [])
      | none => none
  | .startPass =>
      match s.control with
      | .idle overall => some ({ s with control := .polling probes true overall }, [])
      | _ => none
  | .answer reading =>
      match s.control with
      | .polling (monitor :: rest) overall prevOverall =>
          some (s.pollProbe monitor rest overall prevOverall (readingOf reading))
      | _ => none
  | .endPass =>
      match s.control with
      | .polling [] overall prevOverall =>
          if overall = prevOverall then some ({ s with control := .idle overall }, [.passed])
          else if overall then some ({ s with control := .opening }, [.passed])
          else some ({ s with control := .closing }, [.passed, .onUnsafe])
      | _ => none
  | .act =>
      match s.control with
      | .opening =>
          some ({ s with status := s.status.setOverall true, control := .idle true }, [.opened])
      | .closing => some ({ s with status := s.status.setOverall false, control := .sweeping }, [])
      | .sweeping =>
          some ({ s with calls := cancelAll s.calls s.gatedEntries, control := .settling },
            .swept :: s.gatedEntries.map .cancelled)
      | .settling => some ({ s with control := .idle false }, [])
      | _ => none

/-- Nothing polled, nothing in flight. -/
def start : World := ⟨.default, .empty, [], [], .idle true⟩

/-! ## What a step does -/

/-- The steps, each with what it found. -/
inductive Moves (s : World) : World → List Record → Prop where
  | registered (toolClass : ToolClass) :
      Moves s { s with
        registry := (s.registry.register s.calls.length).1
        calls := s.calls ++ [⟨some toolClass, some s.registry.nextKey, .new, .registered⟩] } []
  | unknown : Moves s { s with calls := s.calls ++ [⟨none, none, .new, .registered⟩] } []
  | refused {index : Nat} {call : Call} (call_eq : s.calls[index]? = some call)
      (phase : call.phase = .registered) :
      Moves s (s.setCall index { call with phase := .refused s.status.unsafeMonitor }) []
  | running {index : Nat} {call : Call} (call_eq : s.calls[index]? = some call)
      (phase : call.phase = .registered)
      (admitted : ¬ (call.toolClass = some .gated ∧ s.status.overall = false)) :
      Moves s (s.setCall index { call with phase := .running }) []
  | finished {index : Nat} {call : Call} (call_eq : s.calls[index]? = some call)
      (live : call.phase ≠ .ended) :
      Moves s { s.setCall index { call with phase := .ended } with
        registry := call.key.elim s.registry s.registry.remove } []
  | disconnected {index : Nat} {call : Call} (call_eq : s.calls[index]? = some call) :
      Moves s (s.setCall index { call with cancel := call.cancel.parentCancelled }) []
  | started {overall : Bool} (control : s.control = .idle overall) :
      Moves s { s with control := .polling probes true overall } []
  | answered {monitor : String} {rest : List String} {overall prevOverall : Bool} (reading : Bool)
      (control : s.control = .polling (monitor :: rest) overall prevOverall) :
      Moves s (s.pollProbe monitor rest overall prevOverall reading).1
        (s.pollProbe monitor rest overall prevOverall reading).2
  | unchanged {overall : Bool} (control : s.control = .polling [] overall overall) :
      Moves s { s with control := .idle overall } [.passed]
  | turnedSafe (control : s.control = .polling [] true false) :
      Moves s { s with control := .opening } [.passed]
  | turnedUnsafe (control : s.control = .polling [] false true) :
      Moves s { s with control := .closing } [.passed, .onUnsafe]
  | opened (control : s.control = .opening) :
      Moves s { s with status := s.status.setOverall true, control := .idle true } [.opened]
  | closed (control : s.control = .closing) :
      Moves s { s with status := s.status.setOverall false, control := .sweeping } []
  | swept (control : s.control = .sweeping) :
      Moves s { s with calls := cancelAll s.calls s.gatedEntries, control := .settling }
        (.swept :: s.gatedEntries.map .cancelled)
  | settled (control : s.control = .settling) : Moves s { s with control := .idle false } []

variable {classes probes} {s s' : World} {log : List Record}

theorem endPass_moves {overall prevOverall : Bool} (hcontrol : s.control = .polling [] overall prevOverall)
    (h : s.step classes probes .endPass = some (s', log)) : Moves probes s s' log := by
  simp only [step, hcontrol] at h
  cases overall <;> cases prevOverall <;> cases h
  · exact .unchanged hcontrol
  · exact .turnedUnsafe hcontrol
  · exact .turnedSafe hcontrol
  · exact .unchanged hcontrol

theorem step_moves {i : Input} (h : s.step classes probes i = some (s', log)) :
    Moves probes s s' log := by
  cases i with
  | call tool arguments =>
    simp only [step] at h
    split at h
    · next toolClass _ =>
        cases h
        exact .registered toolClass
    · cases h
      exact .unknown
  | check index =>
    simp only [step] at h
    split at h
    · next call hcall =>
        split at h
        · next hphase =>
            split at h
            · cases h
              exact .refused hcall hphase
            · next hadmitted =>
                cases h
                exact .running hcall hphase hadmitted
        · cases h
    · cases h
  | finish index =>
    simp only [step] at h
    split at h
    · next call hcall =>
        have hremoved : (match call.key with
            | some key => s.registry.remove key
            | none => s.registry) = call.key.elim s.registry s.registry.remove := by
          cases call.key <;> rfl
        split at h
        · next hphase =>
            cases h
            rw [hremoved]
            exact .finished hcall (by simp [hphase])
        · next hphase =>
            cases h
            rw [hremoved]
            exact .finished hcall (by simp [hphase])
        · cases h
    · cases h
  | disconnect index =>
    simp only [step] at h
    split at h
    · next call hcall =>
        cases h
        exact .disconnected hcall
    · cases h
  | startPass =>
    simp only [step] at h
    split at h
    · next hcontrol =>
        cases h
        exact .started hcontrol
    · cases h
  | answer reading =>
    simp only [step] at h
    split at h
    · next hcontrol =>
        cases h
        exact .answered (readingOf reading) hcontrol
    · cases h
  | endPass =>
    have hpolling : ∃ overall prevOverall, s.control = .polling [] overall prevOverall := by
      simp only [step] at h
      split at h
      · next hcontrol => exact ⟨_, _, hcontrol⟩
      · cases h
    obtain ⟨overall, prevOverall, hcontrol⟩ := hpolling
    exact endPass_moves hcontrol h
  | act =>
    simp only [step] at h
    split at h
    · next hcontrol =>
        cases h
        exact .opened hcontrol
    · next hcontrol =>
        cases h
        exact .closed hcontrol
    · next hcontrol =>
        cases h
        exact .swept hcontrol
    · next hcontrol =>
        cases h
        exact .settled hcontrol
    · cases h

end World

/-! ## What the gate promises -/

/-- The readings of the passes that are over, and of the one that runs. -/
structure Passes where
  completed : List (List (String × Bool))
  running : List (String × Bool)

def Passes.add (p : Passes) : Record → Passes
  | .read monitor safe => { p with running := p.running ++ [(monitor, safe)] }
  | .passed => ⟨p.completed ++ [p.running], []⟩
  | _ => p

def passes (log : List Record) : Passes := log.foldl Passes.add ⟨[], []⟩

def allSafe (readings : List (String × Bool)) : Bool := readings.all Prod.snd

/-- The outcomes, from the baseline on. -/
def outcomes (log : List Record) : List Bool := true :: (passes log).completed.map allSafe

/-- How often an outcome is unsafe after a safe one. -/
def falls : List Bool → Nat
  | true :: false :: rest => falls (false :: rest) + 1
  | _ :: rest => falls rest
  | [] => 0

/-- The `safety_changed` events of a monitor. -/
def changes (monitor : String) (log : List Record) : List Bool :=
  log.filterMap fun
    | .changed m safe => if m = monitor then some safe else none
    | _ => none

/-- Unsafe, safe, unsafe and so on. -/
def Alternates (states : List Bool) : Prop :=
  ∀ (i : Nat) (safe : Bool), states[i]? = some safe → safe = (i % 2 == 1)

/-- The sweep has run, and the gate has not opened since. -/
def Swept (log : List Record) : Prop :=
  ∃ before after, log = before ++ .swept :: after ∧ .opened ∉ after

/-- How many calls were registered. -/
def registrations (calls : List Call) : Nat := (calls.filter fun call => call.toolClass.isSome).length

/-- The gate is sound: after the sweep nothing gated runs uncancelled, unless the registry's keys have
wrapped; nothing ungated is cancelled by the enforcer; the gate is open only on safe readings; each fall
is acted on once; and each monitor's events alternate. -/
structure GateSound (probes : List String) (log : List Record) (s : World) : Prop where
  swept : registrations s.calls < keyModulus → Swept log → ∀ call ∈ s.calls,
    call.toolClass = some .gated → call.phase = .running → call.cancel.isCancelled = true
  spared : ∀ call ∈ s.calls, call.toolClass = some .ungated → call.cancel.explicit = none
  openSafe : s.status.overall = true →
    (∀ pass ∈ (passes log).completed.getLast?,
      pass.map Prod.fst = probes ∧ ∀ reading ∈ pass, reading.2 = true) ∧
    ∀ reading ∈ (passes log).running, reading.2 = true
  once : log.count .onUnsafe = falls (outcomes log)
  alternate : ∀ monitor, Alternates (changes monitor log)

/-! ## The enforcer's side -/

theorem passes_append (log : List Record) (more : List Record) :
    passes (log ++ more) = more.foldl Passes.add (passes log) :=
  List.foldl_append

theorem changes_append (monitor : String) (log more : List Record) :
    changes monitor (log ++ more) = changes monitor log ++ changes monitor more :=
  List.filterMap_append

theorem falls_append (outcomes : List Bool) (outcome : Bool) {last : Bool}
    (h : outcomes.getLast? = some last) :
    falls (outcomes ++ [outcome]) =
      falls outcomes + if last = true ∧ outcome = false then 1 else 0 := by
  induction outcomes using falls.induct with
  | case1 rest ih =>
    rw [List.getLast?_cons_cons] at h
    show falls (false :: rest ++ [outcome]) + 1 = _
    rw [ih h, falls]
    omega
  | case2 first rest hne ih =>
    cases rest with
    | nil =>
      cases h
      cases first <;> cases outcome <;> rfl
    | cons second rest =>
      rw [List.getLast?_cons_cons] at h
      have hfirst : ∀ tail, falls (first :: second :: tail) = falls (second :: tail) := by
        intro tail
        cases first <;> cases second
        · rfl
        · rfl
        · exact absurd rfl (hne rest rfl)
        · rfl
      show falls (first :: second :: (rest ++ [outcome])) = _
      rw [hfirst, hfirst]
      exact ih h
  | case3 => cases h

theorem alternates_append {states : List Bool} (h : Alternates states) {safe : Bool}
    (hsafe : safe = (states.length % 2 == 1)) : Alternates (states ++ [safe]) := by
  intro i reading hreading
  rw [List.getElem?_append] at hreading
  split at hreading
  · exact h i reading hreading
  · next hlt =>
      obtain ⟨hi, hlast⟩ := List.getElem?_eq_some_iff.mp hreading
      have hzero : i - states.length = 0 := by simpa using hi
      have heq : i = states.length := by omega
      subst heq
      simp at hlast
      rw [← hlast, hsafe]

/-- What the enforcer's control says of the passes. -/
def Control.Fits (probes : List String) (outcome : Bool) (running : List (String × Bool)) :
    Control → Prop
  | .idle overall => outcome = overall ∧ running = []
  | .polling rest overall prevOverall =>
      outcome = prevOverall ∧ overall = allSafe running ∧ running.map Prod.fst ++ rest = probes
  | .opening => outcome = true ∧ running = []
  | .closing | .sweeping | .settling => outcome = false ∧ running = []

/-- What holds of the enforcer along every run. -/
structure Watching (probes : List String) (log : List Record) (s : World) : Prop where
  fits : ∃ outcome, (outcomes log).getLast? = some outcome ∧
    s.control.Fits probes outcome (passes log).running ∧
    (s.status.overall = true → outcome = true ∧ allSafe (passes log).running = true)
  whole : ∀ pass ∈ (passes log).completed, pass.map Prod.fst = probes
  once : log.count .onUnsafe = falls (outcomes log)
  alternate : ∀ monitor, Alternates (changes monitor log) ∧
    (s.perMonitor.lookup monitor).getD true = ((changes monitor log).length % 2 == 0)

section Watching

variable {probes : List String} {log : List Record} {s s' : World}

theorem start_watching (probes : List String) : Watching probes [] World.start where
  fits := ⟨true, rfl, ⟨rfl, rfl⟩, fun _ => ⟨rfl, rfl⟩⟩
  whole _ h := absurd h List.not_mem_nil
  once := rfl
  alternate _ := ⟨fun _ _ h => (nomatch h), rfl⟩

/-- Records that are no readings, passes, changes or transitions. -/
def Silent (more : List Record) : Prop :=
  ∀ record ∈ more, record = .swept ∨ record = .opened ∨ ∃ call, record = .cancelled call

variable {more : List Record}

theorem passes_silent (h : Silent more) (log : List Record) :
    passes (log ++ more) = passes log := by
  rw [passes_append]
  induction more with
  | nil => rfl
  | cons record more ih =>
    have hrecord : (passes log).add record = passes log := by
      rcases h record List.mem_cons_self with rfl | rfl | ⟨call, rfl⟩ <;> rfl
    rw [List.foldl_cons, hrecord]
    exact ih fun r hr => h r (List.mem_cons_of_mem _ hr)

theorem changes_silent (h : Silent more) (monitor : String) (log : List Record) :
    changes monitor (log ++ more) = changes monitor log := by
  have hnone : changes monitor more = [] := by
    refine List.filterMap_eq_nil_iff.mpr fun record hrecord => ?_
    rcases h record hrecord with rfl | rfl | ⟨call, rfl⟩ <;> rfl
  rw [changes_append, hnone, List.append_nil]

theorem count_silent (h : Silent more) (log : List Record) :
    (log ++ more).count .onUnsafe = log.count .onUnsafe := by
  have hnone : more.count .onUnsafe = 0 := by
    refine List.count_eq_zero.mpr fun hmem => ?_
    rcases h _ hmem with heq | heq | ⟨call, heq⟩ <;> cases heq
  rw [List.count_append, hnone]
  rfl

/-- A step that logs nothing of the passes, and whose control and gate fit as before. -/
theorem Watching.silent (h : Watching probes log s) (hmore : Silent more)
    (hmonitors : s'.perMonitor = s.perMonitor)
    (hfits : ∀ outcome, s.control.Fits probes outcome (passes log).running →
      (s.status.overall = true → outcome = true ∧ allSafe (passes log).running = true) →
      s'.control.Fits probes outcome (passes log).running ∧
        (s'.status.overall = true → outcome = true ∧ allSafe (passes log).running = true)) :
    Watching probes (log ++ more) s' := by
  obtain ⟨⟨outcome, hlast, hcontrol, hopen⟩, hwhole, honce, halternate⟩ := h
  have houtcomes : outcomes (log ++ more) = outcomes log := by
    rw [outcomes, passes_silent hmore, outcomes]
  refine ⟨⟨outcome, ?_, ?_⟩, ?_, ?_, fun monitor => ?_⟩
  · rw [houtcomes, hlast]
  · rw [passes_silent hmore]
    exact hfits outcome hcontrol hopen
  · rw [passes_silent hmore]
    exact hwhole
  · rw [count_silent hmore, houtcomes, honce]
  · rw [changes_silent hmore, hmonitors]
    exact halternate monitor

/-- A step of a call. -/
theorem Watching.call (h : Watching probes log s) (hmonitors : s'.perMonitor = s.perMonitor)
    (hcontrol : s'.control = s.control) (hstatus : s'.status = s.status) :
    Watching probes (log ++ []) s' := by
  refine h.silent (fun _ hmem => absurd hmem List.not_mem_nil) hmonitors fun outcome hfits hopen => ?_
  rw [hcontrol, hstatus]
  exact ⟨hfits, hopen⟩

theorem allSafe_append (readings : List (String × Bool)) (monitor : String) (safe : Bool) :
    allSafe (readings ++ [(monitor, safe)]) = (allSafe readings && safe) := by
  simp [allSafe]

variable {overall prevOverall : Bool}

/-- One monitor answers. -/
theorem Watching.answer (h : Watching probes log s) {monitor : String} {rest : List String}
    (reading : Bool)
    (hcontrol : s.control = .polling (monitor :: rest) overall prevOverall) :
    Watching probes (log ++ (s.pollProbe monitor rest overall prevOverall reading).2)
      (s.pollProbe monitor rest overall prevOverall reading).1 := by
  obtain ⟨⟨outcome, hlast, hfits, hopen⟩, hwhole, honce, halternate⟩ := h
  rw [hcontrol] at hfits
  obtain ⟨hprev, hoverall, hprobes⟩ := hfits
  have hpasses : passes (log ++ (s.pollProbe monitor rest overall prevOverall reading).2) =
      ⟨(passes log).completed, (passes log).running ++ [(monitor, reading)]⟩ := by
    rw [passes_append]
    show List.foldl Passes.add (passes log)
      (.read monitor reading :: if (s.perMonitor.lookup monitor).getD true ≠ reading then _ else _) = _
    split <;> rfl
  have houtcomes : outcomes (log ++ (s.pollProbe monitor rest overall prevOverall reading).2) =
      outcomes log := by
    rw [outcomes, hpasses, outcomes]
  refine ⟨⟨outcome, ?_, ?_, ?_⟩, ?_, ?_, ?_⟩
  · rw [houtcomes, hlast]
  · rw [hpasses]
    refine ⟨hprev, ?_, ?_⟩
    · rw [allSafe_append, hoverall]
    · rw [List.map_append, List.append_assoc]
      exact hprobes
  · intro hgate
    rw [hpasses, allSafe_append]
    cases reading with
    | true =>
      obtain ⟨houtcome, hall⟩ := hopen hgate
      exact ⟨houtcome, by rw [hall]; rfl⟩
    | false => cases hgate
  · rw [hpasses]
    exact hwhole
  · have hcount : (s.pollProbe monitor rest overall prevOverall reading).2.count .onUnsafe = 0 := by
      show List.count Record.onUnsafe (Record.read monitor reading ::
        if (s.perMonitor.lookup monitor).getD true ≠ reading then _ else _) = 0
      split <;> rfl
    rw [List.count_append, hcount, houtcomes, honce]
    rfl
  · intro m
    obtain ⟨halternates, hcurrent⟩ := halternate m
    have hchanges : changes m (s.pollProbe monitor rest overall prevOverall reading).2 =
        if m = monitor ∧ (s.perMonitor.lookup monitor).getD true ≠ reading then [reading] else [] := by
      show changes m (.read monitor reading ::
        if (s.perMonitor.lookup monitor).getD true ≠ reading then _ else _) = _
      by_cases hchanged : (s.perMonitor.lookup monitor).getD true ≠ reading
      · rw [if_pos hchanged]
        by_cases hm : m = monitor
        · rw [if_pos ⟨hm, hchanged⟩]
          simp [changes, hm]
        · have hnot : ¬ (m = monitor ∧ (s.perMonitor.lookup monitor).getD true ≠ reading) :=
            fun h => hm h.1
          rw [if_neg hnot]
          simp [changes, Ne.symm hm]
      · have hnot : ¬ (m = monitor ∧ (s.perMonitor.lookup monitor).getD true ≠ reading) :=
          fun h => hchanged h.2
        rw [if_neg hchanged, if_neg hnot]
        rfl
    rw [changes_append, hchanges]
    by_cases hm : m = monitor
    · subst hm
      have hlookup : (Assoc.insert m reading s.perMonitor).lookup m = some reading :=
        Assoc.lookup_insert_self _ _ _
      show Alternates _ ∧ ((Assoc.insert m reading s.perMonitor).lookup m).getD true = _
      rw [hlookup, Option.getD_some]
      by_cases hchanged : (s.perMonitor.lookup m).getD true ≠ reading
      · rw [if_pos ⟨rfl, hchanged⟩, List.length_append]
        rw [hcurrent] at hchanged
        have hparity := Nat.mod_two_eq_zero_or_one (changes m log).length
        refine ⟨alternates_append halternates ?_, ?_⟩
        · rcases hparity with hparity | hparity <;> rw [hparity] at hchanged ⊢ <;>
            cases reading <;> simp at hchanged ⊢
        · have hnext : ((changes m log).length + 1) % 2 = 1 - (changes m log).length % 2 := by omega
          rw [List.length_singleton, hnext]
          rcases hparity with hparity | hparity <;> rw [hparity] at hchanged ⊢ <;>
            cases reading <;> simp at hchanged ⊢
      · have hnot : ¬ (m = m ∧ (s.perMonitor.lookup m).getD true ≠ reading) := fun h => hchanged h.2
        rw [if_neg hnot, List.append_nil]
        exact ⟨halternates, (not_not.mp hchanged).symm.trans hcurrent⟩
    · have hlookup : (Assoc.insert monitor reading s.perMonitor).lookup m = s.perMonitor.lookup m :=
        Assoc.lookup_insert_of_ne _ _ hm
      have hnot : ¬ (m = monitor ∧ (s.perMonitor.lookup monitor).getD true ≠ reading) :=
        fun h => hm h.1
      rw [if_neg hnot, List.append_nil]
      refine ⟨halternates, ?_⟩
      show ((Assoc.insert monitor reading s.perMonitor).lookup m).getD true = _
      rw [hlookup]
      exact hcurrent

/-- A pass is over. -/
theorem Watching.pass (h : Watching probes log s) {control : Control}
    (hcontrol : s.control = .polling [] overall prevOverall)
    (hnext : control.Fits probes overall [])
    (hmore : more = if prevOverall = true ∧ overall = false then [.onUnsafe] else []) :
    Watching probes (log ++ .passed :: more) { s with control } := by
  obtain ⟨⟨outcome, hlast, hfits, hopen⟩, hwhole, honce, halternate⟩ := h
  rw [hcontrol] at hfits
  obtain ⟨rfl, hoverall, hprobes⟩ := hfits
  rw [List.append_nil] at hprobes
  have hpasses : passes (log ++ .passed :: more) =
      ⟨(passes log).completed ++ [(passes log).running], []⟩ := by
    rw [passes_append, hmore, List.foldl_cons]
    split <;> rfl
  have houtcomes : outcomes (log ++ .passed :: more) = outcomes log ++ [overall] := by
    rw [outcomes, hpasses, List.map_append, hoverall]
    rfl
  refine ⟨⟨overall, ?_, ?_, ?_⟩, ?_, ?_, fun monitor => ?_⟩
  · rw [houtcomes, List.getLast?_concat]
  · rw [hpasses]
    exact hnext
  · intro hgate
    rw [hpasses]
    exact ⟨hoverall.trans (hopen hgate).2, rfl⟩
  · rw [hpasses]
    intro pass hpass
    rcases List.mem_append.mp hpass with hpass | hpass
    · exact hwhole pass hpass
    · cases List.mem_singleton.mp hpass
      exact hprobes
  · rw [houtcomes, falls_append _ _ hlast, ← honce, List.count_append, hmore]
    split <;> rfl
  · have hchanges : changes monitor (.passed :: more) = [] := by
      rw [hmore]
      split <;> rfl
    rw [changes_append, hchanges, List.append_nil]
    exact halternate monitor

theorem moves_watching (h : Watching probes log s)
    (hmoves : World.Moves probes s s' more) : Watching probes (log ++ more) s' := by
  cases hmoves with
  | registered => exact h.call rfl rfl rfl
  | unknown => exact h.call rfl rfl rfl
  | refused => exact h.call rfl rfl rfl
  | running => exact h.call rfl rfl rfl
  | finished => exact h.call rfl rfl rfl
  | disconnected => exact h.call rfl rfl rfl
  | started hcontrol =>
    refine h.silent (fun _ hmem => absurd hmem List.not_mem_nil) rfl fun outcome hfits hopen => ?_
    rw [hcontrol] at hfits
    obtain ⟨houtcome, hrunning⟩ := hfits
    refine ⟨⟨houtcome, ?_, ?_⟩, hopen⟩ <;> rw [hrunning] <;> rfl
  | answered reading hcontrol => exact h.answer reading hcontrol
  | @unchanged overall hcontrol =>
    refine h.pass hcontrol ⟨rfl, rfl⟩ ?_
    cases overall <;> rfl
  | turnedSafe hcontrol => exact h.pass hcontrol ⟨rfl, rfl⟩ rfl
  | turnedUnsafe hcontrol => exact h.pass hcontrol ⟨rfl, rfl⟩ rfl
  | opened hcontrol =>
    refine h.silent (fun _ hmem => .inr (.inl (List.mem_singleton.mp hmem))) rfl fun outcome hfits _ => ?_
    rw [hcontrol] at hfits
    obtain ⟨houtcome, hrunning⟩ := hfits
    refine ⟨⟨houtcome, hrunning⟩, fun _ => ⟨houtcome, ?_⟩⟩
    rw [hrunning]
    rfl
  | closed hcontrol =>
    refine h.silent (fun _ hmem => absurd hmem List.not_mem_nil) rfl fun outcome hfits _ => ?_
    rw [hcontrol] at hfits
    exact ⟨hfits, fun hgate => by cases hgate⟩
  | swept hcontrol =>
    refine h.silent (fun record hmem => ?_) rfl fun outcome hfits hopen => ?_
    · rcases List.mem_cons.mp hmem with rfl | hmem
      · exact .inl rfl
      · obtain ⟨call, _, rfl⟩ := List.mem_map.mp hmem
        exact .inr (.inr ⟨call, rfl⟩)
    · rw [hcontrol] at hfits
      exact ⟨hfits, hopen⟩
  | settled hcontrol =>
    refine h.silent (fun _ hmem => absurd hmem List.not_mem_nil) rfl fun outcome hfits hopen => ?_
    rw [hcontrol] at hfits
    exact ⟨hfits, hopen⟩

end Watching

end RustyPhoton.Rp.Safety
