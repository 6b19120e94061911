import Mathlib.Data.List.Induction
import RustyPhoton.Rp.Safety.Enforcer

/-!
# The gate is sound

The calls' side of the enforcer: every call of a known tool is found in the registry until it leaves, so
that the sweep reaches whatever was let through the gate before the gate closed. The registry hands out
keys that wrap, and what is said of it is said of fewer registrations than there are keys.
-/

namespace RustyPhoton.Rp.Safety

open Lib World

/-! ## The log and the sweep -/

variable {log : List Record}

theorem Swept.snoc {record : Record} (h : Swept (log ++ [record])) :
    record = .swept ∨ record ≠ .opened ∧ Swept log := by
  obtain ⟨before, after, heq, hafter⟩ := h
  rcases List.eq_nil_or_concat after with rfl | ⟨rest, last, rfl⟩
  · have := (List.append_inj' heq rfl).2
    exact .inl (List.singleton_inj.mp this)
  · rw [List.concat_eq_append] at heq hafter
    have hsplit : log ++ [record] = (before ++ .swept :: rest) ++ [last] := by
      rw [heq, List.append_assoc]
      rfl
    obtain ⟨hlog, hlast⟩ := List.append_inj' hsplit rfl
    cases List.singleton_inj.mp hlast
    rw [List.mem_append, not_or] at hafter
    exact .inr ⟨fun h => hafter.2 (h ▸ List.mem_singleton_self _), before, rest, hlog, hafter.1⟩

/-- What logs no sweep does not make the calls swept. -/
theorem Swept.of_append {more : List Record} (h : Swept (log ++ more)) (hmore : .swept ∉ more) :
    Swept log := by
  induction more using List.reverseRecOn with
  | nil => rwa [List.append_nil] at h
  | append_singleton more record ih =>
    rw [List.mem_append, not_or] at hmore
    rw [← List.append_assoc] at h
    rcases h.snoc with rfl | ⟨_, h⟩
    · exact absurd (List.mem_singleton_self _) hmore.2
    · exact ih h hmore.1

/-- Once it has opened again, the gate is no longer swept. -/
theorem not_swept_opened (log : List Record) : ¬ Swept (log ++ [.opened]) := by
  intro h
  rcases h.snoc with h | ⟨h, _⟩
  · cases h
  · exact h rfl

/-! ## The calls' side -/

theorem registrations_append (calls : List Call) (call : Call) :
    registrations (calls ++ [call]) = registrations calls + if call.toolClass.isSome then 1 else 0 := by
  rw [registrations, registrations, List.filter_append, List.length_append, List.filter_singleton]
  cases call.toolClass <;> rfl

/-- A call keeps the class it was registered with. -/
theorem registrations_set {calls : List Call} {index : Nat} {call call' : Call}
    (hcall : calls[index]? = some call) (hclass : call'.toolClass = call.toolClass) :
    registrations (calls.set index call') = registrations calls := by
  induction calls generalizing index with
  | nil => cases hcall
  | cons first rest ih =>
    cases index with
    | zero =>
      cases hcall
      simp only [List.set_cons_zero, registrations, List.filter_cons, hclass]
      split <;> rfl
    | succ index =>
      have hrest := ih hcall
      simp only [List.set_cons_succ, registrations, List.filter_cons] at hrest ⊢
      split
      · exact congrArg (· + 1) hrest
      · exact hrest

theorem registrations_cancelAll (calls : List Call) (indices : List Nat) :
    registrations (cancelAll calls indices) = registrations calls := by
  have hclasses : (cancelAll calls indices).map Call.toolClass = calls.map Call.toolClass := by
    refine List.ext_getElem (by simp [cancelAll]) fun i _ _ => ?_
    simp only [cancelAll, List.getElem_map, List.getElem_mapIdx]
    split <;> rfl
  have hcount : ∀ calls : List Call,
      registrations calls = ((calls.map Call.toolClass).filter Option.isSome).length := by
    intro calls
    rw [registrations, List.filter_map, List.length_map]
    rfl
  rw [hcount, hcount, hclasses]

/-- What holds of the registry along every run, until the keys wrap. -/
structure Keyed (s : World) : Prop where
  counted : s.registry.nextKey = registrations s.calls
  found : ∀ (index : Nat) (call : Call), s.calls[index]? = some call → call.toolClass.isSome = true →
    call.phase ≠ .ended → ∃ key, call.key = some key ∧ key < registrations s.calls ∧
      s.registry.entries.lookup key = some index

/-- What holds of the calls along every run. -/
structure Serving (log : List Record) (s : World) : Prop where
  unkeyed : ∀ call ∈ s.calls, call.toolClass = none → call.key = none
  keyed : registrations s.calls < keyModulus → Keyed s
  closed : Swept log → s.status.overall = false
  cancelled : registrations s.calls < keyModulus → Swept log → ∀ call ∈ s.calls,
    call.toolClass = some .gated → call.phase = .running → call.cancel.isCancelled = true
  spared : ∀ call ∈ s.calls, call.toolClass = some .ungated → call.cancel.explicit = none

theorem start_serving : Serving [] start where
  unkeyed _ h := absurd h List.not_mem_nil
  keyed _ := ⟨rfl, fun _ _ h => by cases h⟩
  closed h := by
    obtain ⟨before, after, heq, _⟩ := h
    simp at heq
  cancelled _ _ _ h := absurd h List.not_mem_nil
  spared _ h := absurd h List.not_mem_nil

section Serving

variable {probes : List String} {log : List Record} {s s' : World}

variable {more : List Record}

/-- A step of the enforcer that neither sweeps nor opens. -/
theorem Serving.enforcer (h : Serving log s) (hmore : .swept ∉ more)
    (hcalls : s'.calls = s.calls) (hregistry : s'.registry = s.registry)
    (hgate : s.status.overall = false → s'.status.overall = false) : Serving (log ++ more) s' where
  unkeyed := by
    rw [hcalls]
    exact h.unkeyed
  keyed hfew := by
    rw [hcalls] at hfew
    obtain ⟨hcounted, hfound⟩ := h.keyed hfew
    refine ⟨?_, ?_⟩
    · rw [hcalls, hregistry]
      exact hcounted
    · rw [hcalls, hregistry]
      exact hfound
  closed hswept := hgate (h.closed (hswept.of_append hmore))
  cancelled hfew hswept := by
    rw [hcalls] at hfew ⊢
    exact h.cancelled hfew (hswept.of_append hmore)
  spared := by
    rw [hcalls]
    exact h.spared

variable {calls : List Call} {index i : Nat} {call c : Call}

/-- Either the call is the one at `index`, or it was there before. -/
theorem getElem?_set_cases
    (h : (calls.set index call)[i]? = some c) : i = index ∧ c = call ∨ i ≠ index ∧ calls[i]? = some c := by
  rw [List.getElem?_set] at h
  split at h
  · next heq =>
      split at h
      · cases h
        exact .inl ⟨heq.symm, rfl⟩
      · cases h
  · next hne => exact .inr ⟨Ne.symm hne, h⟩

theorem mem_set_cases (h : c ∈ calls.set index call) : c = call ∨ c ∈ calls := by
  obtain ⟨i, hi⟩ := List.mem_iff_getElem?.mp h
  rcases getElem?_set_cases hi with ⟨_, rfl⟩ | ⟨_, hold⟩
  · exact .inl rfl
  · exact .inr (List.mem_of_getElem? hold)

/-- A call changes phase, or its request is cancelled: class and key stay, no reason is set, and a gated
call only starts to run while the gate is open. -/
theorem Serving.update (h : Serving log s) {call' : Call}
    (hcall : s.calls[index]? = some call) (hclass : call'.toolClass = call.toolClass)
    (hkey : call'.key = call.key) (hexplicit : call'.cancel.explicit = call.cancel.explicit)
    (hlive : call'.phase ≠ .ended → call.phase ≠ .ended)
    (hrunning : call'.toolClass = some .gated → call'.phase = .running → s.status.overall = false →
      call.phase = .running ∧ (call.cancel.isCancelled = true → call'.cancel.isCancelled = true)) :
    Serving log (s.setCall index call') := by
  have hmem : call ∈ s.calls := List.mem_of_getElem? hcall
  have hcount : registrations (s.setCall index call').calls = registrations s.calls :=
    registrations_set hcall hclass
  refine ⟨fun c hc hnone => ?_, fun hfew => ⟨?_, fun i c hi hsome hphase => ?_⟩, h.closed,
    fun hfew hswept c hc hgated hphase => ?_, fun c hc hungated => ?_⟩
  · rcases mem_set_cases hc with rfl | hc
    · rw [hkey]
      exact h.unkeyed call hmem (hclass ▸ hnone)
    · exact h.unkeyed c hc hnone
  · rw [hcount] at hfew ⊢
    exact (h.keyed hfew).counted
  · rw [hcount] at hfew ⊢
    rcases getElem?_set_cases hi with ⟨rfl, rfl⟩ | ⟨_, hi⟩
    · rw [hkey]
      exact (h.keyed hfew).found i call hcall (hclass ▸ hsome) (hlive hphase)
    · exact (h.keyed hfew).found i c hi hsome hphase
  · rw [hcount] at hfew
    rcases mem_set_cases hc with rfl | hc
    · obtain ⟨hwas, hkept⟩ := hrunning hgated hphase (h.closed hswept)
      exact hkept (h.cancelled hfew hswept call hmem (hclass ▸ hgated) hwas)
    · exact h.cancelled hfew hswept c hc hgated hphase
  · rcases mem_set_cases hc with rfl | hc
    · rw [hexplicit]
      exact h.spared call hmem (hclass ▸ hungated)
    · exact h.spared c hc hungated

variable {key : Nat}

/-- A key that no live call holds is taken out of the registry. -/
theorem Serving.release (h : Serving log s)
    (hfree : registrations s.calls < keyModulus → ∀ (index : Nat) (call : Call),
      s.calls[index]? = some call → call.toolClass.isSome = true → call.phase ≠ .ended →
        call.key ≠ some key) :
    Serving log { s with registry := s.registry.remove key } := by
  refine ⟨h.unkeyed, fun hfew => ⟨(h.keyed hfew).counted, fun i c hi hsome hphase => ?_⟩, h.closed,
    h.cancelled, h.spared⟩
  obtain ⟨k, hk, hlt, hlookup⟩ := (h.keyed hfew).found i c hi hsome hphase
  have hne : k ≠ key := fun heq => hfree hfew i c hi hsome hphase (heq ▸ hk)
  refine ⟨k, hk, hlt, ?_⟩
  show (Assoc.erase key s.registry.entries).lookup k = some i
  rw [Assoc.lookup_erase_of_ne _ hne]
  exact hlookup

/-- Two live calls never share a key. -/
theorem Keyed.key_ne (h : Keyed s) {j : Nat} {d : Call} (hi : s.calls[i]? = some c)
    (hj : s.calls[j]? = some d) (hc : c.toolClass.isSome = true) (hd : d.toolClass.isSome = true)
    (hclive : c.phase ≠ .ended) (hdlive : d.phase ≠ .ended) (hne : i ≠ j)
    (hkey : c.key = some key) : d.key ≠ some key := by
  intro hsame
  obtain ⟨k, hk, _, hlookup⟩ := h.found i c hi hc hclive
  obtain ⟨k', hk', _, hlookup'⟩ := h.found j d hj hd hdlive
  rw [hkey] at hk
  rw [hsame] at hk'
  cases hk
  cases hk'
  rw [hlookup] at hlookup'
  exact hne (Option.some.inj hlookup')

/-- A call leaves, and its guard takes its key out of the registry. -/
theorem Serving.finish (h : Serving log s)
    (hcall : s.calls[index]? = some call) (hlive : call.phase ≠ .ended) :
    Serving log { s.setCall index { call with phase := .ended } with
      registry := call.key.elim s.registry s.registry.remove } := by
  have hleft : Serving log (s.setCall index { call with phase := .ended }) := by
    refine h.update hcall rfl rfl rfl (fun hne => absurd rfl hne) ?_
    intro _ hphase _
    cases hphase
  have hgoal : ∀ key, call.key = key → Serving log { s.setCall index { call with phase := .ended } with
      registry := key.elim s.registry s.registry.remove } := by
    intro key hkey
    cases key with
    | none => exact hleft
    | some key =>
      refine hleft.release fun hfew i c hi hsome hphase hsame => ?_
      have hcount : registrations (s.calls.set index { call with phase := .ended }) =
          registrations s.calls := registrations_set hcall rfl
      have hkeyed := h.keyed (hcount ▸ hfew)
      have hclass : call.toolClass.isSome = true := by
        rcases hclass : call.toolClass with _ | toolClass
        · have hnone := h.unkeyed call (List.mem_of_getElem? hcall) hclass
          rw [hkey] at hnone
          cases hnone
        · rfl
      rcases getElem?_set_cases hi with ⟨_, rfl⟩ | ⟨hne, hi⟩
      · exact hphase rfl
      · exact hkeyed.key_ne hcall hi hclass hsome hlive hphase (Ne.symm hne) hkey hsame
  exact hgoal _ rfl

/-- A call of a known tool comes in. -/
theorem Serving.register (h : Serving log s) (toolClass : ToolClass) :
    Serving log { s with
      registry := (s.registry.register s.calls.length).1
      calls := s.calls ++ [⟨some toolClass, some s.registry.nextKey, .new, .registered⟩] } := by
  have hcount := registrations_append s.calls ⟨some toolClass, some s.registry.nextKey, .new, .registered⟩
  simp only [Option.isSome_some, if_true] at hcount
  refine ⟨fun c hc hnone => ?_, fun hfew => ?_, h.closed, fun hfew hswept c hc hgated hphase => ?_,
    fun c hc hungated => ?_⟩
  · rcases List.mem_append.mp hc with hc | hc
    · exact h.unkeyed c hc hnone
    · cases List.mem_singleton.mp hc
      cases hnone
  · rw [hcount] at hfew
    obtain ⟨hcounted, hfound⟩ := h.keyed (Nat.lt_of_succ_lt hfew)
    refine ⟨?_, fun i c hi hsome hphase => ?_⟩
    · rw [hcount]
      show (s.registry.nextKey + 1) % keyModulus = _
      rw [hcounted, Nat.mod_eq_of_lt hfew]
    · rw [hcount]
      rw [List.getElem?_append] at hi
      split at hi
      · obtain ⟨key, hkey, hlt, hlookup⟩ := hfound i c hi hsome hphase
        refine ⟨key, hkey, Nat.lt_succ_of_lt hlt, ?_⟩
        show (Assoc.insert s.registry.nextKey s.calls.length s.registry.entries).lookup key = _
        rw [Assoc.lookup_insert_of_ne _ _ (by omega)]
        exact hlookup
      · next hge =>
          obtain ⟨hlt, hget⟩ := List.getElem?_eq_some_iff.mp hi
          have hzero : i - s.calls.length = 0 := by simpa using hlt
          have heq : i = s.calls.length := by omega
          simp at hget
          subst heq
          subst hget
          refine ⟨s.registry.nextKey, rfl, by omega, ?_⟩
          exact Assoc.lookup_insert_self _ _ _
  · rw [hcount] at hfew
    rcases List.mem_append.mp hc with hc | hc
    · exact h.cancelled (Nat.lt_of_succ_lt hfew) hswept c hc hgated hphase
    · cases List.mem_singleton.mp hc
      cases hphase
  · rcases List.mem_append.mp hc with hc | hc
    · exact h.spared c hc hungated
    · cases List.mem_singleton.mp hc
      rfl

/-- A call of an unknown tool comes in. -/
theorem Serving.unknown (h : Serving log s) :
    Serving log { s with calls := s.calls ++ [⟨none, none, .new, .registered⟩] } := by
  have hcount := registrations_append s.calls ⟨none, none, .new, .registered⟩
  simp only [Option.isSome_none, Bool.false_eq_true, if_false, Nat.add_zero] at hcount
  refine ⟨fun c hc hnone => ?_, fun hfew => ⟨?_, fun i c hi hsome hphase => ?_⟩, h.closed,
    fun hfew hswept c hc hgated hphase => ?_, fun c hc hungated => ?_⟩
  · rcases List.mem_append.mp hc with hc | hc
    · exact h.unkeyed c hc hnone
    · cases List.mem_singleton.mp hc
      rfl
  · rw [hcount] at hfew ⊢
    exact (h.keyed hfew).counted
  · rw [hcount] at hfew ⊢
    rw [List.getElem?_append] at hi
    split at hi
    · exact (h.keyed hfew).found i c hi hsome hphase
    · cases List.mem_singleton.mp (List.mem_of_getElem? hi)
      cases hsome
  · rw [hcount] at hfew
    rcases List.mem_append.mp hc with hc | hc
    · exact h.cancelled hfew hswept c hc hgated hphase
    · cases List.mem_singleton.mp hc
      cases hgated
  · rcases List.mem_append.mp hc with hc | hc
    · exact h.spared c hc hungated
    · cases List.mem_singleton.mp hc
      cases hungated

/-- Either the sweep reached the call, or it left it as it was. -/
theorem getElem?_cancelAll {indices : List Nat}
    (h : (cancelAll calls indices)[i]? = some c) : ∃ call, calls[i]? = some call ∧
      (i ∈ indices ∧ c = { call with cancel := call.cancel.cancel .safety } ∨ i ∉ indices ∧ c = call) := by
  rw [cancelAll, List.getElem?_mapIdx] at h
  obtain ⟨call, hcall, rfl⟩ := Option.map_eq_some_iff.mp h
  refine ⟨call, hcall, ?_⟩
  by_cases hin : i ∈ indices
  · rw [if_pos hin]
    exact .inl ⟨hin, rfl⟩
  · rw [if_neg hin]
    exact .inr ⟨hin, rfl⟩

/-- The sweep: every gated call that has not left is in the registry, and is cancelled. -/
theorem Serving.sweep (h : Serving log s) (hshut : s.status.overall = false) :
    Serving (log ++ more) { s with calls := cancelAll s.calls s.gatedEntries, control := .settling } := by
  have hcount := registrations_cancelAll s.calls s.gatedEntries
  have hkept : ∀ c ∈ cancelAll s.calls s.gatedEntries, ∃ (i : Nat) (call : Call),
      s.calls[i]? = some call ∧
        (i ∈ s.gatedEntries ∧ c = { call with cancel := call.cancel.cancel .safety } ∨
          i ∉ s.gatedEntries ∧ c = call) := by
    intro c hc
    obtain ⟨i, hi⟩ := List.mem_iff_getElem?.mp hc
    exact ⟨i, getElem?_cancelAll hi⟩
  refine ⟨fun c hc hnone => ?_, fun hfew => ⟨?_, fun i c hi hsome hphase => ?_⟩, fun _ => hshut,
    fun hfew _ c hc hgated hphase => ?_, fun c hc hungated => ?_⟩
  · obtain ⟨i, call, hcall, ⟨_, rfl⟩ | ⟨_, rfl⟩⟩ := hkept c hc
    · exact h.unkeyed call (List.mem_of_getElem? hcall) hnone
    · exact h.unkeyed c (List.mem_of_getElem? hcall) hnone
  · rw [hcount] at hfew ⊢
    exact (h.keyed hfew).counted
  · rw [hcount] at hfew ⊢
    obtain ⟨call, hcall, ⟨_, rfl⟩ | ⟨_, rfl⟩⟩ := getElem?_cancelAll hi
    · exact (h.keyed hfew).found i call hcall hsome hphase
    · exact (h.keyed hfew).found i c hcall hsome hphase
  · rw [hcount] at hfew
    obtain ⟨i, call, hcall, ⟨_, rfl⟩ | ⟨hnot, rfl⟩⟩ := hkept c hc
    · exact Cancel.isCancelled_cancel _ _
    · -- a gated call that has not left has its entry, so the sweep takes it
      obtain ⟨key, _, _, hlookup⟩ := (h.keyed hfew).found i c hcall (by rw [hgated]; rfl)
        (by rw [hphase]; simp)
      refine absurd (List.mem_filter.mpr ⟨?_, ?_⟩) hnot
      · exact List.mem_map.mpr ⟨_, Assoc.mem_of_lookup hlookup, rfl⟩
      · simp [hcall, hgated]
  · obtain ⟨i, call, hcall, ⟨hin, rfl⟩ | ⟨_, rfl⟩⟩ := hkept c hc
    · have hgated : ((s.calls[i]?).any fun call => call.toolClass = some .gated) = true :=
        (List.mem_filter.mp hin).2
      have hnone : call.toolClass = some .ungated := hungated
      rw [hcall] at hgated
      simp [hnone] at hgated
    · exact h.spared c (List.mem_of_getElem? hcall) hungated

theorem moves_serving (hwatching : Watching probes log s) (h : Serving log s)
    (hmoves : Moves probes s s' more) : Serving (log ++ more) s' := by
  cases hmoves with
  | registered toolClass =>
    rw [List.append_nil]
    exact h.register toolClass
  | unknown =>
    rw [List.append_nil]
    exact h.unknown
  | refused hcall hphase =>
    rw [List.append_nil]
    refine h.update hcall rfl rfl rfl (fun _ => by simp [hphase]) ?_
    intro _ hrefused _
    cases hrefused
  | running hcall hphase hadmitted =>
    rw [List.append_nil]
    refine h.update hcall rfl rfl rfl (fun _ => by simp [hphase]) ?_
    intro hgated _ hshut
    exact absurd ⟨hgated, hshut⟩ hadmitted
  | finished hcall hlive =>
    rw [List.append_nil]
    exact h.finish hcall hlive
  | disconnected hcall =>
    rw [List.append_nil]
    refine h.update hcall rfl rfl rfl (fun hlive => hlive) ?_
    intro _ hphase _
    exact ⟨hphase, fun _ => rfl⟩
  | started => exact h.enforcer List.not_mem_nil rfl rfl fun hshut => hshut
  | answered reading hcontrol =>
    refine h.enforcer ?_ rfl rfl fun hshut => ?_
    · show Record.swept ∉ Record.read _ reading :: if _ then _ else _
      split <;> simp
    · show (if reading then _ else _ : SafetyStatus).overall = false
      split
      · exact hshut
      · rfl
  | unchanged => exact h.enforcer (by simp) rfl rfl fun hshut => hshut
  | turnedSafe => exact h.enforcer (by simp) rfl rfl fun hshut => hshut
  | turnedUnsafe => exact h.enforcer (by simp) rfl rfl fun hshut => hshut
  | opened =>
    have hopened := not_swept_opened log
    refine ⟨h.unkeyed, fun hfew => ?_, fun hswept => absurd hswept hopened,
      fun _ hswept => absurd hswept hopened, h.spared⟩
    obtain ⟨hcounted, hfound⟩ := h.keyed hfew
    exact ⟨hcounted, hfound⟩
  | closed => exact h.enforcer List.not_mem_nil rfl rfl fun _ => rfl
  | swept hcontrol =>
    obtain ⟨outcome, _, hfits, hopen⟩ := hwatching.fits
    rw [hcontrol] at hfits
    refine h.sweep (Bool.eq_false_iff.mpr fun hgate => ?_)
    rw [hfits.1] at hopen
    cases (hopen hgate).1
  | settled => exact h.enforcer List.not_mem_nil rfl rfl fun hshut => hshut

end Serving

/-! ## The gate -/

/-- The system: any calls, any interleaving, any readings. -/
abbrev SafetyRun (classes : String → Option ToolClass) (probes : List String) :=
  History (step classes probes) (fun _ _ _ => True) start

theorem run_serving {classes : String → Option ToolClass} {probes : List String} {inputs : List Input}
    {s : World} (h : SafetyRun classes probes inputs log s) :
    Watching probes log s ∧ Serving log s := by
  refine h.invariant (fun log s => Watching probes log s ∧ Serving log s)
    ⟨start_watching probes, start_serving⟩ ?_
  intro log s i s' more hinv _ hstep
  have hmoves := step_moves hstep
  exact ⟨moves_watching hinv.1 hmoves, moves_serving hinv.1 hinv.2 hmoves⟩

/-- In every run the gate is sound. -/
theorem gate_sound {classes : String → Option ToolClass} {probes : List String} {inputs : List Input}
    {log : List Record} {s : World} (h : SafetyRun classes probes inputs log s) :
    GateSound probes log s := by
  obtain ⟨hwatching, hserving⟩ := run_serving h
  obtain ⟨outcome, hlast, _, hopen⟩ := hwatching.fits
  refine ⟨hserving.cancelled, hserving.spared, fun hgate => ⟨fun pass hpass => ⟨?_, ?_⟩, ?_⟩,
    hwatching.once, fun monitor => (hwatching.alternate monitor).1⟩
  · exact hwatching.whole pass (List.mem_of_getLast? hpass)
  · have hsafe : (outcomes log).getLast? = some (allSafe pass) := by
      have hlastPass : ((passes log).completed.map allSafe).getLast? = some (allSafe pass) := by
        rw [List.getLast?_map, hpass]
        rfl
      rw [outcomes, List.getLast?_cons, hlastPass]
      rfl
    rw [hlast, (hopen hgate).1] at hsafe
    exact fun reading hreading => List.all_eq_true.mp (Option.some.inj hsafe).symm reading hreading
  · exact fun reading hreading => List.all_eq_true.mp (hopen hgate).2 reading hreading

namespace Evaluation

/-- A slew is gated, a status query is not. -/
def classes : String → Option ToolClass
  | "slew" => some .gated
  | "get_status" => some .ungated
  | _ => none

/-- A slew runs when it starts to rain; another comes in after the sweep. -/
def shower : List Input :=
  [.call "slew" none, .call "get_status" none, .check 0, .check 1, .startPass, .answer (.ok false), .endPass,
    .act, .act, .call "slew" none, .check 2]

theorem shower_sound : ∃ log s, SafetyRun classes ["rain"] shower log s ∧ Swept log ∧
    s.calls.map Call.phase = [.running, .running, .refused (some "rain")] ∧ GateSound ["rain"] log s := by
  have hrun : ∃ log s, SafetyRun classes ["rain"] shower log s ∧
      log = [.read "rain" false, .changed "rain" false, .passed, .onUnsafe, .swept, .cancelled 0] ∧
      s.calls.map Call.phase = [.running, .running, .refused (some "rain")] :=
    ⟨_, _, .of_play rfl, rfl, rfl⟩
  obtain ⟨log, s, hrun, hlog, hphases⟩ := hrun
  refine ⟨log, s, hrun, ?_, hphases, gate_sound hrun⟩
  rw [hlog]
  exact ⟨[.read "rain" false, .changed "rain" false, .passed, .onUnsafe], [.cancelled 0], rfl, by decide⟩

/-! ### Keys wrap -/

/-- A slew that runs. -/
def slew : Call := ⟨some .gated, some 0, .new, .running⟩

/-- A slew runs, and `n` status queries have come and gone. -/
def flooded (n : Nat) : World where
  status := .default
  registry := ⟨[(0, 0)], (n + 1) % keyModulus⟩
  calls := slew :: (List.range n).map fun i => ⟨some .ungated, some (i + 1), .new, .ended⟩
  perMonitor := []
  control := .idle true

theorem flooded_length (n : Nat) : (flooded n).calls.length = n + 1 := by
  simp [flooded]

variable {n : Nat}

/-- One more status query comes and goes. -/
theorem flooded_succ {inputs : List Input} (hn : n + 1 < keyModulus)
    (h : SafetyRun classes ["rain"] inputs [] (flooded n)) :
    SafetyRun classes ["rain"] (inputs ++ [.call "get_status" none, .check (n + 1), .finish (n + 1)]) []
      (flooded (n + 1)) := by
  have hlength := flooded_length n
  have hkey : (flooded n).registry.nextKey = n + 1 := Nat.mod_eq_of_lt hn
  let query (phase : CallPhase) : World := { flooded n with
    registry := ⟨[(0, 0), (n + 1, n + 1)], (n + 1 + 1) % keyModulus⟩
    calls := (flooded n).calls ++ [⟨some .ungated, some (n + 1), .new, phase⟩] }
  have hget : ∀ phase, (query phase).calls[n + 1]? = some ⟨some .ungated, some (n + 1), .new, phase⟩ := by
    intro phase
    show ((flooded n).calls ++ [_])[n + 1]? = _
    rw [List.getElem?_append_right (by omega), hlength, Nat.sub_self]
    rfl
  have hset : ∀ phase phase', (query phase).calls.set (n + 1) ⟨some .ungated, some (n + 1), .new, phase'⟩ =
      (query phase').calls := by
    intro phase phase'
    show ((flooded n).calls ++ [_]).set (n + 1) _ = (flooded n).calls ++ [_]
    rw [List.set_append_right _ _ (by omega), hlength, Nat.sub_self]
    rfl
  have hregister : (flooded n).step classes ["rain"] (.call "get_status" none) =
      some (query .registered, []) := by
    have hclass : classOfCall classes "get_status" none = some .ungated := rfl
    have hinsert : Assoc.insert (n + 1) (n + 1) (flooded n).registry.entries =
        [(0, 0), (n + 1, n + 1)] := by simp [Assoc.insert, flooded]
    simp only [step, hclass, InFlight.register, hkey, hlength, hinsert]
    rfl
  have hcheck : (query .registered).step classes ["rain"] (.check (n + 1)) = some (query .running, []) := by
    simp only [step, hget, if_true, setCall, hset]
    rfl
  have hfinish : (query .running).step classes ["rain"] (.finish (n + 1)) =
      some (flooded (n + 1), []) := by
    have herase : Assoc.erase (n + 1) [(0, 0), (n + 1, n + 1)] = [(0, 0)] := by simp [Assoc.erase]
    have hcalls : (query .ended).calls = (flooded (n + 1)).calls := by
      simp [query, flooded, List.range_succ]
    simp only [step, hget, setCall, hset, hcalls]
    show some (({ flooded n with
      registry := ⟨Assoc.erase (n + 1) [(0, 0), (n + 1, n + 1)], (n + 1 + 1) % keyModulus⟩
      calls := (flooded (n + 1)).calls } : World), ([] : List Record)) = _
    rw [herase]
    rfl
  have hrun := ((h.snoc trivial hregister).snoc trivial hcheck).snoc trivial hfinish
  rwa [List.append_assoc, List.append_assoc] at hrun

/-- A slew runs through any number of status queries short of the keys there are. -/
theorem flooded_reached (hn : n < keyModulus) :
    ∃ inputs, SafetyRun classes ["rain"] inputs [] (flooded n) := by
  induction n with
  | zero => exact ⟨[.call "slew" none, .check 0], .of_play rfl⟩
  | succ n ih =>
    obtain ⟨inputs, h⟩ := ih (Nat.lt_of_succ_lt hn)
    exact ⟨_, flooded_succ hn h⟩

/-- The status query that wraps the keys takes the slew's entry, and the sweep does not find the slew. -/
theorem slew_survives_sweep : ∃ inputs log s, SafetyRun classes ["rain"] inputs log s ∧ Swept log ∧
    ∃ call ∈ s.calls, call.toolClass = some .gated ∧ call.phase = .running ∧
      call.cancel.isCancelled = false := by
  obtain ⟨n, hn⟩ : ∃ n, n + 1 = keyModulus := ⟨2 ^ 64 - 1, rfl⟩
  obtain ⟨inputs, h⟩ := flooded_reached (n := n) (by omega)
  have hlength := flooded_length n
  have hkey : (flooded n).registry.nextKey = 0 := by
    show (n + 1) % keyModulus = 0
    rw [hn, Nat.mod_self]
  let query (status : SafetyStatus) (perMonitor : List (String × Bool)) (control : Control) : World :=
    ⟨status, ⟨[(0, n + 1)], 1 % keyModulus⟩,
      (flooded n).calls ++ [⟨some .ungated, some 0, .new, .registered⟩], perMonitor, control⟩
  have hregister : (flooded n).step classes ["rain"] (.call "get_status" none) =
      some (query .default [] (.idle true), []) := by
    have hclass : classOfCall classes "get_status" none = some .ungated := rfl
    simp only [step, hclass, InFlight.register, hkey, hlength]
    rfl
  let rainy : SafetyStatus := ⟨false, [("rain", false)]⟩
  have hentries : ∀ control, (query rainy [("rain", false)] control).gatedEntries = [] := by
    intro control
    have hget : (query rainy [("rain", false)] control).calls[n + 1]? =
        some ⟨some .ungated, some 0, .new, .registered⟩ := by
      show ((flooded n).calls ++ [_])[n + 1]? = _
      rw [List.getElem?_append_right (by omega), hlength, Nat.sub_self]
      rfl
    show [n + 1].filter (fun index => _) = []
    simp [hget]
  have hsweep : (query rainy [("rain", false)] .sweeping).step classes ["rain"] .act =
      some ({ query rainy [("rain", false)] .settling with
        calls := cancelAll (query rainy [("rain", false)] .settling).calls [] }, [.swept]) := by
    simp only [step, hentries]
    rfl
  have hrun := ((((((h.snoc trivial hregister).snoc (i := .startPass) trivial rfl).snoc
    (i := .answer (.ok false)) trivial rfl).snoc (i := .endPass) trivial rfl).snoc
      (i := .act) trivial rfl).snoc trivial hsweep)
  refine ⟨_, _, _, hrun, ⟨_, [], rfl, List.not_mem_nil⟩, slew, ?_, rfl, rfl, rfl⟩
  refine List.mem_of_getElem? (i := 0) ?_
  simp [query, cancelAll, flooded]

end Evaluation

end RustyPhoton.Rp.Safety
