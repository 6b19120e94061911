import Mathlib.Data.List.Perm.Basic
import Mathlib.Data.List.Count
import RustyPhoton.Rp.TrainLease.Lease

/-!
# The calls under a lease

The counters of a lease against the calls in flight, the gate permit they keep, and the end of a
lease that sits idle. All of it is about runs of one lease: any order of sections of its acquire,
its keeper, its calls and whoever ends it.
-/

namespace RustyPhoton.Rp.TrainLease

open LeaseState

namespace Lease

/-- A run of a lease from its reservation, every step allowed where it is taken. -/
abbrev Run (allowed : List LeaseEvent → Lease → LeaseInput → Prop) (id : String) (plan : LeasePlan)
    (now : Nat) : List LeaseInput → List LeaseEvent → Lease → Prop :=
  Lib.History step allowed (reserved id plan now)

/-- No capture in flight is one that was not cancelled. -/
def GateFree (lease : Lease) : Prop := ∀ call ∈ lease.live, call.uncancelled = false

variable {lease lease' : Lease} {input : LeaseInput} {events log : List LeaseEvent}

/-! ## The counters -/

/-- The counters count the calls in flight. -/
structure Counted (lease : Lease) : Prop where
  calls : lease.state.calls = lease.live.length
  captures : lease.state.uncancelledCaptures = lease.live.countP LeaseCall.uncancelled

/-- At most `u32::MAX` calls are in flight after the step. -/
def HasRoom (lease : Lease) (input : LeaseInput) : Prop :=
  input.admits = true → lease.live.length < maxCalls

namespace Counted

theorem reserved (id : String) (plan : LeasePlan) (now : Nat) :
    Counted (Lease.reserved id plan now) := ⟨rfl, rfl⟩

theorem gateFree_iff (h : lease.Counted) : lease.GateFree ↔ lease.state.uncancelledCaptures = 0 := by
  rw [h.captures, List.countP_eq_zero, GateFree]
  simp only [Bool.not_eq_true]

theorem quiet (h : lease.Counted) (hquiet : lease.state.quiet = true) :
    lease.live = [] ∧ lease.state.acquiring = false := by
  obtain ⟨hcalls, hacquiring⟩ := quiet_iff.mp hquiet
  rw [h.calls] at hcalls
  exact ⟨List.length_eq_zero_iff.mp hcalls, hacquiring⟩

theorem admitted (h : lease.Counted) (room : lease.live.length < maxCalls) (started : LeaseCall)
    (fresh : started.cancelled = false) :
    Counted { lease with
      state := lease.state.callStarted started.capture, live := started :: lease.live } := by
  have hcaptures : lease.live.countP LeaseCall.uncancelled ≤ lease.live.length :=
    List.countP_le_length
  have huncancelled : started.uncancelled = started.capture := by
    rw [LeaseCall.uncancelled, fresh, Bool.not_false, Bool.and_true]
  constructor
  · show oneMore lease.state.calls = (started :: lease.live).length
    rw [h.calls, oneMore, List.length_cons]
    omega
  · show (if started.capture then oneMore lease.state.uncancelledCaptures
        else lease.state.uncancelledCaptures) = (started :: lease.live).countP LeaseCall.uncancelled
    rw [h.captures, List.countP_cons, huncancelled]
    split
    · rw [oneMore]
      omega
    · rw [Nat.add_zero]

theorem marked (h : lease.Counted) {call : LeaseCall} (hlive : call ∈ lease.live)
    (huncancelled : call.uncancelled = true) :
    Counted { lease with
      state := lease.state.captureCancelled.1
      live := { call with cancelled := true } :: lease.live.erase call } := by
  have hperm := List.perm_cons_erase hlive
  obtain ⟨hcalls, hcaptures, _⟩ := giveGateBack_counters (s := { lease.state with
    uncancelledCaptures := lease.state.uncancelledCaptures - 1 })
  constructor
  · show lease.state.captureCancelled.1.calls = _
    rw [captureCancelled, hcalls, h.calls, hperm.length_eq]
    rfl
  · show lease.state.captureCancelled.1.uncancelledCaptures = _
    rw [captureCancelled, hcaptures]
    show lease.state.uncancelledCaptures - 1 = _
    have hcancelled : LeaseCall.uncancelled { call with cancelled := true } = false :=
      Bool.and_false _
    rw [h.captures, hperm.countP_eq, List.countP_cons, List.countP_cons, hcancelled, huncancelled]
    rfl

theorem dropped (h : lease.Counted) {call : LeaseCall} (hlive : call ∈ lease.live) (now : Nat) :
    Counted (lease.dropCall call now).1 := by
  have hperm := List.perm_cons_erase hlive
  obtain ⟨hcalls, hcaptures, _⟩ := giveGateBack_counters (s := { lease.state with
    calls := lease.state.calls - 1
    uncancelledCaptures := if call.uncancelled then lease.state.uncancelledCaptures - 1
      else lease.state.uncancelledCaptures
    lastActivity := now })
  constructor
  · show (lease.state.callEnded call.uncancelled now).1.calls = (lease.live.erase call).length
    rw [callEnded, hcalls]
    show lease.state.calls - 1 = _
    rw [h.calls, hperm.length_eq, List.length_cons, Nat.add_sub_cancel]
  · show (lease.state.callEnded call.uncancelled now).1.uncancelledCaptures =
      (lease.live.erase call).countP LeaseCall.uncancelled
    rw [callEnded, hcaptures]
    show (if call.uncancelled then lease.state.uncancelledCaptures - 1
      else lease.state.uncancelledCaptures) = _
    rw [h.captures, hperm.countP_eq, List.countP_cons]
    split
    · rw [Nat.add_sub_cancel]
    · rw [Nat.add_zero]

/-- The counters keep counting as long as they have room. -/
theorem step (h : lease.Counted) (room : lease.HasRoom input)
    (heffect : Effect lease input lease' events) : lease'.Counted := by
  cases heffect with
  | frame frame | facadeTaken _ _ frame =>
    exact ⟨by rw [frame.gate.calls, frame.live, h.calls],
      by rw [frame.gate.captures, frame.live, h.captures]⟩
  | acquireReturned _ _ state live =>
    exact ⟨by rw [state, live]; exact h.calls, by rw [state, live]; exact h.captures⟩
  | permitHeld permit _ becomes =>
    subst becomes
    obtain ⟨hcalls, hcaptures, _⟩ := lease.state.holdPermit_counters permit
    exact ⟨hcalls.trans h.calls, hcaptures.trans h.captures⟩
  | granted _ _ _ becomes | decided _ _ _ _ becomes | settling _ _ becomes | quiet _ _ becomes
  | holdingsTaken _ becomes | left _ _ becomes =>
    subst becomes
    exact ⟨h.calls, h.captures⟩
  | ended why _ _ state live =>
    obtain ⟨hcalls, hcaptures, _⟩ := lease.state.endWith_counters why
    exact ⟨by rw [state, live, hcalls, h.calls], by rw [state, live, hcaptures, h.captures]⟩
  | admitted now call input started _ _ fresh _ becomes =>
    subst becomes input
    exact h.admitted (room rfl) started fresh
  | marked call live uncancelled becomes =>
    subst becomes
    exact h.marked live uncancelled
  | dropped call now live becomes =>
    subst becomes
    exact h.dropped live now

end Counted

/-! ## The end of a lease -/

/-- The sections that end the lease in the log: those whose caller was answered `true`. -/
def endings (log : List LeaseEvent) : Nat := log.count (.answered true)

theorem endings_append : endings (log ++ events) = endings log + endings events :=
  List.count_append

theorem endings_drops (dropped : Option Nat) : endings (drops dropped) = 0 := by
  cases dropped <;> rfl

theorem admitted_notMem_drops {call : LeaseCall} (dropped : Option Nat) :
    LeaseEvent.admitted call ∉ drops dropped := by
  cases dropped with
  | none => exact List.not_mem_nil
  | some permit =>
    intro h
    cases List.mem_singleton.mp h

theorem gaveBack_notMem_drops {what : Holding} (dropped : Option Nat) :
    LeaseEvent.gaveBack what ∉ drops dropped := by
  cases dropped with
  | none => exact List.not_mem_nil
  | some permit =>
    intro h
    cases List.mem_singleton.mp h

theorem permitDropped_mem_drops {permit : Nat} {dropped : Option Nat} :
    LeaseEvent.permitDropped permit ∈ drops dropped ↔ dropped = some permit := by
  cases dropped with
  | none =>
    constructor
    · intro h
      cases h
    · intro h
      cases h
  | some other =>
    constructor
    · intro h
      cases List.mem_singleton.mp h
      rfl
    · intro h
      cases h
      exact List.mem_singleton_self _

/-- A section either leaves the end of the lease as it is, or is an `end`: of a lease that had not
ended, for a reason that is idle only where the keeper has decided so, or of one that had. -/
theorem Effect.end_cases (h : Effect lease input lease' events) :
    (lease'.state.endReason = lease.state.endReason ∧ endings events = 0) ∨
      ∃ why, lease'.state.endReason = some (lease.state.endReason.getD why) ∧
        endings events = (if lease.state.endReason.isSome then 0 else 1) ∧
        lease'.live = lease.live ∧ (why ≠ .idle ∨ lease.keeper = .due why) := by
  cases h with
  | frame frame keeper silent =>
    refine .inl ⟨endReason_of_phase frame.gate.phase, List.count_eq_zero.mpr ?_⟩
    intro hmem
    obtain ⟨why, heq⟩ := silent _ hmem
    cases heq
  | acquireReturned _ _ state _ _ silent =>
    subst silent
    rw [state]
    exact .inl ⟨rfl, rfl⟩
  | permitHeld permit _ becomes told =>
    subst becomes told
    exact .inl ⟨lease.state.holdPermit_endReason permit, endings_drops _⟩
  | granted _ _ living becomes silent =>
    subst becomes silent
    exact .inl ⟨living.symm, rfl⟩
  | ended why _ _ state live keeper told =>
    subst told
    refine .inr ⟨why, by rw [state, endWith_endReason], ?_, live, ?_⟩
    · rw [endings, List.count_cons, ← endings, endings_drops, endWith_answer]
      cases lease.state.endReason <;> rfl
    · rcases keeper with hother | hkeeper
      · exact .inl hother.1
      · exact .inr hkeeper.1
  | admitted _ _ _ started _ _ _ _ becomes told =>
    subst becomes told
    exact .inl ⟨rfl, rfl⟩
  | marked call _ _ becomes told =>
    subst becomes told
    exact .inl ⟨captureCancelled_endReason, endings_drops _⟩
  | dropped call now _ becomes told =>
    subst becomes told
    exact .inl ⟨callEnded_endReason, endings_drops _⟩
  | decided _ _ _ _ becomes silent | settling _ _ becomes silent | quiet _ _ becomes silent =>
    subst becomes silent
    exact .inl ⟨rfl, rfl⟩
  | facadeTaken _ _ frame told =>
    subst told
    exact .inl ⟨endReason_of_phase frame.gate.phase, rfl⟩
  | holdingsTaken _ becomes told =>
    subst becomes told
    refine .inl ⟨rfl, ?_⟩
    rw [endings, List.count_cons, ← endings, endings_drops]
    rfl
  | left _ _ becomes told =>
    subst becomes told
    exact .inl ⟨rfl, rfl⟩

/-- A call is admitted under a granted lease only. -/
theorem Effect.of_admitted {call : LeaseCall} (h : Effect lease input lease' events)
    (hmem : .admitted call ∈ events) :
    (∃ now kind, input = .admitCall now kind) ∧ ∃ endsBy, lease.state.phase = .granted endsBy := by
  cases h with
  | admitted now kind input started endsBy phase => exact ⟨⟨now, kind, input⟩, endsBy, phase⟩
  | frame _ _ silent =>
    obtain ⟨why, heq⟩ := silent _ hmem
    cases heq
  | acquireReturned _ _ _ _ _ silent | granted _ _ _ _ silent | decided _ _ _ _ _ silent
  | settling _ _ _ silent | quiet _ _ _ silent =>
    subst silent
    cases hmem
  | permitHeld _ _ _ told | marked _ _ _ _ told | dropped _ _ _ _ told =>
    subst told
    exact absurd hmem (admitted_notMem_drops _)
  | ended _ _ _ _ _ _ told | holdingsTaken _ _ told =>
    subst told
    rcases List.mem_cons.mp hmem with heq | hdrops
    · cases heq
    · exact absurd hdrops (admitted_notMem_drops _)
  | facadeTaken _ _ _ told | left _ _ _ told =>
    subst told
    cases List.mem_singleton.mp hmem

/-- With no call in flight, a step that admits none leaves none in flight. -/
theorem Effect.live_nil (h : Effect lease input lease' events) (hnone : lease.live = [])
    (hno : ∀ call, .admitted call ∉ events) : lease'.live = [] := by
  cases h with
  | frame frame | facadeTaken _ _ frame => rw [frame.live, hnone]
  | acquireReturned _ _ _ live | ended _ _ _ _ live => rw [live, hnone]
  | permitHeld _ _ becomes | granted _ _ _ becomes | decided _ _ _ _ becomes | settling _ _ becomes
  | quiet _ _ becomes | holdingsTaken _ becomes | left _ _ becomes =>
    subst becomes
    exact hnone
  | admitted _ _ _ started _ _ _ _ _ told =>
    subst told
    exact absurd (List.mem_singleton_self _) (hno started)
  | marked call live | dropped call _ live =>
    rw [hnone] at live
    cases live

/-! ## The idle end -/

/-- No call is admitted between the keeper's decision that the lease is idle and the `end` that
follows it, and the counter of the calls has room. -/
def NotWhileIdleDecided (_ : List LeaseEvent) (lease : Lease) (input : LeaseInput) : Prop :=
  input.admits = true → lease.keeper ≠ .due .idle ∧ lease.live.length < maxCalls

instance (log : List LeaseEvent) (lease : Lease) (input : LeaseInput) :
    Decidable (NotWhileIdleDecided log lease input) :=
  inferInstanceAs (Decidable (_ → _))

/-- From the keeper's decision on, nothing runs under a lease that ends idle. -/
structure IdleEmpty (lease : Lease) : Prop where
  counted : lease.Counted
  decided : lease.keeper = .due .idle → lease.live = []
  ended : lease.state.endReason = some .idle → lease.live = []

namespace IdleEmpty

theorem reserved (id : String) (plan : LeasePlan) (now : Nat) :
    IdleEmpty (Lease.reserved id plan now) where
  counted := Counted.reserved id plan now
  decided := fun _ => rfl
  ended := fun _ => rfl

/-- The step that ends a lease idle finds nothing in flight. -/
theorem entered (h : lease.IdleEmpty) (heffect : Effect lease input lease' events)
    (hbefore : lease.state.endReason ≠ some .idle)
    (hafter : lease'.state.endReason = some .idle) : lease.live = [] ∧ lease'.live = [] := by
  rcases heffect.end_cases with ⟨hsame, _⟩ | ⟨why, hends, _, hlive, hwhy⟩
  · rw [hsame] at hafter
    exact absurd hafter hbefore
  · rw [hends] at hafter
    cases hreason : lease.state.endReason with
    | some earlier =>
      rw [hreason, Option.getD_some] at hafter
      rw [hreason] at hbefore
      exact absurd hafter hbefore
    | none =>
      rw [hreason, Option.getD_none] at hafter
      cases hafter
      rcases hwhy with hother | hkeeper
      · exact absurd rfl hother
      · have hnone := h.decided hkeeper
        exact ⟨hnone, hlive.trans hnone⟩

/-- The keeper comes to its idle decision from one section, which reads the counter. -/
theorem decided_step (h : lease.IdleEmpty) (ok : NotWhileIdleDecided log lease input)
    (heffect : Effect lease input lease' events) (hkeeper : lease'.keeper = .due .idle) :
    lease'.live = [] := by
  have hstays : lease.keeper = .due .idle → lease'.live = [] := by
    intro hdue
    refine heffect.live_nil (h.decided hdue) ?_
    intro call hmem
    obtain ⟨⟨now, kind, rfl⟩, _⟩ := heffect.of_admitted hmem
    exact (ok rfl).1 hdue
  cases heffect with
  | frame _ keeper => exact hstays (keeper ▸ hkeeper)
  | acquireReturned _ _ _ _ keeper => exact hstays (keeper ▸ hkeeper)
  | ended why _ _ _ _ keeper =>
    rcases keeper with ⟨_, hsame⟩ | ⟨_, hwatching⟩
    · exact hstays (hsame ▸ hkeeper)
    · rw [hwatching] at hkeeper
      cases hkeeper
  | permitHeld _ _ becomes | granted _ _ _ becomes | admitted _ _ _ _ _ _ _ _ becomes
  | marked _ _ _ becomes | dropped _ _ _ becomes =>
    subst becomes
    exact hstays hkeeper
  | decided now why _ due becomes =>
    subst becomes
    cases hkeeper
    have hcalls := (due_eq_some due).2 rfl
    rw [h.counted.calls] at hcalls
    exact List.length_eq_zero_iff.mp hcalls
  | settling _ _ becomes | quiet _ _ becomes | holdingsTaken _ becomes | left _ _ becomes =>
    subst becomes
    cases hkeeper
  | facadeTaken _ keeper =>
    rw [keeper] at hkeeper
    cases hkeeper

theorem step (h : lease.IdleEmpty) (ok : NotWhileIdleDecided log lease input)
    (heffect : Effect lease input lease' events) : lease'.IdleEmpty where
  counted := h.counted.step (fun hadmits => (ok hadmits).2) heffect
  decided := h.decided_step ok heffect
  ended := by
    intro hafter
    by_cases hbefore : lease.state.endReason = some .idle
    · refine heffect.live_nil (h.ended hbefore) ?_
      intro call hmem
      obtain ⟨_, endsBy, hphase⟩ := heffect.of_admitted hmem
      rw [endReason, hphase] at hbefore
      cases hbefore
    · exact (h.entered heffect hbefore hafter).2

end IdleEmpty

/-- In every run in which no call is admitted between the keeper's idle decision and its `end`, a
lease ends idle only with no call in flight, and none is in flight under a lease that ended idle. -/
theorem idle_end_empty {id : String} {plan : LeasePlan} {start : Nat} {inputs : List LeaseInput}
    (h : Run NotWhileIdleDecided id plan start inputs log lease) :
    (lease.state.endReason = some .idle → lease.live = []) ∧
      ∀ input lease' events, NotWhileIdleDecided log lease input →
        lease.step input = some (lease', events) → lease.state.endReason ≠ some .idle →
        lease'.state.endReason = some .idle → lease.live = [] ∧ lease'.live = [] := by
  have hinv : lease.IdleEmpty := by
    refine h.invariant (fun _ lease => lease.IdleEmpty) (IdleEmpty.reserved id plan start) ?_
    intro log lease input lease' events hinv ok hstep
    exact hinv.step ok (step_effect hstep)
  constructor
  · exact hinv.ended
  · intro input lease' events _ hstep hbefore hafter
    exact hinv.entered (step_effect hstep) hbefore hafter

/-! ## The keeper and the gate -/

/-- The keeper leaves its loop when the lease has ended, and gives back once it is quiet. -/
structure Settled (lease : Lease) : Prop where
  ending : lease.keeper.left = true → lease.state.endReason.isSome = true
  quiet : lease.keeper.sawQuiet = true → lease.state.quiet = true

namespace Settled

theorem left_of_sawQuiet {keeper : Keeper} (h : keeper.sawQuiet = true) : keeper.left = true := by
  cases keeper <;> first | rfl | cases h

/-- A lease that has ended stays so, and the quiet of an ended lease lasts. -/
theorem of_ended (h : lease.state.endReason.isSome = true)
    (heffect : Effect lease input lease' events) : lease'.state.endReason.isSome = true ∧
      (lease.state.quiet = true → lease'.state.quiet = true) := by
  constructor
  · rcases heffect.end_cases with ⟨hsame, _⟩ | ⟨why, hends, _⟩
    · rw [hsame, h]
    · rw [hends]
      rfl
  · intro hquiet
    obtain ⟨hcalls, hacquiring⟩ := quiet_iff.mp hquiet
    rw [quiet_iff]
    cases heffect with
    | frame frame | facadeTaken _ _ frame =>
      rw [frame.gate.calls, frame.gate.acquiring]
      exact ⟨hcalls, hacquiring⟩
    | acquireReturned _ _ state =>
      rw [state]
      exact ⟨hcalls, rfl⟩
    | permitHeld permit _ becomes =>
      subst becomes
      obtain ⟨hcalls', _, hacquiring'⟩ := lease.state.holdPermit_counters permit
      exact ⟨hcalls'.trans hcalls, hacquiring'.trans hacquiring⟩
    | granted _ _ living =>
      rw [living] at h
      cases h
    | ended why _ _ state =>
      obtain ⟨hcalls', _, hacquiring'⟩ := lease.state.endWith_counters why
      rw [state]
      exact ⟨hcalls'.trans hcalls, hacquiring'.trans hacquiring⟩
    | admitted _ _ _ _ _ phase =>
      rw [endReason, phase] at h
      cases h
    | marked call _ _ becomes =>
      subst becomes
      obtain ⟨hcalls', _, hacquiring'⟩ := giveGateBack_counters (s := {
        lease.state with uncancelledCaptures := lease.state.uncancelledCaptures - 1 })
      exact ⟨hcalls'.trans hcalls, hacquiring'.trans hacquiring⟩
    | dropped call now _ becomes =>
      subst becomes
      obtain ⟨hcalls', _, hacquiring'⟩ := giveGateBack_counters (s := {
        lease.state with
        calls := lease.state.calls - 1
        uncancelledCaptures := if call.uncancelled then lease.state.uncancelledCaptures - 1
          else lease.state.uncancelledCaptures
        lastActivity := now })
      refine ⟨hcalls'.trans ?_, hacquiring'.trans hacquiring⟩
      show lease.state.calls - 1 = 0
      rw [hcalls]
    | decided _ _ _ _ becomes | settling _ _ becomes | quiet _ _ becomes | holdingsTaken _ becomes
    | left _ _ becomes =>
      subst becomes
      exact ⟨hcalls, hacquiring⟩

theorem step (h : lease.Settled) (heffect : Effect lease input lease' events) : lease'.Settled := by
  have hlasts : lease.keeper.left = true → lease'.state.endReason.isSome = true ∧
      (lease.state.quiet = true → lease'.state.quiet = true) :=
    fun hleft => of_ended (h.ending hleft) heffect
  have hstays : lease'.keeper = lease.keeper → lease'.Settled := by
    intro hsame
    refine ⟨fun hleft => (hlasts (hsame ▸ hleft)).1, ?_⟩
    intro hsaw
    rw [hsame] at hsaw
    exact (hlasts (left_of_sawQuiet hsaw)).2 (h.quiet hsaw)
  cases heffect with
  | frame _ keeper => exact hstays keeper
  | acquireReturned _ _ _ _ keeper => exact hstays keeper
  | ended _ _ _ _ _ keeper =>
    rcases keeper with ⟨_, hsame⟩ | ⟨_, hwatching⟩
    · exact hstays hsame
    · constructor
      · intro hleft
        rw [hwatching] at hleft
        cases hleft
      · intro hsaw
        rw [hwatching] at hsaw
        cases hsaw
  | permitHeld _ _ becomes | granted _ _ _ becomes | admitted _ _ _ _ _ _ _ _ becomes
  | marked _ _ _ becomes | dropped _ _ _ becomes =>
    have hkeeper := congrArg Lease.keeper becomes
    exact hstays hkeeper
  | decided _ _ _ _ becomes =>
    subst becomes
    constructor
    · intro hleft
      cases hleft
    · intro hsaw
      cases hsaw
  | settling _ ending becomes =>
    subst becomes
    constructor
    · intro _
      exact ending
    · intro hsaw
      cases hsaw
  | quiet settling quiet becomes =>
    subst becomes
    exact ⟨fun _ => h.ending (by rw [settling]; rfl), fun _ => quiet⟩
  | facadeTaken quiet =>
    have hleft : lease.keeper.left = true := by rw [quiet]; rfl
    have hsaw : lease.keeper.sawQuiet = true := by rw [quiet]; rfl
    exact ⟨fun _ => (hlasts hleft).1, fun _ => (hlasts hleft).2 (h.quiet hsaw)⟩
  | holdingsTaken facadeTaken becomes =>
    subst becomes
    exact ⟨fun _ => h.ending (by rw [facadeTaken]; rfl), fun _ => h.quiet (by rw [facadeTaken]; rfl)⟩
  | left _ holdingsTaken becomes =>
    subst becomes
    exact ⟨fun _ => h.ending (by rw [holdingsTaken]; rfl),
      fun _ => h.quiet (by rw [holdingsTaken]; rfl)⟩

end Settled

/-- No section leaves the gate permit with an ending lease that no capture needs it for. -/
theorem Effect.gateClosed (h : lease.state.GateClosed)
    (heffect : Effect lease input lease' events) : lease'.state.GateClosed := by
  cases heffect with
  | frame frame | facadeTaken _ _ frame => exact h.sameGate frame.gate
  | acquireReturned _ _ state =>
    rw [state]
    exact h
  | permitHeld permit _ becomes =>
    subst becomes
    exact h.holdPermit permit
  | granted _ _ _ becomes =>
    subst becomes
    exact .of_living rfl
  | ended why _ _ state =>
    rw [state]
    exact h.endWith
  | admitted _ _ _ started _ phase _ _ becomes =>
    subst becomes
    refine .of_living ?_
    show lease.state.endReason = none
    rw [endReason, phase]
  | marked call _ _ becomes | dropped call _ _ becomes =>
    subst becomes
    exact .giveGateBack
  | decided _ _ _ _ becomes | settling _ _ becomes | quiet _ _ becomes | left _ _ becomes =>
    subst becomes
    exact h
  | holdingsTaken _ becomes =>
    subst becomes
    exact fun _ _ => rfl

/-! ## The permit -/

/-- `hold_permit` is not called while a permit is held, and the counter of the calls has room. -/
def OnePermit (_ : List LeaseEvent) (lease : Lease) (input : LeaseInput) : Prop :=
  (input.holdsPermit = true → lease.state.permit = none) ∧ lease.HasRoom input

instance (log : List LeaseEvent) (lease : Lease) (input : LeaseInput) :
    Decidable (OnePermit log lease input) :=
  inferInstanceAs (Decidable ((_ → _) ∧ (_ → _)))

/-- What the counters, the gate permit, the keeper and the answers of `end` come to in a run. -/
structure Accounted (log : List LeaseEvent) (lease : Lease) : Prop where
  counted : lease.Counted
  gate : lease.state.GateClosed
  settled : lease.Settled
  endings : endings log = if lease.state.endReason.isSome then 1 else 0

namespace Accounted

theorem reserved (id : String) (plan : LeasePlan) (now : Nat) :
    Accounted [] (Lease.reserved id plan now) where
  counted := Counted.reserved id plan now
  gate := .of_living rfl
  settled := ⟨fun hleft => (Bool.false_ne_true hleft).elim, fun hsaw => (Bool.false_ne_true hsaw).elim⟩
  endings := rfl

theorem step (h : Accounted log lease) (ok : OnePermit log lease input)
    (heffect : Effect lease input lease' events) : Accounted (log ++ events) lease' where
  counted := h.counted.step ok.2 heffect
  gate := heffect.gateClosed h.gate
  settled := h.settled.step heffect
  endings := by
    rw [endings_append, h.endings]
    rcases heffect.end_cases with ⟨hsame, hnone⟩ | ⟨why, hends, hcount, _⟩
    · rw [hsame, hnone, Nat.add_zero]
    · rw [hends, hcount]
      cases lease.state.endReason <;> rfl

/-- A lease lets go of a permit only when it is ending and no capture needs the gate. -/
theorem lets_go (h : Accounted log lease) (ok : OnePermit log lease input)
    (heffect : Effect lease input lease' events) (permit : Nat)
    (hgone : .permitDropped permit ∈ events ∨
      (lease.state.permit = some permit ∧ lease'.state.permit ≠ some permit)) :
    lease'.state.endReason.isSome = true ∧ lease'.state.uncancelledCaptures = 0 := by
  have hsilent : events = [] → lease'.state.permit ≠ lease.state.permit := by
    intro hnil hsame
    rw [hnil, hsame] at hgone
    rcases hgone with hmem | ⟨hheld, hnot⟩
    · cases hmem
    · exact hnot hheld
  have hdrops : ∀ dropped, events = drops dropped → dropped = some permit ∨
      (lease.state.permit = some permit ∧ lease'.state.permit ≠ some permit) := by
    intro dropped htold
    rw [htold, permitDropped_mem_drops] at hgone
    exact hgone
  cases heffect with
  | frame frame _ silent =>
    rcases hgone with hmem | ⟨hheld, hnot⟩
    · obtain ⟨why, heq⟩ := silent _ hmem
      cases heq
    · rw [frame.gate.permit] at hnot
      exact absurd hheld hnot
  | acquireReturned _ _ state _ _ silent =>
    exact absurd (by rw [state]; rfl) (hsilent silent)
  | permitHeld other input becomes told =>
    subst becomes input
    exact holdPermit_letsGo (ok.1 rfl) other permit (hdrops _ told)
  | granted _ _ _ becomes silent | decided _ _ _ _ becomes silent | settling _ _ becomes silent
  | quiet _ _ becomes silent =>
    subst becomes
    exact absurd rfl (hsilent silent)
  | ended why _ _ state live _ told =>
    rw [state] at hgone ⊢
    refine endWith_letsGo permit (hgone.imp_left ?_)
    intro hmem
    rw [told] at hmem
    rcases List.mem_cons.mp hmem with heq | hmem
    · cases heq
    · exact permitDropped_mem_drops.mp hmem
  | admitted _ _ _ started _ _ _ _ becomes told =>
    subst becomes
    rcases hgone with hmem | ⟨hheld, hnot⟩
    · rw [told] at hmem
      cases List.mem_singleton.mp hmem
    · exact absurd hheld hnot
  | marked call _ _ becomes told =>
    subst becomes
    exact giveGateBack_letsGo permit (hdrops _ told)
  | dropped call now _ becomes told =>
    subst becomes
    exact giveGateBack_letsGo permit (hdrops _ told)
  | facadeTaken _ _ frame told =>
    rcases hgone with hmem | ⟨hheld, hnot⟩
    · rw [told] at hmem
      cases List.mem_singleton.mp hmem
    · rw [frame.gate.permit] at hnot
      exact absurd hheld hnot
  | holdingsTaken facadeTaken becomes told =>
    subst becomes
    have hquiet := h.settled.quiet (by rw [facadeTaken]; rfl)
    refine ⟨h.settled.ending (by rw [facadeTaken]; rfl), ?_⟩
    show lease.state.uncancelledCaptures = 0
    rw [h.counted.captures, (h.counted.quiet hquiet).1]
    rfl
  | left _ _ becomes told =>
    subst becomes
    rcases hgone with hmem | ⟨hheld, hnot⟩
    · rw [told] at hmem
      cases List.mem_singleton.mp hmem
    · exact absurd hheld hnot

/-- The keeper gives back only under an ended lease that is quiet. -/
theorem gives_back (h : Accounted log lease) (heffect : Effect lease input lease' events)
    {what : Holding} (hmem : .gaveBack what ∈ events) :
    lease.state.endReason.isSome = true ∧ lease.live = [] ∧ lease.state.acquiring = false := by
  have hquiet : lease.keeper.sawQuiet = true → lease.state.endReason.isSome = true ∧
      lease.live = [] ∧ lease.state.acquiring = false := fun hsaw =>
    ⟨h.settled.ending (Settled.left_of_sawQuiet hsaw), h.counted.quiet (h.settled.quiet hsaw)⟩
  cases heffect with
  | frame _ _ silent =>
    obtain ⟨why, heq⟩ := silent _ hmem
    cases heq
  | acquireReturned _ _ _ _ _ silent | granted _ _ _ _ silent | decided _ _ _ _ _ silent
  | settling _ _ _ silent | quiet _ _ _ silent =>
    subst silent
    cases hmem
  | permitHeld _ _ _ told | marked _ _ _ _ told | dropped _ _ _ _ told =>
    subst told
    exact absurd hmem (gaveBack_notMem_drops _)
  | ended _ _ _ _ _ _ told =>
    subst told
    rcases List.mem_cons.mp hmem with heq | hdrops
    · cases heq
    · exact absurd hdrops (gaveBack_notMem_drops _)
  | admitted _ _ _ _ _ _ _ _ _ told =>
    subst told
    cases List.mem_singleton.mp hmem
  | facadeTaken keeper | holdingsTaken keeper | left _ keeper => exact hquiet (by rw [keeper]; rfl)

end Accounted

/-- The accounting of the gate permit in a run, and what each further step that is allowed does. -/
structure PermitAccounting (allowed : List LeaseEvent → Lease → LeaseInput → Prop)
    (log : List LeaseEvent) (lease : Lease) : Prop where
  calls : lease.state.calls = lease.live.length
  captures : lease.state.uncancelledCaptures = lease.live.countP LeaseCall.uncancelled
  gate : lease.state.endReason.isSome = true → lease.GateFree → lease.state.permit = none
  endedOnce : log.count (.answered true) = if lease.state.endReason.isSome then 1 else 0
  permitDropped : ∀ {input lease' events}, allowed log lease input →
    lease.step input = some (lease', events) → ∀ permit, .permitDropped permit ∈ events ∨
      (lease.state.permit = some permit ∧ lease'.state.permit ≠ some permit) →
    lease'.state.endReason.isSome = true ∧ lease'.GateFree
  admitted : ∀ {input lease' events}, lease.step input = some (lease', events) →
    ∀ call, .admitted call ∈ events → ∃ endsBy, lease.state.phase = .granted endsBy
  gaveBack : ∀ {input lease' events}, lease.step input = some (lease', events) →
    ∀ what, .gaveBack what ∈ events →
    lease.state.endReason.isSome = true ∧ lease.live = [] ∧ lease.state.acquiring = false

/-- In every run that never holds a second permit and never has more than `u32::MAX` calls in
flight, the gate permit is accounted for. -/
theorem permit_accounted {id : String} {plan : LeasePlan} {start : Nat} {inputs : List LeaseInput}
    (h : Run OnePermit id plan start inputs log lease) : PermitAccounting OnePermit log lease := by
  have hinv : Accounted log lease := by
    refine h.invariant Accounted (Accounted.reserved id plan start) ?_
    intro log lease input lease' events hinv ok hstep
    exact hinv.step ok (step_effect hstep)
  constructor
  case calls => exact hinv.counted.calls
  case captures => exact hinv.counted.captures
  case gate => exact fun hending hfree => hinv.gate hending (hinv.counted.gateFree_iff.mp hfree)
  case endedOnce => exact hinv.endings
  case permitDropped =>
    intro input lease' events ok hstep permit hgone
    have heffect := step_effect hstep
    obtain ⟨hending, hcaptures⟩ := hinv.lets_go ok heffect permit hgone
    exact ⟨hending, (hinv.counted.step ok.2 heffect).gateFree_iff.mpr hcaptures⟩
  case admitted => exact fun hstep call hmem => ((step_effect hstep).of_admitted hmem).2
  case gaveBack => exact fun hstep what hmem => hinv.gives_back (step_effect hstep) hmem

end Lease

/-! ## Runs on one train -/

namespace Evaluation

def mainPlan : LeasePlan where
  trainId := "main"
  guiding := false
  cameraId := "main-cam"
  focuserId := "eaf"
  filterWheelIds := ["wheel"]
  heldFocuserIds := []
  heldRotatorIds := []
  drainedCameraIds := ["guide-cam"]

def capture : LeaseCall where
  device := "main-cam"
  capture := true
  cancelled := false

/-- Half a minute of work, then a minute of nothing. -/
def grantedInputs : List LeaseInput :=
  [.grant 0 300000000000, .startReturn, .acquireReturned, .admitCall 10000000000 (.capture "main-cam"),
    .dropCall capture 30000000000, .decideDue 90000000000]

theorem idle_lease_ends_empty :
    ∃ log lease, Lease.Run Lease.NotWhileIdleDecided "a" mainPlan 0 (grantedInputs ++ [.endDue])
      log lease ∧ lease.state.endReason = some .idle ∧ lease.live = [] := by
  have hrun : Lease.Run Lease.NotWhileIdleDecided "a" mainPlan 0 (grantedInputs ++ [.endDue]) _ _ :=
    Lib.History.of_play rfl
  exact ⟨_, _, hrun, rfl, (Lease.idle_end_empty hrun).1 rfl⟩

/-- The keeper decides that the lease is idle, a capture is admitted, and the keeper ends the lease
idle under it. -/
theorem idle_lease_ends_under_call :
    ¬ ∀ inputs log lease, Lease.Run (fun _ _ _ => True) "a" mainPlan 0 inputs log lease →
      lease.state.endReason = some .idle → lease.live = [] := by
  intro h
  have hrun : Lease.Run (fun _ _ _ => True) "a" mainPlan 0
      (grantedInputs ++ [.admitCall 90000000000 (.capture "main-cam"), .endDue]) _ _ :=
    Lib.History.of_play rfl
  cases h _ _ _ hrun rfl

/-- An acquire, a capture, the safety transition, and the cancelled exposure that opens the gate. -/
def safetyInputs : List LeaseInput :=
  [.hold 0, .holdPermit 1, .grant 0 300000000000, .startReturn, .acquireReturned,
    .admitCall 10000000000 (.capture "main-cam"), .endWith .safety, .markCancelled capture]

theorem cancelled_capture_opens_gate :
    ∃ log lease, Lease.Run Lease.OnePermit "a" mainPlan 0 safetyInputs log lease ∧
      lease.state.calls = 1 ∧ lease.state.permit = none ∧
      Lease.PermitAccounting Lease.OnePermit log lease := by
  have hrun : Lease.Run Lease.OnePermit "a" mainPlan 0 safetyInputs _ _ := Lib.History.of_play rfl
  exact ⟨_, _, hrun, rfl, rfl, Lease.permit_accounted hrun⟩

/-- Captures admitted one after the other under a granted lease. -/
theorem admitted_calls (count : Nat) :
    ∃ log lease, Lease.Run (fun _ _ _ => True) "a" mainPlan 0
        (.grant 0 300000000000 :: List.replicate count (.admitCall 10000000000 (.capture "main-cam")))
        log lease ∧
      lease.plan = mainPlan ∧ lease.state.phase = .granted 300000000000 ∧
      lease.live.length = count ∧ lease.state.calls = min count maxCalls := by
  induction count with
  | zero =>
    have hrun : Lease.Run (fun _ _ _ => True) "a" mainPlan 0 [.grant 0 300000000000] _ _ :=
      Lib.History.of_play rfl
    exact ⟨_, _, hrun, rfl, rfl, rfl, rfl⟩
  | succ count ih =>
    obtain ⟨log, lease, hrun, hplan, hphase, hlive, hcalls⟩ := ih
    have hadmit : lease.step (.admitCall 10000000000 (.capture "main-cam")) =
        some ({ lease with state := lease.state.callStarted true, live := capture :: lease.live },
          [.admitted capture]) := by
      simp only [Lease.step, Lease.admitCall, hphase, hplan]
      rfl
    have hmore := hrun.snoc trivial hadmit
    rw [List.cons_append, ← List.replicate_succ'] at hmore
    refine ⟨_, _, hmore, hplan, hphase, congrArg Nat.succ hlive, ?_⟩
    show oneMore lease.state.calls = min (count + 1) maxCalls
    rw [hcalls, oneMore]
    omega

/-- A second permit drops the first while the lease is granted and a capture runs, and the counter
of the calls stops at `u32::MAX`. -/
theorem second_permit_drops_first :
    (¬ ∀ inputs log lease, Lease.Run (fun _ _ _ => True) "a" mainPlan 0 inputs log lease →
      ∀ lease' events, lease.step (.holdPermit 2) = some (lease', events) →
        .permitDropped 1 ∈ events → lease'.state.endReason.isSome = true ∧ lease'.GateFree) ∧
    ¬ ∀ inputs log lease, Lease.Run (fun _ _ _ => True) "a" mainPlan 0 inputs log lease →
      lease.state.calls = lease.live.length := by
  constructor
  · intro h
    have hrun : Lease.Run (fun _ _ _ => True) "a" mainPlan 0
        [.holdPermit 1, .grant 0 300000000000, .admitCall 10000000000 (.capture "main-cam")] _ _ :=
      Lib.History.of_play rfl
    have hending := (h _ _ _ hrun _ _ rfl (List.mem_singleton_self _)).1
    cases hending
  · intro h
    obtain ⟨log, lease, hrun, _, _, hlive, hcalls⟩ := admitted_calls (maxCalls + 1)
    have hcounted := h _ _ _ hrun
    rw [hlive, hcalls] at hcounted
    omega

end Evaluation

end RustyPhoton.Rp.TrainLease
