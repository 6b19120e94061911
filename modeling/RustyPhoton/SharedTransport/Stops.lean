import RustyPhoton.SharedTransport.Lifecycle

/-!
# No stop is forgotten

When the session count goes from one to zero on an open conduit, a stop comes due. Once the lock is
free again a hook that began after it has landed, or the safety debt is outstanding, or the slot is
empty in the service-lifetime mode, where only a cold start fills it. It holds of the runs in which
no cleanup is dropped before its hook has started.
-/

namespace RustyPhoton.SharedTransport

open Lib

/-! ## Stages -/

namespace Holder

/-- The holder opens a conduit, on whose behalf. -/
def opener : Holder → Option Opener
  | .releasing who | .emptying who | .opening who | .handshaking who _ | .asserting who _
  | .failing who | .publishing who _ => some who
  | _ => none

/-- A cleanup whose hook has not started. -/
def beforeHook : Holder → Bool
  | .quiescing | .looking | .reading _ => true
  | _ => false

/-- A cleanup that has not recorded what became of its stop. -/
def beforeRecord : Holder → Bool
  | .quiescing | .looking | .reading _ | .stopping _ => true
  | _ => false

/-- A shutdown that has not emptied the slot, or has just done so. -/
def shutsDown : Holder → Bool
  | .withdrawing | .joining | .shuttingDown | .taking | .ending => true
  | _ => false

/-- A stage about which nothing is known beyond the shared state. -/
def plain : Holder → Bool
  | .free | .reusing | .promoting | .spawning | .quiescing | .looking | .reading _ | .closing
  | .leaving => true
  | _ => false

end Holder

/-- The attempt has read the failures of its conduit. -/
def Attempt.carries : Attempt → Bool
  | .swapping _ _ _ _ | .respawning _ _ _ | .replaying _ _ => true
  | _ => false

namespace Transport

variable {s s' : Transport}

/-! ## The property -/

/-- Shutdown has ended the lifecycle, or a cold start has not come to its end: the slot is empty, and
in this mode only a cold start fills it. -/
def Ended (s : Transport) : Prop := s.serviceLifetime = true ∧ s.slot = none

/-- The last stop that came due has landed, or is owed, or the lifecycle has ended. -/
def Settled (s : Transport) : Prop := s.landed = s.stops ∨ s.incurred ≠ s.paid ∨ s.Ended

/-- A stop has come due and the cleanup that has to record it holds the lock. -/
def Unrecorded (s : Transport) : Prop := s.holder.beforeRecord = true ∧ s.slot ≠ none

/-- The last stop is settled, and the attempt's replay cannot pay for it unless it began after it. -/
structure Recorded (s : Transport) : Prop where
  settled : s.Settled
  replay : ∀ replay failures, s.attempt = some (.replaying replay failures) →
    s.landed = s.stops ∨ replay.hook.since = s.stops ∨ replay.paying < s.incurred

/-- A hook that is under way began with no more failures than there are now. -/
def Begun (s : Transport) (run : HookRun) : Prop :=
  run.since ≤ s.stops ∧ run.before ≤ s.wireFailures run.conduit

/-- What is known at the stages of the holder. -/
structure HolderKept (s : Transport) : Prop where
  lazy : s.holder.opener = some .acquire → s.serviceLifetime = false
  asserting : ∀ who replay, s.holder = .asserting who replay →
    replay.hook.since = s.stops ∧ replay.paying ≤ s.incurred ∧ s.Begun replay.hook
  publishing : ∀ who conduit, s.holder = .publishing who conduit → s.landed = s.stops
  stopping : ∀ run, s.holder = .stopping run → run.since = s.stops ∧ s.Begun run
  shutsDown : s.holder.shutsDown = true → s.serviceLifetime = true
  ending : s.holder = .ending → s.slot = none

/-- What is known at the stages of the attempt. -/
structure AttemptKept (s : Transport) : Prop where
  swapping : ∀ noClient cell conduit failures,
    s.attempt = some (.swapping noClient cell conduit failures) → failures ≤ s.wireFailures conduit
  respawning : ∀ noClient conduit failures,
    s.attempt = some (.respawning noClient conduit failures) → failures ≤ s.wireFailures conduit
  replaying : ∀ replay failures, s.attempt = some (.replaying replay failures) →
    replay.paying ≤ s.incurred ∧ failures ≤ replay.hook.before ∧ s.Begun replay.hook

/-- The invariant. -/
structure Kept (s : Transport) : Prop where
  paid : s.paid ≤ s.incurred
  failures : ∀ conduit, s.wireFailures conduit < u32
  landed : s.landed ≤ s.stops
  recorded : s.Unrecorded ∨ s.Recorded
  holder : s.HolderKept
  attempt : s.AttemptKept

theorem Kept.new : Kept new where
  paid := Nat.le_refl 0
  failures := fun _ => show 0 < u32 by decide
  landed := Nat.le_refl 0
  recorded := .inr ⟨.inl rfl, fun _ _ h => by cases h⟩
  holder := by
    constructor <;> intros <;> contradiction
  attempt := by
    constructor <;> intros <;> contradiction

/-! ## What a step may leave as it is -/

theorem HolderKept.of_plain (h : s.holder.plain = true) : s.HolderKept := by
  constructor
  · intro hopener
    cases hholder : s.holder <;> rw [hholder] at h hopener <;> contradiction
  · intro who replay hholder
    rw [hholder] at h
    cases h
  · intro who conduit hholder
    rw [hholder] at h
    cases h
  · intro run hholder
    rw [hholder] at h
    cases h
  · intro hshuts
    cases hholder : s.holder <;> rw [hholder] at h hshuts <;> contradiction
  · intro hholder
    rw [hholder] at h
    cases h

/-- The debt, the hooks and the attempt are the same, the slot is the same or empty, and the mode is
the same or the service-lifetime one. -/
structure SameDebt (s s' : Transport) : Prop where
  incurred : s'.incurred = s.incurred
  paid : s'.paid = s.paid
  failures : s'.wireFailures = s.wireFailures
  landed : s'.landed = s.landed
  stops : s'.stops = s.stops
  attempt : s'.attempt = s.attempt
  slot : s'.slot = none ∨ s'.slot = s.slot
  mode : s'.serviceLifetime = true ∨ s'.serviceLifetime = s.serviceLifetime

theorem Recorded.same (h : s.Recorded) (same : SameDebt s s') : s'.Recorded := by
  constructor
  · rw [Settled, same.landed, same.stops, same.incurred, same.paid]
    rcases h.settled with hlanded | howed | ⟨hmode, hslot⟩
    · exact .inl hlanded
    · exact .inr (.inl howed)
    · refine .inr (.inr ⟨?_, ?_⟩)
      · rcases same.mode with hmode' | hmode'
        · exact hmode'
        · rw [hmode', hmode]
      · rcases same.slot with hslot' | hslot'
        · exact hslot'
        · rw [hslot', hslot]
  · intro replay failures hattempt
    rw [same.landed, same.stops, same.incurred]
    rw [same.attempt] at hattempt
    exact h.replay replay failures hattempt

theorem AttemptKept.same (h : s.AttemptKept) (same : SameDebt s s') : s'.AttemptKept := by
  constructor
  · intro noClient cell conduit failures hattempt
    rw [same.attempt] at hattempt
    rw [same.failures]
    exact h.swapping noClient cell conduit failures hattempt
  · intro noClient conduit failures hattempt
    rw [same.attempt] at hattempt
    rw [same.failures]
    exact h.respawning noClient conduit failures hattempt
  · intro replay failures hattempt
    rw [same.attempt] at hattempt
    rw [Begun, same.failures, same.incurred, same.stops]
    exact h.replaying replay failures hattempt

namespace Kept

/-- A step of the holder that leaves the debt. -/
theorem move (h : s.Kept) (same : SameDebt s s') (holder : s'.HolderKept)
    (recorded : s'.Unrecorded ∨ s.Recorded) : s'.Kept where
  paid := by
    rw [same.paid, same.incurred]
    exact h.paid
  failures := by
    rw [same.failures]
    exact h.failures
  landed := by
    rw [same.landed, same.stops]
    exact h.landed
  recorded := recorded.imp_right fun hrecorded => hrecorded.same same
  holder := holder
  attempt := h.attempt.same same

/-- Nothing is unrecorded unless a cleanup is under way. -/
theorem recorded_of (h : s.Kept) (hholder : s.holder.beforeRecord = false) : s.Recorded := by
  rcases h.recorded with hun | hrecorded
  · rw [hun.1] at hholder
    cases hholder
  · exact hrecorded

theorem recorded_of_slot (h : s.Kept) (hslot : s.slot = none) : s.Recorded := by
  rcases h.recorded with hun | hrecorded
  · exact absurd hslot hun.2
  · exact hrecorded

/-- A step to a stage about which nothing is known. -/
theorem plain (h : s.Kept) (same : SameDebt s s') (hbefore : s.holder.beforeRecord = false)
    (hplain : s'.holder.plain = true) : s'.Kept :=
  h.move same (.of_plain hplain) (.inr (h.recorded_of hbefore))

end Kept

/-! ## The debt -/

/-- No counter of the transport comes round: the debt, and the failures of each conduit. -/
def HasRoom (s : Transport) (input : LifecycleInput) : Prop :=
  s.incurred + 1 < u32 ∧ ∀ conduit ∈ input.failing, s.wireFailures conduit + 1 < u32

/-- What is known while the holder stays where it is and the debt grows. -/
theorem HolderKept.grow (h : s.HolderKept) (hholder : s'.holder = s.holder)
    (hmode : s'.serviceLifetime = s.serviceLifetime) (hslot : s'.slot = s.slot)
    (hstops : s'.stops = s.stops) (hincurred : s.incurred ≤ s'.incurred)
    (hfailures : ∀ conduit, s.wireFailures conduit ≤ s'.wireFailures conduit)
    (hlanded : s.landed = s.stops → s'.landed = s.stops) : s'.HolderKept := by
  have hbegun : ∀ run, s.Begun run → s'.Begun run := by
    intro run hrun
    rw [Begun, hstops]
    exact ⟨hrun.1, Nat.le_trans hrun.2 (hfailures run.conduit)⟩
  constructor
  · intro hopener
    rw [hholder] at hopener
    rw [hmode]
    exact h.lazy hopener
  · intro who replay hasserting
    rw [hholder] at hasserting
    obtain ⟨hsince, hpaying, hrun⟩ := h.asserting who replay hasserting
    rw [hstops]
    exact ⟨hsince, Nat.le_trans hpaying hincurred, hbegun replay.hook hrun⟩
  · intro who conduit hpublishing
    rw [hholder] at hpublishing
    rw [hstops]
    exact hlanded (h.publishing who conduit hpublishing)
  · intro run hstopping
    rw [hholder] at hstopping
    obtain ⟨hsince, hrun⟩ := h.stopping run hstopping
    rw [hstops]
    exact ⟨hsince, hbegun run hrun⟩
  · intro hshuts
    rw [hholder] at hshuts
    rw [hmode]
    exact h.shutsDown hshuts
  · intro hending
    rw [hholder] at hending
    rw [hslot]
    exact h.ending hending

theorem incur_incurred (room : s.incurred + 1 < u32) : s.incur.incurred = s.incurred + 1 :=
  Nat.mod_eq_of_lt room

/-- A debt that was just incurred is outstanding, and no replay that is under way can pay for it. -/
theorem Kept.incur (h : s.Kept) (room : s.incurred + 1 < u32) : s.incur.Kept ∧ s.incur.Recorded := by
  have hincurred := incur_incurred room
  have hrecorded : s.incur.Recorded := by
    constructor
    · refine .inr (.inl ?_)
      have hpaid := h.paid
      show s.incur.incurred ≠ s.paid
      omega
    · intro replay failures hattempt
      have hpaying := (h.attempt.replaying replay failures hattempt).1
      exact .inr (.inr (by omega))
  have hkept : s.incur.Kept := by
    constructor
    case paid =>
      have hpaid := h.paid
      show s.paid ≤ s.incur.incurred
      omega
    case failures => exact h.failures
    case landed => exact h.landed
    case recorded => exact .inr hrecorded
    case holder =>
      exact h.holder.grow rfl rfl rfl rfl (by omega) (fun _ => Nat.le_refl _) id
    case attempt =>
      refine ⟨h.attempt.swapping, h.attempt.respawning, ?_⟩
      intro replay failures hattempt
      obtain ⟨hpaying, hbefore, hrun⟩ := h.attempt.replaying replay failures hattempt
      exact ⟨by omega, hbefore, hrun⟩
  exact ⟨hkept, hrecorded⟩

/-! ## The hook -/

variable {verdict : StateAssertion}

/-- What the code reads as a hook that did not miss is one that landed. -/
theorem landed_of_not_missed (h : s.Kept) {conduit before : Nat}
    (hbefore : before ≤ s.wireFailures conduit) (hmissed : s.missed conduit before verdict = false) :
    verdict = .asserted ∧ s.wireFailures conduit = before := by
  rw [missed, Bool.or_eq_false_iff, decide_eq_false_iff_not, decide_eq_false_iff_not,
    not_not] at hmissed
  have hroom := h.failures conduit
  rw [Nat.mod_eq_of_lt hroom, Nat.mod_eq_of_lt (by omega)] at hmissed
  refine ⟨?_, hmissed.1⟩
  cases verdict with
  | asserted => rfl
  | notAsserted => exact absurd rfl hmissed.2

theorem land_eq (run : HookRun) (verdict : StateAssertion) :
    s.land run verdict = { s with landed := (s.land run verdict).landed } := by
  rw [land]
  split <;> rfl

variable {run : HookRun}

theorem land_bounds (verdict : StateAssertion) (hlanded : s.landed ≤ s.stops)
    (hsince : run.since ≤ s.stops) :
    s.landed ≤ (s.land run verdict).landed ∧ (s.land run verdict).landed ≤ s.stops := by
  rw [land]
  split
  · exact ⟨Nat.le_max_left _ _, Nat.max_le.mpr ⟨hlanded, hsince⟩⟩
  · exact ⟨Nat.le_refl _, hlanded⟩

/-- A hook that landed and began after the last stop answers for it. -/
theorem land_landed (h : s.Landed run verdict)
    (hlanded : s.landed ≤ s.stops) (hsince : run.since = s.stops) :
    (s.land run verdict).landed = s.stops := by
  rw [land, if_pos h]
  show max s.landed run.since = s.stops
  rw [hsince]
  exact Nat.max_eq_right hlanded

/-- Landing leaves the invariant, whatever it lands. -/
theorem Kept.land (h : s.Kept) (verdict : StateAssertion) (hrun : s.Begun run) :
    (s.land run verdict).Kept := by
  obtain ⟨hmore, hbound⟩ := land_bounds verdict h.landed hrun.1
  have hlanded : s.landed = s.stops → (s.land run verdict).landed = s.stops := by
    intro heq
    omega
  rw [land_eq]
  constructor
  case paid => exact h.paid
  case failures => exact h.failures
  case landed => exact hbound
  case recorded =>
    refine h.recorded.imp_right ?_
    intro hrecorded
    exact ⟨hrecorded.settled.imp_left hlanded,
      fun replay failures hattempt => (hrecorded.replay replay failures hattempt).imp_left hlanded⟩
  case holder => exact h.holder.grow rfl rfl rfl rfl (Nat.le_refl _) (fun _ => Nat.le_refl _) hlanded
  case attempt => exact ⟨h.attempt.swapping, h.attempt.respawning, h.attempt.replaying⟩

/-- Once the last stop has landed, it is settled for good. -/
theorem Recorded.of_landed (h : s.landed = s.stops) : s.Recorded :=
  ⟨.inl h, fun _ _ _ => .inl h⟩

/-- A payment up to a count that the debt has reached. -/
theorem Kept.pay (h : s.Kept) {count : Nat} (hcount : count ≤ s.incurred)
    (hsettled : s.Unrecorded ∨ (s.pay count).Settled) : (s.pay count).Kept := by
  constructor
  case paid => exact Nat.max_le.mpr ⟨h.paid, hcount⟩
  case failures => exact h.failures
  case landed => exact h.landed
  case recorded =>
    rcases h.recorded with hun | hrecorded
    · exact .inl hun
    · rcases hsettled with hun | hsettled
      · exact .inl hun
      · exact .inr ⟨hsettled, hrecorded.replay⟩
  case holder => exact h.holder.grow rfl rfl rfl rfl (Nat.le_refl _) (fun _ => Nat.le_refl _) id
  case attempt => exact ⟨h.attempt.swapping, h.attempt.respawning, h.attempt.replaying⟩

/-! ## Taking the lock -/

namespace Kept

theorem acquire (h : s.Kept) (hfree : s.holder = .free) : s.acquire.Kept := by
  have hbefore : s.holder.beforeRecord = false := by
    rw [hfree]
    rfl
  rw [Transport.acquire]
  split
  · exact h
  · split
    · next hlazy =>
        have hmode := (Bool.and_eq_true_iff.mp hlazy).2
        refine h.move ⟨rfl, rfl, rfl, rfl, rfl, rfl, .inr rfl, .inr rfl⟩ ?_
          (.inr (h.recorded_of hbefore))
        refine ⟨fun _ => (Bool.not_eq_true' _).mp hmode, ?_, ?_, ?_, ?_, ?_⟩ <;> intros <;>
          contradiction
    · exact h.plain ⟨rfl, rfl, rfl, rfl, rfl, rfl, .inr rfl, .inr rfl⟩ hbefore rfl

/-- The stop that comes due is the cleanup's to record. -/
theorem lastReleased (h : s.Kept) (hfree : s.holder = .free) : s.lastReleased.Kept := by
  have hrecorded := h.recorded_of (by rw [hfree]; rfl)
  cases hslot : s.slot with
  | none =>
    have hsame : ∀ t : Transport, t.incurred = s.incurred → t.paid = s.paid →
        t.wireFailures = s.wireFailures → t.landed = s.landed → t.stops = s.stops →
        t.attempt = s.attempt → t.slot = s.slot → t.serviceLifetime = s.serviceLifetime →
        SameDebt s t :=
      fun t h1 h2 h3 h4 h5 h6 h7 h8 => ⟨h1, h2, h3, h4, h5, h6, .inr h7, .inr h8⟩
    rw [Transport.lastReleased]
    simp only [hslot, Option.isSome_none, Bool.false_eq_true, if_false]
    split
    · exact h.move (hsame _ rfl rfl rfl rfl rfl rfl hslot.symm rfl) (.of_plain rfl)
        (.inr hrecorded)
    · exact h.move (hsame _ rfl rfl rfl rfl rfl rfl hslot.symm rfl) (.of_plain rfl)
        (.inr hrecorded)
  | some cell =>
    have hkept : ∀ t : Transport, t.incurred = s.incurred → t.paid = s.paid →
        t.wireFailures = s.wireFailures → t.landed = s.landed → t.stops = s.stops + 1 →
        t.attempt = s.attempt → t.slot = some cell → t.holder.beforeHook = true → t.Kept := by
      intro t hincurred hpaid hfailures hlanded hstops hattempt hslot' hholder
      constructor
      case paid =>
        rw [hpaid, hincurred]
        exact h.paid
      case failures =>
        rw [hfailures]
        exact h.failures
      case landed =>
        rw [hlanded, hstops]
        exact Nat.le_succ_of_le h.landed
      case recorded =>
        refine .inl ⟨?_, ?_⟩
        · cases hstage : t.holder <;> rw [hstage] at hholder <;> first | rfl | cases hholder
        · rw [hslot']
          exact Option.some_ne_none cell
      case holder =>
        refine .of_plain ?_
        cases hstage : t.holder <;> rw [hstage] at hholder <;> first | rfl | cases hholder
      case attempt =>
        constructor
        · intro noClient c conduit failures hstage
          rw [hattempt] at hstage
          rw [hfailures]
          exact h.attempt.swapping noClient c conduit failures hstage
        · intro noClient conduit failures hstage
          rw [hattempt] at hstage
          rw [hfailures]
          exact h.attempt.respawning noClient conduit failures hstage
        · intro replay failures hstage
          rw [hattempt] at hstage
          obtain ⟨hpaying, hbefore, hsince, hrun⟩ := h.attempt.replaying replay failures hstage
          rw [hincurred, Begun, hfailures, hstops]
          exact ⟨hpaying, hbefore, Nat.le_succ_of_le hsince, hrun⟩
    rw [Transport.lastReleased]
    simp only [hslot, Option.isSome_some, if_true]
    split
    · exact hkept _ rfl rfl rfl rfl rfl rfl rfl rfl
    · exact hkept _ rfl rfl rfl rfl rfl rfl rfl rfl

theorem release (h : s.Kept) (hfree : s.holder = .free) : s.release.Kept := by
  have hcounted : { s with
      count := oneLess s.count, sessions := s.sessions - 1 }.Kept := by
    refine h.plain ⟨rfl, rfl, rfl, rfl, rfl, rfl, .inr rfl, .inr rfl⟩ ?_ ?_ <;> rw [hfree] <;> rfl
  rw [Transport.release]
  split
  · exact hcounted.lastReleased hfree
  · exact hcounted

theorem start (h : s.Kept) (hfree : s.holder = .free) : s.start.Kept := by
  have hbefore : s.holder.beforeRecord = false := by
    rw [hfree]
    rfl
  rw [Transport.start]
  split
  · exact h
  · split
    · exact h.plain ⟨rfl, rfl, rfl, rfl, rfl, rfl, .inr rfl, .inr rfl⟩ hbefore rfl
    · refine h.move ⟨rfl, rfl, rfl, rfl, rfl, rfl, .inr rfl, .inr rfl⟩ ?_
        (.inr (h.recorded_of hbefore))
      constructor
      case lazy =>
        intro hopener
        cases hopener
      all_goals intros; contradiction

theorem shutdown (h : s.Kept) (hfree : s.holder = .free) : s.shutdown.Kept := by
  rw [Transport.shutdown]
  split
  · next hmode =>
      refine h.move ⟨rfl, rfl, rfl, rfl, rfl, rfl, .inr rfl, .inr rfl⟩ ?_
        (.inr (h.recorded_of (by rw [hfree]; rfl)))
      refine ⟨?_, ?_, ?_, ?_, fun _ => hmode, ?_⟩ <;> intros <;> contradiction
  · exact h

/-! ## Opening -/

theorem failOpen (h : s.Kept) (hbefore : s.holder.beforeRecord = false) (who : Opener) :
    (s.failOpen who).Kept := by
  cases who with
  | acquire | start => exact h.plain ⟨rfl, rfl, rfl, rfl, rfl, rfl, .inr rfl, .inr rfl⟩ hbefore rfl


variable {who : Opener}

/-- A stage of an open other than its hook and its publish. -/
theorem goesOpening (h : s.Kept) (hopener : s.holder.opener = some who)
    (same : SameDebt s s') (hmode : s'.serviceLifetime = s.serviceLifetime)
    (hbefore : s.holder.beforeRecord = false) (hopener' : s'.holder.opener = some who)
    (hasserting : ∀ who replay, s'.holder ≠ .asserting who replay)
    (hpublishing : ∀ who conduit, s'.holder ≠ .publishing who conduit) : s'.Kept := by
  refine h.move same ?_ (.inr (h.recorded_of hbefore))
  constructor
  · intro hacquire
    rw [hmode]
    rw [hopener'] at hacquire
    exact h.holder.lazy (hopener.trans hacquire)
  · exact fun who replay hholder => absurd hholder (hasserting who replay)
  · exact fun who conduit hholder => absurd hholder (hpublishing who conduit)
  · intro run hholder
    rw [hholder] at hopener'
    cases hopener'
  · intro hshuts
    cases hholder : s'.holder <;> rw [hholder] at hshuts hopener' <;> contradiction
  · intro hholder
    rw [hholder] at hopener'
    cases hopener'

/-- `assert_no_client_state` starts its hook with a debt of its own. -/
theorem assertNoClientState (h : s.Kept) (room : s.incurred + 1 < u32)
    (hlazy : who = .acquire → s.serviceLifetime = false) (conduit : Nat) :
    (s.assertNoClientState who conduit).Kept := by
  obtain ⟨hkept, hrecorded⟩ := h.incur room
  have hincurred := incur_incurred room
  refine hkept.move ⟨rfl, rfl, rfl, rfl, rfl, rfl, .inr rfl, .inr rfl⟩ ?_ (.inr hrecorded)
  constructor
  · intro hacquire
    exact hlazy (Option.some.inj hacquire)
  · intro who' replay hholder
    cases hholder
    refine ⟨rfl, ?_, Nat.le_refl _, Nat.le_refl _⟩
    show s.incurred + 1 ≤ s.incur.incurred
    omega
  · intro who' conduit' hholder
    cases hholder
  · intro run hholder
    cases hholder
  · intro hshuts
    cases hshuts
  · intro hholder
    cases hholder

/-- In the lazy mode nothing is left to settle once no debt is outstanding. -/
theorem landed_of_lazy (h : s.Recorded) (hmode : s.serviceLifetime = false)
    (howed : s.debtOutstanding = false) : s.landed = s.stops := by
  rw [debtOutstanding, decide_eq_false_iff_not, not_not] at howed
  rcases h.settled with hlanded | hincurred | hended
  · exact hlanded
  · exact absurd howed hincurred
  · rw [hended.1] at hmode
    cases hmode

variable {conduit : Nat}

/-- A stage that waits to publish, when the last stop has landed. -/
theorem publishing (h : s.Kept) (same : SameDebt s s') (hlanded : s.landed = s.stops)
    (hholder : s'.holder = .publishing who conduit)
    (hlazy : who = .acquire → s'.serviceLifetime = false) : s'.Kept := by
  refine h.move same ?_ (.inr (.of_landed hlanded))
  constructor
  · intro hacquire
    rw [hholder] at hacquire
    exact hlazy (Option.some.inj hacquire)
  · intro who' replay hstage
    rw [hholder] at hstage
    cases hstage
  · intro _ _ _
    rw [same.landed, same.stops]
    exact hlanded
  · intro run hstage
    rw [hholder] at hstage
    cases hstage
  · intro hshuts
    rw [hholder] at hshuts
    cases hshuts
  · intro hstage
    rw [hholder] at hstage
    cases hstage

theorem handshaken (h : s.Kept) (room : s.incurred + 1 < u32)
    (hbefore : s.holder.beforeRecord = false)
    (hlazy : who = .acquire → s.serviceLifetime = false) (conduit : Nat) :
    (s.handshaken conduit who).Kept := by
  cases who with
  | acquire =>
    rw [Transport.handshaken]
    split
    · exact h.assertNoClientState room hlazy conduit
    · next howed =>
        refine h.publishing ⟨rfl, rfl, rfl, rfl, rfl, rfl, .inr rfl, .inr rfl⟩ ?_ rfl hlazy
        exact landed_of_lazy (h.recorded_of hbefore) (hlazy rfl) (Bool.eq_false_iff.mpr howed)
  | start => exact h.assertNoClientState room hlazy conduit

variable {replay : Replay}

/-- The hook of an open comes to its end. -/
theorem asserted (h : s.Kept)
    (hholder : s.holder = .asserting who replay) (verdict : StateAssertion) :
    (s.asserted who replay verdict).Kept := by
  obtain ⟨hsince, hpaying, hbegun⟩ := h.holder.asserting who replay hholder
  have hland := h.land verdict hbegun
  have hopener : s.holder.opener = some who := by
    rw [hholder]
    rfl
  have hbefore : s.holder.beforeRecord = false := by
    rw [hholder]
    rfl
  rw [Transport.asserted]
  cases hmissed : s.missed replay.hook.conduit replay.hook.before verdict with
  | true =>
    rw [if_pos rfl]
    rw [land_eq] at hland ⊢
    exact hland.goesOpening hopener ⟨rfl, rfl, rfl, rfl, rfl, rfl, .inr rfl, .inr rfl⟩ rfl hbefore
      rfl (fun _ _ hstage => by cases hstage) (fun _ _ hstage => by cases hstage)
  | false =>
    have hlanded : (s.land replay.hook verdict).landed = s.stops :=
      land_landed (landed_of_not_missed h hbegun.2 hmissed) h.landed hsince
    rw [if_neg Bool.false_ne_true]
    rw [land_eq] at hland ⊢
    have hpaid := hland.pay hpaying (.inr (.inl hlanded))
    refine hpaid.publishing ⟨rfl, rfl, rfl, rfl, rfl, rfl, .inr rfl, .inr rfl⟩ hlanded rfl ?_
    intro hwho
    rw [hwho] at hopener
    exact h.holder.lazy hopener

/-- A new cell fills the slot once the last stop has landed. -/
theorem publish (h : s.Kept)
    (hholder : s.holder = .publishing who conduit) : (s.publish conduit who).Kept := by
  have hlanded := h.holder.publishing who conduit hholder
  cases who with
  | acquire | start =>
    exact ⟨h.paid, h.failures, h.landed, .inr (.of_landed hlanded), .of_plain rfl,
      ⟨h.attempt.swapping, h.attempt.respawning, h.attempt.replaying⟩⟩

/-! ## The cleanup -/

/-- The last stages of a cleanup that has recorded its stop. -/
theorem cleanedUp (h : s.Kept) (hrecorded : s.Recorded) : s.cleanedUp.Kept := by
  rw [Transport.cleanedUp]
  split
  · exact h.move ⟨rfl, rfl, rfl, rfl, rfl, rfl, .inr rfl, .inr rfl⟩ (.of_plain rfl) (.inr hrecorded)
  · exact h.move ⟨rfl, rfl, rfl, rfl, rfl, rfl, .inr rfl, .inr rfl⟩ (.of_plain rfl) (.inr hrecorded)

/-- A stop that is recorded as owed is settled. -/
theorem oweStop (h : s.Kept) (room : s.incurred + 1 < u32) :
    s.oweStop.Kept ∧ s.oweStop.Recorded := by
  obtain ⟨hkept, hrecorded⟩ := h.incur room
  rw [Transport.oweStop]
  split
  · have same : SameDebt s.incur s.incur.outOfService :=
      ⟨rfl, rfl, rfl, rfl, rfl, rfl, .inr rfl, .inr rfl⟩
    refine ⟨hkept.move same ?_ (.inr hrecorded), hrecorded.same same⟩
    exact hkept.holder.grow rfl rfl rfl rfl (Nat.le_refl _) (fun _ => Nat.le_refl _) id
  · exact ⟨hkept, hrecorded⟩

/-- The hook of a cleanup has returned: it landed, or the stop is owed. -/
theorem stopped (h : s.Kept) (room : s.incurred + 1 < u32) {run : HookRun}
    (hholder : s.holder = .stopping run) (verdict : StateAssertion) :
    (s.stopped run verdict).Kept := by
  obtain ⟨hsince, hbegun⟩ := h.holder.stopping run hholder
  have hland := h.land verdict hbegun
  rw [Transport.stopped]
  cases hmissed : s.missed run.conduit run.before verdict with
  | true =>
    rw [if_pos rfl]
    have hroom : (s.land run verdict).incurred + 1 < u32 := by
      rw [land_eq]
      exact room
    obtain ⟨hkept, hrecorded⟩ := hland.oweStop hroom
    exact hkept.cleanedUp hrecorded
  | false =>
    rw [if_neg Bool.false_ne_true]
    have hlanded : (s.land run verdict).landed = (s.land run verdict).stops := by
      rw [land_landed (landed_of_not_missed h hbegun.2 hmissed) h.landed hsince, land_eq]
    exact hland.cleanedUp (.of_landed hlanded)

/-- The hook of a cleanup starts on the conduit of the slot's cell. -/
theorem starts (h : s.Kept) (conduit : Nat) :
    (s.goTo (.stopping (s.begun conduit))).Kept := by
  refine h.move ⟨rfl, rfl, rfl, rfl, rfl, rfl, .inr rfl, .inr rfl⟩ ?_ ?_
  · constructor
    case stopping =>
      intro run hrun
      cases hrun
      exact ⟨rfl, Nat.le_refl _, Nat.le_refl _⟩
    case lazy =>
      intro hopener
      cases hopener
    case shutsDown =>
      intro hshuts
      cases hshuts
    all_goals intros; contradiction
  · exact h.recorded.imp_left fun hun => ⟨rfl, hun.2⟩

/-- A stage of a cleanup that comes before its hook. -/
theorem goesStopping (h : s.Kept) {holder : Holder} (hplain : holder.plain = true)
    (hbefore : holder.beforeRecord = true) : (s.goTo holder).Kept := by
  refine h.move ⟨rfl, rfl, rfl, rfl, rfl, rfl, .inr rfl, .inr rfl⟩ (.of_plain hplain) ?_
  exact h.recorded.imp_left fun hun => ⟨hbefore, hun.2⟩

/-! ## The shutdown -/

/-- A stage of a shutdown that leaves the mode. -/
theorem goesShutDown (h : s.Kept) (hshuts : s.holder.shutsDown = true) (same : SameDebt s s')
    (hbefore : s.holder.beforeRecord = false) (hopener : s'.holder.opener = none)
    (hstopping : ∀ run, s'.holder ≠ .stopping run)
    (hending : s'.holder = .ending → s'.slot = none) : s'.Kept := by
  refine h.move same ?_ (.inr (h.recorded_of hbefore))
  constructor
  · intro hacquire
    rw [hopener] at hacquire
    cases hacquire
  · intro who replay hholder
    rw [hholder] at hopener
    cases hopener
  · intro who conduit hholder
    rw [hholder] at hopener
    cases hopener
  · exact fun run hholder => absurd hholder (hstopping run)
  · intro _
    rcases same.mode with hmode | hmode
    · exact hmode
    · rw [hmode]
      exact h.holder.shutsDown hshuts
  · exact hending

/-- The end of a lifecycle pays for every debt, with the slot empty. -/
theorem ends (h : s.Kept) (hholder : s.holder = .ending) :
    ({ s with reconnecting := false, holder := .leaving }.pay s.incurred).Kept := by
  have hmode := h.holder.shutsDown (by rw [hholder]; rfl)
  have hslot := h.holder.ending hholder
  have hplain : { s with reconnecting := false, holder := .leaving }.Kept :=
    h.plain ⟨rfl, rfl, rfl, rfl, rfl, rfl, .inr rfl, .inr rfl⟩ (by rw [hholder]; rfl) rfl
  exact hplain.pay (Nat.le_refl _) (.inr (.inr (.inr ⟨hmode, hslot⟩)))

/-! ## From await to await -/

/-- An open goes on to a stage that is neither its hook nor its publish. -/
theorem opens (h : s.Kept) (same : SameDebt s s')
    (hmode : s'.serviceLifetime = s.serviceLifetime) (hopener : s.holder.opener = some who)
    (hholder : s'.holder = .emptying who ∨ s'.holder = .opening who ∨
      ∃ conduit, s'.holder = .handshaking who conduit) : s'.Kept := by
  have hbefore : s.holder.beforeRecord = false := by
    cases hstage : s.holder <;> rw [hstage] at hopener <;> first | rfl | cases hopener
  refine h.goesOpening hopener same hmode hbefore ?_ ?_ ?_
  · rcases hholder with hstage | hstage | ⟨conduit, hstage⟩ <;> rw [hstage] <;> rfl
  · intro who' replay hasserting
    rw [hasserting] at hholder
    rcases hholder with hstage | hstage | ⟨conduit, hstage⟩ <;> cases hstage
  · intro who' conduit' hpublishing
    rw [hpublishing] at hholder
    rcases hholder with hstage | hstage | ⟨conduit, hstage⟩ <;> cases hstage

variable {answer : Answer}

theorem resume (h : s.Kept) (room : s.incurred + 1 < u32)
    (hnext : s.resume answer = some s') : s'.Kept := by
  rw [Transport.resume.eq_def] at hnext
  split at hnext
  case h_1 who hholder =>
    cases hnext
    exact h.opens ⟨rfl, rfl, rfl, rfl, rfl, rfl, .inr rfl, .inr rfl⟩ rfl (by rw [hholder]; rfl)
      (.inl rfl)
  case h_2 who hholder =>
    cases hnext
    exact h.opens ⟨rfl, rfl, rfl, rfl, rfl, rfl, .inl rfl, .inr rfl⟩ rfl (by rw [hholder]; rfl)
      (.inr (.inl rfl))
  case h_3 who hholder =>
    cases hnext
    exact h.opens ⟨rfl, rfl, rfl, rfl, rfl, rfl, .inr rfl, .inr rfl⟩ rfl (by rw [hholder]; rfl)
      (.inr (.inr ⟨_, rfl⟩))
  case h_4 who hholder | h_5 who conduit hholder | h_6 who hholder =>
    cases hnext
    exact h.failOpen (by rw [hholder]; rfl) who
  case h_7 who conduit hholder =>
    cases hnext
    refine h.handshaken room (by rw [hholder]; rfl) ?_ conduit
    intro hwho
    exact h.holder.lazy (by rw [hholder, hwho]; rfl)
  case h_8 who replay verdict hholder =>
    cases hnext
    exact h.asserted hholder verdict
  case h_9 who conduit hholder =>
    cases hnext
    exact h.publish hholder
  case h_10 hholder =>
    have hbefore : s.holder.beforeRecord = false := by rw [hholder]; rfl
    split at hnext
    · cases hnext
      exact h.plain ⟨rfl, rfl, rfl, rfl, rfl, rfl, .inr rfl, .inr rfl⟩ hbefore rfl
    · cases hnext
      exact h.failOpen hbefore .acquire
  case h_11 hholder =>
    cases hnext
    exact h.plain ⟨rfl, rfl, rfl, rfl, rfl, rfl, .inr rfl, .inl rfl⟩ (by rw [hholder]; rfl) rfl
  case h_12 hholder =>
    cases hnext
    exact h.plain ⟨rfl, rfl, rfl, rfl, rfl, rfl, .inr rfl, .inr rfl⟩ (by rw [hholder]; rfl) rfl
  case h_13 hholder =>
    cases hnext
    exact h.goesStopping rfl rfl
  case h_14 hholder =>
    split at hnext
    · cases hnext
      exact h.goesStopping rfl rfl
    · next hslot =>
        cases hnext
        exact h.cleanedUp (h.recorded_of_slot hslot)
  case h_15 cell hholder =>
    cases hnext
    exact h.starts _
  case h_16 run verdict hholder =>
    cases hnext
    exact h.stopped room hholder verdict
  case h_17 hholder =>
    cases hnext
    exact h.plain ⟨rfl, rfl, rfl, rfl, rfl, rfl, .inl rfl, .inr rfl⟩ (by rw [hholder]; rfl) rfl
  case h_18 hholder | h_19 hholder | h_20 hholder =>
    cases hnext
    exact h.goesShutDown (by rw [hholder]; rfl)
      ⟨rfl, rfl, rfl, rfl, rfl, rfl, .inr rfl, .inr rfl⟩ (by rw [hholder]; rfl) rfl
      (fun run hstage => by cases hstage) (fun hstage => by cases hstage)
  case h_21 hholder =>
    cases hnext
    exact h.goesShutDown (by rw [hholder]; rfl)
      ⟨rfl, rfl, rfl, rfl, rfl, rfl, .inl rfl, .inr rfl⟩ (by rw [hholder]; rfl) rfl
      (fun run hstage => by cases hstage) (fun _ => rfl)
  case h_22 hholder =>
    cases hnext
    exact h.ends hholder
  case h_23 hholder =>
    cases hnext
    exact h.plain ⟨rfl, rfl, rfl, rfl, rfl, rfl, .inr rfl, .inr rfl⟩ (by rw [hholder]; rfl) rfl
  case h_24 => cases hnext

/-- A dropped future leaves the invariant, unless it is a cleanup that has not started its hook. -/
theorem dropHolder (h : s.Kept) (room : s.incurred + 1 < u32)
    (hearly : s.holder.beforeHook = true → s.slot = none) (hnext : s.dropHolder = some s') :
    s'.Kept := by
  have hlets : s.Recorded → (s.goTo .free).Kept := fun hrecorded =>
    h.move ⟨rfl, rfl, rfl, rfl, rfl, rfl, .inr rfl, .inr rfl⟩ (.of_plain rfl) (.inr hrecorded)
  cases hholder : s.holder with
  | free =>
    simp only [Transport.dropHolder, hholder] at hnext
    cases hnext
  | releasing who | emptying who | opening who | handshaking who conduit | asserting who replay
  | failing who | publishing who conduit =>
    simp only [Transport.dropHolder, hholder] at hnext
    cases hnext
    exact h.failOpen (by rw [hholder]; rfl) who
  | spawning =>
    simp only [Transport.dropHolder, hholder] at hnext
    cases hnext
    exact h.failOpen (by rw [hholder]; rfl) .start
  | stopping run =>
    simp only [Transport.dropHolder, hholder] at hnext
    cases hnext
    obtain ⟨hkept, hrecorded⟩ := h.oweStop room
    exact hkept.move ⟨rfl, rfl, rfl, rfl, rfl, rfl, .inr rfl, .inr rfl⟩ (.of_plain rfl)
      (.inr hrecorded)
  | quiescing | looking | reading cell =>
    simp only [Transport.dropHolder, hholder] at hnext
    cases hnext
    exact hlets (h.recorded_of_slot (hearly (by rw [hholder]; rfl)))
  | reusing | promoting | closing | withdrawing | joining | shuttingDown | taking | ending
  | leaving =>
    simp only [Transport.dropHolder, hholder] at hnext
    cases hnext
    exact hlets (h.recorded_of (by rw [hholder]; rfl))

/-! ## Beside the lock -/

/-- A step that changes neither the debt nor the holder nor the attempt. -/
theorem beside (h : s.Kept) (same : SameDebt s s') (hholder : s'.holder = s.holder)
    (hslot : s'.slot = s.slot) (hmode : s'.serviceLifetime = s.serviceLifetime) : s'.Kept := by
  refine h.move same ?_ (h.recorded.imp_left ?_)
  · refine h.holder.grow hholder hmode hslot same.stops (Nat.le_of_eq same.incurred.symm) ?_ ?_
    · intro conduit
      exact Nat.le_of_eq (by rw [same.failures])
    · intro hlanded
      rw [same.landed, hlanded]
  · intro hun
    rw [Unrecorded, hholder, hslot]
    exact hun

theorem wireFailure (h : s.Kept) (room : s.wireFailures conduit + 1 < u32) :
    { s with wireFailures := fun c =>
      if c = conduit then s.wireFailures c + 1 else s.wireFailures c }.Kept := by
  have hmore : ∀ c, s.wireFailures c ≤
      if c = conduit then s.wireFailures c + 1 else s.wireFailures c := by
    intro c
    split <;> omega
  constructor
  case paid => exact h.paid
  case failures =>
    intro c
    show (if c = conduit then s.wireFailures c + 1 else s.wireFailures c) < u32
    split
    · next heq =>
        rw [heq]
        exact room
    · exact h.failures c
  case landed => exact h.landed
  case recorded => exact h.recorded.imp_right fun hrecorded => ⟨hrecorded.settled, hrecorded.replay⟩
  case holder => exact h.holder.grow rfl rfl rfl rfl (Nat.le_refl _) hmore id
  case attempt =>
    constructor
    · intro noClient cell c failures hattempt
      exact Nat.le_trans (h.attempt.swapping noClient cell c failures hattempt) (hmore c)
    · intro noClient c failures hattempt
      exact Nat.le_trans (h.attempt.respawning noClient c failures hattempt) (hmore c)
    · intro replay failures hattempt
      obtain ⟨hpaying, hbefore, hsince, hrun⟩ := h.attempt.replaying replay failures hattempt
      exact ⟨hpaying, hbefore, hsince, Nat.le_trans hrun (hmore _)⟩

variable {attempt : Option Attempt}

/-- The attempt goes to a stage other than its replay. -/
theorem attempts (h : s.Kept) (supervisor : Supervisor) (opened : Nat)
    (cells : List Nat) (hreplaying : ∀ replay failures, attempt ≠ some (.replaying replay failures))
    (hswapping : ∀ noClient cell conduit failures,
      attempt = some (.swapping noClient cell conduit failures) → failures ≤ s.wireFailures conduit)
    (hrespawning : ∀ noClient conduit failures,
      attempt = some (.respawning noClient conduit failures) → failures ≤ s.wireFailures conduit) :
    { s with
      attempt := attempt, supervisor := supervisor, opened := opened, cells := cells }.Kept := by
  constructor
  case paid => exact h.paid
  case failures => exact h.failures
  case landed => exact h.landed
  case recorded =>
    exact h.recorded.imp_right fun hrecorded => ⟨hrecorded.settled,
      fun replay failures hattempt => absurd hattempt (hreplaying replay failures)⟩
  case holder => exact h.holder.grow rfl rfl rfl rfl (Nat.le_refl _) (fun _ => Nat.le_refl _) id
  case attempt =>
    exact ⟨hswapping, hrespawning,
      fun replay failures hattempt => absurd hattempt (hreplaying replay failures)⟩

/-- The attempt goes to a stage that carries no count of failures, or ends. -/
theorem attemptsIdle (h : s.Kept) (supervisor : Supervisor)
    (opened : Nat) (hidle : attempt.any Attempt.carries = false) :
    { s with attempt := attempt, supervisor := supervisor, opened := opened }.Kept := by
  refine h.attempts supervisor opened s.cells ?_ ?_ ?_
  · intro replay failures hstage
    rw [hstage] at hidle
    cases hidle
  · intro noClient cell conduit failures hstage
    rw [hstage] at hidle
    cases hidle
  · intro noClient conduit failures hstage
    rw [hstage] at hidle
    cases hidle

theorem endAttempt (h : s.Kept) (next : Supervisor) : (s.endAttempt next).Kept :=
  h.attemptsIdle _ s.opened rfl

theorem attemptFails (h : s.Kept) : (s.attemptGoesTo (some .failing)).Kept :=
  h.attemptsIdle s.supervisor s.opened rfl

variable {failures : Nat}

theorem commitReplacement (h : s.Kept) {paying : Option Nat}
    {verdict : StateAssertion} (hpay : s.missed conduit failures verdict = false →
      ∀ count, paying = some count → (s.pay count).Kept) :
    (s.commitReplacement conduit failures paying verdict).Kept := by
  unfold Transport.commitReplacement
  cases hmissed : s.missed conduit failures verdict with
  | true =>
    rw [if_pos rfl]
    exact h.attemptFails
  | false =>
    rw [if_neg Bool.false_ne_true]
    cases paying with
    | none =>
      show Kept (if s.debtOutstanding then s.attemptGoesTo (some .failing)
        else s.endAttempt .checking)
      split
      · exact h.attemptFails
      · exact h.endAttempt .checking
    | some count =>
      have hpaid := hpay hmissed count rfl
      show Kept (if (s.pay count).debtOutstanding then (s.pay count).attemptGoesTo (some .failing)
        else (s.pay count).endAttempt .checking)
      split
      · exact hpaid.attemptFails
      · exact hpaid.endAttempt .checking

/-- A replay that began after the last stop lands it, and an older one pays too little to hide it. -/
theorem replayed (h : s.Kept)
    (hattempt : s.attempt = some (.replaying replay failures)) (verdict : StateAssertion) :
    ((s.land replay.hook verdict).commitReplacement replay.hook.conduit failures
      (some replay.paying) verdict).Kept := by
  obtain ⟨hpaying, hbefore, hbegun⟩ := h.attempt.replaying replay failures hattempt
  have hland := h.land verdict hbegun
  obtain ⟨hmore, hbound⟩ := land_bounds verdict h.landed hbegun.1
  refine hland.commitReplacement ?_
  intro hmissed count hcount
  cases hcount
  rw [land_eq] at hmissed
  obtain ⟨hverdict, hsame⟩ :=
    landed_of_not_missed h (Nat.le_trans hbefore hbegun.2) hmissed
  have hlanded : s.Landed replay.hook verdict :=
    ⟨hverdict, Nat.le_antisymm (hsame ▸ hbefore) hbegun.2⟩
  rw [land_eq] at hland ⊢
  refine hland.pay hpaying ?_
  rcases h.recorded with hun | hrecorded
  · exact .inl hun
  · refine .inr ?_
    rcases hrecorded.replay replay failures hattempt with hsettled | hsince | hless
    · refine .inl ?_
      show (s.land replay.hook verdict).landed = s.stops
      omega
    · exact .inl (land_landed hlanded h.landed hsince)
    · rcases hrecorded.settled with hsettled | howed | hended
      · refine .inl ?_
        show (s.land replay.hook verdict).landed = s.stops
        omega
      · refine .inr (.inl ?_)
        have hpaid := h.paid
        show s.incurred ≠ max s.paid replay.paying
        omega
      · exact .inr (.inr hended)

theorem resumeAttempt (h : s.Kept) (room : s.incurred + 1 < u32)
    (hnext : s.resumeAttempt answer = some s') : s'.Kept := by
  rw [Transport.resumeAttempt.eq_def] at hnext
  split at hnext
  case h_1 noClient hattempt =>
    cases hnext
    exact h.attemptsIdle s.supervisor s.opened rfl
  case h_2 noClient hattempt =>
    split at hnext
    · cases hnext
      exact h.attemptsIdle s.supervisor s.opened rfl
    · cases hnext
      exact h.endAttempt .waiting
  case h_3 noClient cell hattempt =>
    cases hnext
    exact h.attemptsIdle s.supervisor _ rfl
  case h_4 | h_5 | h_6 =>
    cases hnext
    exact h.endAttempt .waiting
  case h_7 noClient cell conduit hattempt =>
    cases hnext
    refine h.attempts s.supervisor s.opened s.cells ?_ ?_ ?_
    · intro _ _ hstage
      cases hstage
    · intro _ _ _ _ hstage
      cases hstage
      exact Nat.le_refl _
    · intro _ _ _ hstage
      cases hstage
  case h_8 noClient cell conduit failures hattempt =>
    split at hnext
    · cases hnext
      refine h.attempts s.supervisor s.opened _ ?_ ?_ ?_
      · intro _ _ hstage
        cases hstage
      · intro _ _ _ _ hstage
        cases hstage
      · intro _ _ _ hstage
        cases hstage
        exact h.attempt.swapping _ _ _ _ hattempt
    · cases hnext
      exact h.attemptFails
  case h_9 noClient conduit failures hattempt =>
    split at hnext
    · cases hnext
      obtain ⟨hkept, hrecorded⟩ := h.incur room
      have hincurred := incur_incurred room
      have hfailures := h.attempt.respawning _ _ _ hattempt
      constructor
      case paid => exact hkept.paid
      case failures => exact hkept.failures
      case landed => exact hkept.landed
      case recorded =>
        refine .inr ⟨hrecorded.settled, ?_⟩
        intro replay _ hstage
        cases hstage
        exact .inr (.inl rfl)
      case holder =>
        exact hkept.holder.grow rfl rfl rfl rfl (Nat.le_refl _) (fun _ => Nat.le_refl _) id
      case attempt =>
        constructor
        · intro _ _ _ _ hstage
          cases hstage
        · intro _ _ _ hstage
          cases hstage
        · intro replay _ hstage
          cases hstage
          refine ⟨?_, hfailures, Nat.le_refl _, Nat.le_refl _⟩
          show s.incurred + 1 ≤ s.incur.incurred
          omega
    · cases hnext
      refine h.commitReplacement ?_
      intro _ count hcount
      cases hcount
  case h_10 replay failures verdict hattempt =>
    cases hnext
    exact h.replayed hattempt verdict
  case h_11 => cases hnext

theorem publishRecovery (h : s.Kept) (hnext : s.publishRecovery = some s') : s'.Kept := by
  have same : ∀ (available reconnecting : Bool) (supervisor : Supervisor), { s with
      available := available, reconnecting := reconnecting, supervisor := supervisor }.Kept :=
    fun _ _ _ => h.beside ⟨rfl, rfl, rfl, rfl, rfl, rfl, .inr rfl, .inr rfl⟩ rfl rfl rfl
  rw [Transport.publishRecovery.eq_def] at hnext
  split at hnext
  case h_1 | h_2 | h_3 =>
    cases hnext
    exact same _ _ _
  case h_4 =>
    split at hnext
    · cases hnext
      exact same _ _ _
    · cases hnext
      exact same _ _ _
  all_goals cases hnext

end Kept

/-! ## The slot -/

theorem slot_failOpen (who : Opener) : (s.failOpen who).slot = s.slot := by
  cases who <;> rfl

theorem slot_land (run : HookRun) (verdict : StateAssertion) :
    (s.land run verdict).slot = s.slot := by
  rw [land_eq]

theorem slot_handshaken (conduit : Nat) (who : Opener) :
    (s.handshaken conduit who).slot = s.slot := by
  cases who with
  | acquire =>
    rw [handshaken]
    split <;> rfl
  | start => rfl

theorem slot_asserted (who : Opener) (replay : Replay) (verdict : StateAssertion) :
    (s.asserted who replay verdict).slot = s.slot := by
  rw [asserted]
  split <;> exact slot_land _ _

theorem slot_cleanedUp : s.cleanedUp.slot = s.slot := by
  rw [cleanedUp]
  split <;> rfl

theorem slot_oweStop : s.oweStop.slot = s.slot := by
  rw [oweStop]
  split <;> rfl

theorem slot_stopped (run : HookRun) (verdict : StateAssertion) :
    (s.stopped run verdict).slot = s.slot := by
  rw [stopped]
  split
  · rw [slot_cleanedUp, slot_oweStop, slot_land]
  · rw [slot_cleanedUp, slot_land]

theorem slot_acquire : s.acquire.slot = s.slot := by
  rw [acquire]
  split
  · rfl
  · split <;> rfl

theorem slot_lastReleased : s.lastReleased.slot = s.slot := by
  rw [lastReleased]
  split <;> rfl

theorem slot_release : s.release.slot = s.slot := by
  rw [release]
  split
  · exact slot_lastReleased
  · rfl

theorem slot_start : s.start.slot = s.slot := by
  rw [start]
  split
  · rfl
  · split <;> rfl

theorem slot_shutdown : s.shutdown.slot = s.slot := by
  rw [shutdown]
  split <;> rfl

theorem slot_commitReplacement (conduit failures : Nat) (paying : Option Nat)
    (verdict : StateAssertion) :
    (s.commitReplacement conduit failures paying verdict).slot = s.slot := by
  unfold commitReplacement
  split
  · rfl
  · cases paying with
    | none =>
      show (if s.debtOutstanding then s.attemptGoesTo (some .failing)
        else s.endAttempt .checking).slot = s.slot
      split <;> rfl
    | some count =>
      show (if (s.pay count).debtOutstanding then (s.pay count).attemptGoesTo (some .failing)
        else (s.pay count).endAttempt .checking).slot = s.slot
      split <;> rfl

variable {answer : Answer}

/-- The holder fills the slot only when it publishes. -/
theorem resume_slot (hnext : s.resume answer = some s') :
    (s'.slot = none ∨ s'.slot = s.slot) ∨
      ∃ who conduit, s.holder = .publishing who conduit ∧ s' = s.publish conduit who := by
  rw [resume.eq_def] at hnext
  split at hnext
  case h_9 who conduit hholder =>
    cases hnext
    exact .inr ⟨who, conduit, hholder, rfl⟩
  case h_2 | h_17 | h_21 =>
    cases hnext
    exact .inl (.inl rfl)
  case h_4 | h_5 | h_6 =>
    cases hnext
    exact .inl (.inr (slot_failOpen _))
  case h_7 =>
    cases hnext
    exact .inl (.inr (slot_handshaken _ _))
  case h_8 =>
    cases hnext
    exact .inl (.inr (slot_asserted _ _ _))
  case h_10 =>
    split at hnext
    · rw [← Option.some.inj hnext]
      exact .inl (.inr rfl)
    · rw [← Option.some.inj hnext]
      exact .inl (.inr rfl)
  case h_14 =>
    split at hnext
    · cases hnext
      exact .inl (.inr rfl)
    · cases hnext
      exact .inl (.inr slot_cleanedUp)
  case h_16 =>
    cases hnext
    exact .inl (.inr (slot_stopped _ _))
  case h_24 => cases hnext
  all_goals
    cases hnext
    exact .inl (.inr rfl)

theorem resumeAttempt_slot (hnext : s.resumeAttempt answer = some s') :
    s'.slot = s.slot := by
  rw [resumeAttempt.eq_def] at hnext
  split at hnext
  case h_2 | h_8 =>
    split at hnext
    · cases hnext
      rfl
    · cases hnext
      rfl
  case h_9 =>
    split at hnext
    · cases hnext
      rfl
    · cases hnext
      exact slot_commitReplacement _ _ _ _
  case h_10 =>
    cases hnext
    rw [slot_commitReplacement, slot_land]
  case h_11 => cases hnext
  all_goals
    cases hnext
    rfl

theorem dropHolder_slot (hnext : s.dropHolder = some s') : s'.slot = s.slot := by
  rw [dropHolder.eq_def] at hnext
  split at hnext
  case h_1 => cases hnext
  case h_2 | h_3 | h_4 | h_5 | h_6 | h_7 | h_8 | h_9 =>
    cases hnext
    exact slot_failOpen _
  case h_10 =>
    cases hnext
    exact slot_oweStop
  all_goals
    cases hnext
    rfl

variable {input : LifecycleInput}

/-- A step fills the slot only when the holder publishes. -/
theorem next_slot (hnext : s.next input = some s') :
    (s'.slot = none ∨ s'.slot = s.slot) ∨
      ∃ who conduit, s.holder = .publishing who conduit ∧ s' = s.publish conduit who := by
  have hguarded : ∀ {p : Prop} [Decidable p] {t : Transport},
      (if p then some t else none) = some s' → t.slot = s.slot →
      s'.slot = none ∨ s'.slot = s.slot := by
    intro p _ t hif ht
    split at hif
    · cases hif
      exact .inr ht
    · cases hif
  cases input with
  | acquire => exact .inl (hguarded hnext slot_acquire)
  | release => exact .inl (hguarded hnext slot_release)
  | start => exact .inl (hguarded hnext slot_start)
  | shutdown => exact .inl (hguarded hnext slot_shutdown)
  | resume answer => exact resume_slot hnext
  | drop => exact .inl (.inr (dropHolder_slot hnext))
  | dropClose | beginAttempt | dropAttempt | hearSignal => exact .inl (hguarded hnext rfl)
  | resumeAttempt answer => exact .inl (.inr (resumeAttempt_slot hnext))
  | publishRecovery =>
    rw [next, publishRecovery.eq_def] at hnext
    split at hnext
    case h_4 =>
      split at hnext
      · cases hnext
        exact .inl (.inr rfl)
      · cases hnext
        exact .inl (.inr rfl)
    case h_1 | h_2 | h_3 =>
      cases hnext
      exact .inl (.inr rfl)
    all_goals cases hnext
  | wireFailure conduit =>
    cases hnext
    exact .inl (.inr rfl)

/-! ## Runs -/

/-- Where a stop has come due, its cleanup is not dropped before the hook has started. No counter
comes round. -/
def NotDroppedEarly (_ : List Unit) (s : Transport) (input : LifecycleInput) : Prop :=
  (input.drops = true → s.holder.beforeHook = true → s.slot = none) ∧ s.HasRoom input

instance (s : Transport) (input : LifecycleInput) : Decidable (s.HasRoom input) :=
  inferInstanceAs (Decidable (_ ∧ _))

instance (log : List Unit) (s : Transport) (input : LifecycleInput) :
    Decidable (NotDroppedEarly log s input) :=
  inferInstanceAs (Decidable ((_ → _ → _) ∧ _))

theorem Kept.next (h : s.Kept) {log : List Unit}
    (ok : NotDroppedEarly log s input) (hnext : s.next input = some s') : s'.Kept := by
  have room := ok.2.1
  cases input with
  | acquire =>
    rw [Transport.next] at hnext
    split at hnext
    · next hfree =>
        cases hnext
        exact h.acquire hfree
    · cases hnext
  | release =>
    rw [Transport.next] at hnext
    split at hnext
    · next hfree =>
        cases hnext
        exact h.release hfree.1
    · cases hnext
  | start =>
    rw [Transport.next] at hnext
    split at hnext
    · next hfree =>
        cases hnext
        exact h.start hfree
    · cases hnext
  | shutdown =>
    rw [Transport.next] at hnext
    split at hnext
    · next hfree =>
        cases hnext
        exact h.shutdown hfree
    · cases hnext
  | resume answer => exact h.resume room hnext
  | drop => exact h.dropHolder room (ok.1 rfl) hnext
  | dropClose | hearSignal =>
    rw [Transport.next] at hnext
    split at hnext
    · cases hnext
      exact h.beside ⟨rfl, rfl, rfl, rfl, rfl, rfl, .inr rfl, .inr rfl⟩ rfl rfl rfl
    · cases hnext
  | beginAttempt =>
    rw [Transport.next, Transport.beginAttempt] at hnext
    split at hnext
    · cases hnext
      exact h.attemptsIdle .attempting s.opened rfl
    · cases hnext
  | resumeAttempt answer => exact h.resumeAttempt room hnext
  | dropAttempt =>
    rw [Transport.next] at hnext
    split at hnext
    · cases hnext
      exact h.endAttempt .waiting
    · cases hnext
  | publishRecovery => exact h.publishRecovery hnext
  | wireFailure conduit =>
    cases hnext
    exact h.wireFailure (ok.2.2 conduit rfl)

/-- In every run in which no cleanup is dropped before its hook has started, the last stop that came
due has landed, is owed, or the lifecycle has ended, whenever the lock is free. Once the lifecycle
has ended, the slot is filled only by a start, and only when a hook has landed after that stop. -/
theorem stops_settled {inputs : List LifecycleInput} {log : List Unit}
    (h : History step NotDroppedEarly new inputs log s) :
    (s.holder = .free → s.Settled) ∧
      ∀ input s' events, s.step input = some (s', events) → s.Ended → s'.slot ≠ none →
        s'.holder = .spawning ∧ s'.landed = s'.stops := by
  have hkept : s.Kept := by
    refine h.invariant (fun _ s => s.Kept) Kept.new ?_
    intro log s input s' events hkept ok hstep
    obtain ⟨after, hnext, heq⟩ := Option.map_eq_some_iff.mp hstep
    cases heq
    exact hkept.next ok hnext
  constructor
  · intro hfree
    exact (hkept.recorded_of (by rw [hfree]; rfl)).settled
  · intro input s' events hstep hended hfilled
    obtain ⟨after, hnext, heq⟩ := Option.map_eq_some_iff.mp hstep
    cases heq
    rcases next_slot hnext with hslot | ⟨who, conduit, hholder, rfl⟩
    · rw [hended.2, or_self] at hslot
      exact absurd hslot hfilled
    · have hlanded := hkept.holder.publishing who conduit hholder
      cases who with
      | acquire =>
        have hlazy := hkept.holder.lazy (by rw [hholder]; rfl)
        rw [hended.1] at hlazy
        cases hlazy
      | start => exact ⟨rfl, hlanded⟩

end Transport

/-! ## Two dropped closes -/

namespace Evaluation

open Transport

/-- A cold start, a session, and a close that is dropped while its hook runs. -/
def dropInHook : List LifecycleInput :=
  [.start, .resume .ok, .resume .ok, .resume .ok, .resume .ok, .resume (.verdict .asserted),
    .resume .ok, .resume .ok, .acquire, .resume .ok, .release, .resume .ok, .resume .ok, .drop]

theorem drop_in_hook_owed :
    ∃ log s, History step NotDroppedEarly new dropInHook log s ∧ s.stops = 1 ∧ s.landed = 0 ∧
      s.incurred = 2 ∧ s.paid = 1 ∧ s.Settled := by
  have hrun : History step NotDroppedEarly new dropInHook _ _ := History.of_play rfl
  exact ⟨_, _, hrun, rfl, rfl, rfl, rfl, (stops_settled hrun).1 rfl⟩

/-- A lazy open, a session, and a close that is dropped while it joins the poll task. -/
def dropBeforeHook : List LifecycleInput :=
  [.acquire, .resume .ok, .resume .ok, .resume .ok, .resume .ok, .resume .ok, .release, .drop]

/-- The lock is free, the conduit is open, and nothing remembers the stop. -/
theorem drop_before_hook_forgets :
    ¬ ∀ inputs log s, History step (fun _ _ _ => True) new inputs log s → s.holder = .free →
      s.Settled := by
  intro h
  have hrun : History step (fun _ _ _ => True) new dropBeforeHook _ _ := History.of_play rfl
  rcases h _ _ _ hrun rfl with hlanded | howed | ⟨hmode, _⟩
  · cases hlanded
  · exact howed rfl
  · cases hmode

end Evaluation

end RustyPhoton.SharedTransport
