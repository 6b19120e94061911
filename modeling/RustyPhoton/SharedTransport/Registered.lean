import RustyPhoton.SharedTransport.Supervision

/-!
# A registered supervisor

What holds of the flags, the slot and the supervisors at every await of the call that holds the lock.
Where no call is given up with a conduit or a supervisor on its hands, a transport that recovers or
reads as healthy has a supervisor.
-/

namespace RustyPhoton.SharedTransport

namespace Supervision

/-- Between two calls. A lazy transport has no supervisor; one that was started has a supervisor and
a conduit, or neither, and then it neither serves nor recovers. -/
structure Calm (s : Supervision) : Prop where
  agree : s.supervisorLive = s.supervisorState.isSome
  running : ∀ t ∈ s.supervisors, s.supervisorState = some t.id
  unsupervised : s.serviceLifetime = false →
    s.supervisorState = none ∧ s.reconnecting = false ∧
      (s.available = true → s.slot = true ∧ 0 < s.count)
  supervised : s.serviceLifetime = true →
    s.supervisorState.isSome = true ∧ s.slot = true ∨
      s.supervisorState = none ∧ s.slot = false ∧ s.available = false ∧ s.reconnecting = false

/-- The supervisor was taken and is gone. -/
structure Bare (s : Supervision) : Prop where
  live : s.supervisorLive = false
  state : s.supervisorState = none
  supervisors : s.supervisors = []

/-- The supervisor was taken and may still run. -/
structure Joining (s : Supervision) (id : Nat) : Prop where
  live : s.supervisorLive = false
  state : s.supervisorState = none
  mode : s.serviceLifetime = true
  only : ∀ t ∈ s.supervisors, t.id = id

/-- A lazy transport that is closed. -/
structure Closed (s : Supervision) : Prop where
  mode : s.serviceLifetime = false
  available : s.available = false
  reconnecting : s.reconnecting = false

/-- A lazy transport that is closed and has its first client. -/
def Claimed (s : Supervision) : Prop := s.Closed ∧ 0 < s.count

/-- Under an open the supervisor is gone, and a lazy transport is closed. -/
def Opening (s : Supervision) (who : Opener) : Prop := s.Bare ∧ (who = .acquire → s.Claimed)

/-- Under a shutdown. -/
def Downing (s : Supervision) : Prop :=
  s.Bare ∧ s.serviceLifetime = true ∧ s.available = false

/-- What holds at each await of the call. -/
def Kept (s : Supervision) : Prop :=
  match s.call with
  | .free | .taking .start | .leaving => s.Calm
  | .taking .acquire => s.Calm ∧ s.Claimed
  | .joining .acquire _ => False
  | .joining .start id | .awaiting id => s.Joining id
  | .emptying who => s.Opening who
  | .opening who | .asserting who _ | .failing who | .publishing who =>
      s.Opening who ∧ s.slot = false
  | .reusing => s.Calm ∧ (s.serviceLifetime = false → s.available = true → 1 < s.count)
  | .promoting => s.Calm ∧ s.serviceLifetime = false ∧ s.available = true
  | .spawning => s.Bare ∧ s.serviceLifetime = true ∧ s.slot = true
  | .quiescing | .closing => s.Calm ∧ s.Closed
  | .looking => s.Calm ∧ (s.serviceLifetime = false → s.available = false)
  | .stopping => s.Calm ∧ s.slot = true ∧ (s.serviceLifetime = false → s.available = false)
  | .withdrawing => s.Calm ∧ s.serviceLifetime = true
  | .shuttingDown | .vacating => s.Downing
  | .ending => s.Downing ∧ s.slot = false

variable {s s' : Supervision}

theorem Calm.new : Calm new where
  agree := rfl
  running t ht := absurd ht List.not_mem_nil
  unsupervised _ := ⟨rfl, rfl, fun h => by cases h⟩
  supervised h := by cases h

theorem Calm.attended (h : s.Calm) : s.Attended where
  agree := h.agree
  retried hrec := by
    cases hmode : s.serviceLifetime with
    | false =>
      have hquiet := (h.unsupervised hmode).2.1
      rw [hrec] at hquiet
      cases hquiet
    | true =>
      rcases h.supervised hmode with hwatch | hgone
      · exact hwatch.1
      · rw [hgone.2.2.2] at hrec
        cases hrec
  watched hmode havail := by
    rcases h.supervised hmode with hwatch | hgone
    · exact ⟨hwatch.2, hwatch.1⟩
    · rw [hgone.2.2.1] at havail
      cases havail

/-- With nobody registered nothing runs. -/
theorem Calm.bare (h : s.Calm) (hstate : s.supervisorState = none) : s.Bare where
  live := by
    rw [h.agree, hstate]
    rfl
  state := hstate
  supervisors := by
    refine List.eq_nil_iff_forall_not_mem.mpr ?_
    intro t ht
    have hsome := h.running t ht
    rw [hstate] at hsome
    cases hsome

/-- Whatever the flags say, a supervisor and a conduit make a transport calm. -/
theorem Calm.of_watched (hagree : s.supervisorLive = s.supervisorState.isSome)
    (hrunning : ∀ t ∈ s.supervisors, s.supervisorState = some t.id)
    (hmode : s.serviceLifetime = true) (hsome : s.supervisorState.isSome = true)
    (hslot : s.slot = true) : s.Calm where
  agree := hagree
  running := hrunning
  unsupervised hlazy := by
    rw [hmode] at hlazy
    cases hlazy
  supervised _ := .inl ⟨hsome, hslot⟩

/-- With no supervisor, no conduit and no flag set, a transport is calm in either mode. -/
theorem Calm.of_down (hbare : s.Bare) (hslot : s.slot = false) (havail : s.available = false)
    (hrec : s.reconnecting = false) : s.Calm where
  agree := by
    rw [hbare.live, hbare.state]
    rfl
  running t ht := by
    rw [hbare.supervisors] at ht
    cases ht
  unsupervised _ := by
    refine ⟨hbare.state, hrec, fun h => ?_⟩
    rw [havail] at h
    cases h
  supervised _ := .inr ⟨hbare.state, hslot, havail, hrec⟩

/-- A lazy transport that is closed is calm. -/
theorem Calm.of_closed (hbare : s.Bare) (hclosed : s.Closed) : s.Calm where
  agree := by
    rw [hbare.live, hbare.state]
    rfl
  running t ht := by
    rw [hbare.supervisors] at ht
    cases ht
  unsupervised _ := by
    refine ⟨hbare.state, hclosed.reconnecting, fun h => ?_⟩
    rw [hclosed.available] at h
    cases h
  supervised hmode := by
    rw [hclosed.mode] at hmode
    cases hmode

/-! ## Beside the call -/

/-- A step that the call has no part in: the supervisors may set the flags, and end. -/
structure Beside (s s' : Supervision) : Prop where
  call : s'.call = s.call
  mode : s'.serviceLifetime = s.serviceLifetime
  slot : s'.slot = s.slot
  count : s'.count = s.count
  live : s'.supervisorLive = s.supervisorLive
  state : s'.supervisorState = s.supervisorState
  ids : ∀ t' ∈ s'.supervisors, ∃ t ∈ s.supervisors, t.id = t'.id
  flags : s'.available = s.available ∧ s'.reconnecting = s.reconnecting ∨ s.supervisors ≠ []

theorem Beside.refl (s : Supervision) : Beside s s :=
  ⟨rfl, rfl, rfl, rfl, rfl, rfl, fun t ht => ⟨t, ht, rfl⟩, .inl ⟨rfl, rfl⟩⟩

theorem Bare.beside (h : s.Bare) (hb : Beside s s') :
    s'.Bare ∧ s'.available = s.available ∧ s'.reconnecting = s.reconnecting := by
  have hsame : s'.available = s.available ∧ s'.reconnecting = s.reconnecting := by
    rcases hb.flags with hsame | hne
    · exact hsame
    · exact absurd h.supervisors hne
  refine ⟨⟨hb.live.trans h.live, hb.state.trans h.state, ?_⟩, hsame⟩
  refine List.eq_nil_iff_forall_not_mem.mpr ?_
  intro t' ht'
  obtain ⟨t, ht, -⟩ := hb.ids t' ht'
  rw [h.supervisors] at ht
  cases ht

/-- A supervisor that runs beside a call is the registered one, of a transport that was started. -/
theorem Calm.beside (h : s.Calm) (hb : Beside s s') :
    s'.Calm ∧ (s.serviceLifetime = false →
      s'.available = s.available ∧ s'.reconnecting = s.reconnecting) := by
  have hagree : s'.supervisorLive = s'.supervisorState.isSome := by
    rw [hb.live, hb.state]
    exact h.agree
  have hrunning : ∀ t ∈ s'.supervisors, s'.supervisorState = some t.id := by
    intro t' ht'
    obtain ⟨t, ht, hid⟩ := hb.ids t' ht'
    rw [hb.state, ← hid]
    exact h.running t ht
  cases hmode : s.serviceLifetime with
  | false =>
    obtain ⟨hstate, hrec, hopen⟩ := h.unsupervised hmode
    obtain ⟨hbare, havail, hrec'⟩ := (h.bare hstate).beside hb
    refine ⟨⟨hagree, hrunning, fun _ => ⟨hbare.state, hrec'.trans hrec, ?_⟩, ?_⟩,
      fun _ => ⟨havail, hrec'⟩⟩
    · rw [havail, hb.slot, hb.count]
      exact hopen
    · intro hmode'
      rw [hb.mode, hmode] at hmode'
      cases hmode'
  | true =>
    refine ⟨?_, fun hlazy => by cases hlazy⟩
    rcases h.supervised hmode with ⟨hsome, hslot⟩ | ⟨hstate, hslot, havail, hrec⟩
    · refine .of_watched hagree hrunning (hb.mode.trans hmode) ?_ (hb.slot.trans hslot)
      rw [hb.state]
      exact hsome
    · obtain ⟨hbare, havail', hrec'⟩ := (h.bare hstate).beside hb
      exact .of_down hbare (hb.slot.trans hslot) (havail'.trans havail) (hrec'.trans hrec)

theorem Closed.beside (h : s.Closed) (hb : Beside s s')
    (hsame : s'.available = s.available ∧ s'.reconnecting = s.reconnecting) : s'.Closed :=
  ⟨hb.mode.trans h.mode, hsame.1.trans h.available, hsame.2.trans h.reconnecting⟩

theorem Claimed.beside (h : s.Claimed) (hb : Beside s s')
    (hsame : s'.available = s.available ∧ s'.reconnecting = s.reconnecting) : s'.Claimed := by
  refine ⟨h.1.beside hb hsame, ?_⟩
  rw [hb.count]
  exact h.2

variable {who : Opener}

theorem Opening.beside (h : s.Opening who) (hb : Beside s s') : s'.Opening who := by
  obtain ⟨hbare, hsame⟩ := h.1.beside hb
  exact ⟨hbare, fun hwho => (h.2 hwho).beside hb hsame⟩

variable {id : Nat}

theorem Joining.beside (h : s.Joining id) (hb : Beside s s') : s'.Joining id where
  live := hb.live.trans h.live
  state := hb.state.trans h.state
  mode := hb.mode.trans h.mode
  only t' ht' := by
    obtain ⟨t, ht, hid⟩ := hb.ids t' ht'
    rw [← hid]
    exact h.only t ht

theorem Downing.beside (h : s.Downing) (hb : Beside s s') : s'.Downing := by
  obtain ⟨hbare, havail, -⟩ := h.1.beside hb
  exact ⟨hbare, hb.mode.trans h.2.1, havail.trans h.2.2⟩

theorem Kept.beside (h : s.Kept) (hb : Beside s s') : s'.Kept := by
  unfold Kept at h ⊢
  rw [hb.call]
  cases hcall : s.call with
  | free | leaving =>
    rw [hcall] at h
    exact (Calm.beside h hb).1
  | withdrawing =>
    rw [hcall] at h
    exact ⟨(h.1.beside hb).1, hb.mode.trans h.2⟩
  | taking who =>
    rw [hcall] at h
    cases who with
    | acquire =>
      obtain ⟨hcalm, hclaimed⟩ := h
      obtain ⟨hcalm', hsame⟩ := hcalm.beside hb
      exact ⟨hcalm', hclaimed.beside hb (hsame hclaimed.1.mode)⟩
    | start => exact (Calm.beside h hb).1
  | joining who id =>
    rw [hcall] at h
    cases who with
    | acquire => exact h.elim
    | start => exact Joining.beside h hb
  | awaiting id =>
    rw [hcall] at h
    exact Joining.beside h hb
  | emptying who =>
    rw [hcall] at h
    exact Opening.beside h hb
  | opening who | asserting who paying | failing who | publishing who | ending =>
    rw [hcall] at h
    exact ⟨h.1.beside hb, hb.slot.trans h.2⟩
  | reusing =>
    rw [hcall] at h
    obtain ⟨hcalm, hsame⟩ := h.1.beside hb
    refine ⟨hcalm, fun hmode havail => ?_⟩
    rw [hb.mode] at hmode
    rw [(hsame hmode).1] at havail
    rw [hb.count]
    exact h.2 hmode havail
  | promoting =>
    rw [hcall] at h
    obtain ⟨hcalm, hsame⟩ := h.1.beside hb
    exact ⟨hcalm, hb.mode.trans h.2.1, (hsame h.2.1).1.trans h.2.2⟩
  | spawning =>
    rw [hcall] at h
    exact ⟨(h.1.beside hb).1, hb.mode.trans h.2.1, hb.slot.trans h.2.2⟩
  | quiescing | closing =>
    rw [hcall] at h
    obtain ⟨hcalm, hsame⟩ := h.1.beside hb
    exact ⟨hcalm, h.2.beside hb (hsame h.2.mode)⟩
  | looking =>
    rw [hcall] at h
    obtain ⟨hcalm, hsame⟩ := h.1.beside hb
    refine ⟨hcalm, fun hmode => ?_⟩
    rw [hb.mode] at hmode
    exact (hsame hmode).1.trans (h.2 hmode)
  | stopping =>
    rw [hcall] at h
    obtain ⟨hcalm, hsame⟩ := h.1.beside hb
    refine ⟨hcalm, hb.slot.trans h.2.1, fun hmode => ?_⟩
    rw [hb.mode] at hmode
    exact (hsame hmode).1.trans (h.2.2 hmode)
  | shuttingDown | vacating =>
    rw [hcall] at h
    exact Downing.beside h hb

/-! ## The supervisors' steps -/

/-- While a supervisor runs the flags, the debt and the signal may change. -/
theorem Beside.flags_of_running (hne : s.supervisors ≠ []) (available reconnecting signal : Bool)
    (incurred paid : Nat) :
    Beside s { s with available, reconnecting, signal, incurred, paid } :=
  ⟨rfl, rfl, rfl, rfl, rfl, rfl, fun t ht => ⟨t, ht, rfl⟩, .inr hne⟩

theorem Beside.loopGoesTo (hb : Beside s s') (id : Nat) (stage : LoopStage) :
    Beside s (s'.loopGoesTo id stage) := by
  refine ⟨hb.call, hb.mode, hb.slot, hb.count, hb.live, hb.state, ?_, hb.flags⟩
  intro t ht
  obtain ⟨t', ht', rfl⟩ := List.mem_map.mp ht
  obtain ⟨t₀, ht₀, hid⟩ := hb.ids t' ht'
  refine ⟨t₀, ht₀, ?_⟩
  split
  · exact hid
  · exact hid

theorem Beside.dropTask (s : Supervision) (id : Nat) : Beside s (s.dropTask id) :=
  ⟨rfl, rfl, rfl, rfl, rfl, rfl, fun t ht => ⟨t, (List.mem_filter.mp ht).1, rfl⟩, .inl ⟨rfl, rfl⟩⟩

theorem Beside.commitReplacement (hne : s.supervisors ≠ []) (incurred paid id : Nat) :
    Beside s ({ s with incurred, paid }.commitReplacement id) := by
  unfold Supervision.commitReplacement publishRecovery
  by_cases howes : ({ s with incurred, paid } : Supervision).debtOutstanding = true
  · rw [if_pos howes]
    exact (flags_of_running hne s.available s.reconnecting s.signal incurred paid).loopGoesTo id _
  · rw [if_neg howes, if_neg howes]
    exact (flags_of_running hne true false s.signal incurred paid).loopGoesTo id _

/-- What a supervisor does is beside the call. -/
theorem loopStep_beside {t : SupervisorTask} (ht : t ∈ s.supervisors) {step : LoopStep}
    (hstep : s.loopStep t step = some s') : Beside s s' := by
  have hne : s.supervisors ≠ [] := List.ne_nil_of_mem ht
  cases step with
  | cancelled =>
    simp only [loopStep] at hstep
    split at hstep
    · split at hstep
      · cases hstep
        exact .dropTask s t.id
      · cases hstep
        exact .dropTask s t.id
      · cases hstep
        exact (Beside.refl s).loopGoesTo t.id .aborting
      · cases hstep
        exact (Beside.refl s).loopGoesTo t.id .aborting
      · cases hstep
    · cases hstep
  | signal =>
    simp only [loopStep] at hstep
    split at hstep
    · cases hstep
      exact (Beside.flags_of_running hne false true false s.incurred s.paid).loopGoesTo t.id .pacing
    · cases hstep
  | tick | paced =>
    simp only [loopStep] at hstep
    split at hstep
    · cases hstep
      exact (Beside.refl s).loopGoesTo t.id _
    · cases hstep
  | attempted ok =>
    simp only [loopStep] at hstep
    split at hstep
    · split at hstep
      · cases hstep
        unfold replaced
        split
        · exact (Beside.flags_of_running hne s.available s.reconnecting s.signal
            (oneMore s.incurred) s.paid).loopGoesTo t.id _
        · exact .commitReplacement hne s.incurred s.paid t.id
      · cases hstep
        exact (Beside.refl s).loopGoesTo t.id .waiting
    · cases hstep
  | replayed landed =>
    simp only [loopStep] at hstep
    split at hstep
    · next paying _ =>
        split at hstep
        · cases hstep
          exact .commitReplacement hne s.incurred (max s.paid paying) t.id
        · cases hstep
          exact (Beside.refl s).loopGoesTo t.id .waiting
    · cases hstep
  | aborted =>
    simp only [loopStep] at hstep
    split at hstep
    · cases hstep
      exact .dropTask s t.id
    · cases hstep

theorem wireFailure_beside (s : Supervision) : Beside s { s with signal := true } :=
  ⟨rfl, rfl, rfl, rfl, rfl, rfl, fun t ht => ⟨t, ht, rfl⟩, .inl ⟨rfl, rfl⟩⟩

/-! ## Taking the lock -/

theorem Kept.of_free (h : s.Calm) (hcall : s.call = .free) : s.Kept := by
  unfold Kept
  rw [hcall]
  exact h

theorem Kept.calm (h : s.Kept) (hfree : s.call = .free) : s.Calm := by
  unfold Kept at h
  rw [hfree] at h
  exact h

/-- The same transport, at another await. -/
theorem Calm.goTo (h : s.Calm) (call : CallStage) : (s.goTo call).Calm :=
  ⟨h.agree, h.running, h.unsupervised, h.supervised⟩

/-- One more on the count. -/
theorem Calm.raise (h : s.Calm) (hroom : s.count + 1 < u32) (call : CallStage) :
    ({ s with count := oneMore s.count, call := call } : Supervision).Calm ∧
      (s.serviceLifetime = false → s.available = true → 1 < oneMore s.count) := by
  have hcount : oneMore s.count = s.count + 1 := Nat.mod_eq_of_lt hroom
  constructor
  · refine ⟨h.agree, h.running, fun hmode => ?_, h.supervised⟩
    obtain ⟨hstate, hrec, hopen⟩ := h.unsupervised hmode
    refine ⟨hstate, hrec, fun havail => ⟨(hopen havail).1, ?_⟩⟩
    show 0 < oneMore s.count
    omega
  · intro hmode havail
    have hpos := ((h.unsupervised hmode).2.2 havail).2
    omega

theorem Kept.acquire (h : s.Calm) (hfree : s.call = .free) (hroom : s.count + 1 < u32) :
    s.acquire.Kept := by
  unfold Supervision.acquire
  split
  · exact .of_free h hfree
  · split
    · next hzero =>
        rw [Bool.and_eq_true, decide_eq_true_eq, Bool.not_eq_true'] at hzero
        obtain ⟨hcount, hmode⟩ := hzero
        obtain ⟨-, hrec, hopen⟩ := h.unsupervised hmode
        have havail : s.available = false := by
          cases hav : s.available with
          | false => rfl
          | true =>
            have hpos := (hopen hav).2
            omega
        refine ⟨(h.raise hroom _).1, ⟨hmode, havail, hrec⟩, ?_⟩
        show 0 < oneMore s.count
        rw [hcount]
        decide
    · exact h.raise hroom .reusing

theorem oneLess_pos {count : Nat} (h : count ≠ 1) : 0 < oneLess count := by
  unfold oneLess u32
  split
  · omega
  · omega

/-- The last session of a lazy transport closes it. -/
theorem Kept.release (h : s.Calm) (hfree : s.call = .free) : s.release.Kept := by
  unfold Supervision.release
  split
  · simp only [lastReleased]
    split
    · next hmode =>
        have hlooking : ({ s with
            count := oneLess s.count, sessions := s.sessions - 1, call := .looking } :
            Supervision).Calm :=
          ⟨h.agree, h.running, fun hlazy => (by cases hmode.symm.trans hlazy), h.supervised⟩
        exact ⟨hlooking, fun hlazy => (by cases hmode.symm.trans hlazy)⟩
    · next hmode =>
        have hlazy : s.serviceLifetime = false := by simpa using hmode
        obtain ⟨hstate, hrec, -⟩ := h.unsupervised hlazy
        exact ⟨.of_closed ⟨(h.bare hstate).live, hstate, (h.bare hstate).supervisors⟩
          ⟨hlazy, rfl, hrec⟩, hlazy, rfl, hrec⟩
  · next hne =>
      refine .of_free ⟨h.agree, h.running, fun hmode => ?_, h.supervised⟩ hfree
      obtain ⟨hstate, hrec, hopen⟩ := h.unsupervised hmode
      exact ⟨hstate, hrec, fun havail => ⟨(hopen havail).1, oneLess_pos hne⟩⟩

theorem Kept.start (h : s.Calm) (hfree : s.call = .free) : s.start.Kept := by
  unfold Supervision.start
  split
  · exact .of_free h hfree
  · next hnew =>
      split
      · next havail =>
          have hmode : s.serviceLifetime = false := by
            cases hm : s.serviceLifetime with
            | false => rfl
            | true =>
              rw [hm, havail] at hnew
              exact absurd rfl hnew
          exact ⟨h.goTo .promoting, hmode, havail⟩
      · exact h.goTo (.taking .start)

theorem Kept.shutdown (h : s.Calm) (hfree : s.call = .free) : s.shutdown.Kept := by
  unfold Supervision.shutdown
  split
  · next hmode =>
      have hcalm : ({ s with available := false, call := .withdrawing } : Supervision).Calm := by
        refine ⟨h.agree, h.running, fun hlazy => (by cases hmode.symm.trans hlazy), fun _ => ?_⟩
        rcases h.supervised hmode with hwatch | ⟨hstate, hslot, -, hrec⟩
        · exact .inl hwatch
        · exact .inr ⟨hstate, hslot, rfl, hrec⟩
      exact ⟨hcalm, hmode⟩
  · exact .of_free h hfree

/-! ## From await to await -/

/-- An open that ends without a conduit. -/
theorem Kept.failOpen (h : s.Opening who) (hslot : s.slot = false) :
    (s.failOpen who).Kept := by
  cases who with
  | acquire =>
    obtain ⟨⟨hmode, havail, hrec⟩, -⟩ := h.2 rfl
    exact Calm.of_closed ⟨h.1.live, h.1.state, h.1.supervisors⟩ ⟨hmode, havail, hrec⟩
  | start => exact Calm.of_down ⟨h.1.live, h.1.state, h.1.supervisors⟩ hslot rfl rfl

/-- The same transport under an open, at another await and with another debt. -/
theorem Opening.goTo (h : s.Opening who) (incurred paid : Nat) (slot : Bool) (call : CallStage) :
    ({ s with incurred := incurred, paid := paid, slot := slot, call := call } :
      Supervision).Opening who := by
  refine ⟨⟨h.1.live, h.1.state, h.1.supervisors⟩, fun hwho => ?_⟩
  obtain ⟨⟨hmode, havail, hrec⟩, hpos⟩ := h.2 hwho
  exact ⟨⟨hmode, havail, hrec⟩, hpos⟩

/-- A supervisor that is taken was that of a started transport. -/
theorem Calm.take (h : s.Calm) (hstate : s.supervisorState = some id) (call : CallStage) :
    (s.takeSupervisor.goTo call).Joining id where
  live := rfl
  state := rfl
  mode := by
    show s.serviceLifetime = true
    cases hmode : s.serviceLifetime with
    | false =>
      have hnone := (h.unsupervised hmode).1
      rw [hstate] at hnone
      cases hnone
    | true => rfl
  only t' ht' := by
    obtain ⟨t, ht, rfl⟩ := List.mem_map.mp ht'
    have hid := h.running t ht
    rw [hstate] at hid
    rw [if_pos (hstate.trans hid)]
    exact (Option.some.inj hid).symm

theorem Calm.takeNone (h : s.Calm) (hstate : s.supervisorState = none) (call : CallStage) :
    (s.takeSupervisor.goTo call).Bare where
  live := rfl
  state := rfl
  supervisors := by
    show s.supervisors.map _ = []
    rw [(h.bare hstate).supervisors]
    rfl

/-- A join that is over leaves no supervisor. -/
theorem Joining.gone (h : s.Joining id) (hgone : s.runs id = false) :
    s.supervisors = [] := by
  refine List.eq_nil_iff_forall_not_mem.mpr ?_
  intro t ht
  have hruns : s.runs id = true := List.any_eq_true.mpr ⟨t, ht, decide_eq_true (h.only t ht)⟩
  rw [hgone] at hruns
  cases hruns

theorem Joining.aborted (h : s.Joining id) : (s.dropTask id).supervisors = [] := by
  refine List.eq_nil_iff_forall_not_mem.mpr ?_
  intro t ht
  obtain ⟨hmem, hne⟩ := List.mem_filter.mp ht
  exact absurd (h.only t hmem) (of_decide_eq_true hne)

/-- The new supervisor is the only one. -/
theorem spawn_running (h : s.Bare) (t : SupervisorTask) (ht : t ∈ s.spawnSupervisor.supervisors) :
    s.spawnSupervisor.supervisorState = some t.id := by
  have hone : s.spawnSupervisor.supervisors = [⟨s.spawned, false, .waiting⟩] := by
    show s.supervisors.filter _ ++ _ = _
    rw [h.supervisors]
    rfl
  rw [hone] at ht
  rw [List.mem_singleton.mp ht]
  rfl

theorem Opening.handshaken (h : s.Opening who) (hslot : s.slot = false) :
    (s.handshaken who).Kept := by
  have hassert : (s.assertNoClientState who).Kept :=
    ⟨h.goTo (oneMore s.incurred) s.paid s.slot _, hslot⟩
  cases who with
  | acquire =>
    unfold Supervision.handshaken
    by_cases howes : s.debtOutstanding = true
    · rw [if_pos howes]
      exact hassert
    · rw [if_neg howes]
      exact ⟨h.goTo s.incurred s.paid s.slot _, hslot⟩
  | start => exact hassert

theorem Kept.publish (h : s.Opening who) : (s.publish who).Kept := by
  obtain ⟨hbare, hclaimed⟩ := h
  cases who with
  | acquire =>
    obtain ⟨⟨hmode, havail, hrec⟩, hpos⟩ := hclaimed rfl
    have hcalm : (s.publish .acquire).Calm := by
      refine ⟨?_, ?_, fun _ => ⟨hbare.state, rfl, fun _ => ⟨rfl, hpos⟩⟩, fun hlive => ?_⟩
      · show s.supervisorLive = s.supervisorState.isSome
        rw [hbare.live, hbare.state]
        rfl
      · intro t ht
        have hnil : t ∈ s.supervisors := ht
        rw [hbare.supervisors] at hnil
        cases hnil
      · cases hmode.symm.trans hlive
    exact hcalm
  | start => exact ⟨⟨hbare.live, hbare.state, hbare.supervisors⟩, rfl, rfl⟩

/-- A cleanup is over, or closes a lazy transport. -/
theorem Kept.cleanedUp (h : s.Calm) (hlazy : s.serviceLifetime = false → s.available = false) :
    s.cleanedUp.Kept := by
  unfold Supervision.cleanedUp
  by_cases hmode : s.serviceLifetime = true
  · rw [if_pos hmode]
    exact h.goTo .free
  · rw [if_neg hmode]
    have hm : s.serviceLifetime = false := by simpa using hmode
    exact ⟨h.goTo .closing, hm, hlazy hm, (h.unsupervised hm).2.1⟩

/-- A stop that did not land on the conduit of a started transport has a supervisor to retry. -/
theorem Calm.oweStop (h : s.Calm) (hslot : s.slot = true)
    (hlazy : s.serviceLifetime = false → s.available = false) (signal : Bool) (call : CallStage) :
    ({ s.oweStop with signal := signal, call := call } : Supervision).Calm ∧
      (s.oweStop.serviceLifetime = false → s.oweStop.available = false) := by
  unfold Supervision.oweStop
  by_cases hmode : s.serviceLifetime = true
  · rw [if_pos hmode]
    have hsome : s.supervisorState.isSome = true := by
      rcases h.supervised hmode with hwatch | hgone
      · exact hwatch.1
      · cases hslot.symm.trans hgone.2.1
    exact ⟨.of_watched h.agree h.running hmode hsome hslot, fun _ => rfl⟩
  · rw [if_neg hmode]
    exact ⟨⟨h.agree, h.running, h.unsupervised, h.supervised⟩, hlazy⟩

theorem Kept.stopped (h : s.Calm) (hslot : s.slot = true)
    (hlazy : s.serviceLifetime = false → s.available = false) (landed : Bool) :
    (s.stopped landed).Kept := by
  unfold Supervision.stopped
  cases landed with
  | true => exact Kept.cleanedUp h hlazy
  | false =>
    obtain ⟨hcalm, hclosed⟩ := h.oweStop hslot hlazy (s.signal || s.serviceLifetime)
      s.oweStop.call
    exact Kept.cleanedUp hcalm hclosed

/-- The supervisor that was taken is joined, or aborted: a shutdown goes on. -/
theorem Joining.downing (h : s.Joining id) {supervisors : List SupervisorTask}
    (hnil : supervisors = []) (call : CallStage) :
    ({ s with supervisors := supervisors, available := false, call := call } :
      Supervision).Downing :=
  ⟨⟨h.live, h.state, hnil⟩, h.mode, rfl⟩

theorem Kept.resume (h : s.Kept) {reply : Reply} (hok : GivesUpUnburdened [] s (.resume reply))
    (hnext : s.resume reply = some s') : s'.Kept := by
  unfold Kept at h
  unfold Supervision.resume at hnext
  split at hnext
  · next who hcall =>
      rw [hcall] at h
      split at hnext
      · next id hstate =>
          cases hnext
          cases who with
          | acquire =>
            have hnone := (h.1.unsupervised h.2.1.mode).1
            cases hstate.symm.trans hnone
          | start => exact Calm.take h hstate _
      · next hstate =>
          cases hnext
          cases who with
          | acquire =>
            obtain ⟨hcalm, ⟨hmode, havail, hrec⟩, hpos⟩ := h
            exact ⟨hcalm.takeNone hstate _, fun _ => ⟨⟨hmode, havail, hrec⟩, hpos⟩⟩
          | start => exact ⟨Calm.takeNone h hstate _, fun hwho => by cases hwho⟩
  · next who id hcall =>
      rw [hcall] at h
      split at hnext
      · cases hnext
      · next hruns =>
          cases hnext
          cases who with
          | acquire => exact h.elim
          | start =>
            have hgone := Joining.gone h (by simpa using hruns)
            exact ⟨⟨h.live, h.state, hgone⟩, fun hwho => by cases hwho⟩
  · next who id hcall =>
      rw [hcall] at h
      cases hnext
      cases who with
      | acquire => exact h.elim
      | start => exact ⟨⟨h.live, h.state, Joining.aborted h⟩, fun hwho => by cases hwho⟩
  · next who hcall =>
      rw [hcall] at h
      cases hnext
      exact ⟨Opening.goTo h s.incurred s.paid false _, rfl⟩
  · next who hcall =>
      rw [hcall] at h
      cases hnext
      exact h.1.handshaken h.2
  · next who hcall =>
      rw [hcall] at h
      cases hnext
      exact .failOpen h.1 h.2
  · next who hcall =>
      rw [hcall] at h
      cases hnext
      exact .failOpen h.1 h.2
  · next who paying hcall =>
      rw [hcall] at h
      cases hnext
      exact .failOpen h.1 h.2
  · next who hcall =>
      rw [hcall] at h
      cases hnext
      exact .failOpen h.1 h.2
  · next who paying landed hcall =>
      rw [hcall] at h
      split at hnext
      · cases hnext
        exact ⟨h.1.goTo s.incurred _ s.slot _, h.2⟩
      · cases hnext
        exact ⟨h.1.goTo s.incurred s.paid s.slot _, h.2⟩
  · next who hcall =>
      rw [hcall] at h
      cases hnext
      exact .publish h.1
  · next hcall =>
      rw [hcall] at h
      obtain ⟨hcalm, hcount⟩ := h
      split at hnext
      · cases hnext
        have hmore : ({ s with sessions := s.sessions + 1, call := .free } : Supervision).Calm :=
          ⟨hcalm.agree, hcalm.running, hcalm.unsupervised, hcalm.supervised⟩
        exact hmore
      · cases hnext
        have hback : ({ s with count := oneLess s.count, call := .free } : Supervision).Calm := by
          refine ⟨hcalm.agree, hcalm.running, fun hmode => ?_, hcalm.supervised⟩
          obtain ⟨hstate, hrec, hopen⟩ := hcalm.unsupervised hmode
          refine ⟨hstate, hrec, fun havail => ⟨(hopen havail).1, oneLess_pos ?_⟩⟩
          have hmore := hcount hmode havail
          omega
        exact hback
  · next hcall =>
      rw [hcall] at h
      obtain ⟨hcalm, hmode, havail⟩ := h
      obtain ⟨hstate, -, hopen⟩ := hcalm.unsupervised hmode
      cases hnext
      have hwatched : ({ s.spawnSupervisor with serviceLifetime := true, call := .free } :
          Supervision).Calm :=
        .of_watched rfl (spawn_running (hcalm.bare hstate)) rfl rfl (hopen havail).1
      exact hwatched
  · next hcall =>
      rw [hcall] at h
      obtain ⟨hbare, hmode, hslot⟩ := h
      cases hnext
      have hwatched : (s.spawnSupervisor.goTo .free).Calm :=
        .of_watched rfl (spawn_running hbare) hmode rfl hslot
      exact hwatched
  · next hcall =>
      rw [hcall] at h
      cases hnext
      exact ⟨Calm.goTo h.1 .looking, fun _ => h.2.available⟩
  · next hcall =>
      rw [hcall] at h
      split at hnext
      · next hslot =>
          cases hnext
          exact ⟨Calm.goTo h.1 .stopping, hslot, h.2⟩
      · cases hnext
        exact .cleanedUp h.1 h.2
  · next landed hcall =>
      rw [hcall] at h
      cases hnext
      exact .stopped h.1 h.2.1 h.2.2 landed
  · next hcall =>
      rw [hcall] at h
      cases hnext
      exact (Calm.oweStop h.1 h.2.1 h.2.2 s.oweStop.signal .free).1
  · next hcall =>
      rw [hcall] at h
      cases hnext
      obtain ⟨hcalm, hmode, havail, hrec⟩ := h
      have hbare := hcalm.bare (hcalm.unsupervised hmode).1
      have hleaving : ({ s with slot := false, call := .leaving } : Supervision).Calm :=
        .of_closed ⟨hbare.live, hbare.state, hbare.supervisors⟩ ⟨hmode, havail, hrec⟩
      exact hleaving
  · next hcall =>
      rw [hcall] at h
      split at hnext
      · next id hstate =>
          cases hnext
          exact h.1.take hstate _
      · next hstate =>
          cases hnext
          have hbare := h.1.takeNone hstate .shuttingDown
          exact ⟨⟨hbare.live, hbare.state, hbare.supervisors⟩, h.2, rfl⟩
  · next id hcall =>
      rw [hcall] at h
      split at hnext
      · cases hnext
      · next hruns =>
          cases hnext
          exact Joining.downing h (Joining.gone h (by simpa using hruns)) _
  · next id hcall =>
      rw [hcall] at h
      cases hnext
      exact Joining.downing h (Joining.aborted h) _
  · next hcall =>
      rw [hcall] at h
      cases hnext
      exact ⟨⟨h.1.live, h.1.state, h.1.supervisors⟩, h.2⟩
  · next hcall =>
      rw [hcall] at h
      split at hnext
      · next hslot =>
          rcases hok hcall with hlazy | hsome | ⟨hempty, -⟩
          · cases hlazy.symm.trans h.2.1
          · rw [h.1.state] at hsome
            cases hsome
          · cases hempty.symm.trans hslot
      · cases hnext
  · next hcall =>
      rw [hcall] at h
      cases hnext
      exact ⟨⟨⟨h.1.live, h.1.state, h.1.supervisors⟩, h.2⟩, rfl⟩
  · next hcall =>
      rw [hcall] at h
      cases hnext
      obtain ⟨⟨hbare, -, havail⟩, hslot⟩ := h
      have hleaving : ({ s with reconnecting := false, call := .leaving }.pay s.incurred).Calm :=
        .of_down ⟨hbare.live, hbare.state, hbare.supervisors⟩ hslot havail rfl
      exact hleaving
  · next hcall =>
      rw [hcall] at h
      cases hnext
      exact Calm.goTo h .free
  · cases hnext

/-! ## Every run -/

/-- A start that is dropped has a supervisor to leave the transport to, or leaves it shut. -/
theorem Kept.dropStart (h : s.Kept) (hok : s.Unburdened) (hnext : s.dropStart = some s') :
    s'.Kept := by
  -- the flags are cleared, which a calm transport allows
  have hcleared : s.Calm → (s.failOpen .start).Calm := by
    intro hcalm
    refine ⟨hcalm.agree, hcalm.running, fun hmode => ?_, fun hmode => ?_⟩
    · exact ⟨(hcalm.unsupervised hmode).1, rfl, fun havail => by cases havail⟩
    · rcases hcalm.supervised hmode with hwatch | hgone
      · exact .inl hwatch
      · exact .inr ⟨hgone.1, hgone.2.1, rfl, rfl⟩
  have hlazy : s.Bare → s.serviceLifetime = false → (s.failOpen .start).Calm := by
    intro hbare hmode
    exact .of_closed ⟨hbare.live, hbare.state, hbare.supervisors⟩ ⟨hmode, rfl, rfl⟩
  have hdown : s.Bare → s.slot = false → (s.failOpen .start).Calm := by
    intro hbare hslot
    exact .of_down ⟨hbare.live, hbare.state, hbare.supervisors⟩ hslot rfl rfl
  unfold Kept at h
  unfold Supervision.dropStart at hnext
  split at hnext
  · next hcall =>
      rw [hcall] at h
      cases hnext
      exact hcleared h
  · next id hcall =>
      rw [hcall] at h
      cases hnext
      rcases hok with hmode | hsome | ⟨hslot, hnil⟩
      · cases hmode.symm.trans h.mode
      · rw [h.state] at hsome
        cases hsome
      · exact hdown ⟨h.live, h.state, hnil⟩ hslot
  · next hcall =>
      rw [hcall] at h
      cases hnext
      rcases hok with hmode | hsome | ⟨hslot, -⟩
      · exact hlazy h.1 hmode
      · rw [h.1.state] at hsome
        cases hsome
      · exact hdown h.1 hslot
  · next hcall =>
      rw [hcall] at h
      cases hnext
      exact hdown h.1.1 h.2
  · next paying hcall =>
      rw [hcall] at h
      cases hnext
      exact hdown h.1.1 h.2
  · next hcall =>
      rw [hcall] at h
      cases hnext
      exact hdown h.1.1 h.2
  · next hcall =>
      rw [hcall] at h
      cases hnext
      exact hdown h.1.1 h.2
  · next hcall =>
      rw [hcall] at h
      cases hnext
      rcases hok with hmode | hsome | ⟨hslot, -⟩
      · cases hmode.symm.trans h.2.1
      · rw [h.1.state] at hsome
        cases hsome
      · cases hslot.symm.trans h.2.2
  · next hcall =>
      rw [hcall] at h
      cases hnext
      exact Calm.goTo h.1 .free
  · cases hnext

theorem Kept.next (h : s.Kept) {input : SupervisionInput} (hok : GivesUpUnburdened [] s input)
    (hnext : s.next input = some s') : s'.Kept := by
  cases input with
  | acquire =>
    simp only [Supervision.next] at hnext
    split at hnext
    · next hfree =>
        cases hnext
        exact .acquire (h.calm hfree) hfree hok
    · cases hnext
  | release =>
    simp only [Supervision.next] at hnext
    split at hnext
    · next hfree =>
        cases hnext
        exact .release (h.calm hfree.1) hfree.1
    · cases hnext
  | start =>
    simp only [Supervision.next] at hnext
    split at hnext
    · next hfree =>
        cases hnext
        exact .start (h.calm hfree) hfree
    · cases hnext
  | shutdown =>
    simp only [Supervision.next] at hnext
    split at hnext
    · next hfree =>
        cases hnext
        exact .shutdown (h.calm hfree) hfree
    · cases hnext
  | resume reply => exact h.resume hok hnext
  | dropStart => exact h.dropStart hok hnext
  | supervise id step =>
    obtain ⟨t, hfound, hstep⟩ := Option.bind_eq_some_iff.mp hnext
    exact h.beside (loopStep_beside (List.mem_of_find?_eq_some hfound) hstep)
  | wireFailure =>
    cases hnext
    exact h.beside (wireFailure_beside s)

end Supervision

/-- In every run in which no start is dropped, and no shutdown unwound, with a conduit or a running
supervisor left to itself: whenever no call is under way, a transport that recovers or reads as
healthy has a supervisor, and one that reads as healthy has a conduit. -/
theorem attended_between_calls {inputs : List SupervisionInput} {log : List Unit} {s : Supervision}
    (hrun : Lib.History Supervision.step Supervision.GivesUpUnburdened .new inputs log s)
    (hfree : s.call = .free) : s.Attended := by
  have hkept : s.Kept := by
    refine hrun.invariant (fun _ s => s.Kept) Supervision.Calm.new ?_
    intro log s input s' events hs hok hstep
    obtain ⟨next, hnext, heq⟩ := Option.map_eq_some_iff.mp hstep
    cases heq
    exact hs.next hok hnext
  exact (hkept.calm hfree).attended

/-! ## A start that is dropped -/

namespace Supervision

instance (log : List Unit) (s : Supervision) :
    (input : SupervisionInput) → Decidable (GivesUpUnburdened log s input)
  | .dropStart => inferInstanceAs (Decidable s.Unburdened)
  | .resume .panic => inferInstanceAs (Decidable (_ → _))
  | .acquire => inferInstanceAs (Decidable (_ < _))
  | .resume .ok | .resume .err | .resume (.verdict _) | .resume .timeout | .release | .start
  | .shutdown | .supervise _ _ | .wireFailure => isTrue trivial

/-- Start a transport, and let a client acquire a session. -/
def serving : List SupervisionInput :=
  [.start, .resume .ok, .resume .ok, .resume .ok, .resume (.verdict true), .resume .ok, .resume .ok,
    .acquire, .resume .ok]

/-- A wire failure takes it out of service, and another start takes the supervisor. The start is
dropped in its handshake, and the client leaves. -/
def droppedInHandshake : List SupervisionInput :=
  serving ++ [.wireFailure, .supervise 0 .signal, .start, .resume .ok, .supervise 0 .cancelled,
    .resume .ok, .resume .ok, .dropStart, .release, .resume .ok]

/-- By then the slot is empty: nothing recovers and nothing reads as healthy. -/
theorem dropped_in_handshake_attended :
    ∃ log s, Lib.History Supervision.step GivesUpUnburdened .new droppedInHandshake log s ∧
      s.call = .free ∧ s.Attended := by
  obtain ⟨log, s, hrun, hfree⟩ : ∃ log s,
      Lib.History Supervision.step GivesUpUnburdened .new droppedInHandshake log s ∧
        s.call = .free := ⟨_, _, Lib.History.of_play rfl, rfl⟩
  exact ⟨log, s, hrun, hfree, attended_between_calls hrun hfree⟩

/-- The start is dropped one await earlier, when the supervisor is gone and the slot still holds the
conduit; then the last client's stop does not land. -/
def droppedBeforeSlot : List SupervisionInput :=
  serving ++ [.wireFailure, .supervise 0 .signal, .start, .resume .ok, .supervise 0 .cancelled,
    .resume .ok, .dropStart, .release, .resume .ok, .resume (.verdict false)]

/-- The start is dropped in the join of a supervisor whose attempt then comes out well. -/
def droppedInJoin : List SupervisionInput :=
  serving ++ [.wireFailure, .supervise 0 .signal, .supervise 0 .paced, .start, .resume .ok,
    .dropStart, .supervise 0 (.attempted true)]

/-- Either way no call is under way and no supervisor is registered: the one transport recovers, and
the other reads as healthy. -/
theorem dropped_start_unattended :
    (∃ log s, Lib.History Supervision.step (fun _ _ _ => True) .new droppedBeforeSlot log s ∧
      s.call = .free ∧ ¬ s.Attended) ∧
    ∃ log s, Lib.History Supervision.step (fun _ _ _ => True) .new droppedInJoin log s ∧
      s.call = .free ∧ ¬ s.Attended := by
  constructor
  · obtain ⟨log, s, hrun, hfree, hrec, hnone⟩ : ∃ log s,
        Lib.History Supervision.step (fun _ _ _ => True) .new droppedBeforeSlot log s ∧
          s.call = .free ∧ s.reconnecting = true ∧ s.supervisorState = none :=
      ⟨_, _, Lib.History.of_play rfl, rfl, rfl, rfl⟩
    refine ⟨log, s, hrun, hfree, fun hattended => ?_⟩
    have hsome := hattended.retried hrec
    rw [hnone] at hsome
    cases hsome
  · obtain ⟨log, s, hrun, hfree, hmode, havail, hnone⟩ : ∃ log s,
        Lib.History Supervision.step (fun _ _ _ => True) .new droppedInJoin log s ∧
          s.call = .free ∧ s.serviceLifetime = true ∧ s.available = true ∧
          s.supervisorState = none :=
      ⟨_, _, Lib.History.of_play rfl, rfl, rfl, rfl, rfl⟩
    refine ⟨log, s, hrun, hfree, fun hattended => ?_⟩
    have hsome := (hattended.watched hmode havail).2
    rw [hnone] at hsome
    cases hsome

end Supervision

end RustyPhoton.SharedTransport
