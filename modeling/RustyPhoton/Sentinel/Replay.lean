import RustyPhoton.Sentinel.Watchdog

/-!
# The line from the bus to the watchdog

Whatever the stream does and however often `rp` is restarted, the events come to the watchdog in the
order of their emission, and none comes twice: what was delivered and what is on its way stand in
one ascending line.
-/

namespace RustyPhoton.Sentinel

open Lib Rp.Events

variable {b : Broadcast EventEnvelope} (h : b.Lawful broadcastCapacity)

/-! ## The log -/

def WatchdogTrace.handling : WatchdogTrace → Option Origin
  | .handled process item => item.origin process
  | _ => none

def emissions (log : List WatchdogTrace) : List Origin := log.filterMap WatchdogTrace.emission

/-- The events that were handled. -/
def handled (log : List WatchdogTrace) : List Origin := log.filterMap WatchdogTrace.handling

theorem emissions_append (l l' : List WatchdogTrace) :
    emissions (l ++ l') = emissions l ++ emissions l' := List.filterMap_append

theorem delivered_append (l l' : List WatchdogTrace) :
    delivered (l ++ l') = delivered l ++ delivered l' := List.filterMap_append

theorem handled_append (l l' : List WatchdogTrace) : handled (l ++ l') = handled l ++ handled l' :=
  List.filterMap_append

/-- Entries that say nothing of the stream. -/
structure Silent (events : List WatchdogTrace) : Prop where
  emissions : emissions events = []
  delivered : delivered events = []
  handled : handled events = []

theorem silent_nil : Silent [] := ⟨rfl, rfl, rfl⟩

theorem Silent.of_forall {events : List WatchdogTrace} (hall : ∀ entry ∈ events,
      entry.emission = none ∧ entry.arrival = none ∧ entry.handling = none) : Silent events where
  emissions := List.filterMap_eq_nil_iff.mpr fun entry hmem => (hall entry hmem).1
  delivered := List.filterMap_eq_nil_iff.mpr fun entry hmem => (hall entry hmem).2.1
  handled := List.filterMap_eq_nil_iff.mpr fun entry hmem => (hall entry hmem).2.2

/-! ## The order of events -/

theorem Precedes.irrefl (p : Nat × Nat) : ¬ Precedes p p := by
  unfold Precedes
  omega

theorem Precedes.asymm {p q : Nat × Nat} (hpq : Precedes p q) : ¬ Precedes q p := by
  unfold Precedes at hpq ⊢
  omega

/-- One event was emitted before the other. -/
def Earlier (x y : Origin) : Prop := Precedes (key x) (key y)

/-! ## What is on its way -/

/-- What an open stream has yet to yield. -/
def tail (channel : b.Channel) (link : Link b) : List Origin :=
  if link.isOpen = true then (h.unread channel link.receiver).map (Prod.mk link.process) else []

def coming (channel : b.Channel) : Option (Link b) → List Origin
  | some link => link.queued ++ tail h channel link
  | none => []

/-- The events in the channel. -/
def inChannel (channel : List (Nat × Item)) : List Origin :=
  channel.filterMap fun frame => frame.2.origin frame.1

/-- The stream of a connection is that of the running process, and ends with its last event. -/
structure Live (s : Watch b) (link : Link b) : Prop where
  process : link.process = s.process
  of : h.Of s.bus.broadcast link.receiver
  unread : ∃ k, h.unread s.bus.broadcast link.receiver = s.emitted.drop k

/-- What holds of the stream along every run. -/
structure Line (wire : Wire) (log : List WatchdogTrace) (s : Watch b) : Prop where
  bus : Consistent h ⟨s.bus, s.emitted, []⟩
  few : s.emitted.length < seqModulus
  told : ∀ x ∈ emissions log, Told wire x.2
  past : ∀ x ∈ emissions log,
    x.1 < s.process ∨ x.1 = s.process ∧ x.2.eventSeq ≤ s.emitted.length
  running : ∀ e ∈ s.emitted, (s.process, e) ∈ emissions log
  passed : delivered log = handled log ++ inChannel s.channel
  order : (delivered log ++ coming h s.bus.broadcast s.link).Pairwise Earlier
  known : ∀ x ∈ delivered log ++ coming h s.bus.broadcast s.link, x ∈ emissions log
  live : ∀ link, s.link = some link → link.isOpen = true → Live h s link
  cursor : ∀ x ∈ handled log, ∃ n, s.lastSeq = some n ∧ x.2.eventSeq ≤ n
  idle : s.stage ≠ .consuming → s.channel = [] ∧ s.link = none

variable {h} {wire : Wire} {log events : List WatchdogTrace} {s s' : Watch b}

theorem start_line : Line h wire [] (Watch.start : Watch b) where
  bus := start_consistent h
  few := Nat.lt_of_succ_lt one_lt_seqModulus
  told x hx := absurd hx List.not_mem_nil
  past x hx := absurd hx List.not_mem_nil
  running e he := absurd he List.not_mem_nil
  passed := rfl
  order := .nil
  known x hx := absurd hx List.not_mem_nil
  live link hlink := by cases hlink
  cursor x hx := absurd hx List.not_mem_nil
  idle _ := ⟨rfl, rfl⟩

/-- The running process has held on to nothing but its own events. -/
theorem Line.ring (hl : Line h wire log s) : s.bus.history = retained s.emitted := hl.bus.ring

variable {e : EventEnvelope}

theorem Line.held (hl : Line h wire log s) (he : e ∈ s.bus.history) :
    e ∈ s.emitted := by
  rw [hl.ring] at he
  exact List.mem_of_mem_drop he

/-- An event the running process has yet to emit comes after all. -/
theorem Line.new_last (hl : Line h wire log s)
    (hseq : e.eventSeq = s.emitted.length + 1) {x : Origin} (hx : x ∈ emissions log) :
    Earlier x (s.process, e) := by
  show x.1 < s.process ∨ x.1 = s.process ∧ x.2.eventSeq < e.eventSeq
  have hpast := hl.past x hx
  omega

/-! ## The steps of the line -/

variable {link : Option (Link b)}

/-- Another connection, or none: it brings no event that the one before it did not. -/
theorem Line.relink (hl : Line h wire log s)
    (hcoming : (coming h s.bus.broadcast link).Sublist (coming h s.bus.broadcast s.link))
    (hlive : ∀ l, link = some l → l.isOpen = true → Live h s l)
    (hidle : s.link = none → link = none) : Line h wire log { s with link } where
  bus := hl.bus
  few := hl.few
  told := hl.told
  past := hl.past
  running := hl.running
  passed := hl.passed
  order := hl.order.sublist ((List.Sublist.refl _).append hcoming)
  known x hx := hl.known x (((List.Sublist.refl _).append hcoming).subset hx)
  live link hlink hopen :=
    let hopen := hlive link hlink hopen
    ⟨hopen.process, hopen.of, hopen.unread⟩
  cursor := hl.cursor
  idle hstage := ⟨(hl.idle hstage).1, hidle (hl.idle hstage).2⟩

/-- What the stream does not notice. -/
theorem Line.unnoticed (hl : Line h wire log s) (hevents : Silent events)
    (hprocess : s'.process = s.process) (hbus : s'.bus = s.bus) (hemitted : s'.emitted = s.emitted)
    (hlink : s'.link = s.link) (hchannel : s'.channel = s.channel) (hlast : s'.lastSeq = s.lastSeq)
    (hidle : s'.stage ≠ .consuming → s.channel = [] ∧ s.link = none) :
    Line h wire (log ++ events) s' := by
  have hem : emissions (log ++ events) = emissions log := by
    rw [emissions_append, hevents.emissions, List.append_nil]
  have hde : delivered (log ++ events) = delivered log := by
    rw [delivered_append, hevents.delivered, List.append_nil]
  have hha : handled (log ++ events) = handled log := by
    rw [handled_append, hevents.handled, List.append_nil]
  constructor
  · rw [hbus, hemitted]
    exact hl.bus
  · rw [hemitted]
    exact hl.few
  · rw [hem]
    exact hl.told
  · rw [hem, hprocess, hemitted]
    exact hl.past
  · rw [hem, hprocess, hemitted]
    exact hl.running
  · rw [hde, hha, hchannel]
    exact hl.passed
  · rw [hde, hbus, hlink]
    exact hl.order
  · rw [hde, hem, hbus, hlink]
    exact hl.known
  · intro link hsome hopen
    obtain ⟨hp, hof, hun⟩ := hl.live link (hlink ▸ hsome) hopen
    refine ⟨hp.trans hprocess.symm, ?_, ?_⟩
    · rw [hbus]
      exact hof
    · rw [hbus, hemitted]
      exact hun
  · rw [hha, hlast]
    exact hl.cursor
  · rw [hchannel, hlink]
    exact hidle

/-! ### An emission -/

/-- An event that is sent comes last on an open stream. -/
theorem coming_send (e : EventEnvelope)
    (hlive : ∀ link, s.link = some link → link.isOpen = true → Live h s link) :
    coming h (b.send e s.bus.broadcast) s.link = coming h s.bus.broadcast s.link ∨
      coming h (b.send e s.bus.broadcast) s.link =
        coming h s.bus.broadcast s.link ++ [(s.process, e)] := by
  cases hlink : s.link with
  | none => exact .inl rfl
  | some link =>
    by_cases hopen : link.isOpen = true
    · have hl := hlive link hlink hopen
      right
      simp only [coming, tail, if_pos hopen]
      rw [(h.sent e hl.of).2, List.map_append, ← List.append_assoc, hl.process]
      rfl
    · left
      simp only [coming, tail, if_neg hopen]

theorem Line.emit (hl : Line h wire log s) (envelope : EventEnvelope) (eventId timestamp : String)
    (htold : Told wire (s.bus.stamp envelope eventId timestamp))
    (hfew : s.emitted.length + 1 < seqModulus) :
    Line h wire (log ++ [.emitted s.clock (s.process, s.bus.stamp envelope eventId timestamp)])
      { s with
        bus := s.bus.dispatch envelope eventId timestamp
        emitted := s.emitted ++ [s.bus.stamp envelope eventId timestamp] } := by
  have hbus : Consistent h ⟨s.bus.dispatch envelope eventId timestamp,
      s.emitted ++ [s.bus.stamp envelope eventId timestamp], []⟩ :=
    hl.bus.emit envelope eventId timestamp
  have hseq : (s.bus.stamp envelope eventId timestamp).eventSeq = s.emitted.length + 1 :=
    hl.bus.next.trans (Nat.mod_eq_of_lt hfew)
  have hsend : (s.bus.dispatch envelope eventId timestamp).broadcast =
      b.send (s.bus.stamp envelope eventId timestamp) s.bus.broadcast := rfl
  generalize s.bus.stamp envelope eventId timestamp = e at *
  have hem : emissions (log ++ [.emitted s.clock (s.process, e)]) =
      emissions log ++ [(s.process, e)] := emissions_append _ _
  have hde : delivered (log ++ [.emitted s.clock (s.process, e)]) = delivered log := by
    rw [delivered_append]
    exact List.append_nil _
  have hha : handled (log ++ [.emitted s.clock (s.process, e)]) = handled log := by
    rw [handled_append]
    exact List.append_nil _
  have hlen : (s.emitted ++ [e]).length = s.emitted.length + 1 := List.length_append
  have hcoming := coming_send e hl.live
  constructor
  · exact hbus
  · show (s.emitted ++ [e]).length < seqModulus
    omega
  · rw [hem]
    intro x hx
    rcases List.mem_append.mp hx with hx | hx
    · exact hl.told x hx
    · rw [List.mem_singleton.mp hx]
      exact htold
  · rw [hem]
    intro x hx
    show x.1 < s.process ∨ x.1 = s.process ∧ x.2.eventSeq ≤ (s.emitted ++ [e]).length
    rcases List.mem_append.mp hx with hx | hx
    · have hpast := hl.past x hx
      omega
    · rw [List.mem_singleton.mp hx]
      refine .inr ⟨rfl, ?_⟩
      show e.eventSeq ≤ (s.emitted ++ [e]).length
      omega
  · intro e' he'
    rw [hem]
    rcases List.mem_append.mp he' with he' | he'
    · exact List.mem_append_left _ (hl.running e' he')
    · rw [List.mem_singleton.mp he']
      exact List.mem_append_right _ List.mem_cons_self
  · rw [hde, hha]
    exact hl.passed
  · rw [hde]
    show (delivered log ++ coming h (s.bus.dispatch envelope eventId timestamp).broadcast
      s.link).Pairwise Earlier
    rw [hsend]
    rcases hcoming with hsame | hmore
    · rw [hsame]
      exact hl.order
    · rw [hmore, ← List.append_assoc]
      refine List.pairwise_append.mpr ⟨hl.order, List.pairwise_singleton _ _, fun x hx y hy => ?_⟩
      rw [List.mem_singleton.mp hy]
      exact hl.new_last hseq (hl.known x hx)
  · rw [hde, hem]
    show ∀ x ∈ delivered log ++ coming h (s.bus.dispatch envelope eventId timestamp).broadcast
      s.link, x ∈ emissions log ++ [(s.process, e)]
    rw [hsend]
    intro x hx
    rcases hcoming with hsame | hmore
    · rw [hsame] at hx
      exact List.mem_append_left _ (hl.known x hx)
    · rw [hmore, ← List.append_assoc] at hx
      rcases List.mem_append.mp hx with hx | hx
      · exact List.mem_append_left _ (hl.known x hx)
      · exact List.mem_append_right _ hx
  · intro link hlink hopen
    obtain ⟨hp, hof, k, hun⟩ := hl.live link hlink hopen
    obtain ⟨hof', hun'⟩ := h.sent e hof
    refine ⟨hp, ?_, min k s.emitted.length, ?_⟩
    · show h.Of (s.bus.dispatch envelope eventId timestamp).broadcast link.receiver
      rw [hsend]
      exact hof'
    · show h.unread (s.bus.dispatch envelope eventId timestamp).broadcast link.receiver =
        (s.emitted ++ [e]).drop (min k s.emitted.length)
      rw [hsend, hun', hun, List.drop_append_of_le_length (Nat.min_le_right _ _)]
      congr 1
      rcases Nat.le_total k s.emitted.length with hle | hge
      · rw [Nat.min_eq_left hle]
      · rw [Nat.min_eq_right hge, List.drop_eq_nil_of_le hge, List.drop_length]
  · rw [hha]
    exact hl.cursor
  · exact hl.idle

/-! ### The end of a stream -/

/-- A stream that ends keeps what is in flight. -/
theorem coming_close (channel : b.Channel) (link : Option (Link b)) :
    (coming h channel (link.map Link.close)).Sublist (coming h channel link) := by
  cases link with
  | none => exact .slnil
  | some link =>
    show (link.queued ++ []).Sublist (link.queued ++ tail h channel link)
    exact (List.Sublist.refl _).append (List.nil_sublist _)

theorem not_open_close {l : Link b} (hl : link.map Link.close = some l) :
    l.isOpen ≠ true := by
  obtain ⟨old, -, rfl⟩ := Option.map_eq_some_iff.mp hl
  exact Bool.false_ne_true

theorem Line.close (hl : Line h wire log s) :
    Line h wire log { s with link := s.link.map Link.close } := by
  refine hl.relink (coming_close _ _) ?_ ?_
  · intro l hsome hopen
    exact absurd hopen (not_open_close hsome)
  · intro hnone
    rw [hnone]
    rfl

theorem Line.disconnect (hl : Line h wire log s) : Line h wire log { s with link := none } := by
  refine hl.relink (List.nil_sublist _) ?_ fun _ => rfl
  intro l hsome
  cases hsome

/-- A new process begins anew: what it will emit comes after all there was. -/
theorem Line.restart (hl : Line h wire log s) :
    Line h wire log
      { s with
        process := s.process + 1, bus := .new, emitted := []
        link := s.link.map Link.close } := by
  have hclosed := hl.close
  have hcoming : coming h (EventBus.new : EventBus b).broadcast (s.link.map Link.close) =
      coming h s.bus.broadcast (s.link.map Link.close) := by
    cases s.link <;> rfl
  constructor
  · exact start_consistent h
  · exact Nat.lt_of_succ_lt one_lt_seqModulus
  · exact hl.told
  · intro x hx
    have hpast := hl.past x hx
    left
    show x.1 < s.process + 1
    omega
  · exact fun e he => absurd he List.not_mem_nil
  · exact hl.passed
  · show (delivered log ++ coming h (EventBus.new : EventBus b).broadcast
      (s.link.map Link.close)).Pairwise Earlier
    rw [hcoming]
    exact hclosed.order
  · show ∀ x ∈ delivered log ++ coming h (EventBus.new : EventBus b).broadcast
      (s.link.map Link.close), x ∈ emissions log
    rw [hcoming]
    exact hclosed.known
  · intro l hsome hopen
    exact absurd hopen (not_open_close hsome)
  · exact hl.cursor
  · exact hclosed.idle

/-! ### The stream -/

/-- A look at the receiver moves at most one event into the queue. -/
theorem Live.serve {link : Link b} (hlive : Live h s link) (hopen : link.isOpen = true) :
    (coming h s.bus.broadcast (some (link.serve s.bus.broadcast))).Sublist
        (coming h s.bus.broadcast (some link)) ∧
      ((link.serve s.bus.broadcast).isOpen = true →
        Live h s (link.serve s.bus.broadcast)) := by
  obtain ⟨hprocess, hof, k, hunread⟩ := hlive
  obtain ⟨hof', hcase⟩ := h.recv hof
  simp only [coming, tail, if_pos hopen]
  unfold Link.serve Link.queued
  rcases hcase with ⟨hempty, hun, hun'⟩ | ⟨e, hvalue, hun⟩ | ⟨missed, hlag, -, -⟩
  · simp only [hempty, if_pos hopen]
    rw [hun, hun']
    refine ⟨List.Sublist.refl _, fun _ => ⟨hprocess, hof', s.emitted.length, ?_⟩⟩
    rw [List.drop_length]
    exact hun'
  · simp only [hvalue, if_pos hopen]
    rw [hun, List.map_cons, List.filterMap_append, List.append_assoc]
    refine ⟨List.Sublist.refl _, fun _ => ⟨hprocess, hof', k + 1, ?_⟩⟩
    show h.unread s.bus.broadcast (b.recv s.bus.broadcast link.receiver).2 = s.emitted.drop (k + 1)
    rw [← List.drop_drop, ← hunread, hun, List.drop_one, List.tail_cons]
  · simp only [hlag, Bool.false_eq_true, if_false, List.append_nil, List.filterMap_append]
    refine ⟨?_, fun hl => by cases hl⟩
    show (_ ++ []).Sublist _
    rw [List.append_nil]
    exact List.sublist_append_left _ _

theorem Line.serve (hl : Line h wire log s) {link : Link b} (hlink : s.link = some link)
    (hopen : link.isOpen = true) :
    Line h wire log { s with link := some (link.serve s.bus.broadcast) } := by
  obtain ⟨hcoming, hlive⟩ := (hl.live link hlink hopen).serve hopen
  refine hl.relink ?_ ?_ ?_
  · rw [hlink]
    exact hcoming
  · intro l hsome hl'
    obtain rfl := Option.some.inj hsome
    exact hlive hl'
  · intro hnone
    rw [hlink] at hnone
    cases hnone

variable {process : Nat} {item : Item}

/-- A frame that comes into the channel was the next on its way. -/
theorem Line.deliver (hl : Line h wire log s) {rest : List Item}
    {receiver : b.Receiver} {isOpen : Bool}
    (hlink : s.link = some ⟨process, item :: rest, receiver, isOpen⟩) :
    Line h wire (log ++ [.arrived process item])
      { s with
        link := some ⟨process, rest, receiver, isOpen⟩
        channel := s.channel ++ [(process, item)] } := by
  have hem : emissions (log ++ [.arrived process item]) = emissions log := by
    rw [emissions_append]
    exact List.append_nil _
  have hha : handled (log ++ [.arrived process item]) = handled log := by
    rw [handled_append]
    exact List.append_nil _
  have hde : delivered (log ++ [.arrived process item]) =
      delivered log ++ (item.origin process).toList := by
    rw [delivered_append]
    cases item <;> rfl
  have hcoming : coming h s.bus.broadcast s.link = (item.origin process).toList ++
      coming h s.bus.broadcast (some ⟨process, rest, receiver, isOpen⟩) := by
    rw [hlink]
    show (Link.queued ⟨process, item :: rest, receiver, isOpen⟩) ++ _ = _ ++ (_ ++ _)
    rw [← List.append_assoc]
    refine congrArg (· ++ _) ?_
    cases item <;> rfl
  -- the event only moved
  have hall : delivered (log ++ [.arrived process item]) ++
      coming h s.bus.broadcast (some ⟨process, rest, receiver, isOpen⟩) =
      delivered log ++ coming h s.bus.broadcast s.link := by
    rw [hde, hcoming, List.append_assoc]
  constructor
  · exact hl.bus
  · exact hl.few
  · rw [hem]
    exact hl.told
  · rw [hem]
    exact hl.past
  · rw [hem]
    exact hl.running
  · rw [hde, hha, hl.passed, List.append_assoc]
    show _ = handled log ++ inChannel (s.channel ++ [(process, item)])
    refine congrArg (handled log ++ ·) ?_
    show _ = List.filterMap _ (s.channel ++ _)
    rw [List.filterMap_append]
    cases item <;> rfl
  · show (_ ++ coming h s.bus.broadcast (some ⟨process, rest, receiver, isOpen⟩)).Pairwise Earlier
    rw [hall]
    exact hl.order
  · show ∀ x ∈ _ ++ coming h s.bus.broadcast (some ⟨process, rest, receiver, isOpen⟩), _
    rw [hall, hem]
    exact hl.known
  · intro l hsome hopen
    obtain rfl := Option.some.inj hsome
    obtain ⟨hp, hof, hun⟩ := hl.live _ hlink hopen
    exact ⟨hp, hof, hun⟩
  · rw [hha]
    exact hl.cursor
  · intro hstage
    have hnone := (hl.idle hstage).2
    rw [hlink] at hnone
    cases hnone

/-! ### A connection -/

/-- What the running process emitted stands in ascending order. -/
theorem Line.ascending (hl : Line h wire log s) :
    (s.emitted.map (Prod.mk s.process)).Pairwise Earlier := by
  have hseqs : (s.emitted.map EventEnvelope.eventSeq).Pairwise (· < ·) := by
    have hnumbers : s.emitted.map EventEnvelope.eventSeq = List.range' 1 s.emitted.length :=
      hl.bus.numbered hl.few
    rw [hnumbers]
    exact List.pairwise_lt_range'
  refine List.pairwise_map.mpr ((List.pairwise_map.mp hseqs).imp ?_)
  intro e e' hlt
  exact .inr ⟨rfl, hlt⟩

/-- The events that come over a new connection. -/
theorem coming_openStream :
    coming h s.bus.broadcast (some (openStream s.process s.bus s.lastSeq)) =
      (s.bus.subscribeWithHistory s.lastSeq).replay.map (Prod.mk s.process) := by
  have hun : h.unread s.bus.broadcast (b.subscribe s.bus.broadcast) = [] :=
    (h.subscribed s.bus.broadcast).2
  show (openStream s.process s.bus s.lastSeq).queued ++
    (if True then (h.unread s.bus.broadcast (b.subscribe s.bus.broadcast)).map _ else []) = _
  rw [if_pos trivial, hun, List.map_nil, List.append_nil, openStream_queued]

theorem mem_replay (he : e ∈ (s.bus.subscribeWithHistory s.lastSeq).replay) :
    e ∈ s.bus.history ∧ ∃ cursor, s.lastSeq = some cursor ∧ cursor < e.eventSeq := by
  unfold EventBus.subscribeWithHistory at he
  cases hlast : s.lastSeq with
  | none =>
    simp only [hlast] at he
    exact absurd he List.not_mem_nil
  | some cursor =>
    simp only [hlast] at he
    obtain ⟨hmem, hlt⟩ := List.mem_filter.mp he
    exact ⟨hmem, cursor, rfl, of_decide_eq_true hlt⟩

theorem replay_sublist :
    (s.bus.subscribeWithHistory s.lastSeq).replay.Sublist s.bus.history := by
  unfold EventBus.subscribeWithHistory
  cases s.lastSeq with
  | none => exact List.nil_sublist _
  | some cursor => exact List.filter_sublist

/-- The replay comes after all that was handled: of the running process it holds what is above the
cursor, and no number that was handled is. -/
theorem Line.connect (hl : Line h wire log s) (hstage : s.stage = .connecting) :
    Line h wire (log ++ [.connected (s.bus.history.map (Prod.mk s.process))])
      { s with
        link := some (openStream s.process s.bus s.lastSeq), stage := .consuming, attempts := 0 } := by
  obtain ⟨hchannel, hlink⟩ := hl.idle (by rw [hstage]; decide)
  have hhandled : delivered log = handled log := by
    rw [hl.passed, hchannel]
    exact List.append_nil _
  have horder := hl.order
  have hknown := hl.known
  rw [hlink] at horder hknown
  simp only [coming, List.append_nil] at horder hknown
  have hquiet : Silent [.connected (s.bus.history.map (Prod.mk s.process))] := ⟨rfl, rfl, rfl⟩
  have hem : emissions (log ++ [.connected (s.bus.history.map (Prod.mk s.process))]) =
      emissions log := by rw [emissions_append, hquiet.emissions, List.append_nil]
  have hde : delivered (log ++ [.connected (s.bus.history.map (Prod.mk s.process))]) =
      delivered log := by rw [delivered_append, hquiet.delivered, List.append_nil]
  have hha : handled (log ++ [.connected (s.bus.history.map (Prod.mk s.process))]) =
      handled log := by rw [handled_append, hquiet.handled, List.append_nil]
  constructor
  · exact hl.bus
  · exact hl.few
  · rw [hem]
    exact hl.told
  · rw [hem]
    exact hl.past
  · rw [hem]
    exact hl.running
  · rw [hde, hha]
    exact hl.passed
  · show (_ ++ coming h s.bus.broadcast (some (openStream s.process s.bus s.lastSeq))).Pairwise
      Earlier
    rw [hde, coming_openStream]
    refine List.pairwise_append.mpr ⟨horder, ?_, ?_⟩
    · have hring : s.bus.history.Sublist s.emitted := by
        rw [hl.ring]
        exact List.drop_sublist _ _
      exact hl.ascending.sublist ((replay_sublist.trans hring).map _)
    · intro x hx y hy
      obtain ⟨e, he, rfl⟩ := List.mem_map.mp hy
      obtain ⟨-, cursor, hcursor, hlt⟩ := mem_replay he
      obtain ⟨n, hn, hle⟩ := hl.cursor x (hhandled ▸ hx)
      rw [hcursor] at hn
      obtain rfl := Option.some.inj hn
      show x.1 < s.process ∨ x.1 = s.process ∧ x.2.eventSeq < e.eventSeq
      have hpast := hl.past x (hknown x hx)
      omega
  · show ∀ x ∈ _ ++ coming h s.bus.broadcast (some (openStream s.process s.bus s.lastSeq)), _
    rw [hde, hem, coming_openStream]
    intro x hx
    rcases List.mem_append.mp hx with hx | hx
    · exact hknown x hx
    · obtain ⟨e, he, rfl⟩ := List.mem_map.mp hx
      exact hl.running e (hl.held (mem_replay he).1)
  · intro l hsome _
    obtain rfl := Option.some.inj hsome
    obtain ⟨hof, hun⟩ := h.subscribed s.bus.broadcast
    refine ⟨rfl, hof, s.emitted.length, ?_⟩
    rw [List.drop_length]
    exact hun
  · rw [hha]
    exact hl.cursor
  · intro hne
    exact absurd rfl hne

/-! ### A frame that is handled -/

theorem advance_le (id : Option Nat) {lastSeq : Option Nat} {n : Nat} (hlast : lastSeq = some n) :
    ∃ m, advance lastSeq id = some m ∧ n ≤ m := by
  cases id with
  | none => exact ⟨n, hlast, Nat.le_refl n⟩
  | some id =>
    refine ⟨max n id, ?_, Nat.le_max_left n id⟩
    rw [hlast]
    rfl

theorem advance_seen (lastSeq : Option Nat) (id : Nat) :
    ∃ m, advance lastSeq (some id) = some m ∧ id ≤ m := by
  cases lastSeq with
  | none => exact ⟨id, rfl, Nat.le_refl id⟩
  | some n => exact ⟨max n id, rfl, Nat.le_max_right n id⟩

variable {reports : List WatchdogTrace}

/-- A frame that is handled, with what it has reported. -/
theorem handled_frame (log : List WatchdogTrace) (process : Nat) (item : Item)
    (hreports : Silent reports) :
    handled (log ++ .handled process item :: reports) =
      handled log ++ (item.origin process).toList := by
  rw [handled_append, ← List.singleton_append, handled_append, hreports.handled, List.append_nil]
  cases item <;> rfl

theorem Line.receive (hl : Line h wire log s)
    {rest : List (Nat × Item)} (hchannel : s.channel = (process, item) :: rest)
    (hreports : Silent reports) (tracked : List (String × Tracked))
    (hstage : s.stage = .consuming) :
    Line h wire (log ++ .handled process item :: reports)
      { s with
        channel := rest, lastSeq := advance s.lastSeq (wire.frame item).id, tracked } := by
  have hem : emissions (log ++ .handled process item :: reports) = emissions log := by
    rw [emissions_append]
    show _ ++ emissions reports = _
    rw [hreports.emissions, List.append_nil]
  have hde : delivered (log ++ .handled process item :: reports) = delivered log := by
    rw [delivered_append]
    show _ ++ delivered reports = _
    rw [hreports.delivered, List.append_nil]
  have hha := handled_frame log process item hreports
  constructor
  · exact hl.bus
  · exact hl.few
  · rw [hem]
    exact hl.told
  · rw [hem]
    exact hl.past
  · rw [hem]
    exact hl.running
  · rw [hde, hha, hl.passed, hchannel, List.append_assoc]
    refine congrArg (handled log ++ ·) ?_
    cases item <;> rfl
  · rw [hde]
    exact hl.order
  · rw [hde, hem]
    exact hl.known
  · intro l hsome hopen
    obtain ⟨hp, hof, hun⟩ := hl.live l hsome hopen
    exact ⟨hp, hof, hun⟩
  · rw [hha]
    intro x hx
    show ∃ n, advance s.lastSeq (wire.frame item).id = some n ∧ x.2.eventSeq ≤ n
    rcases List.mem_append.mp hx with hx | hx
    · obtain ⟨n, hn, hle⟩ := hl.cursor x hx
      obtain ⟨m, hm, hnm⟩ := advance_le (wire.frame item).id hn
      exact ⟨m, hm, Nat.le_trans hle hnm⟩
    · cases item with
      | envelope e =>
        obtain rfl := List.mem_singleton.mp hx
        exact advance_seen s.lastSeq e.eventSeq
      | gap info => exact absurd hx List.not_mem_nil
      | lagGap missed => exact absurd hx List.not_mem_nil
  · intro hne
    exact absurd hstage hne

end RustyPhoton.Sentinel
