import Mathlib.Data.List.Induction
import RustyPhoton.Lib.Broadcast
import RustyPhoton.Lib.Json

/-!
# The event bus

After `events.rs` of `rp` and the gap test of its routes: sequence numbers, the history ring and
the broadcast to the live receivers, all under one lock, so each call is one step here. The
broadcast channel is a parameter. The webhooks are posted after the lock is released and change
nothing of the bus; they are left out.
-/

namespace RustyPhoton.Rp.Events

open Lib

/-- The uniform wire shape of every emitted event. -/
structure EventEnvelope where
  eventId : String
  eventSeq : Nat
  operationId : Option String
  event : String
  timestamp : String
  startedAt : Option String
  endedAt : Option String
  elapsedMs : Option Nat
  predictedDurationMs : Option Nat
  maxDurationMs : Option Nat
  payload : Value
  deriving DecidableEq

def broadcastCapacity : Nat := 256

def historyCapacity : Nat := 512

/-- The sequence counter is an unsigned 64-bit number, and wraps. -/
def seqModulus : Nat := 2 ^ 64

theorem one_lt_seqModulus : 1 < seqModulus := Nat.one_lt_two_pow (by omega)

/-- `u64::saturating_add`. -/
def saturatingAdd (a b : Nat) : Nat := min (a + b) (seqModulus - 1)

structure EventBus (b : Broadcast EventEnvelope) where
  broadcast : b.Channel
  nextSeq : Nat
  history : List EventEnvelope

/-- A subscription with a replay cursor. -/
structure Subscription (b : Broadcast EventEnvelope) where
  replay : List EventEnvelope
  receiver : b.Receiver
  oldestRetainedSeq : Option Nat

/-- The events a reconnecting client missed that the history can no longer replay. -/
structure GapInfo where
  requestedAfter : Nat
  oldestAvailable : Nat
  deriving DecidableEq

def detectGap (requestedLastSeq oldestRetainedSeq : Option Nat) : Option GapInfo :=
  match requestedLastSeq, oldestRetainedSeq with
  | some after, some oldest =>
      if saturatingAdd after 1 < oldest then some ⟨after, oldest⟩ else none
  | _, _ => none

namespace EventBus

variable {b : Broadcast EventEnvelope}

/-- A bus that has emitted nothing; the first event has number one. -/
def new : EventBus b := ⟨b.new, 1, []⟩

/-- Append to the ring, and drop its oldest entry when it is full. -/
def retain (history : List EventEnvelope) (envelope : EventEnvelope) : List EventEnvelope :=
  (if historyCapacity ≤ history.length then history.tail else history) ++ [envelope]

/-- The envelope as it is sent, with its identity. -/
def stamp (bus : EventBus b) (envelope : EventEnvelope) (eventId timestamp : String) :
    EventEnvelope :=
  { envelope with eventId, timestamp, eventSeq := bus.nextSeq }

def dispatch (bus : EventBus b) (envelope : EventEnvelope) (eventId timestamp : String) :
    EventBus b :=
  let envelope := bus.stamp envelope eventId timestamp
  { broadcast := b.send envelope bus.broadcast
    nextSeq := (bus.nextSeq + 1) % seqModulus
    history := retain bus.history envelope }

def subscribeWithHistory (bus : EventBus b) (lastSeq : Option Nat) : Subscription b where
  replay := match lastSeq with
    | some cursor => bus.history.filter fun e => cursor < e.eventSeq
    | none => []
  receiver := b.subscribe bus.broadcast
  oldestRetainedSeq := bus.history.head?.map EventEnvelope.eventSeq

end EventBus

/-! ## Emitters and subscribers -/

section World

variable {b : Broadcast EventEnvelope}

/-- A subscriber: where it began, what it was handed and what it has received since. -/
structure Subscriber (b : Broadcast EventEnvelope) where
  cursor : Option Nat
  /-- How many events had been emitted when it subscribed. -/
  since : Nat
  subscription : Subscription b
  delivered : List EventEnvelope
  lagged : Bool

/-- What an emitter or a subscriber does next. -/
inductive Input where
  | emit (envelope : EventEnvelope) (eventId timestamp : String)
  | subscribe (lastSeq : Option Nat)
  /-- The subscriber at this index asks its receiver. -/
  | recv (index : Nat)

/-- The bus, all it has emitted, and its subscribers. -/
structure World (b : Broadcast EventEnvelope) where
  bus : EventBus b
  emitted : List EventEnvelope
  subscribers : List (Subscriber b)

def World.start : World b := ⟨.new, [], []⟩

/-- A subscriber asks its receiver. -/
def Subscriber.recv (channel : b.Channel) (sub : Subscriber b) : Subscriber b :=
  let (received, receiver) := b.recv channel sub.subscription.receiver
  let sub := { sub with subscription := { sub.subscription with receiver } }
  match received with
  | .value e => { sub with delivered := sub.delivered ++ [e] }
  | .lagged _ => { sub with lagged := true }
  | .empty => sub

def World.step (w : World b) : Input → World b
  | .emit envelope eventId timestamp =>
      { w with
        bus := w.bus.dispatch envelope eventId timestamp
        emitted := w.emitted ++ [w.bus.stamp envelope eventId timestamp] }
  | .subscribe lastSeq =>
      { w with
        subscribers := w.subscribers ++
          [⟨lastSeq, w.emitted.length, w.bus.subscribeWithHistory lastSeq, [], false⟩] }
  | .recv index =>
      { w with
        subscribers := w.subscribers.modify index (Subscriber.recv w.bus.broadcast) }

/-- Any interleaving of emitters and subscribers. -/
def World.run (inputs : List Input) : World b := inputs.foldl World.step World.start

theorem run_snoc (inputs : List Input) (i : Input) :
    (World.run (inputs ++ [i]) : World b) = (World.run inputs).step i :=
  List.foldl_concat ..

end World

/-! ## What the bus holds -/

/-- The last so many of what was emitted. -/
def retained (emitted : List EventEnvelope) : List EventEnvelope :=
  emitted.drop (emitted.length - historyCapacity)

/-- What is no longer held. -/
def evicted (emitted : List EventEnvelope) : List EventEnvelope :=
  emitted.take (emitted.length - historyCapacity)

theorem retain_retained (emitted : List EventEnvelope) (e : EventEnvelope) :
    EventBus.retain (retained emitted) e = retained (emitted ++ [e]) := by
  unfold EventBus.retain retained
  rw [List.length_drop, List.length_append, List.length_singleton]
  split
  · next hfull =>
      have hlen : emitted.length + 1 - historyCapacity =
          emitted.length - historyCapacity + 1 := by omega
      rw [List.tail_drop, hlen, List.drop_append_of_le_length]
      have : 0 < historyCapacity := by decide
      omega
  · next hroom =>
      have hlen : emitted.length + 1 - historyCapacity = emitted.length - historyCapacity := by
        omega
      rw [hlen, List.drop_append_of_le_length (by omega)]

/-- The envelope number, counted from one. -/
def seqAt (i : Nat) : Nat := (i + 1) % seqModulus

section Invariant

variable {b : Broadcast EventEnvelope} (h : b.Lawful broadcastCapacity)

/-- What the cursor asks to be replayed of these. -/
def replayOf (cursor : Option Nat) (held : List EventEnvelope) : List EventEnvelope :=
  match cursor with
  | some cursor => held.filter fun e => cursor < e.eventSeq
  | none => []

/-- A subscriber has been handed the ring as it was, and gets everything after it. -/
structure Served (channel : b.Channel) (emitted : List EventEnvelope) (sub : Subscriber b) :
    Prop where
  since : sub.since ≤ emitted.length
  of : h.Of channel sub.subscription.receiver
  replay : sub.subscription.replay = replayOf sub.cursor (retained (emitted.take sub.since))
  oldest : sub.subscription.oldestRetainedSeq =
    (retained (emitted.take sub.since)).head?.map EventEnvelope.eventSeq
  live : sub.lagged = false →
    sub.delivered ++ h.unread channel sub.subscription.receiver = emitted.drop sub.since

/-- What holds after any interleaving. -/
structure Consistent (w : World b) : Prop where
  seqs : w.emitted.map EventEnvelope.eventSeq = (List.range w.emitted.length).map seqAt
  next : w.bus.nextSeq = seqAt w.emitted.length
  ring : w.bus.history = retained w.emitted
  served : ∀ sub ∈ w.subscribers, Served h w.bus.broadcast w.emitted sub

theorem start_consistent : Consistent h (World.start : World b) where
  seqs := rfl
  next := (Nat.mod_eq_of_lt one_lt_seqModulus).symm
  ring := List.drop_nil.symm
  served sub hsub := absurd hsub List.not_mem_nil

variable {h} {w : World b} {channel : b.Channel} {emitted : List EventEnvelope}
  {sub : Subscriber b}

/-- An event emitted after it subscribed comes to a subscriber live. -/
theorem Served.send (hsub : Served h channel emitted sub) (e : EventEnvelope) :
    Served h (b.send e channel) (emitted ++ [e]) sub := by
  obtain ⟨hof, hunread⟩ := h.sent e hsub.of
  have htake : (emitted ++ [e]).take sub.since = emitted.take sub.since :=
    List.take_append_of_le_length hsub.since
  refine ⟨?_, hof, ?_, ?_, fun hlag => ?_⟩
  · have hsince := hsub.since
    rw [List.length_append]
    omega
  · rw [htake, hsub.replay]
  · rw [htake, hsub.oldest]
  · rw [hunread, ← List.append_assoc, hsub.live hlag, List.drop_append_of_le_length hsub.since]

/-- Receiving moves an event from what is unread to what was delivered. -/
theorem Served.recv (hsub : Served h channel emitted sub) :
    Served h channel emitted (sub.recv channel) := by
  obtain ⟨hof, hcase⟩ := h.recv hsub.of
  unfold Subscriber.recv
  rcases hcase with ⟨hempty, hun, hrest⟩ | ⟨e, hvalue, hun⟩ | ⟨missed, hlag, -, -⟩
  · simp only [hempty]
    refine ⟨hsub.since, hof, hsub.replay, hsub.oldest, fun hl => ?_⟩
    rw [hrest, ← hun]
    exact hsub.live hl
  · simp only [hvalue]
    refine ⟨hsub.since, hof, hsub.replay, hsub.oldest, fun hl => ?_⟩
    rw [List.append_assoc, List.singleton_append, ← hun]
    exact hsub.live hl
  · simp only [hlag]
    exact ⟨hsub.since, hof, hsub.replay, hsub.oldest, fun hl => by cases hl⟩

/-- A new subscriber is handed the ring. -/
theorem served_new (hring : w.bus.history = retained w.emitted) (lastSeq : Option Nat) :
    Served h w.bus.broadcast w.emitted
      ⟨lastSeq, w.emitted.length, w.bus.subscribeWithHistory lastSeq, [], false⟩ := by
  obtain ⟨hof, hun⟩ := h.subscribed w.bus.broadcast
  refine ⟨Nat.le_refl _, hof, ?_, ?_, fun _ => ?_⟩
  · rw [List.take_length, ← hring]
    rfl
  · rw [List.take_length, ← hring]
    rfl
  · rw [List.drop_length, List.nil_append]
    exact hun

theorem seqAt_succ (n : Nat) : (seqAt n + 1) % seqModulus = seqAt (n + 1) :=
  Nat.mod_add_mod (n + 1) seqModulus 1

theorem Consistent.emit (hw : Consistent h w) (envelope : EventEnvelope)
    (eventId timestamp : String) : Consistent h (w.step (.emit envelope eventId timestamp)) := by
  generalize he : w.bus.stamp envelope eventId timestamp = e
  have hseq : e.eventSeq = seqAt w.emitted.length := by
    rw [← he, ← hw.next]
    rfl
  have hemitted : (w.step (.emit envelope eventId timestamp)).emitted = w.emitted ++ [e] := by
    rw [← he]
    rfl
  have hlen : (w.emitted ++ [e]).length = w.emitted.length + 1 := List.length_append
  constructor
  · rw [hemitted, List.map_append, hw.seqs, hlen, List.range_succ, List.map_append,
      List.map_singleton, List.map_singleton, hseq]
  · rw [hemitted, hlen, ← seqAt_succ, ← hw.next]
    rfl
  · rw [hemitted, ← retain_retained, ← hw.ring, ← he]
    rfl
  · intro sub hsub
    rw [hemitted, ← he]
    exact (hw.served sub hsub).send _

theorem Consistent.subscribe (hw : Consistent h w) (lastSeq : Option Nat) :
    Consistent h (w.step (.subscribe lastSeq)) := by
  refine ⟨hw.seqs, hw.next, hw.ring, fun sub hsub => ?_⟩
  rcases List.mem_append.mp hsub with hsub | hsub
  · exact hw.served sub hsub
  · obtain rfl := List.mem_singleton.mp hsub
    exact served_new hw.ring lastSeq

theorem Consistent.recv (hw : Consistent h w) (index : Nat) :
    Consistent h (w.step (.recv index)) := by
  refine ⟨hw.seqs, hw.next, hw.ring, fun sub hsub => ?_⟩
  obtain ⟨i, hi⟩ := List.mem_iff_getElem?.mp hsub
  have hmodify : (w.subscribers.modify index (Subscriber.recv w.bus.broadcast))[i]? = some sub := hi
  rw [List.getElem?_modify] at hmodify
  obtain ⟨old, hold, hnew⟩ := Option.map_eq_some_iff.mp hmodify
  have hserved := hw.served old (List.mem_of_getElem? hold)
  split at hnew
  · rw [← hnew]
    exact hserved.recv
  · rw [← hnew]
    exact hserved

/-- Every interleaving keeps the bus consistent. -/
theorem run_consistent (h : b.Lawful broadcastCapacity) (inputs : List Input) :
    Consistent h (World.run inputs : World b) := by
  induction inputs using List.reverseRecOn with
  | nil => exact start_consistent h
  | append_singleton inputs i ih =>
    rw [run_snoc]
    cases i with
    | emit envelope eventId timestamp => exact ih.emit envelope eventId timestamp
    | subscribe lastSeq => exact ih.subscribe lastSeq
    | recv index => exact ih.recv index

end Invariant

/-! ## Numbers -/

section Numbers

variable {b : Broadcast EventEnvelope} {h : b.Lawful broadcastCapacity} {w : World b}

/-- Below the modulus the numbers count the events. -/
theorem Consistent.numbered (hw : Consistent h w) (hn : w.emitted.length < seqModulus) :
    w.emitted.map EventEnvelope.eventSeq = List.range' 1 w.emitted.length := by
  rw [hw.seqs, List.range'_eq_map_range]
  refine List.map_congr_left fun i hi => ?_
  have hlt := List.mem_range.mp hi
  show (i + 1) % seqModulus = 1 + i
  rw [Nat.mod_eq_of_lt (by omega), Nat.add_comm]

/-- The number of an event, by its place. -/
theorem Consistent.seq_getElem (hw : Consistent h w) (hn : w.emitted.length < seqModulus) {i : Nat}
    {e : EventEnvelope} (he : w.emitted[i]? = some e) : e.eventSeq = i + 1 := by
  have hlt : i < w.emitted.length := (List.getElem?_eq_some_iff.mp he).1
  have hget : (w.emitted.map EventEnvelope.eventSeq)[i]? = some e.eventSeq := by
    rw [List.getElem?_map, he, Option.map_some]
  rw [hw.numbered hn, List.getElem?_range' hlt] at hget
  have := Option.some.inj hget
  omega

/-- A gap is found exactly when an event after the cursor is no longer held. -/
theorem gap_iff (hw : Consistent h w) (hn : w.emitted.length < seqModulus) {since : Nat}
    (hsince : since ≤ w.emitted.length) (cursor : Nat) :
    (detectGap (some cursor)
        ((retained (w.emitted.take since)).head?.map EventEnvelope.eventSeq)).isSome = true ↔
      ∃ e ∈ evicted (w.emitted.take since), cursor < e.eventSeq ∧ e.eventSeq ≤ since := by
  have hlen : (w.emitted.take since).length = since := List.length_take_of_le hsince
  have hget : ∀ i e, (w.emitted.take since)[i]? = some e → i < since ∧ e.eventSeq = i + 1 := by
    intro i e he
    have hi : i < (w.emitted.take since).length := (List.getElem?_eq_some_iff.mp he).1
    rw [hlen] at hi
    rw [List.getElem?_take_of_lt hi] at he
    exact ⟨hi, hw.seq_getElem hn he⟩
  -- the first event held is the one after those evicted
  have hhead : (retained (w.emitted.take since)).head? =
      (w.emitted.take since)[since - historyCapacity]? := by
    rw [retained, List.head?_drop, hlen]
  rw [hhead, evicted, hlen]
  cases hfirst : (w.emitted.take since)[since - historyCapacity]? with
  | none =>
    have hnone := List.getElem?_eq_none_iff.mp hfirst
    rw [hlen] at hnone
    have hzero : since = 0 := by
      have : 0 < historyCapacity := by decide
      omega
    subst hzero
    simp [detectGap]
  | some first =>
    obtain ⟨hlt, hseq⟩ := hget _ first hfirst
    have hgap : (detectGap (some cursor) (some first.eventSeq)).isSome = true ↔
        cursor < since - historyCapacity := by
      simp only [detectGap]
      split
      · next hover =>
          unfold saturatingAdd at hover
          simp only [Option.isSome_some, true_iff]
          omega
      · next hnot =>
          unfold saturatingAdd at hnot
          simp only [Option.isSome_none, Bool.false_eq_true, false_iff]
          omega
    rw [Option.map_some, hgap]
    constructor
    · intro hcursor
      -- the last event evicted is after the cursor
      have hlast : since - historyCapacity - 1 < (w.emitted.take since).length := by omega
      obtain ⟨last, hget'⟩ : ∃ last, (w.emitted.take since)[since - historyCapacity - 1]? =
          some last := ⟨_, List.getElem?_eq_getElem hlast⟩
      refine ⟨last, List.mem_iff_getElem?.mpr ⟨since - historyCapacity - 1, ?_⟩, ?_⟩
      · rw [List.getElem?_take_of_lt (by omega)]
        exact hget'
      · have hs := (hget _ _ hget').2
        omega
    · intro hex
      obtain ⟨e, he, hcursor, -⟩ := hex
      obtain ⟨i, hi⟩ := List.mem_iff_getElem?.mp he
      have hlt' : i < since - historyCapacity := by
        have hbound := (List.getElem?_eq_some_iff.mp hi).1
        rw [List.length_take] at hbound
        omega
      rw [List.getElem?_take_of_lt hlt'] at hi
      have hs := (hget i e hi).2
      omega

/-- Whatever emitters and subscribers do, in whatever order: as long as the counter has not wrapped,
the events are numbered from one on, the ring holds the last of them, and a subscriber is handed the
events held after its cursor and then, unless it lags, every later one; the gap test finds a gap
exactly when an event after the cursor was evicted. -/
theorem replay_hand_off (h : b.Lawful broadcastCapacity) (inputs : List Input)
    (hn : (World.run inputs : World b).emitted.length < seqModulus) :
    let w : World b := World.run inputs
    w.emitted.map EventEnvelope.eventSeq = List.range' 1 w.emitted.length ∧
    w.bus.history = w.emitted.drop (w.emitted.length - historyCapacity) ∧
    ∀ sub ∈ w.subscribers, ∀ cursor, sub.cursor = some cursor →
      (sub.lagged = false →
        sub.subscription.replay ++ sub.delivered ++
            h.unread w.bus.broadcast sub.subscription.receiver =
          (retained (w.emitted.take sub.since)).filter (fun e => cursor < e.eventSeq) ++
            w.emitted.drop sub.since) ∧
      ((detectGap sub.cursor sub.subscription.oldestRetainedSeq).isSome = true ↔
        ∃ e ∈ evicted (w.emitted.take sub.since), cursor < e.eventSeq ∧ e.eventSeq ≤ sub.since) := by
  intro w
  have hw : Consistent h w := run_consistent h inputs
  refine ⟨hw.numbered hn, hw.ring, fun sub hsub cursor hcursor => ?_⟩
  have hserved := hw.served sub hsub
  constructor
  · intro hlag
    rw [List.append_assoc, hserved.live hlag, hserved.replay, hcursor]
    rfl
  · rw [hserved.oldest, hcursor]
    exact gap_iff hw hn hserved.since cursor

/-- A point event with nothing to say. -/
def tick : EventEnvelope :=
  ⟨"", 0, none, "tick", "", none, none, none, none, none, .null⟩

/-- Two events, a subscriber that has seen the first, and one event more that it receives. -/
def handOff : List Input :=
  [.emit tick "a" "", .emit tick "b" "", .subscribe (some 1), .emit tick "c" "", .recv 0]

/-- The subscriber is handed the second event and receives the third. -/
theorem hand_off_delivers :
    let w : World (.buffered EventEnvelope broadcastCapacity) := World.run handOff
    ∀ sub ∈ w.subscribers,
      (sub.subscription.replay ++ sub.delivered).map EventEnvelope.eventId = ["b", "c"] := by
  intro w sub hsub
  have hn : w.emitted.length < seqModulus := by
    show 3 < 2 ^ 64
    decide
  have h := (replay_hand_off (Broadcast.bufferedLawful EventEnvelope broadcastCapacity) handOff hn).2.2
  obtain rfl := List.mem_singleton.mp hsub
  have hlive := (h _ (List.mem_singleton.mpr rfl) 1 rfl).1 rfl
  exact congrArg (List.map EventEnvelope.eventId) hlive

/-- One emission after the other. -/
theorem run_ticks_length (n : Nat) :
    (World.run (List.replicate n (.emit tick "" "")) : World b).emitted.length = n := by
  induction n with
  | zero => rfl
  | succ n ih =>
    rw [List.replicate_succ', run_snoc]
    show ((World.run _ : World b).emitted ++ [_]).length = n + 1
    rw [List.length_append, ih, List.length_singleton]

/-- The event number `2 ^ 64` is numbered zero. -/
theorem seq_wraps :
    (World.run (List.replicate seqModulus (.emit tick "" "")) :
        World (.buffered EventEnvelope broadcastCapacity)).emitted.map EventEnvelope.eventSeq ≠
      List.range' 1 seqModulus := by
  intro heq
  have hpos : seqModulus - 1 + 1 = seqModulus := Nat.sub_add_cancel one_lt_seqModulus.le
  have hseqs := (run_consistent (Broadcast.bufferedLawful EventEnvelope broadcastCapacity)
    (List.replicate seqModulus (.emit tick "" ""))).seqs
  rw [run_ticks_length, heq] at hseqs
  -- the last number, counted and wrapped
  have hlast := congrArg (fun l => l[seqModulus - 1]?) hseqs
  have hlt : seqModulus - 1 < seqModulus := by omega
  simp only [List.getElem?_range' hlt, List.getElem?_map, List.getElem?_range hlt,
    Option.map_some] at hlast
  have hzero : seqAt (seqModulus - 1) = 0 := by
    unfold seqAt
    rw [hpos, Nat.mod_self]
  have hsome := Option.some.inj hlast
  omega

end Numbers

end RustyPhoton.Rp.Events
