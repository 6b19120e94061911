import RustyPhoton.Lib.Transition
import RustyPhoton.Rp.Events.Bus
import RustyPhoton.SessionRunner.Events.Client

/-!
# The event stream, end to end

After `subscribe_events` of `routes.rs` and the client loop of the session runner's `events.rs`: an
`rp` process that emits and may be restarted, one connection, and the client that reconnects with
the last number it saw. The connection carries whole frames, in order; what is in flight when it
drops is gone. A connection attempt that fails changes nothing and is left out.
-/

namespace RustyPhoton.Rp.Events

open Lib
open SessionRunner.Engine (EngineEvent)
open SessionRunner.Events (SseFrame Reader engineEvent)

/-- What the stream yields. -/
inductive Item where
  | envelope (e : EventEnvelope)
  | gap (info : GapInfo)
  | lagGap (missed : Nat)
  deriving DecidableEq

/-- The texts of the frames' data, and the client's JSON reader. -/
structure Wire where
  envelopeJson : EventEnvelope → List Char
  gapJson : GapInfo → List Char
  lagJson : Nat → List Char
  fromStr : List Char → Option Value

/-- `envelope_event`, `gap_event` and `lag_gap_event`. -/
def Wire.frame (wire : Wire) : Item → SseFrame
  | .envelope e => ⟨some e.eventSeq, some e.event.toList, wire.envelopeJson e⟩
  | .gap info => ⟨none, some "stream_gap".toList, wire.gapJson info⟩
  | .lagGap missed => ⟨none, some "stream_gap".toList, wire.lagJson missed⟩

/-- The envelope is no control frame, and the client reads back the payload that was written. -/
structure Wire.Carries (wire : Wire) (e : EventEnvelope) : Prop where
  name : e.event ≠ "stream_gap" ∧ e.event ≠ "stream_error"
  payload : ∃ v, wire.fromStr (wire.envelopeJson e) = some v ∧ v.get "payload" = some e.payload

section Net

variable {b : Broadcast EventEnvelope}

/-- A connection: the process that serves it, what it has yielded and is not received yet, and whether
more may come. -/
structure Link (b : Broadcast EventEnvelope) where
  process : Nat
  queue : List Item
  receiver : b.Receiver
  isOpen : Bool

/-- `rp`, the connection and the client. -/
structure Net (b : Broadcast EventEnvelope) where
  /-- How often `rp` was restarted. -/
  process : Nat
  bus : EventBus b
  /-- What the running process has emitted. -/
  emitted : List EventEnvelope
  link : Option (Link b)
  client : Reader
  /-- The client has subscribed before. -/
  subscribed : Bool

def Net.start : Net b := ⟨0, .new, [], none, ⟨[], none, []⟩, false⟩

/-- What happens next. -/
inductive NetInput where
  | emit (envelope : EventEnvelope) (eventId timestamp : String)
  | connect
  /-- The stream looks for a live event. -/
  | serve
  /-- The client receives the next frame. -/
  | deliver
  /-- `rp` ends the stream. -/
  | close
  | disconnect
  | restart

/-- What the log keeps: the events emitted since the first subscribe and the frames received, each
with the process it is from. -/
inductive Record where
  | emitted (process : Nat) (e : EventEnvelope)
  | received (process : Nat) (item : Item)

/-- The stream of a subscription: a leading gap, then the replay. -/
def openStream (process : Nat) (bus : EventBus b) (lastSeq : Option Nat) : Link b :=
  let subscription := bus.subscribeWithHistory lastSeq
  ⟨process, (detectGap lastSeq subscription.oldestRetainedSeq).toList.map .gap ++
      subscription.replay.map .envelope, subscription.receiver, true⟩

/-- The live tail: one look at the receiver; a lagging consumer is told and cut off. -/
def Link.serve (channel : b.Channel) (link : Link b) : Link b :=
  let (received, receiver) := b.recv channel link.receiver
  match received with
  | .value e => { link with queue := link.queue ++ [.envelope e], receiver }
  | .lagged missed => ⟨link.process, link.queue ++ [.lagGap missed], receiver, false⟩
  | .empty => { link with receiver }

def Link.close (link : Link b) : Link b := { link with isOpen := false }

def Net.step (wire : Wire) (s : Net b) : NetInput → Option (Net b × List Record)
  | .emit envelope eventId timestamp =>
      let e := s.bus.stamp envelope eventId timestamp
      some ({ s with
          bus := s.bus.dispatch envelope eventId timestamp
          emitted := s.emitted ++ [e] },
        if s.subscribed then [.emitted s.process e] else [])
  | .connect =>
      match s.link with
      | none =>
          some ({ s with
              link := some (openStream s.process s.bus s.client.lastSeq), subscribed := true }, [])
      | some _ => none
  | .serve =>
      match s.link with
      | some link =>
          if link.isOpen then some ({ s with link := some (link.serve s.bus.broadcast) }, []) else none
      | none => none
  | .deliver =>
      match s.link with
      | some ⟨process, item :: rest, receiver, isOpen⟩ =>
          some ({ s with
              link := some ⟨process, rest, receiver, isOpen⟩
              client := s.client.frame wire.fromStr (wire.frame item) }, [.received process item])
      | _ => none
  | .close => some ({ s with link := s.link.map Link.close }, [])
  | .disconnect => some ({ s with link := none }, [])
  | .restart =>
      some ({ s with
          process := s.process + 1, bus := .new, emitted := []
          link := s.link.map Link.close }, [])

/-! ## What the client is promised -/

/-- An event and the process that emitted it. -/
abbrev Origin := Nat × EventEnvelope

/-- The event of a frame. -/
def Item.origin (process : Nat) : Item → Option Origin
  | .envelope e => some (process, e)
  | _ => none

def Record.emission : Record → Option Origin
  | .emitted process e => some (process, e)
  | .received _ _ => none

def Record.arrival : Record → Option Origin
  | .received process item => item.origin process
  | .emitted _ _ => none

/-- The events emitted since the first subscribe, and those that arrived. -/
def emissions (log : List Record) : List Origin := log.filterMap Record.emission

def arrivals (log : List Record) : List Origin := log.filterMap Record.arrival

/-- A number of a process. -/
def key (x : Origin) : Nat × Nat := (x.1, x.2.eventSeq)

/-- The gap lies around the number. -/
def GapInfo.Covers (info : GapInfo) (seq : Nat) : Prop :=
  info.requestedAfter < seq ∧ seq < info.oldestAvailable

/-- The client was told of a gap that the event lies in. -/
def Covered (log : List Record) (x : Origin) : Prop :=
  ∃ info : GapInfo, .received x.1 (.gap info) ∈ log ∧ info.Covers x.2.eventSeq

def Accounted (log : List Record) (x : Origin) : Prop := x ∈ arrivals log ∨ Covered log x

/-- The engine's view of an event. -/
def engineView (x : Origin) : EngineEvent := ⟨x.2.event, x.2.payload⟩

/-- The client is connected and has all there is to receive. -/
def Settled (s : Net b) : Prop :=
  ∃ link, s.link = some link ∧ link.isOpen = true ∧ link.queue = [] ∧
    (b.recv s.bus.broadcast link.receiver).1 = .empty

/-- Nothing is lost without a word, and nothing comes twice: what the engine was handed is what
arrived; it arrived once and in the order of its emission; and a client that has all there is to
receive got every event, or was told of the gap. -/
structure Kept (log : List Record) (s : Net b) : Prop where
  handed : s.client.forwarded = (arrivals log).map engineView
  distinct : ((emissions log).map key).Nodup
  inOrder : (arrivals log).Sublist (emissions log)
  complete : Settled s → ∀ x ∈ emissions log, Accounted log x

/-- The cursor was set by the running process, or names the last event emitted. -/
def InStep (log : List Record) (s : Net b) : Prop :=
  (arrivals log).getLast? = (emissions log).getLast? ∨
    ∃ e, (arrivals log).getLast? = some (s.process, e)

/-- What the emitters and the JSON crate promise, and that the counter has not wrapped. -/
def Sound (wire : Wire) (s : Net b) : NetInput → Prop
  | .emit envelope eventId timestamp =>
      wire.Carries (s.bus.stamp envelope eventId timestamp) ∧ s.emitted.length + 1 < seqModulus
  | _ => True

/-- Every connection is made in step. -/
def ConnectsInStep (wire : Wire) (log : List Record) (s : Net b) (i : NetInput) : Prop :=
  Sound wire s i ∧ (i = .connect → InStep log s)

/-! ## The log, step by step -/

theorem emissions_append (l l' : List Record) : emissions (l ++ l') = emissions l ++ emissions l' :=
  List.filterMap_append

theorem arrivals_append (l l' : List Record) : arrivals (l ++ l') = arrivals l ++ arrivals l' :=
  List.filterMap_append

theorem emissions_emitted (l : List Record) (process : Nat) (e : EventEnvelope) :
    emissions (l ++ [.emitted process e]) = emissions l ++ [(process, e)] :=
  emissions_append l _

theorem arrivals_emitted (l : List Record) (process : Nat) (e : EventEnvelope) :
    arrivals (l ++ [.emitted process e]) = arrivals l := by
  rw [arrivals_append]
  exact List.append_nil _

theorem emissions_received (l : List Record) (process : Nat) (item : Item) :
    emissions (l ++ [.received process item]) = emissions l := by
  rw [emissions_append]
  exact List.append_nil _

theorem arrivals_received (l : List Record) (process : Nat) (item : Item) :
    arrivals (l ++ [.received process item]) = arrivals l ++ (item.origin process).toList := by
  rw [arrivals_append]
  cases item <;> rfl

variable {l : List Record} {x : Origin}

theorem Covered.append (h : Covered l x) (l' : List Record) :
    Covered (l ++ l') x := by
  obtain ⟨info, hmem, hcovers⟩ := h
  exact ⟨info, List.mem_append_left _ hmem, hcovers⟩

theorem Accounted.append (h : Accounted l x) (l' : List Record) :
    Accounted (l ++ l') x := by
  cases h with
  | inl h => exact .inl (arrivals_append l l' ▸ List.mem_append_left _ h)
  | inr h => exact .inr (h.append l')

/-! ## The way of the events

The emissions are those up to the last one that arrived, those a gap frame stands for, those in the
queue and the rest, in this order. Everything before the queue is accounted for. -/

/-- The events in a queue, with their process. -/
def Link.queued (link : Link b) : List Origin := link.queue.filterMap (Item.origin link.process)

/-- The queue starts with a gap around these. -/
def Announced (link : Link b) (gone : List Origin) : Prop :=
  ∃ info rest, link.queue = .gap info :: rest ∧
    ∀ x ∈ gone, x.1 = link.process ∧ info.Covers x.2.eventSeq

variable (h : b.Lawful broadcastCapacity) (wire : Wire)

/-- What a connection has in store. -/
structure Flow (log : List Record) (s : Net b) (link : Link b)
    (gone queued rest : List Origin) : Prop where
  inQueue : queued = link.queued
  announced : (∀ x ∈ gone, Covered log x) ∨ Announced link gone
  live : link.isOpen = true → link.process = s.process ∧
    h.Of s.bus.broadcast link.receiver ∧
    rest = (h.unread s.bus.broadcast link.receiver).map (Prod.mk s.process)

/-- Where the emissions are. -/
structure Way (log : List Record) (s : Net b) (front gone queued rest : List Origin) : Prop where
  all : emissions log = front ++ gone ++ queued ++ rest
  accounted : ∀ x ∈ front, Accounted log x
  sublist : (arrivals log).Sublist front
  last : front.getLast? = (arrivals log).getLast?
  down : s.link = none → gone = [] ∧ queued = []
  up : ∀ link, s.link = some link → Flow h log s link gone queued rest

/-- The emissions are those of earlier processes and those of this one from some event on. -/
structure Split (log : List Record) (s : Net b) (older : List Origin) (base : Nat) : Prop where
  all : emissions log = older ++ (s.emitted.drop base).map (Prod.mk s.process)
  earlier : ∀ x ∈ older, x.1 < s.process
  whole : older ≠ [] → base = 0

/-- What holds along every run that connects in step. -/
structure Streaming (log : List Record) (s : Net b) : Prop where
  bus : Consistent h ⟨s.bus, s.emitted, []⟩
  few : s.emitted.length < seqModulus
  fit : ∀ x ∈ emissions log, wire.Carries x.2
  distinct : ((emissions log).map key).Nodup
  split : ∃ older base, Split log s older base
  fresh : s.subscribed = false → emissions log = [] ∧ s.link = none
  cursor : s.client.lastSeq = (arrivals log).getLast?.map fun x => x.2.eventSeq
  handed : s.client.forwarded = (arrivals log).map engineView
  way : ∃ front gone queued rest, Way h log s front gone queued rest

theorem start_streaming : Streaming h wire [] (Net.start : Net b) where
  bus := start_consistent h
  few := Nat.lt_of_succ_lt one_lt_seqModulus
  fit x hx := absurd hx List.not_mem_nil
  distinct := List.nodup_nil
  split := ⟨[], 0, rfl, fun x hx => absurd hx List.not_mem_nil, fun _ => rfl⟩
  fresh _ := ⟨rfl, rfl⟩
  cursor := rfl
  handed := rfl
  way := ⟨[], [], [], [], rfl, fun x hx => absurd hx List.not_mem_nil, .slnil, rfl,
    fun _ => ⟨rfl, rfl⟩, fun link hlink => by cases hlink⟩

variable {h wire} {log : List Record} {s : Net b}

theorem emissions_nodup (hd : ((emissions log).map key).Nodup) : (emissions log).Nodup :=
  hd.of_map key

/-! ### An emission -/

variable {older : List Origin} {base : Nat}

theorem Split.number (hsplit : Split log s older base)
    (hbus : Consistent h ⟨s.bus, s.emitted, []⟩) (hfew : s.emitted.length < seqModulus)
    (hx : x ∈ emissions log) :
    x.1 < s.process ∨ x.1 = s.process ∧ x.2.eventSeq ≤ s.emitted.length := by
  rw [hsplit.all] at hx
  rcases List.mem_append.mp hx with hold | hcur
  · exact .inl (hsplit.earlier x hold)
  · obtain ⟨e, he, rfl⟩ := List.mem_map.mp hcur
    obtain ⟨i, hi⟩ := List.mem_iff_getElem?.mp (List.mem_of_mem_drop he)
    have hlt := (List.getElem?_eq_some_iff.mp hi).1
    refine .inr ⟨rfl, ?_⟩
    rw [hbus.seq_getElem hfew hi]
    exact hlt

theorem Split.grow (hsplit : Split log s older base) (bus : EventBus b) (e : EventEnvelope) :
    ∃ base, Split (log ++ [.emitted s.process e])
      { s with bus, emitted := s.emitted ++ [e] } older base := by
  have hdrop : s.emitted.drop base = s.emitted.drop (min base s.emitted.length) := by
    rcases Nat.le_total base s.emitted.length with hle | hge
    · rw [Nat.min_eq_left hle]
    · rw [Nat.min_eq_right hge, List.drop_eq_nil_of_le hge, List.drop_length]
  refine ⟨min base s.emitted.length, ?_, hsplit.earlier, fun hne => ?_⟩
  · show emissions (log ++ _) = older ++ ((s.emitted ++ [e]).drop _).map (Prod.mk s.process)
    rw [emissions_emitted, hsplit.all, hdrop, List.drop_append_of_le_length (Nat.min_le_right _ _),
      List.map_append, List.append_assoc]
    rfl
  · rw [hsplit.whole hne]
    exact Nat.zero_min _

variable {link : Link b} {gone queued rest : List Origin} {bus : EventBus b} {e : EventEnvelope}

theorem Flow.grow (hflow : Flow h log s link gone queued rest)
    (hsend : bus.broadcast = b.send e s.bus.broadcast) :
    Flow h (log ++ [.emitted s.process e]) { s with bus, emitted := s.emitted ++ [e] } link gone
      queued (rest ++ [(s.process, e)]) where
  inQueue := hflow.inQueue
  announced := by
    rcases hflow.announced with hgone | hgone
    · exact .inl fun x hx => (hgone x hx).append _
    · exact .inr hgone
  live hopen := by
    obtain ⟨hprocess, hof, hrest⟩ := hflow.live hopen
    obtain ⟨hof', hunread⟩ := h.sent e hof
    refine ⟨hprocess, ?_, ?_⟩
    · rw [hsend]
      exact hof'
    · rw [hsend, hunread, hrest, List.map_append]
      rfl

variable {front : List Origin}

theorem Way.grow (hway : Way h log s front gone queued rest)
    (hsend : bus.broadcast = b.send e s.bus.broadcast) :
    Way h (log ++ [.emitted s.process e]) { s with bus, emitted := s.emitted ++ [e] } front gone
      queued (rest ++ [(s.process, e)]) where
  all := by rw [emissions_emitted, hway.all, List.append_assoc _ rest]
  accounted x hx := (hway.accounted x hx).append _
  sublist := by
    rw [arrivals_emitted]
    exact hway.sublist
  last := by
    rw [arrivals_emitted]
    exact hway.last
  down := hway.down
  up link hlink := (hway.up link hlink).grow hsend

/-- An event emitted after the first subscribe joins the log and what an open stream has yet to
yield. -/
theorem Streaming.grow (hs : Streaming h wire log s)
    (hbus : Consistent h ⟨bus, s.emitted ++ [e], []⟩)
    (hsend : bus.broadcast = b.send e s.bus.broadcast) (hfit : wire.Carries e)
    (hfew : s.emitted.length + 1 < seqModulus) (hseq : e.eventSeq = s.emitted.length + 1)
    (hsub : s.subscribed = true) :
    Streaming h wire (log ++ [.emitted s.process e])
      { s with bus, emitted := s.emitted ++ [e] } := by
  obtain ⟨older, base, hsplit⟩ := hs.split
  obtain ⟨front, gone, queued, rest, hway⟩ := hs.way
  obtain ⟨base', hsplit'⟩ := hsplit.grow bus e
  refine ⟨hbus, ?_, fun x hx => ?_, ?_, ⟨older, base', hsplit'⟩, fun hfresh => ?_, ?_, ?_,
    ⟨front, gone, queued, _, hway.grow hsend⟩⟩
  · rwa [List.length_append]
  · rw [emissions_emitted] at hx
    rcases List.mem_append.mp hx with hx | hx
    · exact hs.fit x hx
    · rw [List.mem_singleton.mp hx]
      exact hfit
  · rw [emissions_emitted, List.map_append, List.nodup_append]
    refine ⟨hs.distinct, List.nodup_singleton _, fun k hk k' hk' => ?_⟩
    obtain ⟨x, hx, rfl⟩ := List.mem_map.mp hk
    rw [List.map_singleton, List.mem_singleton] at hk'
    rw [hk']
    intro heq
    obtain ⟨hp, hn⟩ := Prod.mk.inj heq
    -- the number is new to the process
    rcases hsplit.number hs.bus hs.few hx with hlt | ⟨-, hle⟩
    · exact absurd hp (by omega)
    · have : x.2.eventSeq = e.eventSeq := hn
      omega
  · exact absurd (hsub.symm.trans hfresh) (by decide)
  · rw [arrivals_emitted]
    exact hs.cursor
  · rw [arrivals_emitted]
    exact hs.handed

/-- Before the first subscribe the log stays empty. -/
theorem Streaming.unnoticed (hs : Streaming h wire log s)
    (hbus : Consistent h ⟨bus, s.emitted ++ [e], []⟩)
    (hfew : s.emitted.length + 1 < seqModulus) (hsub : s.subscribed = false) :
    Streaming h wire log { s with bus, emitted := s.emitted ++ [e] } := by
  obtain ⟨hnone, hdown⟩ := hs.fresh hsub
  obtain ⟨front, gone, queued, rest, hway⟩ := hs.way
  refine ⟨hbus, ?_, hs.fit, hs.distinct, ⟨[], s.emitted.length + 1, ?_⟩, hs.fresh, hs.cursor,
    hs.handed, ⟨front, gone, queued, rest, hway.all, hway.accounted, hway.sublist, hway.last,
      hway.down, fun link hlink => absurd (hdown.symm.trans hlink) (by simp)⟩⟩
  · rwa [List.length_append]
  · refine ⟨?_, fun x hx => absurd hx List.not_mem_nil, fun hne => absurd rfl hne⟩
    rw [hnone, List.drop_eq_nil_of_le]
    · rfl
    · rw [List.length_append, List.length_singleton]

variable {s' : Net b} {events : List Record}

theorem Streaming.emit (hs : Streaming h wire log s) (envelope : EventEnvelope)
    (eventId timestamp : String) (hsound : Sound wire s (.emit envelope eventId timestamp))
        (hstep : s.step wire (.emit envelope eventId timestamp) = some (s', events)) :
    Streaming h wire (log ++ events) s' := by
  obtain ⟨rfl, rfl⟩ := Prod.mk.inj (Option.some.inj hstep)
  obtain ⟨hfit, hfew⟩ := hsound
  have hbus := hs.bus.emit envelope eventId timestamp
  have hseq : (s.bus.stamp envelope eventId timestamp).eventSeq = s.emitted.length + 1 :=
    hs.bus.next.trans (Nat.mod_eq_of_lt hfew)
  by_cases hsub : s.subscribed = true
  · rw [if_pos hsub]
    exact hs.grow hbus rfl hfit hfew hseq hsub
  · rw [if_neg hsub, List.append_nil]
    exact hs.unnoticed hbus hfew (by simpa using hsub)

/-! ### A connection -/

/-- Where the last emission arrived, none is outstanding. -/
theorem Way.caught_up (hway : Way h log s front gone queued rest) (hdown : s.link = none)
    (hd : ((emissions log).map key).Nodup)
    (hlast : (arrivals log).getLast? = (emissions log).getLast?) : rest = [] := by
  obtain ⟨rfl, rfl⟩ := hway.down hdown
  have hall : emissions log = front ++ rest := by simpa using hway.all
  rcases List.eq_nil_or_concat rest with hnil | ⟨init, x, hrest⟩
  · exact hnil
  · rw [List.concat_eq_append] at hrest
    have hx : front.getLast? = some x := by
      rw [hway.last, hlast, hall, hrest, ← List.append_assoc, List.getLast?_concat]
    have hnodup := emissions_nodup hd
    rw [hall, List.nodup_append] at hnodup
    have hmem : x ∈ rest := by rw [hrest]; simp
    exact absurd rfl (hnodup.2.2 x (List.mem_of_getLast? hx) x hmem)

/-- A way with nothing outstanding, over a connection with nothing in store. -/
theorem Way.idle
    (hway : Way h log s front gone queued rest) (hdown : s.link = none) (hrest : rest = [])
    (hprocess : link.process = s.process) (hqueue : link.queue = [])
    (hreceiver : link.receiver = b.subscribe s.bus.broadcast) :
    Way h log { s with link := some link, subscribed := true } front [] [] [] where
  all := by
    obtain ⟨rfl, rfl⟩ := hway.down hdown
    rw [hway.all, hrest]
  accounted := hway.accounted
  sublist := hway.sublist
  last := hway.last
  down hnone := by cases hnone
  up link' hlink := by
    obtain rfl := Option.some.inj hlink
    obtain ⟨hof, hun⟩ := h.subscribed s.bus.broadcast
    refine ⟨?_, .inl fun x hx => absurd hx List.not_mem_nil, fun _ => ⟨hprocess, ?_, ?_⟩⟩
    · rw [Link.queued, hqueue]
      rfl
    · rw [hreceiver]
      exact hof
    · rw [hreceiver, hun]
      rfl

/-- In a list numbered from some number on, those above a number are what follows it. -/
theorem filter_numbered (l : List EventEnvelope) (k n : Nat)
    (hl : l.map EventEnvelope.eventSeq = List.range' (k + 1) l.length) :
    l.filter (fun e => n < e.eventSeq) = l.drop (n - k) := by
  induction l generalizing k with
  | nil => rw [List.drop_nil, List.filter_nil]
  | cons e rest ih =>
    rw [List.map_cons, List.length_cons, List.range'_succ] at hl
    obtain ⟨he, hrest⟩ := List.cons.inj hl
    rw [List.filter_cons, ih (k + 1) hrest]
    by_cases hn : n ≤ k
    · have hzero : n - k = 0 := by omega
      have hzero' : n - (k + 1) = 0 := by omega
      rw [hzero, hzero', List.drop_zero, List.drop_zero, if_pos (by simp; omega)]
    · have hsucc : n - k = n - (k + 1) + 1 := by omega
      rw [hsucc, List.drop_succ_cons, if_neg (by simp; omega)]

/-- What the ring has lost after a number, and what it replays. -/
theorem drop_eq_gone_replay {emitted : List EventEnvelope}
    (hbus : Consistent h ⟨bus, emitted, []⟩) (hfew : emitted.length < seqModulus) (n : Nat) :
    emitted.drop n = (evicted emitted).drop n ++
      (retained emitted).filter (fun e => n < e.eventSeq) := by
  have hk : emitted.length - historyCapacity ≤ emitted.length := Nat.sub_le _ _
  have hnumbers : (retained emitted).map EventEnvelope.eventSeq =
      List.range' (emitted.length - historyCapacity + 1) (retained emitted).length := by
    have hall : emitted.map EventEnvelope.eventSeq = List.range' 1 emitted.length :=
      hbus.numbered hfew
    rw [retained, List.map_drop, hall, List.drop_range', List.length_drop, Nat.mul_one,
      Nat.add_comm 1]
  have hevicted : (evicted emitted).length = emitted.length - historyCapacity :=
    List.length_take_of_le hk
  calc emitted.drop n = (evicted emitted ++ retained emitted).drop n := by
        rw [evicted, retained, List.take_append_drop]
    _ = (evicted emitted).drop n ++ (retained emitted).drop
          (n - (emitted.length - historyCapacity)) := by rw [List.drop_append, hevicted]
    _ = _ := by rw [filter_numbered _ _ n hnumbers]

/-- Events evicted after the cursor are announced by the gap the stream leads with. -/
theorem openStream_announces (hbus : Consistent h ⟨bus, s.emitted, []⟩)
    (hfew : s.emitted.length < seqModulus) (n : Nat) :
    ((evicted s.emitted).drop n).map (Prod.mk s.process) = [] ∨
      Announced (openStream s.process bus (some n))
        (((evicted s.emitted).drop n).map (Prod.mk s.process)) := by
  have hlen : (evicted s.emitted).length = s.emitted.length - historyCapacity :=
    List.length_take_of_le (Nat.sub_le _ _)
  have hcapacity : 0 < historyCapacity := by decide
  by_cases hn : n < s.emitted.length - historyCapacity
  · refine .inr ⟨⟨n, s.emitted.length - historyCapacity + 1⟩, ?_⟩
    obtain ⟨first, hfirst⟩ : ∃ first, s.emitted[s.emitted.length - historyCapacity]? = some first :=
      ⟨_, List.getElem?_eq_getElem (by omega)⟩
    have holdest : bus.history.head?.map EventEnvelope.eventSeq =
        some (s.emitted.length - historyCapacity + 1) := by
      rw [hbus.ring]
      show (retained s.emitted).head?.map _ = _
      rw [retained, List.head?_drop, hfirst, Option.map_some, hbus.seq_getElem hfew hfirst]
    have hgap : detectGap (some n) (bus.subscribeWithHistory (some n)).oldestRetainedSeq =
        some ⟨n, s.emitted.length - historyCapacity + 1⟩ := by
      show detectGap (some n) (bus.history.head?.map EventEnvelope.eventSeq) = _
      rw [holdest]
      simp only [detectGap]
      rw [if_pos]
      unfold saturatingAdd
      omega
    refine ⟨(bus.subscribeWithHistory (some n)).replay.map .envelope, ?_, fun x hx => ?_⟩
    · show (detectGap _ _).toList.map Item.gap ++ _ = _
      rw [hgap]
      rfl
    · obtain ⟨e, he, rfl⟩ := List.mem_map.mp hx
      obtain ⟨i, hi⟩ := List.mem_iff_getElem?.mp he
      rw [List.getElem?_drop] at hi
      have hbound := (List.getElem?_eq_some_iff.mp hi).1
      rw [hlen] at hbound
      rw [evicted, List.getElem?_take_of_lt hbound] at hi
      have hseq : e.eventSeq = n + i + 1 := hbus.seq_getElem hfew hi
      refine ⟨rfl, ?_, ?_⟩
      · show n < e.eventSeq
        omega
      · show e.eventSeq < s.emitted.length - historyCapacity + 1
        omega
  · refine .inl ?_
    rw [List.drop_eq_nil_of_le (by omega)]
    rfl

/-- The events in the queue of a new stream are those of the replay. -/
theorem openStream_queued (process : Nat) (bus : EventBus b) (cursor : Option Nat) :
    (openStream process bus cursor).queued =
      (bus.subscribeWithHistory cursor).replay.map (Prod.mk process) := by
  have hgap : ∀ gap : Option GapInfo,
      (gap.toList.map Item.gap).filterMap (Item.origin process) = [] := by
    intro gap
    cases gap <;> rfl
  show List.filterMap (Item.origin process) (_ ++ _) = _
  rw [List.filterMap_append, hgap, List.nil_append, List.filterMap_map]
  exact congrFun (List.filterMap_eq_map' (f := Prod.mk process)) _

/-- Where the events after the last one that arrived are, when it is the running process's. -/
theorem Split.after (hsplit : Split log s older base)
    (hbus : Consistent h ⟨s.bus, s.emitted, []⟩) (hfew : s.emitted.length < seqModulus)
    (hall : emissions log = front ++ rest)
    (hlast : front.getLast? = some (s.process, e)) :
    rest = (s.emitted.drop e.eventSeq).map (Prod.mk s.process) := by
  have hmem : (s.process, e) ∈ front := List.mem_of_getLast? hlast
  have hnew : (s.process, e) ∉ older := fun hold =>
    absurd (hsplit.earlier _ hold) (Nat.lt_irrefl _)
  rw [hsplit.all] at hall
  rcases List.append_eq_append_iff.mp hall with ⟨current, hfront, hcur⟩ | ⟨past, hold, -⟩
  · obtain ⟨l, l', hl, hcurrent, hrest⟩ := List.map_eq_append_iff.mp hcur
    -- the last event that arrived ends the first part of what the process has emitted
    have hlast' : l.getLast? = some e := by
      rcases List.eq_nil_or_concat l with hnil | ⟨init, last, hconcat⟩
      · rw [hnil, List.map_nil] at hcurrent
        rw [hfront, ← hcurrent, List.append_nil] at hmem
        exact absurd hmem hnew
      · rw [List.concat_eq_append] at hconcat
        rw [hfront, ← hcurrent, hconcat, List.map_append, ← List.append_assoc, List.map_singleton,
          List.getLast?_concat] at hlast
        rw [hconcat, List.getLast?_concat, (Prod.mk.inj (Option.some.inj hlast)).2]
    obtain ⟨before, hemitted⟩ : ∃ before, s.emitted = before ++ l ++ l' :=
      ⟨s.emitted.take base, by rw [List.append_assoc, ← hl, List.take_append_drop]⟩
    obtain ⟨init, hinit⟩ := List.getLast?_eq_some_iff.mp hlast'
    have hget : s.emitted[(before ++ init).length]? = some e := by
      rw [hemitted, hinit, ← List.append_assoc, List.append_assoc _ [e],
        List.getElem?_append_right (Nat.le_refl _), Nat.sub_self]
      rfl
    have hseq : e.eventSeq = (before ++ l).length := by
      rw [hbus.seq_getElem hfew hget, hinit]
      simp only [List.length_append, List.length_singleton]
      omega
    rw [hseq, ← hrest, hemitted, List.drop_left]
  · rw [hold] at hnew
    exact absurd (List.mem_append_left _ hmem) hnew

/-- A new stream, after an arrival from the running process: what followed it is in the gap that
leads, in the replay, or still to be emitted. -/
theorem Way.replay (hway : Way h log s front gone queued rest) (hdown : s.link = none)
    (hbus : Consistent h ⟨s.bus, s.emitted, []⟩) (hfew : s.emitted.length < seqModulus) {n : Nat}
    (hrest : rest = (s.emitted.drop n).map (Prod.mk s.process)) :
    Way h log { s with link := some (openStream s.process s.bus (some n)), subscribed := true }
      front (((evicted s.emitted).drop n).map (Prod.mk s.process))
      ((openStream s.process s.bus (some n)).queued) [] where
  all := by
    obtain ⟨rfl, rfl⟩ := hway.down hdown
    have hring : s.bus.history = retained s.emitted := hbus.ring
    have hreplay : (s.bus.subscribeWithHistory (some n)).replay =
        (retained s.emitted).filter (fun e => n < e.eventSeq) := by
      rw [← hring]
      rfl
    rw [hway.all, hrest, openStream_queued, hreplay, drop_eq_gone_replay hbus hfew n,
      List.map_append]
    simp only [List.append_nil, List.append_assoc]
  accounted := hway.accounted
  sublist := hway.sublist
  last := hway.last
  down hnone := by cases hnone
  up link hlink := by
    obtain rfl := Option.some.inj hlink
    obtain ⟨hof, hun⟩ := h.subscribed s.bus.broadcast
    refine ⟨rfl, ?_, fun _ => ⟨rfl, hof, ?_⟩⟩
    · rcases openStream_announces hbus hfew n with hnil | hgap
      · rw [hnil]
        exact .inl fun x hx => absurd hx List.not_mem_nil
      · exact .inr hgap
    · show [] = (h.unread s.bus.broadcast (b.subscribe s.bus.broadcast)).map _
      rw [hun]
      rfl

/-- A process whose last event is an earlier one's has emitted nothing. -/
theorem Split.silent (hsplit : Split log s older base)
    (hlast : (emissions log).getLast? = some x) (hx : x.1 ≠ s.process) :
    s.emitted = [] := by
  have hdrop : s.emitted.drop base = [] := by
    rcases List.eq_nil_or_concat (s.emitted.drop base) with hnil | ⟨init, e, hconcat⟩
    · exact hnil
    · rw [List.concat_eq_append] at hconcat
      rw [hsplit.all, hconcat, List.map_append, ← List.append_assoc, List.map_singleton,
        List.getLast?_concat] at hlast
      rw [← Option.some.inj hlast] at hx
      exact absurd rfl hx
  have hne : older ≠ [] := by
    intro hnil
    rw [hsplit.all, hdrop, hnil] at hlast
    cases hlast
  rwa [hsplit.whole hne, List.drop_zero] at hdrop

theorem Streaming.connect (hs : Streaming h wire log s) (hin : InStep log s)
    (hstep : s.step wire .connect = some (s', events)) :
    Streaming h wire (log ++ events) s' := by
  have hdown : s.link = none := by
    cases hl : s.link with
    | none => rfl
    | some link => simp [Net.step, hl] at hstep
  simp only [Net.step, hdown] at hstep
  obtain ⟨rfl, rfl⟩ := Prod.mk.inj (Option.some.inj hstep)
  rw [List.append_nil]
  obtain ⟨older, base, hsplit⟩ := hs.split
  obtain ⟨front, gone, queued, rest, hway⟩ := hs.way
  refine ⟨hs.bus, hs.few, hs.fit, hs.distinct, ⟨older, base, hsplit.all, hsplit.earlier,
    hsplit.whole⟩, (fun hfresh => nomatch hfresh), hs.cursor, hs.handed, ?_⟩
  cases hlast : (arrivals log).getLast? with
  | none =>
    -- nothing ever arrived: in step means nothing was emitted
    have hemissions : (arrivals log).getLast? = (emissions log).getLast? := by
      rcases hin with heq | ⟨e, he⟩
      · exact heq
      · rw [hlast] at he
        cases he
    have hcursor : s.client.lastSeq = none := by rw [hs.cursor, hlast]; rfl
    rw [hcursor]
    exact ⟨front, [], [], [], hway.idle hdown (hway.caught_up hdown hs.distinct hemissions) rfl
      rfl rfl⟩
  | some x =>
    have hcursor : s.client.lastSeq = some x.2.eventSeq := by rw [hs.cursor, hlast]; rfl
    rw [hcursor]
    by_cases hx : x.1 = s.process
    · have hfront : front.getLast? = some (s.process, x.2) := by rw [hway.last, hlast, ← hx]
      have hall : emissions log = front ++ rest := by
        obtain ⟨rfl, rfl⟩ := hway.down hdown
        simpa using hway.all
      exact ⟨front, _, _, [], hway.replay hdown hs.bus hs.few
        (hsplit.after hs.bus hs.few hall hfront)⟩
    · have hemissions : (arrivals log).getLast? = (emissions log).getLast? := by
        rcases hin with heq | ⟨e, he⟩
        · exact heq
        · rw [hlast] at he
          exact absurd (congrArg Prod.fst (Option.some.inj he)) hx
      -- the running process has nothing to replay
      have hempty := hsplit.silent (hemissions.symm.trans hlast) hx
      have hhistory : s.bus.history = [] := by
        have hring : s.bus.history = retained s.emitted := hs.bus.ring
        rw [hring, hempty]
        rfl
      refine ⟨front, [], [], [], hway.idle hdown
        (hway.caught_up hdown hs.distinct hemissions) rfl ?_ rfl⟩
      simp only [openStream, EventBus.subscribeWithHistory, hhistory]
      rfl

/-! ### The stream -/

theorem Announced.queue_append (hgone : Announced link gone)
    {link' : Link b} {more : List Item} (hqueue : link'.queue = link.queue ++ more)
    (hprocess : link'.process = link.process) : Announced link' gone := by
  obtain ⟨info, rest, hhead, hcovers⟩ := hgone
  refine ⟨info, rest ++ more, ?_, ?_⟩
  · rw [hqueue, hhead, List.cons_append]
  · rwa [hprocess]

/-- A look at the receiver moves at most one event into the queue. -/
theorem Flow.serve (hflow : Flow h log s link gone queued rest) (hopen : link.isOpen = true) :
    ∃ queued' rest', queued ++ rest = queued' ++ rest' ∧
      Flow h log { s with link := some (link.serve s.bus.broadcast) }
        (link.serve s.bus.broadcast) gone queued' rest' := by
  obtain ⟨hprocess, hof, hrest⟩ := hflow.live hopen
  obtain ⟨hof', hcase⟩ := h.recv hof
  unfold Link.serve
  rcases hcase with ⟨hempty, hun, hun'⟩ | ⟨e, hvalue, hun⟩ | ⟨missed, hlag, -, -⟩
  · simp only [hempty]
    refine ⟨queued, rest, rfl, hflow.inQueue, hflow.announced, fun _ => ⟨hprocess, hof', ?_⟩⟩
    show rest = (h.unread s.bus.broadcast (b.recv s.bus.broadcast link.receiver).2).map _
    rw [hun', hrest, hun]
  · simp only [hvalue]
    rw [hun, List.map_cons] at hrest
    refine ⟨queued ++ [(s.process, e)], (h.unread s.bus.broadcast
      (b.recv s.bus.broadcast link.receiver).2).map (Prod.mk s.process), ?_, ?_, ?_,
      fun _ => ⟨hprocess, hof', rfl⟩⟩
    · rw [hrest, List.append_assoc, List.singleton_append]
    · show _ = List.filterMap (Item.origin link.process) (link.queue ++ [.envelope e])
      rw [List.filterMap_append, hflow.inQueue, ← hprocess]
      rfl
    · exact hflow.announced.imp_right fun hgone => hgone.queue_append rfl rfl
  · simp only [hlag]
    refine ⟨queued, rest, rfl, ?_, ?_, fun hl => nomatch hl⟩
    · show _ = List.filterMap (Item.origin link.process) (link.queue ++ [.lagGap missed])
      rw [List.filterMap_append, hflow.inQueue]
      exact (List.append_nil _).symm
    · exact hflow.announced.imp_right fun hgone => hgone.queue_append rfl rfl

/-- The same state, but for the connection. -/
theorem Streaming.relink (hs : Streaming h wire log s) (link : Option (Link b))
    (hfresh : s.subscribed = false → link = none)
    (hway : ∃ front gone queued rest, Way h log { s with link } front gone queued rest) :
    Streaming h wire log { s with link } := by
  obtain ⟨older, base, hsplit⟩ := hs.split
  exact ⟨hs.bus, hs.few, hs.fit, hs.distinct, ⟨older, base, hsplit.all, hsplit.earlier,
    hsplit.whole⟩, fun hf => ⟨(hs.fresh hf).1, hfresh hf⟩, hs.cursor, hs.handed, hway⟩

theorem Streaming.serve (hs : Streaming h wire log s)
    (hstep : s.step wire .serve = some (s', events)) : Streaming h wire (log ++ events) s' := by
  cases hlink : s.link with
  | none => simp [Net.step, hlink] at hstep
  | some link =>
    simp only [Net.step, hlink] at hstep
    split at hstep
    · next hopen =>
        obtain ⟨rfl, rfl⟩ := Prod.mk.inj (Option.some.inj hstep)
        rw [List.append_nil]
        obtain ⟨front, gone, queued, rest, hway⟩ := hs.way
        obtain ⟨queued', rest', hmoved, hflow⟩ := (hway.up link hlink).serve hopen
        refine hs.relink _ (fun hf => ?_) ⟨front, gone, queued', rest', ?_, hway.accounted,
          hway.sublist, hway.last, (fun hnone => nomatch hnone), fun link' hlink' => ?_⟩
        · exact absurd ((hs.fresh hf).2.symm.trans hlink) (by simp)
        · rw [hway.all, List.append_assoc, hmoved, ← List.append_assoc]
        · obtain rfl := Option.some.inj hlink'
          exact hflow
    · cases hstep

variable {item : Item}

/-- A frame the client takes no event from. -/
theorem frame_control (client : Reader) (hitem : ∀ e, item ≠ .envelope e) :
    client.frame wire.fromStr (wire.frame item) = client := by
  cases item with
  | envelope e => exact absurd rfl (hitem e)
  | gap info => simp [Reader.frame, Wire.frame, engineEvent]
  | lagGap missed => simp [Reader.frame, Wire.frame, engineEvent]

/-- An event's frame moves the cursor and hands the event on. -/
theorem frame_envelope (client : Reader) (hfit : wire.Carries e)
    (process : Nat) : client.frame wire.fromStr (wire.frame (.envelope e)) =
      { client with
        lastSeq := some e.eventSeq
        forwarded := client.forwarded ++ [engineView (process, e)] } := by
  obtain ⟨v, hread, hpayload⟩ := hfit.payload
  have hgap : e.event.toList ≠ "stream_gap".toList := fun heq => hfit.name.1 (String.toList_inj.mp heq)
  have herror : e.event.toList ≠ "stream_error".toList :=
    fun heq => hfit.name.2 (String.toList_inj.mp heq)
  simp only [Reader.frame, Wire.frame, engineEvent, hgap, herror, or_self, if_false, hread,
    Option.map_some, hpayload, Option.getD_some, Option.toList_some, Option.some_or, engineView,
    String.ofList_toList]

variable {process : Nat} {tail : List Item} {receiver : b.Receiver} {isOpen : Bool}

/-- A gap frame that announced events covers them once it is received. -/
theorem Flow.take
        (hflow : Flow h log s ⟨process, item :: tail, receiver, isOpen⟩ gone queued rest) :
    queued = (item.origin process).toList ++ tail.filterMap (Item.origin process) ∧
      ∀ x ∈ gone, Covered (log ++ [.received process item]) x := by
  constructor
  · rw [hflow.inQueue, Link.queued, List.filterMap_cons]
    cases item <;> rfl
  · rcases hflow.announced with hgone | ⟨info, rest', hhead, hcovers⟩
    · exact fun x hx => (hgone x hx).append _
    · intro x hx
      obtain ⟨hprocess, hcover⟩ := hcovers x hx
      obtain ⟨rfl, -⟩ := List.cons.inj hhead
      refine ⟨info, ?_, hcover⟩
      rw [hprocess]
      exact List.mem_append_right _ (List.mem_singleton.mpr rfl)

/-- An event arrives: the gone before it are covered, and it is the last one now. -/
theorem Streaming.arrive (hs : Streaming h wire log s) (hway : Way h log s front gone queued rest)
    (hflow : Flow h log s ⟨process, .envelope e :: tail, receiver, isOpen⟩ gone queued rest)
    (hlink : s.link = some ⟨process, .envelope e :: tail, receiver, isOpen⟩) :
    Streaming h wire (log ++ [.received process (.envelope e)])
      { s with
        link := some ⟨process, tail, receiver, isOpen⟩
        client := s.client.frame wire.fromStr (wire.frame (.envelope e)) } := by
  obtain ⟨hqueued, hgone⟩ := hflow.take
  have hqueued' : queued = (process, e) :: tail.filterMap (Item.origin process) := hqueued
  have hall : emissions (log ++ [.received process (.envelope e)]) =
      front ++ gone ++ [(process, e)] ++ tail.filterMap (Item.origin process) ++ rest := by
    rw [emissions_received, hway.all, hqueued', List.append_assoc _ [(process, e)]]
    rfl
  have harrivals : arrivals (log ++ [.received process (.envelope e)]) =
      arrivals log ++ [(process, e)] := arrivals_received log process (.envelope e)
  have hfit : wire.Carries e := by
    refine hs.fit (process, e) ?_
    rw [hway.all, hqueued']
    simp
  obtain ⟨older, base, hsplit⟩ := hs.split
  rw [frame_envelope s.client hfit process]
  refine ⟨hs.bus, hs.few, ?_, ?_, ⟨older, base, ?_, hsplit.earlier, hsplit.whole⟩, fun hf => ?_, ?_,
    ?_, ⟨front ++ gone ++ [(process, e)], [], tail.filterMap (Item.origin process), rest, ?_,
      fun x hx => ?_, ?_, ?_,
      (fun hnone => nomatch hnone), fun link hlink' => ?_⟩⟩
  · rw [emissions_received]
    exact hs.fit
  · rw [emissions_received]
    exact hs.distinct
  · rw [emissions_received]
    exact hsplit.all
  · exact absurd ((hs.fresh hf).2.symm.trans hlink) (by simp)
  · rw [harrivals, List.getLast?_concat]
    rfl
  · rw [harrivals, List.map_append, ← hs.handed]
    rfl
  · rw [hall, List.append_nil]
  · rcases List.mem_append.mp hx with hx | hx
    · rcases List.mem_append.mp hx with hx | hx
      · exact (hway.accounted x hx).append _
      · exact .inr (hgone x hx)
    · refine .inl ?_
      rw [harrivals]
      exact List.mem_append_right _ hx
  · rw [harrivals]
    exact (hway.sublist.trans (List.sublist_append_left front gone)).append (.refl _)
  · rw [harrivals, List.getLast?_concat, List.getLast?_concat]
  · obtain rfl := Option.some.inj hlink'
    exact ⟨rfl, .inl fun x hx => absurd hx List.not_mem_nil, hflow.live⟩

/-- A gap frame arrives. -/
theorem Streaming.control (hs : Streaming h wire log s) (hway : Way h log s front gone queued rest)
    (hflow : Flow h log s ⟨process, item :: tail, receiver, isOpen⟩ gone queued rest)
    (hlink : s.link = some ⟨process, item :: tail, receiver, isOpen⟩)
    (hitem : item.origin process = none) :
    Streaming h wire (log ++ [.received process item])
      { s with
        link := some ⟨process, tail, receiver, isOpen⟩
        client := s.client.frame wire.fromStr (wire.frame item) } := by
  obtain ⟨hqueued, hgone⟩ := hflow.take
  rw [hitem, Option.toList_none, List.nil_append] at hqueued
  have harrivals : arrivals (log ++ [.received process item]) = arrivals log := by
    rw [arrivals_received, hitem, Option.toList_none, List.append_nil]
  obtain ⟨older, base, hsplit⟩ := hs.split
  rw [frame_control s.client fun e he => by rw [he] at hitem; cases hitem]
  refine ⟨hs.bus, hs.few, ?_, ?_, ⟨older, base, ?_, hsplit.earlier, hsplit.whole⟩, fun hf => ?_, ?_,
    ?_, ⟨front, gone, tail.filterMap (Item.origin process), rest, ?_,
      fun x hx => (hway.accounted x hx).append _, ?_, ?_,
      (fun hnone => nomatch hnone), fun link hlink' => ?_⟩⟩
  · rw [emissions_received]
    exact hs.fit
  · rw [emissions_received]
    exact hs.distinct
  · rw [emissions_received]
    exact hsplit.all
  · exact absurd ((hs.fresh hf).2.symm.trans hlink) (by simp)
  · rw [harrivals]
    exact hs.cursor
  · rw [harrivals]
    exact hs.handed
  · rw [emissions_received, hway.all, hqueued]
  · rw [harrivals]
    exact hway.sublist
  · rw [harrivals]
    exact hway.last
  · obtain rfl := Option.some.inj hlink'
    exact ⟨rfl, .inl hgone, hflow.live⟩

theorem Streaming.deliver (hs : Streaming h wire log s)
    (hstep : s.step wire .deliver = some (s', events)) : Streaming h wire (log ++ events) s' := by
  cases hlink : s.link with
  | none => simp [Net.step, hlink] at hstep
  | some link =>
    obtain ⟨process, queue, receiver, isOpen⟩ := link
    cases queue with
    | nil => simp [Net.step, hlink] at hstep
    | cons item tail =>
      simp only [Net.step, hlink] at hstep
      obtain ⟨rfl, rfl⟩ := Prod.mk.inj (Option.some.inj hstep)
      obtain ⟨front, gone, queued, rest, hway⟩ := hs.way
      have hflow := hway.up _ hlink
      cases horigin : item.origin process with
      | some x =>
        obtain ⟨e, rfl, rfl⟩ : ∃ e, item = .envelope e ∧ x = (process, e) := by
          cases item with
          | envelope e => exact ⟨e, rfl, (Option.some.inj horigin).symm⟩
          | gap info => cases horigin
          | lagGap missed => cases horigin
        exact hs.arrive hway hflow hlink
      | none => exact hs.control hway hflow hlink horigin

/-! ### Ends -/

/-- A stream that ends keeps what is in flight. -/
theorem Way.close (hway : Way h log s front gone queued rest)
    (hlink : s'.link = s.link.map Link.close) : Way h log s' front gone queued rest where
  all := hway.all
  accounted := hway.accounted
  sublist := hway.sublist
  last := hway.last
  down hnone := hway.down (by rw [hlink] at hnone; exact Option.map_eq_none_iff.mp hnone)
  up link' hlink' := by
    rw [hlink] at hlink'
    obtain ⟨link, hold, rfl⟩ := Option.map_eq_some_iff.mp hlink'
    have hflow := hway.up link hold
    exact ⟨hflow.inQueue, hflow.announced, fun hopen => nomatch hopen⟩

theorem Streaming.close (hs : Streaming h wire log s) :
    Streaming h wire log { s with link := s.link.map Link.close } := by
  obtain ⟨front, gone, queued, rest, hway⟩ := hs.way
  refine hs.relink _ (fun hf => ?_) ⟨front, gone, queued, rest, hway.close rfl⟩
  rw [(hs.fresh hf).2]
  rfl

/-- A connection that drops leaves what was in flight outstanding. -/
theorem Streaming.disconnect (hs : Streaming h wire log s) :
    Streaming h wire log { s with link := none } := by
  obtain ⟨front, gone, queued, rest, hway⟩ := hs.way
  refine hs.relink none (fun _ => rfl) ⟨front, [], [], gone ++ queued ++ rest, ?_, hway.accounted,
    hway.sublist, hway.last, fun _ => ⟨rfl, rfl⟩, fun link hlink => nomatch hlink⟩
  rw [hway.all]
  simp only [List.append_nil, List.append_assoc]

/-- A new process begins anew. -/
theorem Streaming.restart (hs : Streaming h wire log s) :
    Streaming h wire log
      { s with
        process := s.process + 1, bus := .new, emitted := []
        link := s.link.map Link.close } := by
  obtain ⟨front, gone, queued, rest, hway⟩ := hs.way
  obtain ⟨older, base, hsplit⟩ := hs.split
  refine ⟨start_consistent h, Nat.lt_of_succ_lt one_lt_seqModulus, hs.fit, hs.distinct,
    ⟨emissions log, 0, (List.append_nil _).symm, fun x hx => ?_, fun _ => rfl⟩, fun hf => ?_,
    hs.cursor, hs.handed, ⟨front, gone, queued, rest, hway.close rfl⟩⟩
  · show x.1 < s.process + 1
    rcases hsplit.number hs.bus hs.few hx with hlt | ⟨heq, -⟩
    · omega
    · omega
  · refine ⟨(hs.fresh hf).1, ?_⟩
    show s.link.map Link.close = none
    rw [(hs.fresh hf).2]
    rfl

theorem Streaming.step (hs : Streaming h wire log s) {i : NetInput}
    (hok : ConnectsInStep wire log s i)
    (hstep : s.step wire i = some (s', events)) : Streaming h wire (log ++ events) s' := by
  cases i with
  | emit envelope eventId timestamp => exact hs.emit envelope eventId timestamp hok.1 hstep
  | connect => exact hs.connect (hok.2 rfl) hstep
  | serve => exact hs.serve hstep
  | deliver => exact hs.deliver hstep
  | close =>
    obtain ⟨rfl, rfl⟩ := Prod.mk.inj (Option.some.inj hstep)
    rw [List.append_nil]
    exact hs.close
  | disconnect =>
    obtain ⟨rfl, rfl⟩ := Prod.mk.inj (Option.some.inj hstep)
    rw [List.append_nil]
    exact hs.disconnect
  | restart =>
    obtain ⟨rfl, rfl⟩ := Prod.mk.inj (Option.some.inj hstep)
    rw [List.append_nil]
    exact hs.restart

theorem Streaming.kept (hs : Streaming h wire log s) : Kept log s := by
  obtain ⟨front, gone, queued, rest, hway⟩ := hs.way
  refine ⟨hs.handed, hs.distinct, ?_, fun hsettled x hx => ?_⟩
  · rw [hway.all, List.append_assoc, List.append_assoc]
    exact hway.sublist.trans (List.sublist_append_left _ _)
  · obtain ⟨link, hlink, hopen, hqueue, hempty⟩ := hsettled
    have hflow := hway.up link hlink
    obtain ⟨-, hof, hrest⟩ := hflow.live hopen
    -- nothing is in the queue and nothing is unread
    have hqueued : queued = [] := by
      rw [hflow.inQueue, Link.queued, hqueue]
      rfl
    have hun : h.unread s.bus.broadcast link.receiver = [] := by
      rcases (h.recv hof).2 with ⟨-, hnil, -⟩ | ⟨e, hvalue, -⟩ | ⟨missed, hlag, -⟩
      · exact hnil
      · rw [hempty] at hvalue
        cases hvalue
      · rw [hempty] at hlag
        cases hlag
    rw [hun, List.map_nil] at hrest
    rw [hway.all, hqueued, hrest, List.append_nil, List.append_nil] at hx
    rcases List.mem_append.mp hx with hx | hx
    · exact hway.accounted x hx
    · rcases hflow.announced with hgone | ⟨info, tail, hhead, -⟩
      · exact .inr (hgone x hx)
      · rw [hqueue] at hhead
        cases hhead

end Net

/-- Along every run in which the client connects in step, nothing is lost without a word and nothing
comes twice. -/
theorem delivery_of_in_step {b : Broadcast EventEnvelope} (h : b.Lawful broadcastCapacity)
    (wire : Wire) {inputs : List NetInput} {log : List Record} {s : Net b}
    (hrun : History (Net.step wire) (ConnectsInStep wire) Net.start inputs log s) :
    Kept log s := by
  have hs : Streaming h wire log s := hrun.invariant (Streaming h wire) (start_streaming h wire)
    fun hs hok hstep => hs.step hok hstep
  exact hs.kept

/-! ## Two outages -/

/-- A wire on which every payload reads as null. -/
def plain : Wire :=
  ⟨fun _ => [], fun _ => [], fun _ => [], fun _ => some (.object [("payload", .null)])⟩

/-- The channel of the runs below. -/
abbrev kept : Broadcast EventEnvelope := .buffered EventEnvelope broadcastCapacity

theorem tick_sound (s : Net kept) (eventId : String) (hfew : s.emitted.length < 2) :
    Sound plain s (.emit tick eventId "") := by
  refine ⟨⟨⟨(by decide : "tick" ≠ "stream_gap"), (by decide : "tick" ≠ "stream_error")⟩, _, rfl,
    rfl⟩, ?_⟩
  have hbig : 2 ^ 2 ≤ seqModulus := Nat.pow_le_pow_right (by omega) (by omega)
  omega

/-- An event of the running process, an outage with another event, and the reconnect: the replay
brings the second one. -/
theorem outage_replayed :
    ∃ log s, History (Net.step plain) (ConnectsInStep plain) (Net.start : Net kept)
        [.connect, .emit tick "a" "", .serve, .deliver, .disconnect, .emit tick "b" "", .connect,
          .deliver] log s ∧
      s.client.forwarded = (arrivals log).map engineView ∧ (arrivals log).length = 2 := by
  have hstay : ∀ {log} {s : Net kept} {i}, (∀ e a t, i ≠ .emit e a t) → i ≠ .connect →
      ConnectsInStep plain log s i := by
    intro log s i hemit hconnect
    refine ⟨?_, fun h => absurd h hconnect⟩
    cases i with
    | emit e a t => exact absurd rfl (hemit e a t)
    | _ => trivial
  have h0 : History (Net.step plain) (ConnectsInStep plain) (Net.start : Net kept) [] [] .start := .nil
  have h1 := h0.snoc (i := NetInput.connect) ⟨trivial, fun _ => .inl rfl⟩ rfl
  have h2 := h1.snoc (i := NetInput.emit tick "a" "") ⟨tick_sound _ _ (by decide), fun h => nomatch h⟩ rfl
  have h3 := h2.snoc (i := NetInput.serve) (hstay (by simp) (by simp)) rfl
  have h4 := h3.snoc (i := NetInput.deliver) (hstay (by simp) (by simp)) rfl
  have h5 := h4.snoc (i := NetInput.disconnect) (hstay (by simp) (by simp)) rfl
  have h6 := h5.snoc (i := NetInput.emit tick "b" "") ⟨tick_sound _ _ (by decide), fun h => nomatch h⟩ rfl
  have h7 := h6.snoc (i := NetInput.connect) ⟨trivial, fun _ => .inr ⟨_, rfl⟩⟩ rfl
  have h8 := h7.snoc (i := NetInput.deliver) (hstay (by simp) (by simp)) rfl
  exact ⟨_, _, h8, (delivery_of_in_step (Broadcast.bufferedLawful EventEnvelope broadcastCapacity)
    plain h8).handed, rfl⟩

/-- Two ways to lose an event without a word: the connection drops before any event arrived, and the
reconnect has no cursor to present; or `rp` is restarted, and counts again below the cursor. -/
theorem outages_lose :
    (∃ log s, History (Net.step plain) (fun _ s i => Sound plain s i) (Net.start : Net kept)
        [.connect, .disconnect, .emit tick "a" "", .connect] log s ∧ ¬ Kept log s) ∧
    ∃ log s, History (Net.step plain) (fun _ s i => Sound plain s i) (Net.start : Net kept)
        [.connect, .emit tick "a" "", .serve, .deliver, .restart, .disconnect, .emit tick "b" "",
          .connect] log s ∧ ¬ Kept log s := by
  have h0 : History (Net.step plain) (fun _ s i => Sound plain s i) (Net.start : Net kept) [] []
      .start := .nil
  have h1 := h0.snoc (i := NetInput.connect) trivial rfl
  constructor
  · have h2 := h1.snoc (i := NetInput.disconnect) trivial rfl
    have h3 := h2.snoc (i := NetInput.emit tick "a" "") (tick_sound _ _ (by decide)) rfl
    have h4 := h3.snoc (i := NetInput.connect) trivial rfl
    refine ⟨_, _, h4, fun hkept => ?_⟩
    rcases hkept.complete ⟨_, rfl, rfl, rfl, rfl⟩ (0, _) (List.mem_singleton.mpr rfl) with
      harrived | ⟨info, htold, -⟩
    · exact absurd harrived List.not_mem_nil
    · cases List.mem_singleton.mp htold
  · have h2 := h1.snoc (i := NetInput.emit tick "a" "") (tick_sound _ _ (by decide)) rfl
    have h3 := h2.snoc (i := NetInput.serve) trivial rfl
    have h4 := h3.snoc (i := NetInput.deliver) trivial rfl
    have h5 := h4.snoc (i := NetInput.restart) trivial rfl
    have h6 := h5.snoc (i := NetInput.disconnect) trivial rfl
    have h7 := h6.snoc (i := NetInput.emit tick "b" "") (tick_sound _ _ (by decide)) rfl
    have h8 := h7.snoc (i := NetInput.connect) trivial rfl
    refine ⟨_, _, h8, fun hkept => ?_⟩
    rcases hkept.complete ⟨_, rfl, rfl, rfl, rfl⟩ (1, _)
      (List.mem_cons_of_mem _ (List.mem_singleton.mpr rfl)) with harrived | ⟨info, htold, -⟩
    · cases List.mem_singleton.mp harrived
    · simp at htold

end RustyPhoton.Rp.Events
