import RustyPhoton.Lib.Transition

/-!
# Requests on one connection

A caller queues for the command lock, spawns the exchange on a task of its own once it has it, and
waits for that task. It may stop waiting at every point; the exchange keeps the lock to its end.
The wire carries no tags: a frame is written to one end and the device's replies are read from the
other in the order they came. Here every frame and reply is marked with the request it belongs to,
which nothing the connection does looks at.
-/

namespace RustyPhoton.SharedTransport

open Lib

/-- `usize::MAX` on a 64-bit target. -/
def usizeMax : Nat := 18446744073709551615

/-- A translation between commands and frames, which may keep state between calls. -/
structure Codec where
  Command : Type
  Response : Type
  Error : Type
  State : Type
  encode : State → Command → List UInt8 × State
  decode : State → List UInt8 → Except Error Response × State
  isMatch : State → Command → Response → Bool × State
  maxSkip : State → Nat
  discardBeforeSend : State → Command → Bool

inductive TransportError where
  | io (text : String)
  | timeout
  | eof
  | framing (text : String)
  deriving DecidableEq, Repr

inductive SessionError (Error : Type) where
  | transport (error : TransportError)
  | codec (error : Error)
  | skipExhausted (frames : Nat)

abbrev Codec.Outcome (C : Codec) : Type := Except (SessionError C.Error) C.Response

/-- A reply that decodes to what the codec takes for the answer to the command. -/
def Codec.accepts (C : Codec) (σ : C.State) (cmd : C.Command) (reply : List UInt8) : Bool :=
  match C.decode σ reply with
  | (.ok resp, σ') => (C.isMatch σ' cmd resp).1
  | (.error _, _) => false

/-! ## The connection -/

/-- Where an exchange's task stands; every point but the first is an await on the conduit. -/
inductive Stage where
  | begun
  | discarding (bytes : List UInt8)
  | sending (bytes : List UInt8)
  | receiving (skipped budget : Nat)

/-- How many operations are still before an exchange whose reply is not skipped. -/
def Stage.left : Stage → Nat
  | .begun => 4
  | .discarding _ => 3
  | .sending _ => 2
  | .receiving _ _ => 1

/-- The task that owns the command lock. -/
structure Exchange (C : Codec) where
  request : Nat
  cmd : C.Command
  stage : Stage

/-- Where the caller of one request stands. -/
inductive Caller (C : Codec) where
  | queued (cmd : C.Command)
  | gaveUp
  | waiting
  | answered (outcome : C.Outcome)
  | over

/-- A frame on its way to the device. -/
structure Sent (C : Codec) where
  request : Nat
  cmd : C.Command
  bytes : List UInt8

/-- A reply that has not been read. -/
structure Unread where
  request : Nat
  bytes : List UInt8

structure Connection (C : Codec) where
  callers : Nat → Option (Caller C)
  nextRequest : Nat
  /-- The owner of the command lock; the lock is free when there is none. -/
  holder : Option (Exchange C)
  closed : Bool
  sent : List (Sent C)
  unread : List Unread
  codec : C.State
  wireFailures : Nat
  reconnectSignals : Nat

/-- What is seen from outside. -/
inductive WireEvent (C : Codec) where
  | called (request : Nat) (cmd : C.Command)
  | gaveUp (request : Nat)
  | locked (request : Nat)
  | sent (request : Nat) (bytes : List UInt8)
  | answered (request : Nat) (reply : List UInt8)
  | read (request : Nat) (reply : List UInt8) (origin : Nat)
  | returned (request : Nat) (outcome : C.Outcome)

inductive WireInput (C : Codec) where
  | call (cmd : C.Command)
  | lock (request : Nat)
  | drop (request : Nat)
  | deliver (request : Nat)
  /-- The exchange's task runs on: from its start, or past the operation it awaits. -/
  | exchange
  /-- The operation the exchange awaits fails. -/
  | fail (error : TransportError)
  /-- The device answers the frame it received first. -/
  | answer (reply : List UInt8)
  | close

namespace Connection

variable {C : Codec}

def new (σ : C.State) : Connection C where
  callers := fun _ => none
  nextRequest := 0
  holder := none
  closed := false
  sent := []
  unread := []
  codec := σ
  wireFailures := 0
  reconnectSignals := 0

def setCaller (s : Connection C) (request : Nat) (caller : Caller C) : Connection C :=
  { s with callers := fun r => if r = request then some caller else s.callers r }

/-- The exchange ends: the lock is free, and its caller, if it still waits, has the outcome. -/
def finish (s : Connection C) (request : Nat) (outcome : C.Outcome) : Connection C :=
  match s.callers request with
  | some .waiting => { s with holder := none }.setCaller request (.answered outcome)
  | _ => { s with holder := none }

def goTo (s : Connection C) (e : Exchange C) (stage : Stage) : Connection C :=
  { s with holder := some { e with stage := stage } }

/-- Counted, not signalled. -/
def count (s : Connection C) : Connection C :=
  { s with wireFailures := s.wireFailures + 1 }

def signalReconnect (s : Connection C) : Connection C :=
  { s.count with reconnectSignals := s.reconnectSignals + 1 }

/-- A frame read in round `skipped`: decoded, matched, and skipped while the budget lasts. -/
def received (s : Connection C) (e : Exchange C) (skipped budget : Nat) (bytes : List UInt8) :
    Connection C :=
  match C.decode s.codec bytes with
  | (.error error, σ) => { s with codec := σ }.finish e.request (.error (.codec error))
  | (.ok resp, σ) =>
      match C.isMatch σ e.cmd resp with
      | (true, τ) => { s with codec := τ }.finish e.request (.ok resp)
      | (false, τ) =>
          if skipped < budget then
            { s with codec := τ }.goTo e (.receiving (skipped + 1) budget)
          else
            { s with codec := τ }.finish e.request
              (.error (.skipExhausted (min (budget + 1) usizeMax)))

/-- `Exchange::run`, from one await to the next. -/
def run (s : Connection C) (e : Exchange C) : Option (Connection C × List (WireEvent C)) :=
  match e.stage with
  | .begun =>
      if s.closed then
        some (s.count.finish e.request (.error (.transport (.io "transport closed"))), [])
      else
        let (bytes, σ) := C.encode s.codec e.cmd
        if C.discardBeforeSend σ e.cmd then
          some ({ s with codec := σ }.goTo e (.discarding bytes), [])
        else
          some ({ s with codec := σ }.goTo e (.sending bytes), [])
  | .discarding bytes => some ({ s with unread := [] }.goTo e (.sending bytes), [])
  | .sending bytes =>
      some ({ s with sent := s.sent ++ [Sent.mk e.request e.cmd bytes] }.goTo e
        (.receiving 0 (C.maxSkip s.codec)), [.sent e.request bytes])
  | .receiving skipped budget =>
      match s.unread with
      | [] => none
      | reply :: rest =>
          some ({ s with unread := rest }.received e skipped budget reply.bytes,
            [.read e.request reply.bytes reply.request])

/-- The operation an exchange awaits fails. -/
def failed (s : Connection C) (e : Exchange C) (error : TransportError) : Option (Connection C) :=
  match e.stage with
  | .begun => none
  | _ => some (s.signalReconnect.finish e.request (.error (.transport error)))

def step (s : Connection C) : WireInput C → Option (Connection C × List (WireEvent C))
  | .call cmd =>
      some ({ s with nextRequest := s.nextRequest + 1 }.setCaller s.nextRequest (.queued cmd),
        [.called s.nextRequest cmd])
  | .lock request =>
      match s.callers request, s.holder with
      | some (.queued cmd), none =>
          some ({ s with holder := some ⟨request, cmd, .begun⟩ }.setCaller request .waiting,
            [.locked request])
      | _, _ => none
  | .drop request =>
      match s.callers request with
      | some (.queued _) => some (s.setCaller request .gaveUp, [.gaveUp request])
      | some .waiting | some (.answered _) => some (s.setCaller request .over, [])
      | _ => none
  | .deliver request =>
      match s.callers request with
      | some (.answered outcome) =>
          some (s.setCaller request .over, [.returned request outcome])
      | _ => none
  | .exchange => s.holder.bind s.run
  | .fail error => (s.holder.bind fun e => s.failed e error).map (·, [])
  | .answer reply =>
      match s.sent with
      | [] => none
      | frame :: rest =>
          some ({ s with sent := rest, unread := s.unread ++ [Unread.mk frame.request reply] },
            [.answered frame.request reply])
  | .close => if s.holder.isNone then some ({ s with closed := true }, []) else none

/-- No operation of the conduit fails, nobody closes it, and every reply the device gives decodes
to an answer to the command it is the reply to. -/
def Responsive (_ : List (WireEvent C)) (s : Connection C) : WireInput C → Prop
  | .fail _ | .close => False
  | .answer reply => ∀ frame ∈ s.sent.head?, C.accepts s.codec frame.cmd reply = true
  | _ => True

/-! ## The wire -/

variable {s s' : Connection C} {log : List (WireEvent C)}

/-- The request's frame went out whole, and its own reply was read for it. -/
def Exchanged (log : List (WireEvent C)) (request : Nat) (reply : List UInt8) : Prop :=
  ∃ cmd σ, .called request cmd ∈ log ∧ .sent request (C.encode σ cmd).1 ∈ log ∧
    .answered request reply ∈ log ∧ .read request reply request ∈ log

/-- The response is what the codec made of the request's own reply. -/
def Paired (log : List (WireEvent C)) (request : Nat) (resp : C.Response) : Prop :=
  ∃ reply τ, Exchanged log request reply ∧ (C.decode τ reply).1 = .ok resp

/-- Nothing is on its way to the device or from it. -/
def Quiet (s : Connection C) : Prop := s.sent = [] ∧ s.unread = []

/-- The device has the exchange's frame, and nothing else. -/
def Owed (s : Connection C) (e : Exchange C) : Prop :=
  s.unread = [] ∧ ∃ bytes, s.sent = [⟨e.request, e.cmd, bytes⟩]

/-- The exchange's own reply is what there is to read, and nothing else. -/
def Arrived (log : List (WireEvent C)) (s : Connection C) (e : Exchange C) : Prop :=
  s.sent = [] ∧ ∃ reply, s.unread = [⟨e.request, reply⟩] ∧ .answered e.request reply ∈ log ∧
    C.accepts s.codec e.cmd reply = true

/-- What is on the wire while an exchange runs, stage by stage. -/
def OnWire (log : List (WireEvent C)) (s : Connection C) (e : Exchange C) : Prop :=
  match e.stage with
  | .begun => s.Quiet
  | .discarding bytes | .sending bytes => s.Quiet ∧ ∃ σ, (C.encode σ e.cmd).1 = bytes
  | .receiving _ _ =>
      (∃ σ, .sent e.request (C.encode σ e.cmd).1 ∈ log) ∧ (s.Owed e ∨ Arrived log s e)

/-- The lock's owner is alone on the wire. -/
structure Wire (log : List (WireEvent C)) (s : Connection C) : Prop where
  usable : s.closed = false
  free : s.holder = none → s.Quiet
  called : ∀ e, s.holder = some e → .called e.request e.cmd ∈ log
  held : ∀ e, s.holder = some e → OnWire log s e

variable {request : Nat} {reply : List UInt8}

theorem Exchanged.mono (h : Exchanged log request reply)
    (events : List (WireEvent C)) : Exchanged (log ++ events) request reply := by
  obtain ⟨cmd, σ, hcalled, hsent, hanswered, hread⟩ := h
  exact ⟨cmd, σ, List.mem_append_left _ hcalled, List.mem_append_left _ hsent,
    List.mem_append_left _ hanswered, List.mem_append_left _ hread⟩

variable {resp : C.Response}

theorem Paired.mono (h : Paired log request resp)
    (events : List (WireEvent C)) : Paired (log ++ events) request resp := by
  obtain ⟨reply, τ, hexchanged, hdecode⟩ := h
  exact ⟨reply, τ, hexchanged.mono events, hdecode⟩

variable {e : Exchange C}

theorem Arrived.mono (h : Arrived log s e) (events : List (WireEvent C)) :
    Arrived (log ++ events) s e := by
  obtain ⟨hsent, reply, hunread, hanswered, haccepts⟩ := h
  exact ⟨hsent, reply, hunread, List.mem_append_left _ hanswered, haccepts⟩

theorem OnWire.mono (h : OnWire log s e) (events : List (WireEvent C)) :
    OnWire (log ++ events) s e := by
  unfold OnWire at h ⊢
  cases hstage : e.stage with
  | begun =>
    rw [hstage] at h
    exact h
  | discarding bytes =>
    rw [hstage] at h
    exact h
  | sending bytes =>
    rw [hstage] at h
    exact h
  | receiving skipped budget =>
    rw [hstage] at h
    obtain ⟨⟨σ, hsent⟩, hwire⟩ := h
    exact ⟨⟨σ, List.mem_append_left _ hsent⟩, hwire.imp_right (·.mono events)⟩

/-- A caller that comes, gives up or goes away changes nothing on the wire. -/
theorem Wire.callers (h : Wire log s) (events : List (WireEvent C)) {next : Nat}
    {callers : Nat → Option (Caller C)} :
    Wire (log ++ events) { s with callers := callers, nextRequest := next } where
  usable := h.usable
  free := h.free
  called e he := List.mem_append_left _ (h.called e he)
  held e he := (h.held e he).mono events

variable {cmd : C.Command}

theorem Wire.lock (h : Wire log s) (hfree : s.holder = none)
    (hcalled : .called request cmd ∈ log) (events : List (WireEvent C)) :
    Wire (log ++ events)
      ({ s with holder := some ⟨request, cmd, .begun⟩ }.setCaller request .waiting) where
  usable := h.usable
  free := nofun
  called e he := by
    cases he
    exact List.mem_append_left _ hcalled
  held e he := by
    cases he
    exact h.free hfree

variable {frame : Sent C} {rest : List (Sent C)}

/-- The frame the device answers is the owner's. -/
theorem Wire.answer (h : Wire log s)
    (hsent : s.sent = frame :: rest) (haccepts : C.accepts s.codec frame.cmd reply = true) :
    Wire (log ++ [.answered frame.request reply])
      { s with sent := rest, unread := s.unread ++ [Unread.mk frame.request reply] } where
  usable := h.usable
  free hfree := by
    have hquiet := (h.free hfree).1
    rw [hsent] at hquiet
    cases hquiet
  called e he := List.mem_append_left _ (h.called e he)
  held e he := by
    have hwire := h.held e he
    unfold OnWire at hwire ⊢
    cases hstage : e.stage with
    | begun =>
      rw [hstage] at hwire
      cases hsent.symm.trans hwire.1
    | discarding bytes =>
      rw [hstage] at hwire
      cases hsent.symm.trans hwire.1.1
    | sending bytes =>
      rw [hstage] at hwire
      cases hsent.symm.trans hwire.1.1
    | receiving skipped budget =>
      rw [hstage] at hwire
      obtain ⟨⟨σ, hframe⟩, ⟨hunread, bytes, hown⟩ | ⟨harrived, -⟩⟩ := hwire
      · cases hsent.symm.trans hown
        refine ⟨⟨σ, List.mem_append_left _ hframe⟩, .inr ⟨rfl, reply, ?_, ?_, haccepts⟩⟩
        · show s.unread ++ [Unread.mk e.request reply] = [⟨e.request, reply⟩]
          rw [hunread]
          rfl
        · exact List.mem_append_right _ List.mem_cons_self
      · cases hsent.symm.trans harrived

/-! ## The exchange's task -/

/-- One step of the exchange's task: it gets on, or it ends with its own reply. -/
inductive Ran (log : List (WireEvent C)) (s : Connection C) (e : Exchange C) :
    Connection C → List (WireEvent C) → Prop where
  | goesOn {sent : List (Sent C)} {unread : List Unread} {σ : C.State} {stage : Stage}
      {events : List (WireEvent C)} (closer : stage.left < e.stage.left)
      (told : events = [] ∨ ∃ bytes, events = [.sent e.request bytes])
      (wire : Wire (log ++ events) ({ s with sent, unread, codec := σ }.goTo e stage)) :
      Ran log s e ({ s with sent, unread, codec := σ }.goTo e stage) events
  | ends {σ τ : C.State} {reply : List UInt8} {resp : C.Response} (quiet : s.sent = [])
      (exchanged : Exchanged (log ++ [.read e.request reply e.request]) e.request reply)
      (decoded : (C.decode τ reply).1 = .ok resp) :
      Ran log s e ({ s with unread := [], codec := σ }.finish e.request (.ok resp))
        [.read e.request reply e.request]

theorem received_of_accepts (skipped budget : Nat) {bytes : List UInt8}
    (h : C.accepts s.codec e.cmd bytes = true) :
    ∃ resp σ, (C.decode s.codec bytes).1 = .ok resp ∧
      s.received e skipped budget bytes = { s with codec := σ }.finish e.request (.ok resp) := by
  unfold Codec.accepts at h
  unfold received
  split at h
  · next resp σ hdecode =>
      refine ⟨resp, (C.isMatch σ e.cmd resp).2, by rw [hdecode], ?_⟩
      rw [hdecode]
      show (match C.isMatch σ e.cmd resp with | (true, τ) => _ | (false, τ) => _) = _
      generalize C.isMatch σ e.cmd resp = verdict at h ⊢
      obtain ⟨accepted, τ⟩ := verdict
      cases h
      rfl
  · cases h

variable {σ : C.State} {events : List (WireEvent C)}

/-- The owner of the lock, while it is at a stage with nothing on the wire, gets on. -/
theorem Wire.goesOn (h : Wire log s) (held : s.holder = some e)
    {sent : List (Sent C)} {unread : List Unread} {stage : Stage}
    (hwire : OnWire (log ++ events) ({ s with sent, unread, codec := σ }.goTo e stage)
      { e with stage := stage }) :
    Wire (log ++ events) ({ s with sent, unread, codec := σ }.goTo e stage) where
  usable := h.usable
  free := nofun
  called e' he := by
    cases he
    exact List.mem_append_left _ (h.called e held)
  held e' he := by
    cases he
    exact hwire

theorem run_ran (h : Wire log s)
    (held : s.holder = some e) (taken : s.run e = some (s', events)) : Ran log s e s' events := by
  have hcalled := h.called e held
  have hwire := h.held e held
  unfold OnWire at hwire
  unfold run at taken
  cases hstage : e.stage with
  | begun =>
    rw [hstage] at hwire taken
    rw [if_neg (by rw [h.usable]; exact Bool.false_ne_true)] at taken
    obtain ⟨hsent, hunread⟩ := hwire
    dsimp only at taken
    split at taken
    · cases taken
      refine .goesOn ?_ (.inl rfl) (h.goesOn held ?_)
      · rw [hstage]
        show 3 < 4
        omega
      · exact ⟨⟨hsent, hunread⟩, s.codec, rfl⟩
    · cases taken
      refine .goesOn ?_ (.inl rfl) (h.goesOn held ?_)
      · rw [hstage]
        show 2 < 4
        omega
      · exact ⟨⟨hsent, hunread⟩, s.codec, rfl⟩
  | discarding bytes =>
    rw [hstage] at hwire taken
    obtain ⟨⟨hsent, -⟩, σ, hbytes⟩ := hwire
    cases taken
    refine .goesOn ?_ (.inl rfl) (h.goesOn held ?_)
    · rw [hstage]
      show 2 < 3
      omega
    · exact ⟨⟨hsent, rfl⟩, σ, hbytes⟩
  | sending bytes =>
    rw [hstage] at hwire taken
    obtain ⟨⟨hsent, hunread⟩, σ, hbytes⟩ := hwire
    cases taken
    refine .goesOn ?_ (.inr ⟨bytes, rfl⟩) (h.goesOn held ?_)
    · rw [hstage]
      show 1 < 2
      omega
    · refine ⟨⟨σ, List.mem_append_right _ ?_⟩, .inl ⟨hunread, bytes, ?_⟩⟩
      · rw [hbytes]
        exact List.mem_cons_self
      · show s.sent ++ [Sent.mk e.request e.cmd bytes] = _
        rw [hsent]
        rfl
  | receiving skipped budget =>
    rw [hstage] at hwire taken
    obtain ⟨⟨σ, hsent⟩, ⟨hunread, -⟩ | ⟨hquiet, reply, hunread, hanswered, haccepts⟩⟩ := hwire
    · -- the reply is still with the device
      rw [hunread] at taken
      cases taken
    · rw [hunread] at taken
      obtain ⟨resp, τ, hdecode, hreceived⟩ := received_of_accepts
        (s := { s with unread := [] }) skipped budget haccepts
      cases taken
      rw [hreceived]
      refine .ends hquiet ⟨e.cmd, σ, ?_, ?_, ?_, ?_⟩ hdecode
      · exact List.mem_append_left _ hcalled
      · exact List.mem_append_left _ hsent
      · exact List.mem_append_left _ hanswered
      · exact List.mem_append_right _ List.mem_cons_self

/-! ## The callers -/

/-- Past the queue: the request got the command lock. -/
def PastQueue : Caller C → Prop
  | .queued _ | .gaveUp => False
  | .waiting | .answered _ | .over => True

/-- A request that has not got the lock: not made yet, in the queue, or dropped there. -/
def Unlocked (s : Connection C) (request : Nat) : Prop :=
  ∀ caller, s.callers request = some caller → ¬ PastQueue caller

/-- Only a request that is past the queue sends. -/
structure Queue (log : List (WireEvent C)) (s : Connection C) : Prop where
  fresh : ∀ request, s.nextRequest ≤ request → s.callers request = none
  queued : ∀ request cmd, s.callers request = some (.queued cmd) → .called request cmd ∈ log
  owner : ∀ e, s.holder = some e → ¬ s.Unlocked e.request
  silent : ∀ request bytes, .sent request bytes ∈ log → ¬ s.Unlocked request
  gaveUp : ∀ request, .gaveUp request ∈ log → s.callers request = some .gaveUp

theorem callers_setCaller (request r : Nat) (caller : Caller C) :
    (s.setCaller request caller).callers r =
      if r = request then some caller else s.callers r := rfl

variable {caller : Caller C}

theorem not_unlocked (h : s.callers request = some caller)
    (hpast : PastQueue caller) : ¬ s.Unlocked request := fun hunlocked => hunlocked caller h hpast

theorem unlocked_of_caller
    (h : s.callers request = some caller) (hpast : ¬ PastQueue caller) : s.Unlocked request := by
  intro c hc
  cases h.symm.trans hc
  exact hpast

theorem Queue.lt (h : Queue log s)
    (hcaller : s.callers request = some caller) : request < s.nextRequest := by
  by_contra hge
  cases (h.fresh request (by omega)).symm.trans hcaller

variable {t : Connection C}

/-- One caller moves: every other one stands where it stood. -/
theorem Queue.move (h : Queue log s)
        (callers : ∀ r, t.callers r = if r = request then some caller else s.callers r)
    (hnext : s.nextRequest ≤ t.nextRequest) (hlt : request < t.nextRequest)
    (hqueued : ∀ cmd, caller = .queued cmd → .called request cmd ∈ events)
    (howner : ∀ e, t.holder = some e →
      s.holder = some e ∨ (e.request = request ∧ PastQueue caller))
    (hpast : ¬ s.Unlocked request → PastQueue caller)
    (hsent : ∀ r bytes, .sent r bytes ∉ events)
    (hstays : s.callers request ≠ some .gaveUp)
    (hquit : ∀ r, .gaveUp r ∈ events → r = request ∧ caller = .gaveUp) :
    Queue (log ++ events) t := by
  have hself : t.callers request = some caller := by rw [callers, if_pos rfl]
  have hother : ∀ r, r ≠ request → t.callers r = s.callers r := by
    intro r hr
    rw [callers, if_neg hr]
  have hlocked : ∀ r, ¬ s.Unlocked r → ¬ t.Unlocked r := by
    intro r hr
    by_cases heq : r = request
    · rw [heq] at hr ⊢
      exact not_unlocked hself (hpast hr)
    · unfold Unlocked
      rw [hother r heq]
      exact hr
  refine ⟨?_, ?_, ?_, ?_, ?_⟩
  · intro r hr
    rw [hother r (by omega)]
    exact h.fresh r (by omega)
  · intro r cmd hr
    by_cases heq : r = request
    · rw [heq, hself] at hr
      rw [heq]
      exact List.mem_append_right _ (hqueued cmd (Option.some.inj hr))
    · rw [hother r heq] at hr
      exact List.mem_append_left _ (h.queued r cmd hr)
  · intro e he
    rcases howner e he with hsame | ⟨heq, hcaller⟩
    · exact hlocked e.request (h.owner e hsame)
    · rw [heq]
      exact not_unlocked hself hcaller
  · intro r bytes hmem
    rcases List.mem_append.mp hmem with hlog | hevents
    · exact hlocked r (h.silent r bytes hlog)
    · exact (hsent r bytes hevents).elim
  · intro r hmem
    rcases List.mem_append.mp hmem with hlog | hevents
    · have hgone := h.gaveUp r hlog
      rw [hother r]
      · exact hgone
      · intro heq
        exact hstays (heq ▸ hgone)
    · obtain ⟨heq, hcaller⟩ := hquit r hevents
      rw [heq, hself, hcaller]

/-- No caller moves. -/
theorem Queue.stay (h : Queue log s)
    (callers : t.callers = s.callers) (next : t.nextRequest = s.nextRequest)
    (howner : ∀ e, t.holder = some e → ∃ e', s.holder = some e' ∧ e'.request = e.request)
    (hsent : ∀ r bytes, .sent r bytes ∈ events → ¬ s.Unlocked r)
    (hquit : ∀ r, .gaveUp r ∉ events) : Queue (log ++ events) t := by
  have hlocked : ∀ r, ¬ s.Unlocked r → ¬ t.Unlocked r := by
    intro r hr
    unfold Unlocked
    rw [callers]
    exact hr
  refine ⟨?_, ?_, ?_, ?_, ?_⟩
  · rw [callers, next]
    exact h.fresh
  · rw [callers]
    intro r cmd hr
    exact List.mem_append_left _ (h.queued r cmd hr)
  · intro e he
    obtain ⟨e', he', heq⟩ := howner e he
    exact hlocked e.request (heq ▸ h.owner e' he')
  · intro r bytes hmem
    rcases List.mem_append.mp hmem with hlog | hevents
    · exact hlocked r (h.silent r bytes hlog)
    · exact hlocked r (hsent r bytes hevents)
  · rw [callers]
    intro r hmem
    rcases List.mem_append.mp hmem with hlog | hevents
    · exact h.gaveUp r hlog
    · exact (hquit r hevents).elim

theorem Queue.call (h : Queue log s) (cmd : C.Command) :
    Queue (log ++ [.called s.nextRequest cmd])
      ({ s with nextRequest := s.nextRequest + 1 }.setCaller s.nextRequest (.queued cmd)) := by
  have hnew := h.fresh s.nextRequest (Nat.le_refl _)
  refine h.move (fun r => rfl) (Nat.le_succ _) (Nat.lt_succ_self _) ?_ ?_ ?_ ?_ ?_ ?_
  · intro cmd' heq
    cases heq
    exact List.mem_cons_self
  · exact fun e he => .inl he
  · intro hlocked
    exact (hlocked fun caller hcaller => nomatch hnew.symm.trans hcaller).elim
  · simp
  · rw [hnew]
    nofun
  · simp

/-- A caller that leaves the queue without the lock has sent nothing. -/
theorem Queue.giveUp (h : Queue log s) (hcaller : s.callers request = some (.queued cmd)) :
    Queue (log ++ [.gaveUp request]) (s.setCaller request .gaveUp) := by
  refine h.move (fun r => rfl) (Nat.le_refl _) (h.lt hcaller) nofun ?_ ?_ ?_ ?_ ?_
  · exact fun e he => .inl he
  · intro hlocked
    exact (hlocked (unlocked_of_caller hcaller nofun)).elim
  · simp
  · rw [hcaller]
    nofun
  · intro r hr
    cases List.mem_singleton.mp hr
    exact ⟨rfl, rfl⟩

/-- A caller that gets the lock owns it. -/
theorem Queue.lock (h : Queue log s) (hcaller : s.callers request = some (.queued cmd)) :
    Queue (log ++ [.locked request])
      ({ s with holder := some ⟨request, cmd, .begun⟩ }.setCaller request .waiting) := by
  refine h.move (fun r => rfl) (Nat.le_refl _) (h.lt hcaller) nofun ?_ ?_ ?_ ?_ ?_
  · intro e he
    cases he
    exact .inr ⟨rfl, trivial⟩
  · exact fun _ => trivial
  · simp
  · rw [hcaller]
    nofun
  · simp

/-- A caller past the queue gets its outcome, takes it, or goes away. -/
theorem Queue.pass (h : Queue log s) {before : Caller C} (after : Caller C)
    (hcaller : s.callers request = some before)
    (hbefore : PastQueue before) (hafter : PastQueue after)
    (callers : ∀ r, t.callers r = if r = request then some after else s.callers r)
    (hnext : t.nextRequest = s.nextRequest)
    (howner : ∀ e, t.holder = some e → s.holder = some e)
    (hsent : ∀ r bytes, .sent r bytes ∉ events) (hquit : ∀ r, .gaveUp r ∉ events) :
    Queue (log ++ events) t := by
  refine h.move callers (Nat.le_of_eq hnext.symm) (hnext ▸ h.lt hcaller) ?_ ?_ ?_ hsent ?_ ?_
  · intro cmd heq
    rw [heq] at hafter
    exact hafter.elim
  · exact fun e he => .inl (howner e he)
  · exact fun _ => hafter
  · intro hgone
    cases hcaller.symm.trans hgone
    exact hbefore
  · exact fun r hr => (hquit r hr).elim

/-! ## What the callers are told -/

/-- Every answer handed on is the request's own, and every request that got the lock was carried
through, or is being carried through. -/
structure Outcomes (log : List (WireEvent C)) (s : Connection C) : Prop where
  locked : ∀ request, .locked request ∈ log →
    (∃ e, s.holder = some e ∧ e.request = request) ∨ ∃ reply, Exchanged log request reply
  answered : ∀ request resp, s.callers request = some (.answered (.ok resp)) →
    Paired log request resp
  returned : ∀ request resp, .returned request (.ok resp) ∈ log → Paired log request resp

theorem Outcomes.next (h : Outcomes log s)
    (hlocked : ∀ r, .locked r ∈ events → ∃ e, t.holder = some e ∧ e.request = r)
    (hholder : ∀ e, s.holder = some e → (∃ e', t.holder = some e' ∧ e'.request = e.request) ∨
      ∃ reply, Exchanged (log ++ events) e.request reply)
    (hanswered : ∀ r resp, t.callers r = some (.answered (.ok resp)) →
      s.callers r = some (.answered (.ok resp)) ∨ Paired (log ++ events) r resp)
    (hreturned : ∀ r resp, .returned r (.ok resp) ∈ events → Paired (log ++ events) r resp) :
    Outcomes (log ++ events) t := by
  refine ⟨?_, ?_, ?_⟩
  · intro r hmem
    rcases List.mem_append.mp hmem with hlog | hevents
    · rcases h.locked r hlog with ⟨e, he, heq⟩ | ⟨reply, hexchanged⟩
      · rw [← heq]
        exact hholder e he
      · exact .inr ⟨reply, hexchanged.mono events⟩
    · exact .inl (hlocked r hevents)
  · intro r resp hr
    rcases hanswered r resp hr with hsame | hpaired
    · exact (h.answered r resp hsame).mono events
    · exact hpaired
  · intro r resp hmem
    rcases List.mem_append.mp hmem with hlog | hevents
    · exact (h.returned r resp hlog).mono events
    · exact hreturned r resp hevents

/-- A caller is moved to where it has no answer waiting. -/
theorem answered_move (caller : Caller C)
    (callers : ∀ r, t.callers r = if r = request then some caller else s.callers r)
    (hcaller : ∀ resp, caller ≠ .answered (.ok resp)) (r : Nat) (resp : C.Response)
    (h : t.callers r = some (.answered (.ok resp))) :
    s.callers r = some (.answered (.ok resp)) := by
  rw [callers] at h
  split at h
  · exact (hcaller resp (Option.some.inj h)).elim
  · exact h

/-- What every history keeps. -/
structure Aligned (log : List (WireEvent C)) (s : Connection C) : Prop where
  wire : Wire log s
  queue : Queue log s
  outcomes : Outcomes log s

theorem aligned_new (σ : C.State) : Aligned [] (new σ) where
  wire := ⟨rfl, fun _ => ⟨rfl, rfl⟩, nofun, nofun⟩
  queue := ⟨fun _ _ => rfl, nofun, nofun, nofun, nofun⟩
  outcomes := ⟨nofun, nofun, nofun⟩

theorem Aligned.call (h : Aligned log s) (cmd : C.Command) :
    Aligned (log ++ [.called s.nextRequest cmd])
      ({ s with nextRequest := s.nextRequest + 1 }.setCaller s.nextRequest (.queued cmd)) where
  wire := h.wire.callers _
  queue := h.queue.call cmd
  outcomes := by
    refine h.outcomes.next (by simp) (fun e he => .inl ⟨e, he, rfl⟩) ?_ (by simp)
    intro r resp hr
    exact .inl (answered_move (.queued cmd) (fun _ => rfl) nofun r resp hr)

theorem Aligned.lock (h : Aligned log s)
    (hcaller : s.callers request = some (.queued cmd)) (hfree : s.holder = none) :
    Aligned (log ++ [.locked request])
      ({ s with holder := some ⟨request, cmd, .begun⟩ }.setCaller request .waiting) where
  wire := h.wire.lock hfree (h.queue.queued request cmd hcaller) _
  queue := h.queue.lock hcaller
  outcomes := by
    refine h.outcomes.next ?_ ?_ ?_ (by simp)
    · intro r hr
      cases List.mem_singleton.mp hr
      exact ⟨_, rfl, rfl⟩
    · rw [hfree]
      nofun
    · intro r resp hr
      exact .inl (answered_move .waiting (fun _ => rfl) nofun r resp hr)

theorem Aligned.giveUp (h : Aligned log s) (hcaller : s.callers request = some (.queued cmd)) :
    Aligned (log ++ [.gaveUp request]) (s.setCaller request .gaveUp) where
  wire := h.wire.callers _
  queue := h.queue.giveUp hcaller
  outcomes := by
    refine h.outcomes.next (by simp) (fun e he => .inl ⟨e, he, rfl⟩) ?_ (by simp)
    intro r resp hr
    exact .inl (answered_move .gaveUp (fun _ => rfl) nofun r resp hr)

/-- A caller past the queue goes away, with its outcome or without. -/
theorem Aligned.leave (h : Aligned log s) (hcaller : s.callers request = some caller)
    (hpast : PastQueue caller)
    (hevents : ∀ event ∈ events, ∃ outcome, caller = .answered outcome ∧
      event = .returned request outcome) :
    Aligned (log ++ events) (s.setCaller request .over) where
  wire := h.wire.callers _
  queue := by
    refine h.queue.pass .over hcaller hpast trivial (fun _ => rfl) rfl (fun _ he => he) ?_ ?_
    · intro r bytes hmem
      obtain ⟨outcome, -, heq⟩ := hevents _ hmem
      cases heq
    · intro r hmem
      obtain ⟨outcome, -, heq⟩ := hevents _ hmem
      cases heq
  outcomes := by
    refine h.outcomes.next ?_ (fun e he => .inl ⟨e, he, rfl⟩) ?_ ?_
    · intro r hmem
      obtain ⟨outcome, -, heq⟩ := hevents _ hmem
      cases heq
    · intro r resp hr
      exact .inl (answered_move .over (fun _ => rfl) nofun r resp hr)
    · intro r resp hmem
      obtain ⟨outcome, heq, hreturned⟩ := hevents _ hmem
      cases hreturned
      rw [heq] at hcaller
      exact (h.outcomes.answered request resp hcaller).mono events

theorem Aligned.answer (h : Aligned log s) (hsent : s.sent = frame :: rest)
    (haccepts : C.accepts s.codec frame.cmd reply = true) :
    Aligned (log ++ [.answered frame.request reply])
      { s with sent := rest, unread := s.unread ++ [Unread.mk frame.request reply] } where
  wire := h.wire.answer hsent haccepts
  queue := h.queue.stay rfl rfl (fun e he => ⟨e, he, rfl⟩) (by simp) (by simp)
  outcomes := h.outcomes.next (by simp) (fun e he => .inl ⟨e, he, rfl⟩) (fun _ _ hr => .inl hr)
    (by simp)

/-- The exchange is over with its reply read: nothing is left, and a caller that still waits has
its own answer. -/
theorem Aligned.finish (h : Aligned log s) (held : s.holder = some e)
    {τ : C.State} (quiet : s.sent = [])
    (exchanged : Exchanged (log ++ [.read e.request reply e.request]) e.request reply)
    (decoded : (C.decode τ reply).1 = .ok resp) :
    Aligned (log ++ [.read e.request reply e.request])
      ({ s with unread := [], codec := σ }.finish e.request (.ok resp)) := by
  have hpaired : Paired (log ++ [.read e.request reply e.request]) e.request resp :=
    ⟨reply, τ, exchanged, decoded⟩
  have hdone : ∀ e', s.holder = some e' → ∃ reply,
      Exchanged (log ++ [.read e.request reply e.request]) e'.request reply := by
    intro e' he'
    cases held.symm.trans he'
    exact ⟨reply, exchanged⟩
  unfold Connection.finish
  split
  · next hwaiting =>
      have hcaller : s.callers e.request = some .waiting := hwaiting
      refine ⟨⟨h.wire.usable, fun _ => ⟨quiet, rfl⟩, nofun, nofun⟩, ?_, ?_⟩
      · exact h.queue.pass (.answered _) hcaller trivial trivial (fun _ => rfl) rfl nofun (by simp) (by simp)
      · refine h.outcomes.next (by simp) ?_ ?_ (by simp)
        · intro e' he'
          cases held.symm.trans he'
          exact .inr ⟨reply, exchanged⟩
        · intro r resp' hr
          rw [callers_setCaller] at hr
          split at hr
          · next heq =>
              cases hr
              rw [heq]
              exact .inr hpaired
          · exact .inl hr
  · refine ⟨⟨h.wire.usable, fun _ => ⟨quiet, rfl⟩, nofun, nofun⟩, ?_, ?_⟩
    · exact h.queue.stay rfl rfl nofun (by simp) (by simp)
    · refine h.outcomes.next (by simp) ?_ (fun _ _ hr => .inl hr) (by simp)
      intro e' he'
      cases held.symm.trans he'
      exact .inr ⟨reply, exchanged⟩

theorem Aligned.run (h : Aligned log s)
    (held : s.holder = some e) (taken : s.run e = some (s', events)) :
    Aligned (log ++ events) s' := by
  cases run_ran h.wire held taken with
  | goesOn closer told wire =>
    have howner : ∀ r bytes, WireEvent.sent (C := C) r bytes ∈ events → r = e.request := by
      intro r bytes hmem
      rcases told with rfl | ⟨bytes', rfl⟩
      · cases hmem
      · cases List.mem_singleton.mp hmem
        rfl
    have honly : ∀ event ∈ events, ∃ bytes, event = .sent e.request bytes := by
      intro event hmem
      rcases told with rfl | ⟨bytes, rfl⟩
      · cases hmem
      · exact ⟨bytes, List.mem_singleton.mp hmem⟩
    refine ⟨wire, ?_, ?_⟩
    · refine h.queue.stay rfl rfl ?_ ?_ ?_
      · intro e' he'
        cases he'
        exact ⟨e, held, rfl⟩
      · intro r bytes hmem
        rw [howner r bytes hmem]
        exact h.queue.owner e held
      · intro r hmem
        obtain ⟨bytes, heq⟩ := honly _ hmem
        cases heq
    · refine h.outcomes.next ?_ ?_ (fun _ _ hr => .inl hr) ?_
      · intro r hmem
        obtain ⟨bytes, heq⟩ := honly _ hmem
        cases heq
      · intro e' he'
        cases held.symm.trans he'
        exact .inl ⟨_, rfl, rfl⟩
      · intro r resp hmem
        obtain ⟨bytes, heq⟩ := honly _ hmem
        cases heq
  | ends quiet exchanged decoded => exact h.finish held quiet exchanged decoded

theorem Aligned.step {i : WireInput C} (h : Aligned log s)
    (ok : Responsive log s i) (taken : s.step i = some (s', events)) :
    Aligned (log ++ events) s' := by
  unfold Connection.step at taken
  cases i with
  | call cmd =>
    cases taken
    exact h.call cmd
  | lock request =>
    dsimp only at taken
    split at taken
    · next cmd hcaller hfree =>
        cases taken
        exact h.lock hcaller hfree
    · cases taken
  | drop request =>
    dsimp only at taken
    split at taken
    · next cmd hcaller =>
        cases taken
        exact h.giveUp hcaller
    · next hcaller =>
        cases taken
        exact h.leave hcaller trivial nofun
    · next outcome hcaller =>
        cases taken
        exact h.leave hcaller trivial nofun
    · cases taken
  | deliver request =>
    dsimp only at taken
    split at taken
    · next outcome hcaller =>
        cases taken
        refine h.leave hcaller trivial ?_
        intro event hmem
        exact ⟨outcome, rfl, List.mem_singleton.mp hmem⟩
    · cases taken
  | exchange =>
    obtain ⟨e, held, hrun⟩ := Option.bind_eq_some_iff.mp taken
    exact h.run held hrun
  | fail error => exact ok.elim
  | answer reply =>
    dsimp only at taken
    split at taken
    · cases taken
    · next frame rest hsent =>
        cases taken
        refine h.answer hsent (ok frame ?_)
        rw [hsent]
        rfl
  | close => exact ok.elim

theorem aligned_of_history {inputs : List (WireInput C)}
    (h : History step Responsive (new σ) inputs log s) : Aligned log s :=
  h.invariant Aligned (aligned_new σ) fun hinv ok taken => hinv.step ok taken

/-- The exchange waits for nothing but the device: not for its caller, nor for another one. -/
theorem Wire.runs (h : Wire log s) (held : s.holder = some e) :
    s.Owed e ∨ ∃ s' events, s.step .exchange = some (s', events) ∧ Ran log s e s' events := by
  have hruns : ∀ result, s.run e = some result →
      ∃ s' events, s.step .exchange = some (s', events) ∧ Ran log s e s' events := by
    intro result hresult
    refine ⟨result.1, result.2, ?_, run_ran h held hresult⟩
    show s.holder.bind s.run = some result
    rw [held]
    exact hresult
  have hwire := h.held e held
  unfold OnWire at hwire
  unfold run at hruns
  cases hstage : e.stage with
  | begun =>
    rw [hstage] at hruns
    dsimp only at hruns
    rw [if_neg (by rw [h.usable]; exact Bool.false_ne_true)] at hruns
    split at hruns
    · exact .inr (hruns _ rfl)
    · exact .inr (hruns _ rfl)
  | discarding bytes =>
    rw [hstage] at hruns
    exact .inr (hruns _ rfl)
  | sending bytes =>
    rw [hstage] at hruns
    exact .inr (hruns _ rfl)
  | receiving skipped budget =>
    rw [hstage] at hwire hruns
    obtain ⟨-, howed | ⟨-, reply, hunread, -⟩⟩ := hwire
    · exact .inl howed
    · rw [hunread] at hruns
      exact .inr (hruns _ rfl)

/-- Replies stay paired with requests, whoever stops waiting and when. -/
theorem replies_paired {σ : C.State} {inputs : List (WireInput C)}
    (h : History step Responsive (new σ) inputs log s) :
    (∀ request resp, .returned request (.ok resp) ∈ log → Paired log request resp) ∧
    (∀ request, .gaveUp request ∈ log → ∀ bytes, .sent request bytes ∉ log) ∧
    (∀ request, .locked request ∈ log → (∃ e, s.holder = some e ∧ e.request = request) ∨
      ∃ reply, Exchanged log request reply) ∧
    (∀ e, s.holder = some e → s.Owed e ∨
      ∃ s' events, s.step .exchange = some (s', events) ∧ (s'.holder = none ∨
        ∃ e', s'.holder = some e' ∧ e'.request = e.request ∧ e'.stage.left < e.stage.left)) ∧
    (s.holder = none → s.Quiet) := by
  have haligned := aligned_of_history h
  refine ⟨haligned.outcomes.returned, ?_, haligned.outcomes.locked, ?_, haligned.wire.free⟩
  · intro request hgaveUp bytes hsent
    have hcaller := haligned.queue.gaveUp request hgaveUp
    exact haligned.queue.silent request bytes hsent (unlocked_of_caller hcaller nofun)
  · intro e held
    obtain howed | ⟨s', events, taken, ran⟩ := haligned.wire.runs held
    · exact .inl howed
    · refine .inr ⟨s', events, taken, ?_⟩
      cases ran with
      | goesOn closer told wire => exact .inr ⟨_, rfl, rfl, closer⟩
      | ends quiet exchanged decoded =>
        refine .inl ?_
        unfold finish
        split
        · rfl
        · rfl

end Connection

namespace Evaluation

/-- A codec of one-byte frames that keeps nothing and skips nothing. -/
def echo : Codec where
  Command := UInt8
  Response := List UInt8
  Error := Unit
  State := Unit
  encode _ cmd := ([cmd], ())
  decode _ bytes := (.ok bytes, ())
  isMatch _ _ _ := (true, ())
  maxSkip _ := 0
  discardBeforeSend _ _ := false

instance (log : List (WireEvent echo)) (s : Connection echo) (i : WireInput echo) :
    Decidable (Connection.Responsive log s i) :=
  match i with
  | .fail _ | .close => inferInstanceAs (Decidable False)
  | .answer reply =>
      inferInstanceAs (Decidable (∀ frame ∈ s.sent.head?, echo.accepts s.codec frame.cmd reply))
  | .call _ | .lock _ | .drop _ | .deliver _ | .exchange => inferInstanceAs (Decidable True)

/-- The first request is dropped while its frame is on the wire, the second while it queues, and
the third gets its own reply. -/
def threeRequests : List (WireInput echo) :=
  [.call (1 : UInt8), .lock 0, .call (2 : UInt8), .call (3 : UInt8), .exchange, .exchange, .drop 0,
    .drop 1, .answer [11], .exchange, .lock 2, .exchange, .exchange, .answer [13], .exchange,
    .deliver 2]

theorem third_reply_paired :
    ∃ log s, History Connection.step Connection.Responsive (Connection.new (C := echo) ())
      threeRequests log s ∧ Connection.Paired log 2 ([13] : List UInt8) := by
  have hplay : ∃ log s, History.play Connection.step Connection.Responsive []
      (Connection.new (C := echo) ()) threeRequests = some (log, s) ∧
      .returned 2 (.ok ([13] : List UInt8)) ∈ log := by
    refine ⟨_, _, rfl, ?_⟩
    exact List.mem_of_getLast? rfl
  obtain ⟨log, s, hplay, hreturned⟩ := hplay
  have h := History.of_play hplay
  exact ⟨log, s, h, (Connection.replies_paired h).1 2 _ hreturned⟩

end Evaluation

end RustyPhoton.SharedTransport
