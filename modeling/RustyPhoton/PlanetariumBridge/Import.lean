import RustyPhoton.Lib.Instant
import RustyPhoton.PlanetariumBridge.Spool

/-!
# The import pipeline

The importers, the channel and the worker of `import.rs`. A submission reads the reachability and
sends in two steps; the worker takes a step at each await and at each look into the channel, which
other threads fill meanwhile. What rp answers is an input. `Account` follows the submissions by the
order they were sent in; no step of the pipeline reads it.
-/

namespace RustyPhoton.PlanetariumBridge

open Lib

/-- The serializer: the line and the arguments of a request, and the request of a line. -/
structure Codec (Request : Type) where
  serialize : Request → Option Line
  parse : List Char → Option Request
  isObject : Request → Bool

/-- A queued Align, with its place among the requests that were sent. -/
structure QueuedImport (Request : Type) where
  ticket : Nat
  request : Request
  spoolFirst : Bool

/-- What a call of `add_target` comes to. -/
inductive CallResult where
  | ok
  | request (message : String)
  | tool (message : String)
  | malformed (message : String)
  | safetyStopped (message : String)

inductive Delivery where
  | delivered
  | toolRejected (message : String)
  | unreachable (message : String)

section

variable {Request : Type} (codec : Codec Request)

/-- Connects without a client, and drops one whose request failed. -/
def deliver (client : Bool) (request : Request) (connected : Except String Unit)
    (result : CallResult) : Delivery × Bool :=
  match client, connected with
  | false, .error message => (.unreachable message, false)
  | true, _ | false, .ok () =>
      if codec.isObject request then
        match result with
        | .ok => (.delivered, true)
        | .request message => (.unreachable message, false)
        | .tool message | .malformed message => (.toolRejected message, true)
        | .safetyStopped message => (.unreachable message, true)
      else (.toolRejected "import request did not serialize", true)

/-- What became of the requests that were sent. -/
structure Account where
  next : Nat
  delivered : List Nat
  rejected : List Nat
  /-- The entries the bound dropped, in order, those of an earlier process without a ticket. -/
  drops : List (Option Nat)
  /-- The requests that were sent after the worker last looked into its channel. -/
  late : List Nat

/-- Where the worker is: in one of its selects, in a delivery, or between two looks into the channel.
`drained` is after the last look, with the channel still open. -/
inductive WorkerStage (Request : Type) where
  | probing
  | collecting (probing : Bool)
  | looping
  | idle
  | direct (queued : QueuedImport Request)
  | replaying (request : Request)
  | backingOff
  | draining
  | drained
  | exited

structure Pipeline (Request : Type) where
  channel : List (QueuedImport Request)
  /-- The requests that were sent, by ticket. -/
  sent : List Request
  /-- The submissions that have read the reachability and not sent yet. -/
  stamped : List (Request × Bool)
  /-- Whether every importer is gone. -/
  closed : Bool
  spool : Spool
  /-- The tickets of the spool's entries. -/
  tickets : List (Option Nat)
  reachable : Bool
  spooled : Nat
  replayedTotal : Nat
  droppedTotal : Nat
  client : Bool
  backoff : Nat
  backoffMax : Nat
  cancelled : Bool
  stage : WorkerStage Request
  account : Account

namespace Pipeline

/-- `pipeline`, on a spool that was loaded, with the counters of the process. -/
def start (spool : Spool) (backoffMax replayedTotal droppedTotal : Nat) : Pipeline Request where
  channel := []
  sent := []
  stamped := []
  closed := false
  spool := spool
  tickets := spool.entries.map fun _ => none
  reachable := false
  spooled := spool.entries.length
  replayedTotal := replayedTotal
  droppedTotal := droppedTotal
  client := false
  backoff := 1000000000
  backoffMax := backoffMax
  cancelled := false
  stage := .probing
  account := ⟨0, [], [], [], []⟩

def spoolRequest (s : Pipeline Request) (queued : QueuedImport Request) : Pipeline Request :=
  match codec.serialize queued.request with
  | none => s
  | some line =>
      let (spool, dropped, _) := s.spool.append line.text
      let s :=
        if dropped then
          { s with
            tickets := s.tickets.tail
            droppedTotal := s.droppedTotal + 1
            account := { s.account with drops := s.account.drops ++ s.tickets.head?.toList } }
        else s
      { s with
        spool := spool
        tickets := s.tickets ++ [some queued.ticket]
        spooled := spool.entries.length }

/-- The head leaves the spool. -/
def popHead (s : Pipeline Request) : Pipeline Request :=
  let (spool, _) := s.spool.popHead
  { s with spool := spool, tickets := s.tickets.tail, spooled := spool.entries.length }

/-- Take one request off the channel. -/
def receive (s : Pipeline Request) : Option (QueuedImport Request × Pipeline Request) :=
  match s.channel with
  | [] => none
  | queued :: rest => some (queued, { s with channel := rest })

/-- The first ticket of the spool, where it has one. -/
def headTicket (s : Pipeline Request) : List Nat := (s.tickets.head?.getD none).toList

end Pipeline

/-- What a select of the worker yields, or how a delivery ends. `next` is a step without an await. -/
inductive WorkerInput where
  | next
  | cancelled
  | closed
  | received
  | probed (result : Except String Unit)
  | slept
  | answered (connected : Except String Unit) (result : CallResult)

inductive ImportEvent (Request : Type) where
  /-- A submission reads the reachability. -/
  | stamp (request : Request)
  | send (place : Nat)
  | dropImporters
  | cancel
  | worker (input : WorkerInput)

namespace Pipeline

/-- The end of a direct delivery. -/
def delivered (s : Pipeline Request) (queued : QueuedImport Request) :
    Delivery → Pipeline Request
  | .delivered =>
      { s with
        reachable := true
        backoff := 1000000000
        stage := .looping
        account := { s.account with delivered := s.account.delivered ++ [queued.ticket] } }
  | .toolRejected _ =>
      { s with
        reachable := true
        stage := .looping
        account := { s.account with rejected := s.account.rejected ++ [queued.ticket] } }
  | .unreachable _ => ({ s with reachable := false, stage := .looping }).spoolRequest codec queued

/-- The end of a replay of the head. -/
def replayed (s : Pipeline Request) : Delivery → Pipeline Request
  | .delivered =>
      { s.popHead with
        reachable := true
        replayedTotal := s.replayedTotal + 1
        backoff := 1000000000
        stage := .looping
        account := { s.account with delivered := s.account.delivered ++ s.headTicket } }
  | .toolRejected _ =>
      { s.popHead with
        reachable := true
        stage := .looping
        account := { s.account with rejected := s.account.rejected ++ s.headTicket } }
  | .unreachable _ => { s with reachable := false, stage := .backingOff }

/-- A step of the worker. `none` where the stage does not take the input. -/
def work (s : Pipeline Request) (input : WorkerInput) : Option (Pipeline Request) :=
  match s.stage, input with
  | .probing, .cancelled | .idle, .cancelled | .backingOff, .cancelled =>
      if s.cancelled then some { s with stage := .draining } else none
  | .probing, .closed | .idle, .closed | .backingOff, .closed =>
      if s.closed ∧ s.channel.isEmpty then some { s with stage := .draining } else none
  | .probing, .probed result =>
      some { s with reachable := s.reachable || result.isOk, stage := .looping }
  | .probing, .received => do
      let (queued, s) ← s.receive
      pure { s.spoolRequest codec queued with stage := .collecting true }
  | .collecting probing, .next =>
      match s.receive with
      | some (queued, s) => some (s.spoolRequest codec queued)
      | none => some { s with stage := if probing then .probing else .looping }
  | .looping, .next =>
      if s.cancelled then some { s with stage := .draining }
      else
        match s.spool.entries with
        | [] => some { s with client := false, stage := .idle }
        | head :: _ =>
            match codec.parse head.line with
            | none => some s.popHead
            | some request => some { s with stage := .replaying request }
  | .idle, .received => do
      let (queued, s) ← s.receive
      if queued.spoolFirst || !s.reachable then
        pure { s.spoolRequest codec queued with stage := .collecting false }
      else pure { s with stage := .direct queued }
  | .direct queued, .answered connected result =>
      let (delivery, client) := deliver codec s.client queued.request connected result
      some (({ s with client := client }).delivered codec queued delivery)
  | .replaying request, .answered connected result =>
      let (delivery, client) := deliver codec s.client request connected result
      some (({ s with client := client }).replayed delivery)
  | .backingOff, .slept =>
      some { s with
        backoff := min (min (s.backoff * 2) durationMax) s.backoffMax
        stage := .looping }
  | .backingOff, .received => do
      let (queued, s) ← s.receive
      pure (s.spoolRequest codec queued)
  | .draining, .next =>
      match s.receive with
      | some (queued, s) => some (s.spoolRequest codec queued)
      | none => some { s with stage := .drained }
  -- the receiver is dropped with whatever is still in the channel
  | .drained, .next => some { s with channel := [], stage := .exited }
  | _, _ => none

/-- Whether the worker has looked into its channel for the last time, and not closed it yet. -/
def isDrained (s : Pipeline Request) : Bool :=
  match s.stage with
  | .drained => true
  | _ => false

def hasExited (s : Pipeline Request) : Bool :=
  match s.stage with
  | .exited => true
  | _ => false

/-- A submission goes into the channel while the worker holds it, and nowhere after that. -/
def send (s : Pipeline Request) (request : Request) (spoolFirst : Bool) : Pipeline Request :=
  if s.hasExited then s
  else
    { s with
      channel := s.channel ++ [⟨s.account.next, request, spoolFirst⟩]
      sent := s.sent ++ [request]
      account := { s.account with
        next := s.account.next + 1
        late := if s.isDrained then s.account.late ++ [s.account.next] else s.account.late } }

def step (s : Pipeline Request) : ImportEvent Request → Option (Pipeline Request)
  | .stamp request =>
      if s.closed then none else some { s with stamped := s.stamped ++ [(request, !s.reachable)] }
  | .send place => do
      let (request, spoolFirst) ← s.stamped[place]?
      pure (({ s with stamped := s.stamped.eraseIdx place }).send request spoolFirst)
  | .dropImporters =>
      if s.stamped.isEmpty then some { s with closed := true } else none
  | .cancel => some { s with cancelled := true }
  | .worker input => s.work codec input

def run (s : Pipeline Request) : List (ImportEvent Request) → Option (Pipeline Request)
  | [] => some s
  | event :: rest => do (← s.step codec event).run rest

end Pipeline

end

end RustyPhoton.PlanetariumBridge
