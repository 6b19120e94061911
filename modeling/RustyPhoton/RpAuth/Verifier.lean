import Mathlib.Algebra.Group.Nat.Defs
import RustyPhoton.Lib.Transition

/-!
# The verifier of one layer

A memo of proved and refuted credentials, a gate with a single slot, and the KDF runs behind it. The
steps are those of the requests and of the blocking tasks, one access to the shared state each; a
request may be dropped where it awaits, and a KDF run may panic. Times are in nanoseconds.
-/

namespace RustyPhoton.RpAuth

open RustyPhoton.Lib

variable {Text Key Tag Digest : Type}

def POSITIVE_IDLE_TTL : ℕ := 15 * 60 * 10 ^ 9

def NEGATIVE_TTL : ℕ := 5 * 10 ^ 9

def NEGATIVE_CAP : ℕ := 8

/-! ## The memo -/

inductive Lookup where
  | hit
  | negativeHit
  | miss
  deriving DecidableEq

structure Positive (Tag : Type) where
  tag : Tag
  lastHit : ℕ

structure Negative (Tag : Type) where
  tag : Tag
  inserted : ℕ

/-- One proved tag and a short queue of refuted ones. -/
structure Memo (Tag : Type) where
  positive : Option (Positive Tag)
  negative : List (Negative Tag)

namespace Memo

def new : Memo Tag := ⟨none, []⟩

def expire (memo : Memo Tag) (now : ℕ) : Memo Tag where
  positive := memo.positive.filter fun p => now - p.lastHit < POSITIVE_IDLE_TTL
  negative := memo.negative.filter fun n => now - n.inserted < NEGATIVE_TTL

/-- A positive hit refreshes the idle time. -/
def lookup [DecidableEq Tag] (memo : Memo Tag) (tag : Tag) (now : ℕ) : Lookup × Memo Tag :=
  let memo := memo.expire now
  if memo.positive.any (·.tag = tag) then
    (.hit, { memo with positive := memo.positive.map fun p => { p with lastHit := now } })
  else if memo.negative.any (·.tag = tag) then (.negativeHit, memo)
  else (.miss, memo)

/-- Refuted tags leave at the front until there is room for one more. -/
def store (memo : Memo Tag) (tag : Tag) (ok : Bool) (now : ℕ) : Memo Tag :=
  if ok then { memo with positive := some ⟨tag, now⟩ }
  else
    let memo := memo.expire now
    { memo with
      negative := memo.negative.drop (memo.negative.length + 1 - NEGATIVE_CAP) ++ [⟨tag, now⟩] }

end Memo

/-! ## The verifier -/

inductive Verdict where
  | allow
  | deny
  | busy
  deriving DecidableEq

/-- What does not change after `build`. `digest` is BLAKE2b-256 and `compute` is the keyed MAC of a
username, a password and a PHC string. -/
structure Verifier (Text Key Tag Digest : Type) where
  digest : Text → Digest
  compute : Key → Text → Text → Text → Tag
  kdf : Text → Text → Bool
  usernameDigest : Digest
  phc : Text
  hashUsable : Bool
  macKey : Option Key
  gateWait : ℕ

structure AuthConfig (Text : Type) where
  username : Text
  passwordHash : Text

/-- The hash functions, the check of the stored hash and the decoy for one that cannot verify. -/
structure Hashing (Text Key Tag Digest : Type) where
  digest : Text → Digest
  compute : Key → Text → Text → Text → Tag
  storedHashUsable : Text → Bool
  decoyPhc : Text

namespace Verifier

def build (hashing : Hashing Text Key Tag Digest) (config : AuthConfig Text)
    (kdf : Text → Text → Bool) (macKey : Option Key) (gateWait : ℕ) :
    Verifier Text Key Tag Digest where
  digest := hashing.digest
  compute := hashing.compute
  kdf := kdf
  usernameDigest := hashing.digest config.username
  phc := if hashing.storedHashUsable config.passwordHash then config.passwordHash
    else hashing.decoyPhc
  hashUsable := hashing.storedHashUsable config.passwordHash
  macKey := macKey
  gateWait := gateWait

variable (v : Verifier Text Key Tag Digest)

/-- The tag of a presented credential, if the memo is enabled. -/
def tag (username password : Text) : Option Tag :=
  v.macKey.map fun key => v.compute key username password v.phc

/-- What `run_kdf` computes. -/
def verify [DecidableEq Digest] (username password : Text) : Bool :=
  decide (v.digest username = v.usernameDigest) && v.kdf password v.phc && v.hashUsable

end Verifier

/-- The verification in flight; its outcome is that of the run with the id. -/
structure InFlight (Tag : Type) where
  id : ℕ
  tag : Option Tag

/-- `tag_matches` -/
def InFlight.tagMatches [DecidableEq Tag] (inflight : InFlight Tag) (presented : Option Tag) : Bool :=
  match inflight.tag, presented with
  | some a, some b => a = b
  | _, _ => false

/-- Where a KDF run is. What `run_kdf` returned is none when it panicked. -/
inductive Stage where
  /-- The slot is taken and the guard is with the request. -/
  | claimed (number : ℕ)
  | spawned
  | running
  | verified (ok : Bool)
  | stored (ok : Bool)
  /-- `run_kdf` has returned or unwinds: the guard is to be dropped. -/
  | returned (result : Option Bool)
  /-- The slot is cleared: the waiters are to be woken. -/
  | freeing (result : Option Bool)
  /-- The guard is dropped: the sender is to be dropped. -/
  | closing (result : Option Bool)
  | finished (result : Option Bool)
  deriving DecidableEq

namespace Stage

/-- The guard is not dropped, or has not cleared the slot. -/
def holdsGuard : Stage → Bool
  | claimed _ | spawned | running | verified _ | stored _ | returned _ => true
  | freeing _ | closing _ | finished _ => false

/-- The value in the outcome channel. -/
def published : Stage → Option Bool
  | returned result | freeing result | closing result | finished result => result
  | claimed _ | spawned | running | verified _ | stored _ => none

/-- The sender of the outcome is dropped. -/
def closed : Stage → Bool
  | finished _ => true
  | _ => false

end Stage

/-- A KDF run with what its task was given. -/
structure KdfRun (Text Tag : Type) where
  username : Text
  password : Text
  tag : Option Tag
  stage : Stage

/-- Where a `check` call is. -/
inductive Progress where
  | arrived
  /-- The memo missed, or is disabled. -/
  | subscribing
  /-- Before an inspection of the slot, with the last generation seen and the start of the wait. -/
  | claiming (seen started : ℕ)
  /-- In `run_held` before the task is spawned. -/
  | holding (id : ℕ)
  /-- In `run_held` at the handle of the task. -/
  | joining (id : ℕ)
  /-- In `await_outcome`. -/
  | waiting (id : ℕ)
  /-- Another credential held the gate. -/
  | refused (seen started : ℕ)
  /-- Until the gate frees or the wait has elapsed. -/
  | queueing (seen started deadline : ℕ)
  | answered (verdict : Verdict)
  | cancelled
  deriving DecidableEq

/-- Where a request can be dropped: before it is first polled, and at an await. -/
def Progress.awaits : Progress → Bool
  | arrived | joining _ | waiting _ | queueing _ _ _ => true
  | _ => false

structure Request (Text Tag : Type) where
  username : Text
  password : Text
  tag : Option Tag
  progress : Progress

/-- What is noted in the log: only proofs read it. -/
inductive Note (Tag : Type) where
  /-- A request inspected the slot. -/
  | inspected (number : ℕ) (slot : Option (InFlight Tag))
  | claimed (number id : ℕ)
  | joined (number id : ℕ)
  | panicked (id : ℕ)
  | answered (number : ℕ) (verdict : Verdict)

structure Gate (Text Tag : Type) where
  now : ℕ
  memo : Memo Tag
  slot : Option (InFlight Tag)
  /-- The generation of the `freed` channel. -/
  freed : ℕ
  nextId : ℕ
  runs : ℕ → Option (KdfRun Text Tag)
  requests : ℕ → Option (Request Text Tag)

namespace Gate

def new : Gate Text Tag := ⟨0, .new, none, 0, 0, fun _ => none, fun _ => none⟩

section

variable (s : Gate Text Tag)

def put (number : ℕ) (r : Request Text Tag) (progress : Progress) : Gate Text Tag :=
  { s with requests := Function.update s.requests number (some { r with progress := progress }) }

def setStage (id : ℕ) (run : KdfRun Text Tag) (stage : Stage) : Gate Text Tag :=
  { s with runs := Function.update s.runs id (some { run with stage := stage }) }

def answer (number : ℕ) (r : Request Text Tag) (verdict : Verdict) (notes : List (Note Tag)) :
    Gate Text Tag × List (Note Tag) :=
  (s.put number r (.answered verdict), notes ++ [.answered number verdict])

/-- `claim_slot` on a free gate, with a miss: take the slot and publish the tag. -/
def register (number : ℕ) (r : Request Text Tag) : Gate Text Tag × List (Note Tag) :=
  ({ s with
      slot := some ⟨s.nextId, r.tag⟩
      nextId := s.nextId + 1
      runs := Function.update s.runs s.nextId
        (some ⟨r.username, r.password, r.tag, .claimed number⟩)
      requests := Function.update s.requests number
        (some { r with progress := .holding s.nextId }) },
    [.inspected number none, .claimed number s.nextId])

/-- `claim_slot`. The slot is locked throughout, so one step makes the inspection and the lookup. -/
def claimSlot [DecidableEq Tag] (number : ℕ) (r : Request Text Tag) (seen started : ℕ) :
    Gate Text Tag × List (Note Tag) :=
  match s.slot with
  | some inflight =>
      if inflight.tagMatches r.tag then
        (s.put number r (.waiting inflight.id),
          [.inspected number (some inflight), .joined number inflight.id])
      else (s.put number r (.refused seen started), [.inspected number (some inflight)])
  | none =>
      match r.tag with
      | none => s.register number r
      | some tag =>
          let found := s.memo.lookup tag s.now
          let s := { s with memo := found.2 }
          match found.1 with
          | .hit => s.answer number r .allow [.inspected number none]
          | .negativeHit => s.answer number r .deny [.inspected number none]
          | .miss => s.register number r

/-- `release_slot` up to the wake of the waiters. -/
def releaseSlot (id : ℕ) (run : KdfRun Text Tag) (result : Option Bool) : Gate Text Tag :=
  if s.slot.any (·.id = id) then { s with slot := none }.setStage id run (.freeing result)
  else s.setStage id run (.closing result)

end

variable [DecidableEq Tag] [DecidableEq Digest] (v : Verifier Text Key Tag Digest)

def verdictOf (ok : Bool) : Verdict := if ok then .allow else .deny

/-- The next step of a `check` call, if it can go on. -/
def stepRequest (s : Gate Text Tag) (number : ℕ) (r : Request Text Tag) :
    Option (Gate Text Tag × List (Note Tag)) :=
  match r.progress with
  | .arrived =>
      match r.tag with
      | none => some (s.put number r .subscribing, [])
      | some tag =>
          let found := s.memo.lookup tag s.now
          let s := { s with memo := found.2 }
          match found.1 with
          | .hit => some (s.answer number r .allow [])
          | .negativeHit => some (s.answer number r .deny [])
          | .miss => some (s.put number r .subscribing, [])
  | .subscribing => some (s.put number r (.claiming s.freed s.now), [])
  | .claiming seen started => some (s.claimSlot number r seen started)
  | .holding id =>
      match s.runs id with
      | some run => some ((s.setStage id run .spawned).put number r (.joining id), [])
      | none => none
  | .joining id =>
      match s.runs id with
      | none => none
      | some run =>
          match run.stage with
          | .finished (some ok) => some (s.answer number r (verdictOf ok) [])
          | .finished none => some (s.answer number r .deny [])
          | _ => none
  | .waiting id =>
      match s.runs id with
      | none => none
      | some run =>
          match run.stage.published with
          | some ok => some (s.answer number r (verdictOf ok) [])
          | none =>
              -- a sender dropped without a verdict: the task died
              if run.stage.closed then some (s.answer number r .deny []) else none
  | .refused seen started =>
      let remaining := v.gateWait - (s.now - started)
      if remaining = 0 then some (s.answer number r .busy [])
      else some (s.put number r (.queueing seen started (s.now + remaining)), [])
  | .queueing seen started deadline =>
      if s.freed ≠ seen ∨ deadline ≤ s.now then some (s.put number r (.claiming s.freed started), [])
      else none
  | .answered _ | .cancelled => none

/-- The next step of the blocking task of a run. -/
def stepTask (s : Gate Text Tag) (id : ℕ) (run : KdfRun Text Tag) (panics : Bool) :
    Option (Gate Text Tag × List (Note Tag)) :=
  match run.stage with
  | .claimed _ => none
  | .spawned => some (s.setStage id run .running, [])
  | .running =>
      if panics then some (s.setStage id run (.returned none), [.panicked id])
      else some (s.setStage id run (.verified (v.verify run.username run.password)), [])
  | .verified ok =>
      match run.tag with
      | some tag =>
          some ({ s with memo := s.memo.store tag ok s.now }.setStage id run (.stored ok), [])
      | none => some (s.setStage id run (.stored ok), [])
  | .stored ok => some (s.setStage id run (.returned (some ok)), [])
  | .returned result => some (s.releaseSlot id run result, [])
  | .freeing result => some ({ s with freed := s.freed + 1 }.setStage id run (.closing result), [])
  | .closing result => some (s.setStage id run (.finished result), [])
  | .finished _ => none

end Gate

inductive Move (Text : Type) where
  | wait (time : ℕ)
  | arrive (number : ℕ) (username password : Text)
  | request (number : ℕ)
  | cancel (number : ℕ)
  | task (id : ℕ) (panics : Bool)

namespace Gate

variable [DecidableEq Tag] [DecidableEq Digest] (v : Verifier Text Key Tag Digest)

def step (s : Gate Text Tag) : Move Text → Option (Gate Text Tag × List (Note Tag))
  | .wait time => some ({ s with now := s.now + time }, [])
  | .arrive number username password =>
      match s.requests number with
      | some _ => none
      | none => some (s.put number ⟨username, password, v.tag username password, .arrived⟩ .arrived, [])
  | .request number =>
      match s.requests number with
      | some r => s.stepRequest v number r
      | none => none
  | .cancel number =>
      match s.requests number with
      | some r => if r.progress.awaits then some (s.put number r .cancelled, []) else none
      | none => none
  | .task id panics =>
      match s.runs id with
      | some run => s.stepTask v id run panics
      | none => none

/-- The moves of a layer from its construction on, in any interleaving. -/
abbrev Run (moves : List (Move Text)) (log : List (Note Tag)) (s : Gate Text Tag) : Prop :=
  History (Gate.step v) (fun _ _ _ => True) .new moves log s

end Gate

end RustyPhoton.RpAuth
