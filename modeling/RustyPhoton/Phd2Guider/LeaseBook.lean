import Mathlib.Data.List.Perm.Basic
import Mathlib.Data.List.Nodup
import RustyPhoton.Lib.Instant

/-!
# The sweep-lease book

`LeaseBook` of `lease.rs`: the held lease and the tokens whose lease ended within the last hour.
Every method takes `now`. `History` keeps every lease ever granted with the instant it ends, and
the book is compared with it. `wall` is the text of a monotonic instant as a wall-clock time.
-/

namespace RustyPhoton.Phd2Guider

open Lib

/-- `TOKEN_MEMORY`. -/
def tokenMemory : Nat := 3600000000000

/-- `TOKENS_REMEMBERED`. -/
def tokensRemembered : Nat := 256

/-- A lease token: 32 lowercase hex digits. -/
structure Token where
  text : String
  wellFormed : text.length = 32 ∧ text.toList.all (fun c => c.isDigit || "abcdef".toList.contains c)
  deriving DecidableEq

inductive LeaseEnd where
  | released
  | expired
  | stopped
  | disconnected
  | releasedFirst
  deriving DecidableEq

/-- The answer to an acquire or a renewal. -/
structure Granted where
  token : String
  ttlS : Nat
  deriving DecidableEq

structure Held where
  token : Token
  ttlS : Nat
  expires : Nat
  deriving DecidableEq

structure Ended where
  token : Token
  since : Nat
  why : LeaseEnd
  deriving DecidableEq

/-- When a TTL that starts now runs out. -/
def expiry (now ttlS : Nat) : Nat := (checkedAdd now (ttlS * 1000000000)).getD now

/-- `what_ended`. -/
def whatEnded (wall : Nat → Nat → String) (ended : Ended) (now : Nat) : String :=
  match ended.why with
  | .expired => "its lease expired at " ++ wall ended.since now ++ ", with no renewal within its TTL"
  | .released => "its lease was released"
  | .stopped => "its lease was ended by a guiding stop"
  | .disconnected => "its lease was ended when the camera was disconnected"
  | .releasedFirst => "it was released before any acquire under it"

structure LeaseBook where
  held : Option Held
  ended : List Ended
  deriving DecidableEq

namespace LeaseBook

def new : LeaseBook := ⟨none, []⟩

/-- The first half of `settle`. -/
def lapse (book : LeaseBook) (now : Nat) : LeaseBook :=
  match book.held with
  | none => book
  | some held =>
      if held.expires ≤ now then ⟨none, book.ended ++ [⟨held.token, held.expires, .expired⟩]⟩
      else book

/-- End a lease whose TTL has run out, then forget the tokens that ended an hour ago or more. -/
def settle (book : LeaseBook) (now : Nat) : LeaseBook :=
  { book.lapse now with
    ended := (book.lapse now).ended.filter fun ended => decide (now - ended.since < tokenMemory) }

def remembered (book : LeaseBook) : Nat := book.ended.length + (if book.held.isSome then 1 else 0)

def endedRecord (book : LeaseBook) (token : Token) : Option Ended :=
  book.ended.find? fun ended => ended.token = token

def heldUntil (book : LeaseBook) (now : Nat) : Option Nat × LeaseBook :=
  let book := book.settle now
  (book.held.map (·.expires), book)

section

variable (wall : Nat → Nat → String)

/-- Whether a settled book can grant a lease. -/
def verdict (book : LeaseBook) (token : Token) (now : Nat) : Except String Unit :=
  match book.held with
  | some held =>
      .error ("a sweep lease is already held, until " ++ wall held.expires now ++
        " unless it is renewed")
  | none =>
      match book.endedRecord token with
      | some ended =>
          .error ("token " ++ token.text ++ " was used before (" ++ whatEnded wall ended now ++
            "); a token names one lease and is never granted again")
      | none =>
          if tokensRemembered ≤ book.remembered then
            let oldest := (book.ended.map (·.since)).min?.getD now
            let forgotten := (checkedAdd oldest tokenMemory).getD oldest
            .error ("this facade remembers " ++ toString tokensRemembered ++
              " lease tokens from the last hour and takes no new one until " ++
              wall forgotten now ++ ", when the oldest is forgotten")
          else .ok ()

def checkGrant (book : LeaseBook) (token : Token) (now : Nat) : Except String Unit × LeaseBook :=
  let book := book.settle now
  (book.verdict wall token now, book)

def grant (book : LeaseBook) (token : Token) (ttlS now : Nat) :
    Except String Granted × LeaseBook :=
  match book.checkGrant wall token now with
  | (.error refusal, book) => (.error refusal, book)
  | (.ok (), book) =>
      (.ok ⟨token.text, ttlS⟩, { book with held := some ⟨token, ttlS, expiry now ttlS⟩ })

def renew (book : LeaseBook) (token : Token) (now : Nat) : Except String Granted × LeaseBook :=
  let book := book.settle now
  match book.held.filter fun held => held.token = token with
  | some held =>
      (.ok ⟨token.text, held.ttlS⟩,
        { book with held := some { held with expires := expiry now held.ttlS } })
  | none =>
      match book.endedRecord token with
      | none =>
          (.error ("token " ++ token.text ++ " was never acquired in this process, or not within" ++
            " the last hour: a restart forgets every lease"), book)
      | some ended =>
          (.error ("token " ++ token.text ++ " holds no sweep lease: " ++
            whatEnded wall ended now), book)

end

/-- `end`. -/
def endLease (book : LeaseBook) (why : LeaseEnd) (now : Nat) : Bool × LeaseBook :=
  let book := book.settle now
  match book.held with
  | none => (false, book)
  | some held => (true, ⟨none, book.ended ++ [⟨held.token, now, why⟩]⟩)

def release (book : LeaseBook) (token : Token) (now : Nat) : Bool × LeaseBook :=
  let book := book.settle now
  if (book.held.filter fun held => held.token = token).isSome then
    (true, (book.endLease .released now).2)
  else if (book.endedRecord token).isNone ∧ book.remembered < tokensRemembered then
    (false, { book with ended := book.ended ++ [⟨token, now, .releasedFirst⟩] })
  else (false, book)

/-- The tokens a book names. -/
def tokens (book : LeaseBook) : List Token :=
  book.held.toList.map (·.token) ++ book.ended.map (·.token)

end LeaseBook

/-- What is called on a book. -/
inductive LeaseCall where
  | checkGrant (token : Token)
  | grant (token : Token) (ttlS : Nat)
  | renew (token : Token)
  | release (token : Token)
  | endLease (why : LeaseEnd)
  | heldUntil

/-- The answer to a call, as far as the history depends on it. -/
inductive LeaseAnswer where
  | granted
  | ended
  | none

/-! ## The history -/

/-- A lease ever granted. `ends` is when it ends if no more is done to it. -/
structure Lease where
  token : Token
  ttlS : Nat
  ends : Nat

/-- A lease with a new end, where it is live and under a token. -/
def Lease.moved (now : Nat) (token : Option Token) (ends : Lease → Nat) (lease : Lease) : Lease :=
  if now < lease.ends ∧ token.all (lease.token = ·) then { lease with ends := ends lease } else lease

/-- A token with the instant it is remembered since. -/
def Lease.note (lease : Lease) : Token × Nat := (lease.token, lease.ends)

/-- Whether a token is within its hour. -/
def recent (now : Nat) (note : Token × Nat) : Bool := decide (now - note.2 < tokenMemory)

/-- Every lease ever granted, and every release recorded without one. -/
structure History where
  leases : List Lease
  notes : List (Token × Nat)

namespace History

def new : History := ⟨[], []⟩

/-- The tokens whose lease is live or ended within the last hour, and those released in it. -/
def remembers (history : History) (now : Nat) : List Token :=
  ((history.leases.map Lease.note ++ history.notes).filter (recent now)).map (·.1)

/-- The leases under a token, or under any, that are live, with a new end. -/
def move (history : History) (now : Nat) (token : Option Token) (ends : Lease → Nat) : History :=
  { history with leases := history.leases.map (Lease.moved now token ends) }

/-- What a call and its answer add to the history. -/
def record (history : History) (now : Nat) (answer : LeaseAnswer) : LeaseCall → History
  | .grant token ttlS =>
      match answer with
      | .granted => { history with leases := ⟨token, ttlS, expiry now ttlS⟩ :: history.leases }
      | _ => history
  | .renew token =>
      match answer with
      | .granted => history.move now (some token) fun lease => expiry now lease.ttlS
      | _ => history
  | .release token =>
      match answer with
      | .ended => history.move now (some token) fun _ => now
      | _ =>
          if token ∉ history.remembers now ∧
              (history.remembers now).length < tokensRemembered then
            { history with notes := (token, now) :: history.notes }
          else history
  | .endLease _ =>
      match answer with
      | .ended => history.move now none fun _ => now
      | _ => history
  | .checkGrant _ | .heldUntil => history

end History

namespace LeaseBook

variable (wall : Nat → Nat → String)

/-- One call, with what its answer says. -/
def call (book : LeaseBook) (now : Nat) : LeaseCall → LeaseAnswer × LeaseBook
  | .checkGrant token => (.none, (book.checkGrant wall token now).2)
  | .grant token ttlS =>
      match book.grant wall token ttlS now with
      | (.ok _, book) => (.granted, book)
      | (.error _, book) => (.none, book)
  | .renew token =>
      match book.renew wall token now with
      | (.ok _, book) => (.granted, book)
      | (.error _, book) => (.none, book)
  | .release token =>
      match book.release token now with
      | (true, book) => (.ended, book)
      | (false, book) => (.none, book)
  | .endLease why =>
      match book.endLease why now with
      | (true, book) => (.ended, book)
      | (false, book) => (.none, book)
  | .heldUntil => (.none, (book.heldUntil now).2)

/-- A run of calls, with the history of what they did. -/
def play : List (Nat × LeaseCall) → LeaseBook × History → LeaseBook × History
  | [], state => state
  | (now, call) :: rest, (book, history) =>
      let (answer, book) := book.call wall now call
      play rest (book, history.record now answer call)

end LeaseBook

end RustyPhoton.Phd2Guider
