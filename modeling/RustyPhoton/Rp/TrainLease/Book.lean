import RustyPhoton.Lib.Assoc
import RustyPhoton.Rp.TrainLease.Calls

/-!
# The book of leases

`TrainLeases` of `train_lease.rs`: the ids it has seen, the reservation table that leases and
`auto_focus` sweeps share, and every lease. Every section of the book's mutex is one step, and so is
every section of a lease. `reserve` and `release` read the clock before they take the lock, so their
reading may be old.
-/

namespace RustyPhoton.Rp.TrainLease

open Lib

/-- `SEEN_ID_CAP`. -/
def seenIdCap : Nat := 4096

/-- The numbers a `u64` has. -/
def sweepKeys : Nat := 18446744073709551616

/-- What the book knows of an id. A live lease is named by its place among all leases. -/
inductive Seen where
  | live (lease : Nat)
  | ended (why : LeaseEnd) (since : Nat)
  | releasedFirst (since : Nat)
  deriving DecidableEq

namespace Seen

def rememberedSince : Seen → Option Nat
  | .live _ => none
  | .ended _ since | .releasedFirst since => some since

/-- Why an id that holds no live lease is not held. -/
def whyNotHeld : Seen → String
  | .live _ => "it is live"
  | .ended why _ => why.why
  | .releasedFirst _ => "a release named it before any acquire"

end Seen

structure Sweep where
  label : String
  cameraId : String
  focuserId : String
  deriving DecidableEq

structure Book where
  seen : List (String × Seen)
  sweeps : List (Nat × Sweep)
  nextSweep : Nat

namespace Book

/-- Whether an id is remembered at a time. -/
def remembers (now : Nat) (entry : String × Seen) : Bool :=
  match entry.2.rememberedSince with
  | none => true
  | some since => decide (now < later since seenIdMemory)

def forgetOld (book : Book) (now : Nat) : Book :=
  { book with seen := book.seen.filter (remembers now) }

/-- The places of the live leases. -/
def live (book : Book) : List Nat :=
  book.seen.filterMap fun entry =>
    match entry.2 with
    | .live lease => some lease
    | .ended _ _ | .releasedFirst _ => none

/-- The refusal of a new id at the cap, naming when the oldest remembered id is forgotten. -/
def atCap (book : Book) (now : Nat) : String :=
  let oldest :=
    match (book.seen.filterMap fun entry => entry.2.rememberedSince).min? with
    | none => "an hour after the oldest lease ends"
    | some since => "in " ++ toString ((later since seenIdMemory - now) / 1000000000) ++ " s"
  "rp remembers 4096 lease ids, the most it keeps; the oldest is forgotten " ++ oldest

end Book

/-- A sweep that runs, with the key its guard takes out of the table. -/
structure SweepGuard where
  key : Nat
  sweep : Sweep
  deriving DecidableEq

/-- The book with every lease it ever had, the sweeps that run, and the clock. -/
structure TrainLeases where
  book : Book
  leases : List Lease
  running : List SweepGuard
  clock : Nat

inductive BookEvent where
  | reserved (leaseId : String) (lease : Nat)
  | ended (leaseId : String) (since : Nat)
  | releasedFirst (leaseId : String) (since : Nat)
  | released (lease : Nat)
  | refused (why : String)
  | lease (lease : Nat) (event : LeaseEvent)
  deriving DecidableEq

/-- One critical section of the book or of a lease, a sweep that ends, or time that passes. -/
inductive BookInput where
  | tick (now : Nat)
  | reserve (now : Nat) (leaseId : String) (plan : LeasePlan)
  | release (now : Nat) (leaseId : String)
  | lookup (leaseId : String)
  | enterSweep (label cameraId focuserId : String)
  | dropSweep (guard : SweepGuard)
  | onLease (lease : Nat) (input : LeaseInput)
  | leave (lease : Nat)

/-- The section is one of `enter_sweep`. -/
def BookInput.entersSweep : BookInput → Bool
  | .enterSweep _ _ _ => true
  | _ => false

namespace TrainLeases

def opened (now : Nat) : TrainLeases where
  book := { seen := [], sweeps := [], nextSweep := 0 }
  leases := []
  running := []
  clock := now

/-- The live leases of a book. -/
def liveIn (s : TrainLeases) (book : Book) : List Lease := book.live.filterMap fun k => s.leases[k]?

/-- `Seen::history`. -/
def history (s : TrainLeases) : Seen → String
  | .live lease =>
      match (s.leases[lease]?).map (fun l => l.state.phase) with
      | some (Phase.ending why) => "its lease ended: " ++ why.why
      | some (Phase.granted _) => "it holds a lease"
      | some Phase.acquiring | none => "its acquire is still waiting"
  | .ended why _ => "its lease ended: " ++ why.why
  | .releasedFirst _ => "a release named it before any acquire"

def withBook (s : TrainLeases) (book : Book) : TrainLeases := { s with book := book }

/-- Why a plan overlaps another lease's reservation. -/
def overlap (s : TrainLeases) (book : Book) (plan : LeasePlan) : Option String :=
  (s.liveIn book).findSome? fun other => (plan.sharedWith other.plan).map fun shared =>
    "train '" ++ plan.trainId ++ "' shares " ++ shared.1 ++ " '" ++ shared.2 ++ "' with lease '" ++
      other.id ++ "' on train '" ++ other.plan.trainId ++ "'"

/-- Why a plan overlaps a running sweep. -/
def sweepOverlap (book : Book) (plan : LeasePlan) : Option String :=
  (book.sweeps.find? fun entry =>
      plan.reserves entry.2.cameraId || plan.reserves entry.2.focuserId).map fun entry =>
    "train '" ++ plan.trainId ++ "' overlaps " ++ entry.2.label ++ ", which is running"

/-- The book with a new lease in it. -/
def withLease (s : TrainLeases) (book : Book) (leaseId : String) (plan : LeasePlan) : TrainLeases :=
  { s with
    book := { book with seen := Assoc.insert leaseId (.live s.leases.length) book.seen }
    leases := s.leases ++ [Lease.reserved leaseId plan s.clock] }

/-- `reserve`: the place of the new lease, or why there is none. What is old is forgotten either
way. -/
def reserve (s : TrainLeases) (now : Nat) (leaseId : String) (plan : LeasePlan) :
    TrainLeases × Except String Nat :=
  let book := s.book.forgetOld now
  match book.seen.lookup leaseId with
  | some seen =>
      (s.withBook book, .error ("lease id '" ++ leaseId ++ "' was used before (" ++ s.history seen ++
        "); name a fresh id"))
  | none =>
      if seenIdCap ≤ book.seen.length then (s.withBook book, .error (book.atCap now))
      else
        match s.overlap book plan with
        | some why => (s.withBook book, .error why)
        | none =>
            match sweepOverlap book plan with
            | some why => (s.withBook book, .error why)
            | none => (s.withLease book leaseId plan, .ok s.leases.length)

/-- The book with an id in it that a release named first. -/
def withReleased (s : TrainLeases) (book : Book) (now : Nat) (leaseId : String) : TrainLeases :=
  s.withBook { book with seen := Assoc.insert leaseId (.releasedFirst now) book.seen }

/-- The section of `release` under the book's lock. The live lease it finds is ended afterwards. -/
def release (s : TrainLeases) (now : Nat) (leaseId : String) : TrainLeases × List BookEvent :=
  let book := s.book.forgetOld now
  match book.seen.lookup leaseId with
  | some (.live lease) => (s.withBook book, [.released lease])
  | some (.ended _ _) | some (.releasedFirst _) => (s.withBook book, [])
  | none =>
      if book.seen.length < seenIdCap then
        (s.withReleased book now leaseId, [.releasedFirst leaseId now])
      else (s.withBook book, [])

/-- The section of `admit` under the book's lock: the lease to ask, or why there is none. -/
def lookup (s : TrainLeases) (leaseId : String) : TrainLeases × Except String Nat :=
  let book := s.book.forgetOld s.clock
  match book.seen.lookup leaseId with
  | some (.live lease) => (s.withBook book, .ok lease)
  | some seen => (s.withBook book, .error (notHeld leaseId seen.whyNotHeld))
  | none =>
      (s.withBook book,
        .error (notHeld leaseId "rp has not granted it (a restart forgets every lease)"))

/-- The camera or focuser of a sweep that a live lease reserves. -/
def sweepConflict (s : TrainLeases) (cameraId focuserId : String) :
    Option (String × String × Lease) :=
  (s.liveIn s.book).findSome? fun lease =>
    ([("camera", cameraId), ("focuser", focuserId)].find? fun entry =>
      lease.plan.reserves entry.2).map fun entry => (entry.1, entry.2, lease)

/-- The book with a new sweep in it, under the next key. -/
def withSweep (s : TrainLeases) (sweep : Sweep) : TrainLeases :=
  { s with
    book := { s.book with
      sweeps := Assoc.insert s.book.nextSweep sweep s.book.sweeps
      nextSweep := (s.book.nextSweep + 1) % sweepKeys }
    running := { key := s.book.nextSweep, sweep := sweep } :: s.running }

/-- `enter_sweep`. -/
def enterSweep (s : TrainLeases) (label cameraId focuserId : String) :
    Except String TrainLeases :=
  match s.sweepConflict cameraId focuserId with
  | some (kind, id, lease) =>
      .error (label ++ " is refused: lease '" ++ lease.id ++ "' on train '" ++ lease.plan.trainId ++
        "' reserves " ++ kind ++ " '" ++ id ++ "'")
  | none =>
      .ok (s.withSweep { label := label, cameraId := cameraId, focuserId := focuserId })

/-- The guard of a sweep is dropped. -/
def dropSweep (s : TrainLeases) (guard : SweepGuard) : TrainLeases :=
  { s with
    book := { s.book with sweeps := Assoc.erase guard.key s.book.sweeps }
    running := s.running.erase guard }

def withLeaseAt (s : TrainLeases) (k : Nat) (lease : Lease) : TrainLeases :=
  { s with leases := s.leases.set k lease }

/-- The last section of `keep`: the id is remembered as ended. -/
def recordEnd (s : TrainLeases) (lease : Lease) : TrainLeases :=
  s.withBook { s.book with
    seen := Assoc.insert lease.id
      (.ended (lease.state.endReason.getD .acquireFailed) s.clock) s.book.seen }

/-- One section, when it can be entered. -/
def step (s : TrainLeases) : BookInput → Option (TrainLeases × List BookEvent)
  | .tick now => if s.clock ≤ now then some ({ s with clock := now }, []) else none
  | .reserve now leaseId plan =>
      if now ≤ s.clock then
        match s.reserve now leaseId plan with
        | (s', .ok lease) => some (s', [.reserved leaseId lease])
        | (s', .error why) => some (s', [.refused why])
      else none
  | .release now leaseId => if now ≤ s.clock then some (s.release now leaseId) else none
  | .lookup leaseId =>
      match s.lookup leaseId with
      | (s', .ok _) => some (s', [])
      | (s', .error why) => some (s', [.refused why])
  | .enterSweep label cameraId focuserId =>
      match s.enterSweep label cameraId focuserId with
      | .ok s' => some (s', [])
      | .error why => some (s, [.refused why])
  | .dropSweep guard => if guard ∈ s.running then some (s.dropSweep guard, []) else none
  | .onLease k input =>
      if input.leaves then none
      else
        match s.leases[k]? with
        | none => none
        | some lease =>
            (lease.step input).map fun after =>
              (s.withLeaseAt k after.1, after.2.map (BookEvent.lease k))
  | .leave k =>
      match s.leases[k]? with
      | none => none
      | some lease =>
          (lease.step .leave).map fun after =>
            ((s.withLeaseAt k after.1).recordEnd lease,
              after.2.map (BookEvent.lease k) ++ [.ended lease.id s.clock])

end TrainLeases

/-! ## What a step does -/

/-- The event tells of an id that the book remembers from then on. -/
def BookEvent.records : BookEvent → Bool
  | .reserved _ _ | .ended _ _ | .releasedFirst _ _ => true
  | .released _ | .refused _ | .lease _ _ => false

namespace TrainLeases

variable {s s' : TrainLeases} {input : BookInput} {events : List BookEvent}

/-- Everything a step can do. -/
inductive Effect (s : TrainLeases) (input : BookInput) (s' : TrainLeases)
    (events : List BookEvent) : Prop where
  | ticked (now : Nat) (later : s.clock ≤ now) (becomes : s' = { s with clock := now })
      (silent : events = [])
  | unchanged (becomes : s' = s) (silent : ∀ e ∈ events, e.records = false)
  | forgot (now : Nat) (read : now ≤ s.clock) (becomes : s' = s.withBook (s.book.forgetOld now))
      (silent : ∀ e ∈ events, e.records = false)
  | reserved (now : Nat) (leaseId : String) (plan : LeasePlan)
      (input : input = .reserve now leaseId plan) (read : now ≤ s.clock)
      (unseen : (s.book.forgetOld now).seen.lookup leaseId = none)
      (room : (s.book.forgetOld now).seen.length < seenIdCap)
      (apart : s.overlap (s.book.forgetOld now) plan = none)
      (sweeps : sweepOverlap (s.book.forgetOld now) plan = none)
      (becomes : s' = s.withLease (s.book.forgetOld now) leaseId plan)
      (told : events = [.reserved leaseId s.leases.length])
  | releasedFirst (now : Nat) (leaseId : String) (read : now ≤ s.clock)
      (unseen : (s.book.forgetOld now).seen.lookup leaseId = none)
      (room : (s.book.forgetOld now).seen.length < seenIdCap)
      (becomes : s' = s.withReleased (s.book.forgetOld now) now leaseId)
      (told : events = [.releasedFirst leaseId now])
  | sweepEntered (label cameraId focuserId : String)
      (input : input = .enterSweep label cameraId focuserId)
      (free : s.sweepConflict cameraId focuserId = none)
      (becomes : s' = s.withSweep
        { label := label, cameraId := cameraId, focuserId := focuserId })
      (silent : events = [])
  | sweepDropped (guard : SweepGuard) (running : guard ∈ s.running)
      (becomes : s' = s.dropSweep guard) (silent : events = [])
  | onLease (k : Nat) (lease lease' : Lease) (inner : LeaseInput) (told : List LeaseEvent)
      (found : s.leases[k]? = some lease) (effect : Lease.Effect lease inner lease' told)
      (stays : inner.leaves = false) (becomes : s' = s.withLeaseAt k lease')
      (events : events = told.map (BookEvent.lease k))
  | left (k : Nat) (lease lease' : Lease) (told : List LeaseEvent)
      (found : s.leases[k]? = some lease) (holdingsTaken : lease.keeper = .holdingsTaken)
      (becomes : lease' = { lease with keeper := .gone })
      (becomes' : s' = (s.withLeaseAt k lease').recordEnd lease)
      (events : events = told.map (BookEvent.lease k) ++ [.ended lease.id s.clock])

theorem silent_nil : ∀ e ∈ ([] : List BookEvent), e.records = false := by
  intro e he
  cases he

theorem silent_singleton {event : BookEvent} (h : event.records = false) :
    ∀ e ∈ [event], e.records = false := by
  intro e he
  rw [List.mem_singleton.mp he, h]

/-- A reservation is made or refused, and what is old is forgotten either way. -/
theorem reserve_cases {now : Nat} {leaseId : String} {plan : LeasePlan}
    {answer : Except String Nat} (h : s.reserve now leaseId plan = (s', answer)) :
    (∃ why, answer = .error why ∧ s' = s.withBook (s.book.forgetOld now)) ∨
      ((s.book.forgetOld now).seen.lookup leaseId = none ∧
        (s.book.forgetOld now).seen.length < seenIdCap ∧
        s.overlap (s.book.forgetOld now) plan = none ∧
        sweepOverlap (s.book.forgetOld now) plan = none ∧
        s' = s.withLease (s.book.forgetOld now) leaseId plan ∧ answer = .ok s.leases.length) := by
  simp only [reserve] at h
  split at h
  · cases h
    exact .inl ⟨_, rfl, rfl⟩
  · next hunseen =>
      split at h
      · cases h
        exact .inl ⟨_, rfl, rfl⟩
      · next hroom =>
          split at h
          · cases h
            exact .inl ⟨_, rfl, rfl⟩
          · next hapart =>
              split at h
              · cases h
                exact .inl ⟨_, rfl, rfl⟩
              · next hsweeps =>
                  cases h
                  exact .inr ⟨hunseen, Nat.lt_of_not_le hroom, hapart, hsweeps, rfl, rfl⟩

theorem step_effect (h : s.step input = some (s', events)) : Effect s input s' events := by
  cases input with
  | tick now =>
    simp only [step] at h
    split at h
    · next hlater =>
        cases h
        exact .ticked now hlater rfl rfl
    · cases h
  | reserve now leaseId plan =>
    simp only [step] at h
    split at h
    · next hread =>
        split at h
        · next after lease hreserve =>
            cases h
            rcases reserve_cases hreserve with ⟨why, herror, _⟩ | ⟨hunseen, hroom, hapart, hsweeps,
              hafter, hlease⟩
            · cases herror
            · cases hlease
              exact .reserved now leaseId plan rfl hread hunseen hroom hapart hsweeps hafter rfl
        · next after why hreserve =>
            cases h
            rcases reserve_cases hreserve with ⟨_, _, hafter⟩ | ⟨_, _, _, _, _, hlease⟩
            · exact .forgot now hread hafter (silent_singleton rfl)
            · cases hlease
    · cases h
  | release now leaseId =>
    simp only [step] at h
    split at h
    · next hread =>
        simp only [release] at h
        split at h
        · cases h
          exact .forgot now hread rfl (silent_singleton rfl)
        · cases h
          exact .forgot now hread rfl silent_nil
        · cases h
          exact .forgot now hread rfl silent_nil
        · next hunseen =>
            split at h
            · next hroom =>
                cases h
                exact .releasedFirst now leaseId hread hunseen hroom rfl rfl
            · cases h
              exact .forgot now hread rfl silent_nil
    · cases h
  | lookup leaseId =>
    simp only [step, lookup] at h
    split at h
    · next after lease hlookup =>
        cases h
        split at hlookup
        · cases hlookup
          exact .forgot s.clock le_rfl rfl silent_nil
        · cases hlookup
        · cases hlookup
    · next after why hlookup =>
        cases h
        split at hlookup
        · cases hlookup
        · cases hlookup
          exact .forgot s.clock le_rfl rfl (silent_singleton rfl)
        · cases hlookup
          exact .forgot s.clock le_rfl rfl (silent_singleton rfl)
  | enterSweep label cameraId focuserId =>
    simp only [step, enterSweep] at h
    cases hfree : s.sweepConflict cameraId focuserId with
    | some conflict =>
      rw [hfree] at h
      cases h
      exact .unchanged rfl (silent_singleton rfl)
    | none =>
      rw [hfree] at h
      cases h
      exact .sweepEntered label cameraId focuserId rfl hfree rfl rfl
  | dropSweep guard =>
    simp only [step] at h
    split at h
    · next hrunning =>
        cases h
        exact .sweepDropped guard hrunning rfl rfl
    · cases h
  | onLease k inner =>
    simp only [step] at h
    split at h
    · cases h
    · next hstays =>
        split at h
        · cases h
        · next lease hfound =>
            obtain ⟨after, hstep, heq⟩ := Option.map_eq_some_iff.mp h
            obtain ⟨hs, hevents⟩ := Prod.mk.inj heq
            exact .onLease k lease after.1 inner after.2 hfound (Lease.step_effect hstep)
              (Bool.eq_false_iff.mpr hstays) hs.symm hevents.symm
  | leave k =>
    simp only [step] at h
    split at h
    · cases h
    · next lease hfound =>
        obtain ⟨after, hstep, heq⟩ := Option.map_eq_some_iff.mp h
        obtain ⟨hs, hevents⟩ := Prod.mk.inj heq
        simp only [Lease.step] at hstep
        split at hstep
        · next hkeeper =>
            cases hstep
            exact .left k lease _ _ hfound hkeeper rfl hs.symm hevents.symm
        · cases hstep

end TrainLeases

end RustyPhoton.Rp.TrainLease
