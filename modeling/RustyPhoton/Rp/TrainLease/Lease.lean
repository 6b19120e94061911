import RustyPhoton.Lib.Transition
import RustyPhoton.Rp.TrainLease.Plan

/-!
# One lease

`Lease` of `train_lease.rs`: its state behind a mutex, the calls in flight under it, its keeper task
and the guard of its acquire. Every critical section of the mutex is one step, with the permit it
lets go of. Times are nanoseconds of the monotonic clock.
-/

namespace RustyPhoton.Rp.TrainLease

/-! ## The clock -/

/-- The clock counts 63 bits of seconds. -/
def clockLimit : Nat := 9223372036854775808 * 1000000000

/-- `start` plus `wait`; an overflow reads as `start` itself. -/
def later (start wait : Nat) : Nat := if start + wait < clockLimit then start + wait else start

/-- `SEEN_ID_MEMORY`, an hour. -/
def seenIdMemory : Nat := 3600 * 1000000000

/-- `IDLE_TIMEOUT`, a minute. -/
def idleTimeout : Nat := 60 * 1000000000

/-- `RENEW_INTERVAL` of the facade lease. -/
def renewInterval : Nat := 20 * 1000000000

/-- The largest `u32`. -/
def maxCalls : Nat := 4294967295

/-- `saturating_add(1)` of a `u32`. -/
def oneMore (count : Nat) : Nat := min (count + 1) maxCalls

/-! ## What a lease keeps -/

/-- Why a lease ended. -/
inductive LeaseEnd where
  | released
  | idle
  | maxDuration
  | facadeLost (reason : String)
  | safety
  | shutdown
  | acquireFailed
  deriving DecidableEq

/-- The reason a call under the ended lease is told. -/
def LeaseEnd.why : LeaseEnd → String
  | .released => "it was released"
  | .idle => "it ended after 60 s with no call under it"
  | .maxDuration => "it reached its max_duration"
  | .facadeLost reason => "it lost the camera facade's sweep lease (" ++ reason ++ ")"
  | .safety => "the safety transition ended it"
  | .shutdown => "rp is shutting down"
  | .acquireFailed => "its acquire did not complete"

def notHeld (leaseId why : String) : String := "lease '" ++ leaseId ++ "' is not held: " ++ why

inductive CallKind where
  | capture (cameraId : String)
  | move (kind deviceId : String)

inductive Phase where
  | acquiring
  | granted (endsBy : Nat)
  | ending (why : LeaseEnd)
  deriving DecidableEq

/-- The facade lease a guiding train's lease took. -/
structure FacadeHold where
  camera : String
  token : String
  nextRenewal : Option Nat
  deriving DecidableEq

/-- The state behind the mutex. A slot and a permit are named by a number. -/
structure LeaseState where
  phase : Phase
  acquiring : Bool
  calls : Nat
  uncancelledCaptures : Nat
  lastActivity : Nat
  slots : List Nat
  permit : Option Nat
  facade : Option FacadeHold
  deriving DecidableEq

/-- What `end` answers, the state it leaves and the permit it lets go of. -/
structure Ended where
  answer : Bool
  state : LeaseState
  dropped : Option Nat

namespace LeaseState

/-- `Lease::new`. -/
def opened (now : Nat) : LeaseState where
  phase := .acquiring
  acquiring := true
  calls := 0
  uncancelledCaptures := 0
  lastActivity := now
  slots := []
  permit := none
  facade := none

def endReason (s : LeaseState) : Option LeaseEnd :=
  match s.phase with
  | .ending why => some why
  | .acquiring | .granted _ => none

def hold (s : LeaseState) (slot : Nat) : LeaseState := { s with slots := s.slots ++ [slot] }

/-- `hold_permit`, with the permit that is dropped: the new one where it is refused, the one it
replaces where there is one. -/
def holdPermit (s : LeaseState) (permit : Nat) : LeaseState × Option Nat :=
  if s.endReason.isSome && s.uncancelledCaptures = 0 then (s, some permit)
  else ({ s with permit := some permit }, s.permit)

def recordFacade (s : LeaseState) (camera token : String) : LeaseState :=
  { s with facade := some { camera := camera, token := token, nextRenewal := none } }

def facadeGranted (s : LeaseState) (now : Nat) : LeaseState :=
  { s with facade := s.facade.map fun hold =>
      { hold with nextRenewal := some (later now renewInterval) } }

/-- `grant`, or the end of a lease that ended while its acquire waited. -/
def grant (s : LeaseState) (now maxDuration : Nat) : Except LeaseEnd LeaseState :=
  match s.endReason with
  | some why => .error why
  | none => .ok { s with phase := .granted (later now maxDuration), lastActivity := now }

/-- `end`. -/
def endWith (s : LeaseState) (why : LeaseEnd) : Ended :=
  if s.endReason.isSome then { answer := false, state := s, dropped := none }
  else if s.uncancelledCaptures = 0 then
    { answer := true, state := { s with phase := .ending why, permit := none }, dropped := s.permit }
  else { answer := true, state := { s with phase := .ending why }, dropped := none }

/-- The first section of `end_if_due`: the end that is due. The lock is let go of before `end`. -/
def due (s : LeaseState) (now : Nat) : Option LeaseEnd :=
  match s.phase with
  | .granted endsBy =>
      if endsBy ≤ now then some .maxDuration
      else if s.calls = 0 ∧ later s.lastActivity idleTimeout ≤ now then some .idle
      else none
  | .acquiring | .ending _ => none

/-- `due_renewal`: the facade lease to renew now, with its next renewal scheduled. -/
def dueRenewal (s : LeaseState) (now : Nat) : Option (LeaseState × String × String) :=
  match s.facade with
  | none => none
  | some hold =>
      match hold.nextRenewal with
      | none => none
      | some due =>
          if due ≤ now then
            let next := max (later due renewInterval) now
            some ({ s with facade := some { hold with nextRenewal := some next } }, hold.camera,
              hold.token)
          else none

/-- The last lines of `admit`: the call counts. -/
def callStarted (s : LeaseState) (capture : Bool) : LeaseState :=
  { s with
    calls := oneMore s.calls
    uncancelledCaptures :=
      if capture then oneMore s.uncancelledCaptures else s.uncancelledCaptures }

/-- An ending lease gives the gate back once no uncancelled capture is left. -/
def giveGateBack (s : LeaseState) : LeaseState × Option Nat :=
  if s.endReason.isSome && s.uncancelledCaptures = 0 then ({ s with permit := none }, s.permit)
  else (s, none)

def captureCancelled (s : LeaseState) : LeaseState × Option Nat :=
  { s with uncancelledCaptures := s.uncancelledCaptures - 1 }.giveGateBack

def callEnded (s : LeaseState) (uncancelledCapture : Bool) (now : Nat) : LeaseState × Option Nat :=
  { s with
    calls := s.calls - 1
    uncancelledCaptures :=
      if uncancelledCapture then s.uncancelledCaptures - 1 else s.uncancelledCaptures
    lastActivity := now }.giveGateBack

def acquireReturned (s : LeaseState) : LeaseState := { s with acquiring := false }

/-- Nothing runs under the lease, and its acquire has returned. -/
def quiet (s : LeaseState) : Bool := s.calls = 0 && !s.acquiring

end LeaseState

/-- The device of a call that may run under a lease and whether it captures, or why it may not. -/
def LeasePlan.called (plan : LeasePlan) (leaseId : String) : CallKind → Except String (String × Bool)
  | .capture cameraId =>
      if plan.cameras.contains cameraId then .ok (cameraId, true)
      else .error ("camera '" ++ cameraId ++ "' is not held by lease '" ++ leaseId ++ "'")
  | .move kind deviceId =>
      if plan.holdsStill deviceId then
        .error ("lease '" ++ leaseId ++ "' holds " ++ kind ++ " '" ++ deviceId ++
          "' still; a call under it cannot move it")
      else if plan.moves deviceId then .ok (deviceId, false)
      else .error (kind ++ " '" ++ deviceId ++ "' is not in lease '" ++ leaseId ++ "'")

/-! ## The tasks of a lease -/

/-- One call under a lease. -/
structure LeaseCall where
  device : String
  capture : Bool
  cancelled : Bool
  deriving DecidableEq

namespace LeaseCall

def uncancelled (call : LeaseCall) : Bool := call.capture && !call.cancelled

end LeaseCall

/-- Where the keeper stands in `keep`. -/
inductive Keeper where
  | watching
  | due (why : LeaseEnd)
  | settling
  | quiet
  | facadeTaken
  | holdingsTaken
  | gone
  deriving DecidableEq

namespace Keeper

/-- The keeper has left its loop. -/
def left : Keeper → Bool
  | .watching | .due _ => false
  | .settling | .quiet | .facadeTaken | .holdingsTaken | .gone => true

/-- The keeper has seen the lease quiet. -/
def sawQuiet : Keeper → Bool
  | .watching | .due _ | .settling => false
  | .quiet | .facadeTaken | .holdingsTaken | .gone => true

end Keeper

/-- Where the guard of the acquire stands: `Acquiring::drop` looks at the phase, ends an ungranted
lease and only then reports that the acquire has returned. -/
inductive Body where
  | running
  | dropping (ungranted : Bool)
  | returned
  deriving DecidableEq

/-- A lease, with the calls in flight under it and its two tasks. -/
structure Lease where
  id : String
  plan : LeasePlan
  state : LeaseState
  live : List LeaseCall
  keeper : Keeper
  body : Body

/-- What the keeper gives back. -/
inductive Holding where
  | facade
  | slots
  | reservation
  deriving DecidableEq

inductive LeaseEvent where
  | answered (ended : Bool)
  | admitted (call : LeaseCall)
  | refused (why : String)
  | permitDropped (permit : Nat)
  | gaveBack (what : Holding)
  deriving DecidableEq

/-- One critical section on a lease, and who enters it. -/
inductive LeaseInput where
  | hold (slot : Nat)
  | holdPermit (permit : Nat)
  | recordFacade (camera token : String)
  | facadeGranted (now : Nat)
  | grant (now maxDuration : Nat)
  | endWith (why : LeaseEnd)
  | admitCall (now : Nat) (call : CallKind)
  | markCancelled (call : LeaseCall)
  | dropCall (call : LeaseCall) (now : Nat)
  | startReturn
  | endUngranted
  | acquireReturned
  | decideDue (now : Nat)
  | endDue
  | dueRenewal (now : Nat)
  | observeEnding
  | observeQuiet
  | takeFacade
  | takeHoldings
  | leave

namespace LeaseInput

/-- The section is one of `admit`. -/
def admits : LeaseInput → Bool
  | .admitCall _ _ => true
  | _ => false

/-- The section is the keeper's last one, which the book shares. -/
def leaves : LeaseInput → Bool
  | .leave => true
  | _ => false

/-- The section is one of `hold_permit`. -/
def holdsPermit : LeaseInput → Bool
  | .holdPermit _ => true
  | _ => false

end LeaseInput

namespace Lease

/-- A lease that is just reserved. -/
def reserved (id : String) (plan : LeasePlan) (now : Nat) : Lease where
  id := id
  plan := plan
  state := .opened now
  live := []
  keeper := .watching
  body := .running

/-- The permits a section drops. -/
def drops (dropped : Option Nat) : List LeaseEvent := dropped.toList.map LeaseEvent.permitDropped

def withState (lease : Lease) (s : LeaseState) : Lease := { lease with state := s }

/-- The lease after `end`, and what its caller is answered. -/
def ended (lease : Lease) (why : LeaseEnd) : Lease × List LeaseEvent :=
  (lease.withState (lease.state.endWith why).state,
    .answered (lease.state.endWith why).answer :: drops (lease.state.endWith why).dropped)

/-- `admit`. A lease past its `ends_by` refuses, and the `end` that follows is a section of its
own. -/
def admitCall (lease : Lease) (now : Nat) (call : CallKind) : Except String (Lease × LeaseCall) :=
  match lease.state.phase with
  | .acquiring => .error (notHeld lease.id "its acquire is still waiting")
  | .ending why => .error (notHeld lease.id why.why)
  | .granted endsBy =>
      if endsBy ≤ now then .error (notHeld lease.id LeaseEnd.maxDuration.why)
      else
        match lease.plan.called lease.id call with
        | .error why => .error why
        | .ok (device, capture) =>
            let started : LeaseCall := { device := device, capture := capture, cancelled := false }
            .ok ({ lease with
              state := lease.state.callStarted capture, live := started :: lease.live }, started)

/-- `mark_cancelled` of a call in flight. -/
def markCancelled (lease : Lease) (call : LeaseCall) : Lease × List LeaseEvent :=
  if call.uncancelled then
    ({ lease with
      state := lease.state.captureCancelled.1
      live := { call with cancelled := true } :: lease.live.erase call },
      drops lease.state.captureCancelled.2)
  else (lease, [])

/-- The end of a call in flight. -/
def dropCall (lease : Lease) (call : LeaseCall) (now : Nat) : Lease × List LeaseEvent :=
  ({ lease with
    state := (lease.state.callEnded call.uncancelled now).1
    live := lease.live.erase call },
    drops (lease.state.callEnded call.uncancelled now).2)

/-- One section, when the one who enters it can be there. Only the keeper ends a lease idle. Its
other ends, those of `admit` and those of the safety enforcer and the shutdown may come at any
time. -/
def step (lease : Lease) : LeaseInput → Option (Lease × List LeaseEvent)
  | .hold slot => some (lease.withState (lease.state.hold slot), [])
  | .holdPermit permit =>
      some (lease.withState (lease.state.holdPermit permit).1,
        drops (lease.state.holdPermit permit).2)
  | .recordFacade camera token => some (lease.withState (lease.state.recordFacade camera token), [])
  | .facadeGranted now => some (lease.withState (lease.state.facadeGranted now), [])
  | .grant now maxDuration =>
      match lease.state.grant now maxDuration with
      | .error why => some (lease, [.refused why.why])
      | .ok s => some (lease.withState s, [])
  | .endWith why => if why = .idle then none else some (lease.ended why)
  | .admitCall now call =>
      match lease.admitCall now call with
      | .error why => some (lease, [.refused why])
      | .ok (lease', started) => some (lease', [.admitted started])
  | .markCancelled call => if call ∈ lease.live then some (lease.markCancelled call) else none
  | .dropCall call now => if call ∈ lease.live then some (lease.dropCall call now) else none
  | .startReturn =>
      if lease.body = .running then
        some ({ lease with body := .dropping (lease.state.phase = .acquiring) }, [])
      else none
  | .endUngranted =>
      if lease.body = .dropping true then
        some ({ (lease.ended .acquireFailed).1 with body := .dropping false },
          (lease.ended .acquireFailed).2)
      else none
  | .acquireReturned =>
      if lease.body = .dropping false then
        some ({ lease with state := lease.state.acquireReturned, body := .returned }, [])
      else none
  | .decideDue now =>
      match lease.keeper, lease.state.due now with
      | .watching, some why => some ({ lease with keeper := .due why }, [])
      | _, _ => none
  | .endDue =>
      match lease.keeper with
      | .due why =>
          some ({ (lease.ended why).1 with keeper := .watching }, (lease.ended why).2)
      | _ => none
  | .dueRenewal now =>
      match lease.keeper, lease.state.dueRenewal now with
      | .watching, some (s, _) => some (lease.withState s, [])
      | _, _ => none
  | .observeEnding =>
      if lease.keeper = .watching ∧ lease.state.endReason.isSome then
        some ({ lease with keeper := .settling }, [])
      else none
  | .observeQuiet =>
      if lease.keeper = .settling ∧ lease.state.quiet then
        some ({ lease with keeper := .quiet }, [])
      else none
  | .takeFacade =>
      if lease.keeper = .quiet then
        some ({ lease with state := { lease.state with facade := none }, keeper := .facadeTaken },
          [.gaveBack .facade])
      else none
  | .takeHoldings =>
      if lease.keeper = .facadeTaken then
        some ({ lease with
          state := { lease.state with slots := [], permit := none }, keeper := .holdingsTaken },
          .gaveBack .slots :: drops lease.state.permit)
      else none
  | .leave =>
      if lease.keeper = .holdingsTaken then
        some ({ lease with keeper := .gone }, [.gaveBack .reservation])
      else none

end Lease

/-! ## What the operations do to the phase, the counters and the permit -/

namespace LeaseState

/-- Everything the gate and the calls depend on is the same. -/
structure SameGate (s s' : LeaseState) : Prop where
  phase : s'.phase = s.phase
  acquiring : s'.acquiring = s.acquiring
  calls : s'.calls = s.calls
  captures : s'.uncancelledCaptures = s.uncancelledCaptures
  permit : s'.permit = s.permit

variable {s s' : LeaseState} {why : LeaseEnd} {now : Nat}

theorem SameGate.refl : SameGate s s := ⟨rfl, rfl, rfl, rfl, rfl⟩

theorem endReason_of_phase (h : s'.phase = s.phase) : s'.endReason = s.endReason := by
  rw [endReason, endReason, h]

theorem dueRenewal_sameGate {facade : String × String} (h : s.dueRenewal now = some (s', facade)) :
    SameGate s s' := by
  rw [dueRenewal] at h
  split at h
  · cases h
  · split at h
    · cases h
    · split at h
      · cases h
        exact ⟨rfl, rfl, rfl, rfl, rfl⟩
      · cases h

/-- An end that is due finds a granted lease, and one that is due idle finds no call counted. -/
theorem due_eq_some (h : s.due now = some why) :
    s.endReason = none ∧ (why = .idle → s.calls = 0) := by
  rw [due] at h
  split at h
  · next endsBy hphase =>
      constructor
      · rw [endReason, hphase]
      · intro hidle
        subst hidle
        split at h
        · cases h
        · split at h
          · next hdue => exact hdue.1
          · cases h
  · cases h
  · cases h

theorem grant_eq_ok {maxDuration : Nat} (h : s.grant now maxDuration = .ok s') :
    s.endReason = none ∧ s' = { s with
      phase := .granted (later now maxDuration), lastActivity := now } := by
  rw [grant] at h
  split at h
  · cases h
  · next hnone =>
      cases h
      exact ⟨hnone, rfl⟩

theorem holdPermit_endReason (permit : Nat) :
    (s.holdPermit permit).1.endReason = s.endReason := by
  rw [holdPermit]
  split <;> rfl

theorem holdPermit_counters (permit : Nat) : (s.holdPermit permit).1.calls = s.calls ∧
    (s.holdPermit permit).1.uncancelledCaptures = s.uncancelledCaptures ∧
    (s.holdPermit permit).1.acquiring = s.acquiring := by
  rw [holdPermit]
  split <;> exact ⟨rfl, rfl, rfl⟩

theorem endWith_endReason : (s.endWith why).state.endReason = some (s.endReason.getD why) := by
  rw [endWith]
  split
  · next h =>
      obtain ⟨earlier, hearlier⟩ := Option.isSome_iff_exists.mp h
      show s.endReason = _
      rw [hearlier, Option.getD_some]
  · next h =>
      rw [Bool.not_eq_true, Option.isSome_eq_false_iff, Option.isNone_iff_eq_none] at h
      split <;> rw [h, Option.getD_none] <;> rfl

theorem endWith_answer : (s.endWith why).answer = s.endReason.isNone := by
  rw [endWith]
  split
  · next h => rw [Option.isNone_eq_false_iff.mpr h]
  · next h =>
      rw [Bool.not_eq_true, Option.isSome_eq_false_iff] at h
      split <;> rw [h]

theorem endWith_counters (why : LeaseEnd) : (s.endWith why).state.calls = s.calls ∧
    (s.endWith why).state.uncancelledCaptures = s.uncancelledCaptures ∧
    (s.endWith why).state.acquiring = s.acquiring := by
  rw [endWith]
  split
  · exact ⟨rfl, rfl, rfl⟩
  · split <;> exact ⟨rfl, rfl, rfl⟩

theorem giveGateBack_counters : s.giveGateBack.1.calls = s.calls ∧
    s.giveGateBack.1.uncancelledCaptures = s.uncancelledCaptures ∧
    s.giveGateBack.1.acquiring = s.acquiring := by
  rw [giveGateBack]
  split <;> exact ⟨rfl, rfl, rfl⟩

theorem giveGateBack_endReason : s.giveGateBack.1.endReason = s.endReason := by
  rw [giveGateBack]
  split <;> rfl

theorem captureCancelled_endReason : s.captureCancelled.1.endReason = s.endReason :=
  giveGateBack_endReason

theorem callEnded_endReason {uncancelledCapture : Bool} :
    (s.callEnded uncancelledCapture now).1.endReason = s.endReason := giveGateBack_endReason

theorem quiet_iff : s.quiet = true ↔ s.calls = 0 ∧ s.acquiring = false := by
  rw [quiet, Bool.and_eq_true, decide_eq_true_eq, Bool.not_eq_true']

/-! ## The gate permit -/

/-- An ending lease keeps the gate permit only for captures that were not cancelled. -/
def GateClosed (s : LeaseState) : Prop :=
  s.endReason.isSome = true → s.uncancelledCaptures = 0 → s.permit = none

namespace GateClosed

theorem of_living (h : s.endReason = none) : s.GateClosed := by
  intro hending
  rw [h] at hending
  cases hending

theorem sameGate (h : s.GateClosed) (same : SameGate s s') : s'.GateClosed := by
  intro hending hcaptures
  rw [endReason_of_phase same.phase] at hending
  rw [same.captures] at hcaptures
  rw [same.permit]
  exact h hending hcaptures

theorem holdPermit (h : s.GateClosed) (permit : Nat) : (s.holdPermit permit).1.GateClosed := by
  rw [LeaseState.holdPermit]
  split
  · exact h
  · next hheld =>
      intro hending hcaptures
      exact absurd (Bool.and_eq_true_iff.mpr ⟨hending, decide_eq_true hcaptures⟩) hheld

theorem endWith (h : s.GateClosed) : (s.endWith why).state.GateClosed := by
  rw [LeaseState.endWith]
  split
  · exact h
  · split
    · intro _ _
      rfl
    · next hcaptures =>
        intro _ hnone
        exact absurd hnone hcaptures

/-- What cancels or ends a capture closes the gate itself, whatever was held before. -/
theorem giveGateBack : s.giveGateBack.1.GateClosed := by
  rw [LeaseState.giveGateBack]
  split
  · intro _ _
    rfl
  · next hheld =>
      intro hending hcaptures
      exact absurd (Bool.and_eq_true_iff.mpr ⟨hending, decide_eq_true hcaptures⟩) hheld

end GateClosed

/-- The permit is dropped, or was held and no longer is. -/
def Loses (s s' : LeaseState) (dropped : Option Nat) (permit : Nat) : Prop :=
  dropped = some permit ∨ (s.permit = some permit ∧ s'.permit ≠ some permit)

theorem holdPermit_letsGo (hnone : s.permit = none) (new permit : Nat)
    (h : s.Loses (s.holdPermit new).1 (s.holdPermit new).2 permit) :
    (s.holdPermit new).1.endReason.isSome = true ∧ (s.holdPermit new).1.uncancelledCaptures = 0 := by
  rw [Loses, hnone] at h
  rw [holdPermit] at h ⊢
  split at h
  · next hrefused =>
      obtain ⟨hending, hcaptures⟩ := Bool.and_eq_true_iff.mp hrefused
      rw [if_pos hrefused]
      exact ⟨hending, of_decide_eq_true hcaptures⟩
  · rcases h with hdropped | ⟨hheld, _⟩
    · rw [hnone] at hdropped
      cases hdropped
    · cases hheld

theorem endWith_letsGo (permit : Nat)
    (h : s.Loses (s.endWith why).state (s.endWith why).dropped permit) :
    (s.endWith why).state.endReason.isSome = true ∧
      (s.endWith why).state.uncancelledCaptures = 0 := by
  refine ⟨by rw [endWith_endReason]; rfl, ?_⟩
  rw [(endWith_counters why).2.1]
  rw [endWith] at h
  split at h
  · rcases h with hdropped | ⟨hheld, hnot⟩
    · cases hdropped
    · exact absurd hheld hnot
  · split at h
    · next hcaptures => exact hcaptures
    · rcases h with hdropped | ⟨hheld, hnot⟩
      · cases hdropped
      · exact absurd hheld hnot

theorem giveGateBack_letsGo (permit : Nat)
    (h : s.Loses s.giveGateBack.1 s.giveGateBack.2 permit) :
    s.giveGateBack.1.endReason.isSome = true ∧ s.giveGateBack.1.uncancelledCaptures = 0 := by
  rw [giveGateBack_endReason, giveGateBack_counters.2.1]
  rw [giveGateBack] at h
  split at h
  · next hfree =>
      obtain ⟨hending, hcaptures⟩ := Bool.and_eq_true_iff.mp hfree
      exact ⟨hending, of_decide_eq_true hcaptures⟩
  · rcases h with hdropped | ⟨hheld, hnot⟩
    · cases hdropped
    · exact absurd hheld hnot

end LeaseState

/-! ## What a step does -/

namespace Lease

variable {lease lease' : Lease} {events : List LeaseEvent}

/-- A section that leaves the calls and the gate as they are. -/
structure Frame (lease lease' : Lease) : Prop where
  id : lease'.id = lease.id
  plan : lease'.plan = lease.plan
  gate : LeaseState.SameGate lease.state lease'.state
  live : lease'.live = lease.live

/-- Everything a step can do, but for the slots and the facade lease and the guard of the acquire. -/
inductive Effect (lease : Lease) (input : LeaseInput) (lease' : Lease) (events : List LeaseEvent) :
    Prop where
  | frame (frame : Frame lease lease') (keeper : lease'.keeper = lease.keeper)
      (silent : ∀ e ∈ events, ∃ why, e = .refused why)
  | acquireReturned (id : lease'.id = lease.id) (plan : lease'.plan = lease.plan)
      (state : lease'.state = lease.state.acquireReturned) (live : lease'.live = lease.live)
      (keeper : lease'.keeper = lease.keeper) (silent : events = [])
  | permitHeld (permit : Nat) (input : input = .holdPermit permit)
      (becomes : lease' = lease.withState (lease.state.holdPermit permit).1)
      (told : events = drops (lease.state.holdPermit permit).2)
  | granted (endsBy now : Nat) (living : lease.state.endReason = none)
      (becomes : lease' = lease.withState { lease.state with
        phase := .granted endsBy, lastActivity := now })
      (silent : events = [])
  | ended (why : LeaseEnd) (id : lease'.id = lease.id) (plan : lease'.plan = lease.plan)
      (state : lease'.state = (lease.state.endWith why).state) (live : lease'.live = lease.live)
      (keeper : (why ≠ .idle ∧ lease'.keeper = lease.keeper) ∨
        (lease.keeper = .due why ∧ lease'.keeper = .watching))
      (told : events = .answered (lease.state.endWith why).answer ::
        drops (lease.state.endWith why).dropped)
  | admitted (now : Nat) (call : CallKind) (input : input = .admitCall now call) (started : LeaseCall)
      (endsBy : Nat) (phase : lease.state.phase = .granted endsBy)
      (fresh : started.cancelled = false)
      (mayRun : if started.capture then started.device ∈ lease.plan.cameras
        else lease.plan.moves started.device = true)
      (becomes : lease' = { lease with
        state := lease.state.callStarted started.capture, live := started :: lease.live })
      (told : events = [.admitted started])
  | marked (call : LeaseCall) (live : call ∈ lease.live) (uncancelled : call.uncancelled = true)
      (becomes : lease' = { lease with
        state := lease.state.captureCancelled.1
        live := { call with cancelled := true } :: lease.live.erase call })
      (told : events = drops lease.state.captureCancelled.2)
  | dropped (call : LeaseCall) (now : Nat) (live : call ∈ lease.live)
      (becomes : lease' = (lease.dropCall call now).1) (told : events = (lease.dropCall call now).2)
  | decided (now : Nat) (why : LeaseEnd) (watching : lease.keeper = .watching)
      (due : lease.state.due now = some why) (becomes : lease' = { lease with keeper := .due why })
      (silent : events = [])
  | settling (watching : lease.keeper = .watching) (ending : lease.state.endReason.isSome = true)
      (becomes : lease' = { lease with keeper := .settling }) (silent : events = [])
  | quiet (settling : lease.keeper = .settling) (quiet : lease.state.quiet = true)
      (becomes : lease' = { lease with keeper := .quiet }) (silent : events = [])
  | facadeTaken (quiet : lease.keeper = .quiet) (keeper : lease'.keeper = .facadeTaken)
      (frame : Frame lease lease') (told : events = [.gaveBack .facade])
  | holdingsTaken (facadeTaken : lease.keeper = .facadeTaken)
      (becomes : lease' = { lease with
        state := { lease.state with slots := [], permit := none }, keeper := .holdingsTaken })
      (told : events = .gaveBack .slots :: drops lease.state.permit)
  | left (input : input = .leave) (holdingsTaken : lease.keeper = .holdingsTaken)
      (becomes : lease' = { lease with keeper := .gone }) (told : events = [.gaveBack .reservation])

/-- A call that is admitted finds a granted lease and is one the plan allows. -/
theorem admitCall_eq_ok {now : Nat} {call : CallKind} {started : LeaseCall}
    (h : lease.admitCall now call = .ok (lease', started)) :
    (∃ endsBy, lease.state.phase = .granted endsBy) ∧
      lease.plan.called lease.id call = .ok (started.device, started.capture) ∧
      started.cancelled = false ∧
      lease' = { lease with
        state := lease.state.callStarted started.capture, live := started :: lease.live } := by
  rw [admitCall] at h
  split at h
  · cases h
  · cases h
  · next endsBy hphase =>
      split at h
      · cases h
      · split at h
        · cases h
        · next device capture hcalled =>
            cases h
            exact ⟨⟨endsBy, hphase⟩, hcalled, rfl, rfl⟩

theorem called_eq_ok {plan : LeasePlan} {leaseId device : String} {call : CallKind} {capture : Bool}
    (h : plan.called leaseId call = .ok (device, capture)) :
    if capture then device ∈ plan.cameras else plan.moves device = true := by
  cases call with
  | capture cameraId =>
    rw [LeasePlan.called] at h
    split at h
    · next hheld =>
        cases h
        exact List.contains_iff_mem.mp hheld
    · cases h
  | move kind deviceId =>
    rw [LeasePlan.called] at h
    split at h
    · cases h
    · split at h
      · next hmoves =>
          cases h
          exact hmoves
      · cases h

/-- A step has one of the effects. -/
theorem step_effect {input : LeaseInput} (h : lease.step input = some (lease', events)) :
    Effect lease input lease' events := by
  have hsilent : ∀ e ∈ ([] : List LeaseEvent), ∃ why, e = .refused why := by
    intro e he
    cases he
  cases input with
  | hold slot =>
    cases h
    exact .frame ⟨rfl, rfl, ⟨rfl, rfl, rfl, rfl, rfl⟩, rfl⟩ rfl hsilent
  | holdPermit permit =>
    cases h
    exact .permitHeld permit rfl rfl rfl
  | recordFacade camera token =>
    cases h
    exact .frame ⟨rfl, rfl, ⟨rfl, rfl, rfl, rfl, rfl⟩, rfl⟩ rfl hsilent
  | facadeGranted now =>
    cases h
    exact .frame ⟨rfl, rfl, ⟨rfl, rfl, rfl, rfl, rfl⟩, rfl⟩ rfl hsilent
  | grant now maxDuration =>
    simp only [step] at h
    split at h
    · next why _ =>
        cases h
        exact .frame ⟨rfl, rfl, .refl, rfl⟩ rfl fun e he => ⟨why.why, List.mem_singleton.mp he⟩
    · next s hgrant =>
        cases h
        obtain ⟨hliving, rfl⟩ := LeaseState.grant_eq_ok hgrant
        exact .granted (later now maxDuration) now hliving rfl rfl
  | endWith why =>
    simp only [step] at h
    split at h
    · cases h
    · next hidle =>
        cases h
        exact .ended why rfl rfl rfl rfl (.inl ⟨hidle, rfl⟩) rfl
  | admitCall now call =>
    simp only [step] at h
    split at h
    · next why _ =>
        cases h
        exact .frame ⟨rfl, rfl, .refl, rfl⟩ rfl fun e he => ⟨why, List.mem_singleton.mp he⟩
    · next after started hadmit =>
        cases h
        obtain ⟨⟨endsBy, hphase⟩, hcalled, hfresh, hafter⟩ := admitCall_eq_ok hadmit
        exact .admitted now call rfl started endsBy hphase hfresh (called_eq_ok hcalled) hafter rfl
  | markCancelled call =>
    simp only [step] at h
    split at h
    · next hlive =>
        rw [markCancelled] at h
        split at h
        · next huncancelled =>
            cases h
            exact .marked call hlive huncancelled rfl rfl
        · cases h
          exact .frame ⟨rfl, rfl, .refl, rfl⟩ rfl hsilent
    · cases h
  | dropCall call now =>
    simp only [step] at h
    split at h
    · next hlive =>
        cases h
        exact .dropped call now hlive rfl rfl
    · cases h
  | startReturn =>
    simp only [step] at h
    split at h
    · cases h
      exact .frame ⟨rfl, rfl, .refl, rfl⟩ rfl hsilent
    · cases h
  | endUngranted =>
    simp only [step] at h
    split at h
    · cases h
      refine .ended .acquireFailed rfl rfl rfl rfl (.inl ⟨?_, rfl⟩) rfl
      intro hidle
      cases hidle
    · cases h
  | acquireReturned =>
    simp only [step] at h
    split at h
    · cases h
      exact .acquireReturned rfl rfl rfl rfl rfl rfl
    · cases h
  | decideDue now =>
    simp only [step] at h
    split at h
    · next why hwatching hdue =>
        cases h
        exact .decided now why hwatching hdue rfl rfl
    · cases h
  | endDue =>
    simp only [step] at h
    split at h
    · next why hkeeper =>
        cases h
        exact .ended why rfl rfl rfl rfl (.inr ⟨hkeeper, rfl⟩) rfl
    · cases h
  | dueRenewal now =>
    simp only [step] at h
    split at h
    · next s _ _ hdue =>
        cases h
        exact .frame ⟨rfl, rfl, LeaseState.dueRenewal_sameGate hdue, rfl⟩ rfl hsilent
    · cases h
  | observeEnding =>
    simp only [step] at h
    split at h
    · next hkeeper =>
        cases h
        exact .settling hkeeper.1 hkeeper.2 rfl rfl
    · cases h
  | observeQuiet =>
    simp only [step] at h
    split at h
    · next hkeeper =>
        cases h
        exact .quiet hkeeper.1 hkeeper.2 rfl rfl
    · cases h
  | takeFacade =>
    simp only [step] at h
    split at h
    · next hkeeper =>
        cases h
        exact .facadeTaken hkeeper rfl ⟨rfl, rfl, ⟨rfl, rfl, rfl, rfl, rfl⟩, rfl⟩ rfl
    · cases h
  | takeHoldings =>
    simp only [step] at h
    split at h
    · next hkeeper =>
        cases h
        exact .holdingsTaken hkeeper rfl rfl
    · cases h
  | leave =>
    simp only [step] at h
    split at h
    · next hkeeper =>
        cases h
        exact .left rfl hkeeper rfl rfl
    · cases h

/-- A step leaves the id and the plan. -/
theorem Effect.plan {input : LeaseInput} (h : Effect lease input lease' events) :
    lease'.id = lease.id ∧ lease'.plan = lease.plan := by
  cases h with
  | frame frame | facadeTaken _ _ frame => exact ⟨frame.id, frame.plan⟩
  | acquireReturned id plan | ended _ id plan => exact ⟨id, plan⟩
  | permitHeld _ _ becomes | granted _ _ _ becomes | admitted _ _ _ _ _ _ _ _ becomes
  | marked _ _ _ becomes | dropped _ _ _ becomes | decided _ _ _ _ becomes | settling _ _ becomes
  | quiet _ _ becomes | holdingsTaken _ becomes | left _ _ becomes =>
    subst becomes
    exact ⟨rfl, rfl⟩

/-- Only the keeper's last section takes the lease out of the world. -/
theorem Effect.gone_iff {input : LeaseInput} (h : Effect lease input lease' events)
    (stays : input.leaves = false) : lease'.keeper = .gone ↔ lease.keeper = .gone := by
  have hnever : lease.keeper ≠ .gone → lease'.keeper ≠ .gone →
      (lease'.keeper = .gone ↔ lease.keeper = .gone) :=
    fun hbefore hafter => ⟨fun h => absurd h hafter, fun h => absurd h hbefore⟩
  cases h with
  | frame _ keeper | acquireReturned _ _ _ _ keeper => rw [keeper]
  | ended _ _ _ _ _ keeper =>
    rcases keeper with ⟨_, hsame⟩ | ⟨hdue, hwatching⟩
    · rw [hsame]
    · refine hnever ?_ ?_
      · rw [hdue]
        exact Keeper.noConfusion
      · rw [hwatching]
        exact Keeper.noConfusion
  | permitHeld _ _ becomes | granted _ _ _ becomes | admitted _ _ _ _ _ _ _ _ becomes
  | marked _ _ _ becomes | dropped _ _ _ becomes =>
    subst becomes
    exact Iff.rfl
  | decided _ _ keeper _ becomes | settling keeper _ becomes | quiet keeper _ becomes
  | holdingsTaken keeper becomes =>
    subst becomes
    refine hnever ?_ Keeper.noConfusion
    rw [keeper]
    exact Keeper.noConfusion
  | facadeTaken quiet keeper =>
    refine hnever ?_ ?_
    · rw [quiet]
      exact Keeper.noConfusion
    · rw [keeper]
      exact Keeper.noConfusion
  | left input =>
    subst input
    cases stays

end Lease

end RustyPhoton.Rp.TrainLease
