import RustyPhoton.SharedTransport.Lifecycle

/-!
# The session count

`count` goes up once the lock is held and down again when the acquire fails or the session is
released. Two awaits are unguarded: an acquire that reuses the conduit waits for the slot with the
count already raised, and a close waits for the lock with its handle already taken.
-/

namespace RustyPhoton.SharedTransport

open Lib

/-! ## Acquires in progress -/

def Opener.acquires : Opener → Nat
  | .acquire => 1
  | .start => 0

/-- How many acquires have raised the count and not ended. -/
def Holder.acquiring : Holder → Nat
  | .releasing who | .emptying who | .opening who | .handshaking who _ | .asserting who _
  | .failing who | .publishing who _ => who.acquires
  | .reusing => 1
  | _ => 0

namespace Transport

variable {s s' : Transport}

/-- The count is that of the sessions not yet released and the acquires in progress. -/
def Exact (s : Transport) : Prop := s.count = s.sessions + s.holder.acquiring

/-- What a step does to the count: nothing, or one of four things, each by exactly one. -/
inductive Counts (s s' : Transport) : Prop where
  | stays (count : s'.count = s.count) (sessions : s'.sessions = s.sessions)
      (acquiring : s'.holder.acquiring = s.holder.acquiring)
  | acquires (count : s'.count = s.count + 1) (sessions : s'.sessions = s.sessions)
      (before : s.holder.acquiring = 0) (after : s'.holder.acquiring = 1)
  | handsOut (count : s'.count = s.count) (sessions : s'.sessions = s.sessions + 1)
      (before : s.holder.acquiring = 1) (after : s'.holder.acquiring = 0)
  | givesUp (count : s.count = s'.count + 1) (sessions : s'.sessions = s.sessions)
      (before : s.holder.acquiring = 1) (after : s'.holder.acquiring = 0)
  | releases (count : s.count = s'.count + 1) (sessions : s.sessions = s'.sessions + 1)
      (before : s.holder.acquiring = 0) (after : s'.holder.acquiring = 0)

theorem Exact.counts (h : s.Exact) (hcounts : Counts s s') : s'.Exact := by
  unfold Exact at h ⊢
  cases hcounts with
  | stays hcount hsessions hacquiring => omega
  | acquires hcount hsessions hbefore hafter => omega
  | handsOut hcount hsessions hbefore hafter => omega
  | givesUp hcount hsessions hbefore hafter => omega
  | releases hcount hsessions hbefore hafter => omega

/-! ## One step -/

theorem oneMore_eq {count : Nat} (room : count + 1 < u32) : oneMore count = count + 1 :=
  Nat.mod_eq_of_lt room

theorem oneLess_eq {count : Nat} (h : 0 < count) : count = oneLess count + 1 := by
  unfold oneLess
  rw [if_neg (by omega)]
  omega

/-- Nothing that is counted changes. -/
structure SameCount (s s' : Transport) : Prop where
  count : s'.count = s.count
  sessions : s'.sessions = s.sessions

theorem SameCount.counts (same : SameCount s s')
    (hacquiring : s'.holder.acquiring = s.holder.acquiring) : Counts s s' :=
  .stays same.count same.sessions hacquiring

theorem sameCount_land (run : HookRun) (verdict : StateAssertion) :
    SameCount s (s.land run verdict) := by
  unfold land
  split
  · exact ⟨rfl, rfl⟩
  · exact ⟨rfl, rfl⟩

theorem holder_land (run : HookRun) (verdict : StateAssertion) :
    (s.land run verdict).holder = s.holder := by
  unfold land
  split
  · rfl
  · rfl

theorem acquiring_acquire (hfree : s.holder = .free) (room : s.count + 1 < u32) :
    Counts s s.acquire := by
  have hbefore : s.holder.acquiring = 0 := by rw [hfree]; rfl
  unfold acquire
  split
  · exact .stays rfl rfl rfl
  · split
    · exact .acquires (oneMore_eq room) rfl hbefore rfl
    · exact .acquires (oneMore_eq room) rfl hbefore rfl

theorem acquiring_lastReleased (hfree : s.holder = .free) : SameCount s s.lastReleased ∧
    s.lastReleased.holder.acquiring = 0 := by
  rw [lastReleased]
  split
  · exact ⟨⟨rfl, rfl⟩, rfl⟩
  · exact ⟨⟨rfl, rfl⟩, rfl⟩

/-- A session that is released is counted. -/
theorem acquiring_release (h : s.Exact) (hfree : s.holder = .free) (hsession : 0 < s.sessions) :
    Counts s s.release := by
  have hbefore : s.holder.acquiring = 0 := by rw [hfree]; rfl
  have hcount : 0 < s.count := by
    unfold Exact at h
    omega
  unfold release
  split
  · obtain ⟨same, hafter⟩ := acquiring_lastReleased
      (s := { s with count := oneLess s.count, sessions := s.sessions - 1 }) hfree
    refine .releases ?_ ?_ hbefore hafter
    · rw [same.count]
      exact oneLess_eq hcount
    · rw [same.sessions]
      show s.sessions = s.sessions - 1 + 1
      omega
  · refine .releases (oneLess_eq hcount) ?_ hbefore (by rw [← hbefore])
    show s.sessions = s.sessions - 1 + 1
    omega

theorem acquiring_start (hfree : s.holder = .free) : Counts s s.start := by
  have hbefore : s.holder.acquiring = 0 := by rw [hfree]; rfl
  unfold start
  split
  · exact .stays rfl rfl rfl
  · split
    · exact .stays rfl rfl hbefore.symm
    · exact .stays rfl rfl hbefore.symm

theorem acquiring_shutdown (hfree : s.holder = .free) : Counts s s.shutdown := by
  have hbefore : s.holder.acquiring = 0 := by rw [hfree]; rfl
  unfold shutdown
  split
  · exact .stays rfl rfl hbefore.symm
  · exact .stays rfl rfl rfl

/-- An open that ends without a session takes its count back. -/
theorem acquiring_failOpen (h : s.Exact) {who : Opener}
    (hholder : s.holder.acquiring = who.acquires) : Counts s (s.failOpen who) := by
  cases who with
  | acquire =>
    have hcount : 0 < s.count := by
      unfold Exact at h
      rw [hholder] at h
      exact h ▸ Nat.succ_pos _
    exact .givesUp (oneLess_eq hcount) rfl hholder rfl
  | start => exact .stays rfl rfl hholder.symm

theorem acquiring_handshaken {conduit : Nat} {who : Opener}
    (hholder : s.holder.acquiring = who.acquires) : Counts s (s.handshaken conduit who) := by
  cases who with
  | acquire =>
    rw [handshaken]
    split
    · exact .stays rfl rfl hholder.symm
    · exact .stays rfl rfl hholder.symm
  | start =>
    rw [handshaken]
    exact .stays rfl rfl hholder.symm

theorem acquiring_asserted {who : Opener} {replay : Replay} (verdict : StateAssertion)
    (hholder : s.holder.acquiring = who.acquires) :
    Counts s (s.asserted who replay verdict) := by
  have same := sameCount_land (s := s) replay.hook verdict
  unfold asserted
  split
  · exact .stays same.count same.sessions hholder.symm
  · exact .stays same.count same.sessions hholder.symm

theorem acquiring_publish {conduit : Nat} {who : Opener}
    (hholder : s.holder.acquiring = who.acquires) : Counts s (s.publish conduit who) := by
  cases who with
  | acquire => exact .handsOut rfl rfl hholder rfl
  | start => exact .stays rfl rfl hholder.symm

theorem acquiring_cleanedUp : SameCount s s.cleanedUp ∧ s.cleanedUp.holder.acquiring = 0 := by
  unfold cleanedUp
  split
  · exact ⟨⟨rfl, rfl⟩, rfl⟩
  · exact ⟨⟨rfl, rfl⟩, rfl⟩

theorem sameCount_oweStop : SameCount s s.oweStop := by
  unfold oweStop
  split
  · exact ⟨rfl, rfl⟩
  · exact ⟨rfl, rfl⟩

theorem acquiring_stopped {run : HookRun} (verdict : StateAssertion)
    (hbefore : s.holder.acquiring = 0) : Counts s (s.stopped run verdict) := by
  have same := sameCount_land (s := s) run verdict
  unfold stopped
  split
  · have howed := sameCount_oweStop (s := s.land run verdict)
    obtain ⟨hclean, hafter⟩ := acquiring_cleanedUp (s := (s.land run verdict).oweStop)
    refine .stays ?_ ?_ (hafter.trans hbefore.symm)
    · rw [hclean.count, howed.count, same.count]
    · rw [hclean.sessions, howed.sessions, same.sessions]
  · obtain ⟨hclean, hafter⟩ := acquiring_cleanedUp (s := s.land run verdict)
    refine .stays ?_ ?_ (hafter.trans hbefore.symm)
    · rw [hclean.count, same.count]
    · rw [hclean.sessions, same.sessions]

/-- The holder from await to await. -/
theorem acquiring_resume (h : s.Exact) {answer : Answer} (hnext : s.resume answer = some s') :
    Counts s s' := by
  rw [resume.eq_def] at hnext
  split at hnext
  case h_24 => cases hnext
  case h_4 who hholder | h_5 who _ hholder | h_6 who hholder =>
    cases hnext
    exact acquiring_failOpen h (by rw [hholder]; rfl)
  case h_7 who conduit hholder =>
    cases hnext
    exact acquiring_handshaken (by rw [hholder]; rfl)
  case h_8 who replay verdict hholder =>
    cases hnext
    exact acquiring_asserted verdict (by rw [hholder]; rfl)
  case h_9 who conduit hholder =>
    cases hnext
    exact acquiring_publish (by rw [hholder]; rfl)
  case h_10 hholder =>
    have hbefore : s.holder.acquiring = 1 := by rw [hholder]; rfl
    have hcount : 0 < s.count := by
      unfold Exact at h
      omega
    split at hnext
    · rw [← Option.some.inj hnext]
      exact .handsOut rfl rfl hbefore rfl
    · rw [← Option.some.inj hnext]
      exact .givesUp (oneLess_eq hcount) rfl hbefore rfl
  case h_14 hholder =>
    have hbefore : s.holder.acquiring = 0 := by rw [hholder]; rfl
    split at hnext
    · cases hnext
      exact .stays rfl rfl hbefore.symm
    · cases hnext
      obtain ⟨same, hafter⟩ := acquiring_cleanedUp (s := s)
      exact same.counts (hafter.trans hbefore.symm)
  case h_16 run verdict hholder =>
    cases hnext
    exact acquiring_stopped verdict (by rw [hholder]; rfl)
  all_goals
    rename_i hholder
    cases hnext
    exact .stays rfl rfl (by rw [hholder]; rfl)

/-- A holder that is dropped, unless it waits for the slot of a conduit it reuses. -/
theorem acquiring_dropHolder (h : s.Exact) (hreusing : s.holder ≠ .reusing)
    (hnext : s.dropHolder = some s') : Counts s s' := by
  rw [dropHolder.eq_def] at hnext
  split at hnext
  case h_1 => cases hnext
  case h_2 who hholder | h_3 who hholder | h_4 who hholder | h_5 who _ hholder
  | h_6 who _ hholder | h_7 who hholder | h_8 who _ hholder =>
    cases hnext
    exact acquiring_failOpen h (by rw [hholder]; rfl)
  case h_9 hholder =>
    cases hnext
    exact acquiring_failOpen h (by rw [hholder]; rfl)
  case h_10 hholder =>
    cases hnext
    have same := sameCount_oweStop (s := s)
    exact .stays same.count same.sessions (by rw [hholder]; rfl)
  case h_11 hholder => exact absurd hholder hreusing
  all_goals
    rename_i hholder
    cases hnext
    exact .stays rfl rfl (by rw [hholder]; rfl)

/-- A step beside the lock. -/
structure Beside (s s' : Transport) : Prop extends SameCount s s' where
  holder : s'.holder = s.holder

theorem Beside.counts (same : Beside s s') : Counts s s' :=
  .stays same.count same.sessions (by rw [same.holder])

theorem beside_commitReplacement (conduit failures : Nat) (paying : Option Nat)
    (verdict : StateAssertion) : Beside s (s.commitReplacement conduit failures paying verdict) := by
  unfold commitReplacement
  split
  · exact ⟨⟨rfl, rfl⟩, rfl⟩
  · cases paying with
    | none =>
      show Beside s (if s.debtOutstanding then s.attemptGoesTo (some .failing)
        else s.endAttempt .checking)
      split
      · exact ⟨⟨rfl, rfl⟩, rfl⟩
      · exact ⟨⟨rfl, rfl⟩, rfl⟩
    | some count =>
      show Beside s (if (s.pay count).debtOutstanding then
        (s.pay count).attemptGoesTo (some .failing) else (s.pay count).endAttempt .checking)
      split
      · exact ⟨⟨rfl, rfl⟩, rfl⟩
      · exact ⟨⟨rfl, rfl⟩, rfl⟩

theorem beside_resumeAttempt {answer : Answer} (hnext : s.resumeAttempt answer = some s') :
    Beside s s' := by
  rw [resumeAttempt.eq_def] at hnext
  split at hnext
  case h_2 | h_8 =>
    split at hnext
    · cases hnext
      exact ⟨⟨rfl, rfl⟩, rfl⟩
    · cases hnext
      exact ⟨⟨rfl, rfl⟩, rfl⟩
  case h_9 =>
    split at hnext
    · cases hnext
      exact ⟨⟨rfl, rfl⟩, rfl⟩
    · cases hnext
      exact beside_commitReplacement _ _ _ _
  case h_10 replay failures verdict _ =>
    cases hnext
    have hland := sameCount_land (s := s) replay.hook verdict
    have same := beside_commitReplacement (s := s.land replay.hook verdict) replay.hook.conduit
      failures (some replay.paying) verdict
    exact ⟨⟨same.count.trans hland.count, same.sessions.trans hland.sessions⟩,
      same.holder.trans (holder_land _ _)⟩
  case h_11 => cases hnext
  all_goals
    cases hnext
    exact ⟨⟨rfl, rfl⟩, rfl⟩

theorem beside_publishRecovery (hnext : s.publishRecovery = some s') : Beside s s' := by
  rw [publishRecovery.eq_def] at hnext
  split at hnext
  case h_1 | h_2 | h_3 =>
    cases hnext
    exact ⟨⟨rfl, rfl⟩, rfl⟩
  case h_4 =>
    split at hnext
    · cases hnext
      exact ⟨⟨rfl, rfl⟩, rfl⟩
    · cases hnext
      exact ⟨⟨rfl, rfl⟩, rfl⟩
  all_goals cases hnext

/-! ## Runs -/

/-- No acquire is dropped while it waits for the slot of a conduit it reuses, no close while it waits
for the lock, and the count does not come round. -/
def NotDroppedUnguarded (_ : List Unit) (s : Transport) : LifecycleInput → Prop
  | .acquire => s.count + 1 < u32
  | .drop => s.holder ≠ .reusing
  | .dropClose => False
  | _ => True

instance (log : List Unit) (s : Transport) (input : LifecycleInput) :
    Decidable (NotDroppedUnguarded log s input) :=
  match input with
  | .acquire => inferInstanceAs (Decidable (_ < _))
  | .drop => inferInstanceAs (Decidable (_ ≠ _))
  | .dropClose => inferInstanceAs (Decidable False)
  | .release | .start | .shutdown | .resume _ | .beginAttempt | .resumeAttempt _ | .dropAttempt
  | .hearSignal | .publishRecovery | .wireFailure _ => inferInstanceAs (Decidable True)

theorem Exact.next (h : s.Exact) {log : List Unit} {input : LifecycleInput}
    (ok : NotDroppedUnguarded log s input) (hnext : s.next input = some s') : Counts s s' := by
  cases input with
  | acquire =>
    rw [Transport.next] at hnext
    split at hnext
    · next hfree =>
        cases hnext
        exact acquiring_acquire hfree ok
    · cases hnext
  | release =>
    rw [Transport.next] at hnext
    split at hnext
    · next hfree =>
        cases hnext
        exact acquiring_release h hfree.1 hfree.2
    · cases hnext
  | start =>
    rw [Transport.next] at hnext
    split at hnext
    · next hfree =>
        cases hnext
        exact acquiring_start hfree
    · cases hnext
  | shutdown =>
    rw [Transport.next] at hnext
    split at hnext
    · next hfree =>
        cases hnext
        exact acquiring_shutdown hfree
    · cases hnext
  | resume answer => exact acquiring_resume h hnext
  | drop => exact acquiring_dropHolder h ok hnext
  | dropClose => exact absurd ok id
  | beginAttempt =>
    rw [Transport.next, Transport.beginAttempt] at hnext
    split at hnext
    · cases hnext
      exact .stays rfl rfl rfl
    · cases hnext
  | resumeAttempt answer => exact (beside_resumeAttempt hnext).counts
  | dropAttempt | hearSignal =>
    rw [Transport.next] at hnext
    split at hnext
    · cases hnext
      exact .stays rfl rfl rfl
    · cases hnext
  | publishRecovery => exact (beside_publishRecovery hnext).counts
  | wireFailure conduit =>
    cases hnext
    exact .stays rfl rfl rfl

/-- In every run in which nothing is dropped at an unguarded await, the count is exact in every
state, and every step changes it by what it does: an acquire that ends without a session takes back
the one it added, and a release takes its own, once and from a count above zero. -/
theorem refcount_exact {inputs : List LifecycleInput} {log : List Unit}
    (h : History step NotDroppedUnguarded new inputs log s) :
    s.Exact ∧ ∀ input s' events, NotDroppedUnguarded log s input →
      s.step input = some (s', events) → Counts s s' := by
  have hexact : s.Exact := by
    refine h.invariant (fun _ s => s.Exact) rfl ?_
    intro log s input s' events hexact ok hstep
    obtain ⟨after, hnext, heq⟩ := Option.map_eq_some_iff.mp hstep
    cases heq
    exact hexact.counts (hexact.next ok hnext)
  refine ⟨hexact, ?_⟩
  intro input s' events ok hstep
  obtain ⟨after, hnext, heq⟩ := Option.map_eq_some_iff.mp hstep
  cases heq
  exact hexact.next ok hnext

end Transport

/-! ## Two dropped futures -/

namespace Evaluation

open Transport

/-- A cold start. -/
def coldStart : List LifecycleInput :=
  [.start, .resume .ok, .resume .ok, .resume .ok, .resume .ok, .resume (.verdict .asserted),
    .resume .ok, .resume .ok]

/-- A session is handed out and released, and an acquire is dropped on its way to a conduit. -/
def guardedDrop : List LifecycleInput :=
  [.acquire, .resume .ok, .resume .ok, .drop, .acquire, .resume .ok, .resume .ok, .resume .ok,
    .resume .ok, .resume .ok, .acquire, .resume .ok, .release]

theorem guarded_drop_exact :
    ∃ log s, History step NotDroppedUnguarded new guardedDrop log s ∧ s.count = 1 ∧
      s.sessions = 1 ∧ s.Exact := by
  have hrun : History step NotDroppedUnguarded new guardedDrop _ _ := History.of_play rfl
  exact ⟨_, _, hrun, rfl, rfl, (refcount_exact hrun).1⟩

/-- While a reconnect attempt holds the slot, an acquire that waits for it is dropped. -/
def dropInReuse : List LifecycleInput :=
  coldStart ++ [.hearSignal, .beginAttempt, .resumeAttempt .ok, .resumeAttempt .ok,
    .resumeAttempt .ok, .resumeAttempt .ok, .acquire, .drop]

/-- A session is handed out, and its close is dropped while it waits for the lock. -/
def dropInClose : List LifecycleInput := coldStart ++ [.acquire, .resume .ok, .dropClose]

/-- Either leaves the count at one, with no session out and the lock free. -/
theorem unguarded_drop_leaks :
    (¬ ∀ inputs log s, History step (fun _ _ _ => True) new inputs log s → s.Exact) ∧
      ∃ log s, History step (fun _ _ _ => True) new dropInClose log s ∧ s.holder = .free ∧
        s.sessions = 0 ∧ s.count = 1 := by
  constructor
  · intro h
    have hrun : History step (fun _ _ _ => True) new dropInReuse _ _ := History.of_play rfl
    have hexact := h _ _ _ hrun
    cases hexact
  · have hrun : History step (fun _ _ _ => True) new dropInClose _ _ := History.of_play rfl
    exact ⟨_, _, hrun, rfl, rfl, rfl⟩

end Evaluation

end RustyPhoton.SharedTransport
