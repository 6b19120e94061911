import RustyPhoton.Phd2Guider.LeaseMemory
import RustyPhoton.Phd2Guider.Tasks

/-!
# Guiding and the facade exclude each other

A mutation holds the guiding lock from before its check to its return, and both holds of the camera
are granted under that lock only. What the others do without the lock ends a hold or keeps the lease
that is live. So what the check saw stays so.
-/

namespace RustyPhoton.Phd2Guider

/-! ## The lease without the lock -/

namespace LeaseBook

/-- A lease is held under a token, and its TTL has not run out. -/
def Live (book : LeaseBook) (token : Token) (now : Nat) : Prop :=
  ∃ held, book.held = some held ∧ held.token = token ∧ now < held.expires

section

variable {book : LeaseBook} {token other : Token} {now asked : Nat}

theorem Live.mono {later : Nat} (h : book.Live token later) (hle : now ≤ later) :
    book.Live token now := by
  obtain ⟨held, hheld, htoken, hlive⟩ := h
  exact ⟨held, hheld, htoken, Nat.lt_of_le_of_lt hle hlive⟩

theorem held_of_settle {held : Held} (h : (book.settle asked).held = some held) :
    book.held = some held ∧ asked < held.expires := by
  rw [settle_held, lapse] at h
  cases hheld : book.held with
  | none => simp [hheld] at h
  | some before =>
    simp only [hheld] at h
    split at h
    · cases h
    · rename_i hlive
      rw [hheld] at h
      cases h
      exact ⟨rfl, Nat.lt_of_not_le hlive⟩

theorem live_of_settle (h : (book.settle asked).Live token now) : book.Live token now := by
  obtain ⟨held, hheld, hrest⟩ := h
  exact ⟨held, (held_of_settle hheld).1, hrest⟩

theorem endLease_held (why : LeaseEnd) : (book.endLease why now).2.held = none := by
  unfold endLease
  cases h : (book.settle now).held with
  | none => simp only [h]
  | some held => simp only [h]

theorem not_live_endLease (why : LeaseEnd) {instant : Nat} :
    ¬ (book.endLease why now).2.Live token instant := by
  rintro ⟨held, hheld, -⟩
  rw [endLease_held] at hheld
  cases hheld

theorem live_of_release (h : (book.release token now).2.Live other now) :
    other ≠ token ∧ book.Live other now := by
  obtain ⟨held, hheld, rfl, hlive⟩ := h
  by_cases hmine : ((book.settle now).held.filter fun held => held.token = token).isSome
  · have hnone : (book.release token now).2.held = none := by
      simp only [release, if_pos hmine]
      exact endLease_held .released
    rw [hnone] at hheld
    cases hheld
  · have hsame : (book.release token now).2.held = (book.settle now).held := by
      simp only [release, if_neg hmine]
      split <;> rfl
    rw [hsame] at hheld
    refine ⟨?_, held, (held_of_settle hheld).1, rfl, hlive⟩
    intro htoken
    apply hmine
    rw [hheld]
    simp [htoken]

variable {wall : Nat → Nat → String}

theorem live_of_checkGrant (h : (book.checkGrant wall token now).2.Live other now) :
    book.Live other now := live_of_settle h

/-- A renewal finds the lease live, and leaves no other. -/
theorem live_of_renew (h : (book.renew wall token now).2.Live other now) : book.Live other now := by
  unfold renew at h
  cases hmine : (book.settle now).held.filter fun held => held.token = token with
  | none =>
    simp only [hmine] at h
    split at h <;> exact live_of_settle h
  | some held =>
    simp only [hmine] at h
    obtain ⟨renewed, hrenewed, rfl, -⟩ := h
    cases hrenewed
    obtain ⟨hheld, -⟩ := Option.filter_eq_some_iff.mp hmine
    obtain ⟨hbefore, hlive⟩ := held_of_settle hheld
    exact ⟨held, hbefore, rfl, hlive⟩

theorem live_of_renewed {granted : Granted} {after : LeaseBook}
    (h : book.renew wall token now = (.ok granted, after)) : book.Live token now := by
  unfold renew at h
  cases hmine : (book.settle now).held.filter fun held => held.token = token with
  | none =>
    simp only [hmine] at h
    split at h <;> cases h
  | some held =>
    obtain ⟨hheld, htoken⟩ := Option.filter_eq_some_iff.mp hmine
    obtain ⟨hbefore, hlive⟩ := held_of_settle hheld
    exact ⟨held, hbefore, of_decide_eq_true htoken, hlive⟩

theorem live_of_refused {ttlS : Nat} {refusal : String} {after : LeaseBook}
    (h : book.grant wall token ttlS now = (.error refusal, after)) (hlive : after.Live other now) :
    book.Live other now := by
  unfold grant at h
  split at h
  · cases h
    rename_i hcheck
    rw [show after = (book.checkGrant wall token now).2 by rw [hcheck]] at hlive
    exact live_of_checkGrant hlive
  · cases h

theorem live_of_granted {ttlS : Nat} {granted : Granted} {after : LeaseBook}
    (h : book.grant wall token ttlS now = (.ok granted, after)) (hlive : after.Live other now) :
    other = token := by
  unfold grant at h
  split at h
  · cases h
  · cases h
    obtain ⟨held, hheld, rfl, -⟩ := hlive
    cases hheld
    rfl

theorem live_of_heldUntil (h : (book.heldUntil asked).2.Live other now) : book.Live other now :=
  live_of_settle h

/-- A lease that was not held at an earlier reading of the clock is not live. -/
theorem not_live_of_heldUntil (h : (book.heldUntil asked).1 = none) (hle : asked ≤ now) :
    ¬ book.Live other now := by
  rintro ⟨held, hheld, -, hlive⟩
  have hsettled : (book.settle asked).held = some held := by
    rw [settle_held, lapse, hheld]
    simp only
    rw [if_neg (Nat.not_le_of_lt (Nat.lt_of_le_of_lt hle hlive)), hheld]
  simp [heldUntil, hsettled] at h

end

end LeaseBook

/-! ## What a step of a task may do -/

def StoppedLock.holds : StoppedLock → Bool
  | .trying => false
  | _ => true

/-- Whether a task holds the guiding lock. -/
def Task.holds : Task → Bool
  | .mutation _ .waiting | .stop .waiting | .abort _ _ .waiting | .abort _ _ (.releasing _) => false
  | .mutation _ _ | .stop _ | .abort _ _ _ | .ending _ _ | .recovered _ _ _ => true
  | .capture _ (.locking stage) | .acquire _ (.locking stage) => stage.holds
  | .capture _ _ | .acquire _ .granting => true
  | _ => false

def Task.mutating : Task → Bool
  | .mutation _ _ => true
  | _ => false

/-- A mutation that is at its check, or past it and not returned. -/
def Task.underway (task : Task) : Bool := task.mutating && task.holds

def Effect.grants : Effect → Bool
  | .captureGranted | .leaseGranted _ => true
  | _ => false

/-- No hold of the camera comes about. -/
structure Shrinks (now : Nat) (ops ops' : GuiderOps) : Prop where
  slot : ∀ instant, ops.captureClaim instant = none → ops'.captureClaim instant = none
  lease : ∀ token, ops'.lease.Live token now → ops.lease.Live token now

/-- What a step of a task may do to the lock and to the holds. -/
structure Sound (now number : Nat) (ops : GuiderOps) (stage : Task) (after : Advance) : Prop where
  lock : after.ops.opLock =
    if after.task.holds then some number else if stage.holds then none else ops.opLock
  free : after.task.holds = true → stage.holds = false → ops.opLock = none
  slot : after.effect ≠ .captureGranted →
    ∀ instant, ops.captureClaim instant = none → after.ops.captureClaim instant = none
  lease : ∀ token, after.effect ≠ .leaseGranted token → after.ops.lease.Live token now →
    ops.lease.Live token now
  grants : after.effect.grants = true → stage.holds = true ∧ stage.mutating = false
  rpc : after.effect = .mutationRpc → ∃ operation rpc, stage = .mutation operation (.sending rpc)
  renews : ∀ token, after.effect ≠ .leaseRenewed token
  kind : after.task.mutating = true → stage.mutating = true
  spawned : ∀ task ∈ after.spawned, task.holds = false ∧ task.mutating = false

namespace GuiderOps

variable {ops ops' : GuiderOps} {now number : Nat} {stage task : Task} {input : TaskInput}
  {after : Advance}

theorem shrinks_of_eq (hcapture : ops'.capture = ops.capture) (hlease : ops'.lease = ops.lease) :
    Shrinks now ops ops' := by
  refine ⟨fun instant h => ?_, fun token h => ?_⟩
  · rw [captureClaim, hcapture]
    exact h
  · rw [← hlease]
    exact h

theorem shrinks_lease {book : LeaseBook}
    (h : ∀ token, book.Live token now → ops.lease.Live token now) :
    Shrinks now ops { ops with lease := book } := ⟨fun _ hnone => hnone, h⟩

theorem shrinks_mark : Shrinks now ops ops.markCaptureStopped := by
  refine ⟨fun instant h => ?_, fun token h => h⟩
  unfold captureClaim markCaptureStopped at *
  cases hclaim : ops.capture with
  | none => rfl
  | some claim => simpa [hclaim, Option.filter] using h

theorem shrinks_release (path : String) : Shrinks now ops (ops.releaseCapture path) := by
  unfold releaseCapture
  split
  · exact ⟨fun instant _ => rfl, fun token h => h⟩
  · exact ⟨fun instant h => h, fun token h => h⟩

/-- A step that leaves the lock where it is. -/
theorem sound_go (hheld : stage.holds = true → ops.opLock = some number)
    (hshrinks : Shrinks now ops ops') (hlock : ops'.opLock = ops.opLock)
    (hholds : task.holds = stage.holds) (hkind : task.mutating = true → stage.mutating = true) :
    Sound now number ops stage (ops'.go task) := by
  refine ⟨?_, ?_, fun _ => hshrinks.slot, fun token _ => hshrinks.lease token, nofun, nofun, nofun,
    hkind, List.forall_mem_nil _⟩
  · show ops'.opLock = if task.holds then _ else if stage.holds then _ else _
    rw [hholds, hlock]
    cases h : stage.holds with
    | false => rfl
    | true => exact hheld h
  · intro hafter hbefore
    rw [show task.holds = true from hafter] at hholds
    rw [← hholds] at hbefore
    cases hbefore

/-- A step that gives the lock up. -/
theorem sound_unlock (hshrinks : Shrinks now ops ops') (hstage : stage.holds = true)
    (hholds : task.holds = false) (hkind : task.mutating = true → stage.mutating = true)
    {spawned : List Task}
    (hspawned : ∀ task ∈ spawned, task.holds = false ∧ task.mutating = false) :
    Sound now number ops stage ⟨ops'.unlock, task, .quiet, spawned⟩ := by
  refine ⟨?_, ?_, fun _ => hshrinks.slot, fun token _ => hshrinks.lease token, nofun, nofun, nofun,
    hkind, hspawned⟩
  · show none = if task.holds then _ else if stage.holds then _ else _
    rw [hholds, hstage]
    rfl
  · intro hafter
    rw [show task.holds = true from hafter] at hholds
    cases hholds

theorem sound_leave (outcome : Outcome) (hshrinks : Shrinks now ops ops')
    (hstage : stage.holds = true) : Sound now number ops stage (ops'.leave outcome) :=
  sound_unlock hshrinks hstage rfl (fun h => by cases h) (List.forall_mem_nil _)

theorem tryLock_eq (h : ops.tryLock number = some ops') :
    ops.opLock = none ∧ ops' = { ops with opLock := some number } := by
  unfold tryLock at h
  cases hlock : ops.opLock with
  | none =>
    simp only [hlock, Option.some.injEq] at h
    exact ⟨rfl, h.symm⟩
  | some other => simp [hlock] at h

/-- A step that takes the lock. -/
theorem sound_tryLock (h : (do let ops ← ops.tryLock number; pure (ops.go task)) = some after)
    (hstage : stage.holds = false) (hholds : task.holds = true)
    (hkind : task.mutating = true → stage.mutating = true) : Sound now number ops stage after := by
  obtain ⟨locked, htry, hafter⟩ := Option.bind_eq_some_iff.mp h
  obtain ⟨hfree, rfl⟩ := tryLock_eq htry
  cases hafter
  refine ⟨?_, fun _ _ => hfree, fun _ instant hnone => hnone, fun token _ hlive => hlive, nofun, nofun,
    nofun, hkind, List.forall_mem_nil _⟩
  show some number = if task.holds then _ else _
  rw [hholds]
  rfl

/-- A step of the lock that is taken only while PHD2 is Stopped, by a task `follow` continues. -/
theorem sound_lockWhileStopped {lockStage : StoppedLock}
    {result : StoppedLock ⊕ Except StoppedLockError Unit} (stage : Task)
    (follow : StoppedLock ⊕ Except StoppedLockError Unit → Task)
    (h : ops.lockWhileStopped now number lockStage input = some (ops', result))
    (hheld : stage.holds = true → ops.opLock = some number)
    (hstage : stage.holds = lockStage.holds)
    (hkind : ∀ result, (follow result).mutating = false)
    (hnext : ∀ lockStage, (follow (.inl lockStage)).holds = lockStage.holds)
    (hdone : (follow (.inr (.ok ()))).holds = true)
    (herror : ∀ e, (follow (.inr (.error e))).holds = false) :
    Sound now number ops stage (ops'.go (follow result)) := by
  have hnot : ∀ result, (follow result).mutating = true → stage.mutating = true := by
    intro result hmutating
    rw [hkind] at hmutating
    cases hmutating
  have hsame : Shrinks now ops ops := shrinks_of_eq rfl rfl
  unfold lockWhileStopped at h
  split at h
  -- the lock is tried
  · cases htry : ops.tryLock number with
    | none =>
      simp only [htry, Option.some.injEq, Prod.mk.injEq] at h
      obtain ⟨rfl, rfl⟩ := h
      exact sound_go hheld hsame rfl ((herror _).trans hstage.symm) (hnot _)
    | some locked =>
      simp only [htry, Option.some.injEq, Prod.mk.injEq] at h
      obtain ⟨rfl, rfl⟩ := h
      have htaken : (do
          let ops ← ops.tryLock number
          pure (ops.go (follow (.inl .checkingSlot)))) =
            some (locked.go (follow (.inl .checkingSlot))) := by
        rw [htry]
        rfl
      exact sound_tryLock htaken hstage (hnext .checkingSlot) (hnot _)
  -- under the lock
  · cases hclaim : ops.captureClaim now with
    | none =>
      simp only [hclaim, Option.some.injEq, Prod.mk.injEq] at h
      obtain ⟨rfl, rfl⟩ := h
      exact sound_go hheld hsame rfl ((hnext _).trans hstage.symm) (hnot _)
    | some claim =>
      simp only [hclaim, Option.some.injEq, Prod.mk.injEq] at h
      obtain ⟨rfl, rfl⟩ := h
      exact sound_unlock hsame hstage (herror _) (hnot _) (List.forall_mem_nil _)
  · cases h
    exact sound_go hheld hsame rfl ((hnext _).trans hstage.symm) (hnot _)
  · cases h
    exact sound_unlock hsame hstage (herror _) (hnot _) (List.forall_mem_nil _)
  · split at h <;> cases h
    · exact sound_go hheld hsame rfl (hdone.trans hstage.symm) (hnot _)
    · exact sound_unlock hsame hstage (herror _) (hnot _) (List.forall_mem_nil _)
  · cases h
    exact sound_unlock hsame hstage (herror _) (hnot _) (List.forall_mem_nil _)
  · cases h

/-! ## The tasks, one by one -/

variable {rfc3339 : Nat → String} {wall : Nat → Nat → String} {grace stopTimeout : Nat}
  {stopTimeoutText : String}

theorem mutate_sound {operation : Mutation} {mutationStage : MutationStage}
    (h : ops.mutate rfc3339 wall now number operation mutationStage input = some after)
    (hheld : (Task.mutation operation mutationStage).holds = true → ops.opLock = some number) :
    Sound now number ops (.mutation operation mutationStage) after := by
  have hsame : Shrinks now ops ops := shrinks_of_eq rfl rfl
  unfold mutate at h
  split at h
  · exact sound_tryLock h rfl rfl id
  · split at h <;> cases h
    · exact sound_leave _ hsame rfl
    · exact sound_go hheld hsame rfl rfl id
  · cases h
    exact sound_go hheld hsame rfl rfl id
  · rename_i asked
    have hlease : Shrinks now ops { ops with lease := (ops.lease.heldUntil asked).2 } :=
      shrinks_lease fun token => LeaseBook.live_of_heldUntil
    dsimp only at h
    split at h <;> cases h
    · exact sound_leave _ hlease rfl
    · exact sound_go hheld hlease rfl rfl id
  · -- the request is sent
    rename_i rpc
    cases h
    exact ⟨hheld rfl, nofun, fun _ instant hnone => hnone, fun token _ hlive => hlive, nofun,
      fun _ => ⟨operation, rpc, rfl⟩, nofun, id, List.forall_mem_nil _⟩
  · cases h
    exact sound_leave _ hsame rfl
  · split at h <;> cases h
    · exact sound_go hheld hsame rfl rfl id
    · exact sound_leave _ hsame rfl
  · cases h
    exact sound_leave _ hsame rfl
  · split at h <;> cases h
    · exact sound_go hheld hsame rfl rfl id
    · exact sound_leave _ hsame rfl
  · cases h
    exact sound_leave _ hsame rfl
  · cases h

theorem stop_sound {stopStage : StopStage}
    (h : ops.stop stopTimeout stopTimeoutText now number stopStage input = some after)
    (hheld : (Task.stop stopStage).holds = true → ops.opLock = some number) :
    Sound now number ops (.stop stopStage) after := by
  have hsame : Shrinks now ops ops := shrinks_of_eq rfl rfl
  unfold stop at h
  split at h
  · exact sound_tryLock h rfl rfl id
  · cases h
    exact sound_go hheld
      (shrinks_lease fun token hlive => absurd hlive (LeaseBook.not_live_endLease .stopped)) rfl rfl id
  · cases h
    exact sound_go hheld hsame rfl rfl id
  case h_4 | h_5 | h_6 =>
    cases h
    exact sound_leave _ hsame rfl
  · cases h
    exact sound_go hheld hsame rfl rfl id
  · split at h
    · cases h
      exact sound_go hheld hsame rfl rfl id
    · split at h <;> cases h
      · exact sound_leave _ hsame rfl
      · exact sound_go hheld hsame rfl rfl id
  · cases h
    exact sound_go hheld shrinks_mark rfl rfl id
  · cases h
    exact sound_go hheld hsame rfl rfl id
  · cases h
    exact sound_go hheld hsame rfl rfl id
  · cases h
    exact sound_go hheld hsame rfl rfl id
  · split at h
    · cases h
      exact sound_leave _ hsame rfl
    · split at h <;> cases h
      · exact sound_leave _ hsame rfl
      · exact sound_go hheld hsame rfl rfl id
  · cases h

theorem startCapture_sound {exposureMs : Nat} {captureStage : CaptureStage}
    (h : ops.startCapture rfc3339 grace now number exposureMs captureStage input = some after)
    (hheld : (Task.capture exposureMs captureStage).holds = true → ops.opLock = some number) :
    Sound now number ops (.capture exposureMs captureStage) after := by
  have hsame : Shrinks now ops ops := shrinks_of_eq rfl rfl
  unfold startCapture at h
  split at h
  · rename_i lockStage
    obtain ⟨⟨locked, result⟩, hlock, hnext⟩ := Option.bind_eq_some_iff.mp h
    have hsound := sound_lockWhileStopped (.capture exposureMs (.locking lockStage))
      (Sum.elim (fun stage => .capture exposureMs (.locking stage)) fun result =>
        result.rec (fun e => .done (.capture (.error (e.startError rfc3339))))
          fun _ => .capture exposureMs .marking)
      hlock hheld rfl (by rintro (_ | _ | _) <;> rfl) (fun _ => rfl) rfl (fun _ => rfl)
    rcases result with lockStage | e | _ <;> cases hnext <;> exact hsound
  · dsimp only at h
    split at h <;> cases h
    · exact sound_leave _ hsame rfl
    · exact sound_go hheld hsame rfl rfl id
  · cases h
    exact ⟨hheld rfl, nofun, fun hnot => absurd rfl hnot, fun token _ hlive => hlive,
      fun _ => ⟨rfl, rfl⟩, nofun, nofun, nofun, List.forall_mem_nil _⟩
  · cases h
    exact sound_go hheld hsame rfl rfl id
  · cases h
    refine sound_unlock hsame rfl rfl ?_ ?_
    · exact nofun
    · exact fun task hin => List.mem_singleton.mp hin ▸ ⟨rfl, rfl⟩
  · cases h
    exact sound_leave _ (shrinks_release _) rfl
  · cases h
    refine sound_unlock hsame rfl rfl ?_ ?_
    · exact nofun
    · exact fun task hin => List.mem_singleton.mp hin ▸ ⟨rfl, rfl⟩
  · cases h

theorem acquire_sound {request : AcquireRequest} {acquireStage : AcquireStage}
    (h : ops.acquire rfc3339 wall now number request acquireStage input = some after)
    (hheld : (Task.acquire request acquireStage).holds = true → ops.opLock = some number) :
    Sound now number ops (.acquire request acquireStage) after := by
  have hsame : Shrinks now ops ops := shrinks_of_eq rfl rfl
  unfold acquire at h
  split at h
  · have hchecked : Shrinks now ops
        { ops with lease := (ops.lease.checkGrant wall request.token now).2 } :=
      shrinks_lease fun token => LeaseBook.live_of_checkGrant
    split at h <;> cases h
    all_goals
      rename_i hcheck
      rw [hcheck] at hchecked
      exact sound_go hheld hchecked rfl rfl nofun
  · rename_i lockStage
    obtain ⟨⟨locked, result⟩, hlock, hnext⟩ := Option.bind_eq_some_iff.mp h
    have hsound := sound_lockWhileStopped (.acquire request (.locking lockStage))
      (Sum.elim (fun stage => .acquire request (.locking stage)) fun result =>
        result.rec (fun e => .done (.acquire (.error (e.leaseError rfc3339))))
          fun _ => .acquire request .granting)
      hlock hheld rfl (by rintro (_ | _ | _) <;> rfl) (fun _ => rfl) rfl (fun _ => rfl)
    rcases result with lockStage | e | _ <;> cases hnext <;> exact hsound
  · split at h <;> cases h
    · rename_i refusal book hgrant
      exact sound_leave _ (shrinks_lease fun token => LeaseBook.live_of_refused hgrant) rfl
    · rename_i granted book hgrant
      refine ⟨rfl, nofun, fun _ instant hnone => hnone, fun token hnot hlive => ?_,
        fun _ => ⟨rfl, rfl⟩, nofun, nofun, nofun, List.forall_mem_nil _⟩
      exact absurd (by rw [LeaseBook.live_of_granted hgrant hlive]) hnot
  · cases h

theorem wait_sound {path : String} {expires started : Nat}
    (h : ops.wait now path expires started input = some after) :
    Sound now number ops (.wait path expires started) after := by
  have hsame : Shrinks now ops ops := shrinks_of_eq rfl rfl
  unfold wait at h
  split at h
  · cases h
    exact sound_go nofun hsame rfl rfl nofun
  · cases h
    exact sound_go nofun hsame rfl rfl nofun
  · split at h <;> cases h
    exact sound_go nofun (shrinks_of_eq rfl rfl) rfl rfl nofun
  · cases h

theorem abort_sound {path : String} {limit : Nat} {abortStage : AbortStage}
    (h : ops.abort now number path limit abortStage input = some after)
    (hheld : (Task.abort path limit abortStage).holds = true → ops.opLock = some number) :
    Sound now number ops (.abort path limit abortStage) after := by
  have hsame : Shrinks now ops ops := shrinks_of_eq rfl rfl
  unfold abort at h
  split at h
  · exact sound_tryLock h rfl rfl id
  · split at h <;> cases h
    · exact sound_go hheld shrinks_mark rfl rfl id
    · exact sound_leave _ hsame rfl
  · cases h
    exact sound_go hheld hsame rfl rfl id
  · cases h
    refine sound_unlock hsame rfl rfl ?_ ?_
    · exact nofun
    · exact List.forall_mem_nil _
  · cases h
    refine sound_unlock hsame rfl rfl ?_ ?_
    · exact nofun
    · exact List.forall_mem_nil _
  · split at h <;> cases h
    exact sound_go hheld hsame rfl rfl nofun
  · split at h <;> cases h
    exact sound_go hheld hsame rfl rfl nofun
  · cases h

/-- Every step of every task. -/
theorem advance_sound
    (h : ops.advance rfc3339 wall grace stopTimeout stopTimeoutText now number stage input =
      some after)
    (hheld : stage.holds = true → ops.opLock = some number) : Sound now number ops stage after := by
  have hsame : Shrinks now ops ops := shrinks_of_eq rfl rfl
  unfold advance at h
  split at h
  · exact mutate_sound h hheld
  · exact stop_sound h hheld
  · exact startCapture_sound h hheld
  · exact wait_sound h
  · exact sound_tryLock h rfl rfl nofun
  · cases h
    exact sound_leave _ (shrinks_release _) rfl
  · exact abort_sound h hheld
  · -- a late report
    cases h
    unfold onLateReport
    split
    · exact sound_go nofun (shrinks_of_eq rfl rfl) rfl rfl nofun
    · split <;> exact sound_go nofun hsame rfl rfl nofun
  · exact sound_tryLock h rfl rfl nofun
  · cases h
    refine ⟨rfl, nofun, fun hnot => absurd rfl hnot, fun token _ hlive => hlive,
      fun _ => ⟨rfl, rfl⟩, nofun, nofun, nofun, ?_⟩
    exact fun task hin => List.mem_singleton.mp hin ▸ ⟨rfl, rfl⟩
  · split at h <;> cases h
    exact sound_go nofun hsame rfl rfl nofun
  · split at h <;> cases h
    exact sound_go nofun hsame rfl rfl nofun
  · cases h
    unfold shutdown
    split
    · exact sound_go nofun hsame rfl rfl nofun
    · split <;> exact sound_go nofun hsame rfl rfl nofun
  · exact acquire_sound h hheld
  · cases h

end GuiderOps

/-! ## What a mutation has seen -/

/-- No frame holds the capture slot. -/
def GuiderOps.SlotClear (ops : GuiderOps) (now : Nat) : Prop := ops.captureClaim now = none

/-- No lease is held. -/
def GuiderOps.LeaseClear (ops : GuiderOps) (now : Nat) : Prop := ∀ token, ¬ ops.lease.Live token now

/-- What a mutation has seen by a stage, and what is still so. -/
def MutationStage.Clear (ops : GuiderOps) (now : Nat) : MutationStage → Prop
  | .waiting | .checkingSlot => True
  | .checkingLease => ops.SlotClear now
  | .askingLease asked => asked ≤ now ∧ ops.SlotClear now
  | .sending _ | .awaiting _ | .settling => ops.SlotClear now ∧ ops.LeaseClear now

def Task.Clear (ops : GuiderOps) (now : Nat) : Task → Prop
  | .mutation _ stage => stage.Clear ops now
  | _ => True

section

variable {ops ops' : GuiderOps} {now later number : Nat} {task : Task}

theorem clear_of_not_mutating (h : task.mutating = false) : task.Clear ops now := by
  cases task with
  | mutation operation stage => cases h
  | _ => trivial

theorem clear_of_not_holds (h : task.holds = false) : task.Clear ops now := by
  cases task with
  | mutation operation stage =>
    cases stage with
    | waiting => trivial
    | _ => cases h
  | _ => trivial

/-- What a mutation has seen stays so while no hold comes about. -/
theorem Task.Clear.keep (h : task.Clear ops now) (hle : now ≤ later)
    (hslot : ops.SlotClear now → ops'.SlotClear later)
    (hlease : ops.LeaseClear now → ops'.LeaseClear later) : task.Clear ops' later := by
  cases task with
  | mutation operation stage =>
    cases stage with
    | waiting => trivial
    | checkingSlot => trivial
    | checkingLease => exact hslot h
    | askingLease asked => exact ⟨Nat.le_trans h.1 hle, hslot h.2⟩
    | sending rpc => exact ⟨hslot h.1, hlease h.2⟩
    | awaiting rpc => exact ⟨hslot h.1, hlease h.2⟩
    | settling => exact ⟨hslot h.1, hlease h.2⟩
  | _ => trivial

theorem slotClear_later (h : ops.SlotClear now) (hle : now ≤ later) : ops.SlotClear later := by
  unfold GuiderOps.SlotClear GuiderOps.captureClaim at *
  rw [Option.filter_eq_none_iff] at *
  intro claim hclaim hlive
  refine h claim hclaim (decide_eq_true ?_)
  exact Nat.lt_of_le_of_lt hle (of_decide_eq_true hlive)

theorem leaseClear_later (h : ops.LeaseClear now) (hle : now ≤ later) : ops.LeaseClear later :=
  fun token hlive => h token (hlive.mono hle)

/-- A mutation's own step sees what it goes on with. -/
theorem mutate_clear {rfc3339 : Nat → String} {wall : Nat → Nat → String} {operation : Mutation}
    {stage : MutationStage} {input : TaskInput} {after : Advance}
    (h : ops.mutate rfc3339 wall now number operation stage input = some after)
    (hclear : stage.Clear ops now) : after.task.Clear after.ops now := by
  unfold GuiderOps.mutate at h
  split at h
  · obtain ⟨locked, -, hafter⟩ := Option.bind_eq_some_iff.mp h
    cases hafter
    trivial
  · split at h <;> cases h
    · trivial
    · assumption
  · cases h
    exact ⟨Nat.le_refl now, hclear⟩
  · rename_i asked
    dsimp only at h
    split at h <;> cases h
    · trivial
    · rename_i hnone
      refine ⟨hclear.2, fun token hlive => ?_⟩
      exact LeaseBook.not_live_of_heldUntil hnone hclear.1 (LeaseBook.live_of_heldUntil hlive)
  · cases h
    exact hclear
  · cases h
    trivial
  · split at h <;> cases h
    · exact hclear
    · trivial
  · cases h
    trivial
  · split at h <;> cases h
    · exact hclear
    · trivial
  · cases h
    trivial
  · cases h

end

end RustyPhoton.Phd2Guider
