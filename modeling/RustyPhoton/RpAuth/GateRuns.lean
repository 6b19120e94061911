import RustyPhoton.RpAuth.GateSteps

/-!
# The gate is sound and complete, and is not held for ever

Every step of a request and of a KDF task keeps what the steps before it left, so every answer is that
of the memo or of a run for the credential, and the slot is held by the one run that has its guard.
-/

namespace RustyPhoton.RpAuth

open RustyPhoton.Lib

variable {Text Key Tag Digest : Type} [DecidableEq Digest]

theorem Stage.verdict_of_published {stage : Stage} {ok : Bool} (h : stage.published = some ok) :
    stage.verdict = some ok := by
  cases stage <;> first | exact h | cases h

theorem Stage.panicked_of_closed {stage : Stage} (hclosed : stage.closed = true)
    (h : stage.published = none) : stage.panicked = true := by
  cases stage with
  | finished result =>
    obtain rfl : result = none := h
    rfl
  | _ => cases hclosed

variable [DecidableEq Tag]

namespace Gate.Keeps

variable {v : Verifier Text Key Tag Digest} {log notes : List (Note Tag)} {s : Gate Text Tag}
  {number : ℕ} {r : Request Text Tag}

/-- A run that came to a verdict came to that of its credential. -/
theorem verdict_of_owns (h : s.Keeps v log) {id : ℕ} {run : KdfRun Text Tag}
    (howns : r.Owns s id) (hrun : s.runs id = some run) {ok : Bool}
    (hok : run.stage.verdict = some ok) : v.verify r.username r.password = ok := by
  obtain ⟨run', hrun', husername, hpassword⟩ := howns
  rw [hrun] at hrun'
  obtain rfl := Option.some.inj hrun'
  rw [← husername, ← hpassword]
  exact (h.runs id run hrun).verdict ok hok

/-- An answer that says what the credential is. -/
theorem stands_verdictOf {log : List (Note Tag)} {ok : Bool}
    (hok : v.verify r.username r.password = ok) :
    r.Stands v log s number (.answered (Gate.verdictOf ok)) := by
  cases ok with
  | true => exact hok
  | false =>
    intro hverify
    rw [hok] at hverify
    cases hverify

/-- An inspection of the slot. -/
theorem claimSlot (h : s.Keeps v log) (hinj : v.TagsInjective) (hr : s.requests number = some r)
    (hfree : ∀ id, r.progress ≠ .holding id) (hopen : ∀ verdict, r.progress ≠ .answered verdict)
    (seen started : ℕ) :
    (s.claimSlot number r seen started).1.Keeps v
      (log ++ (s.claimSlot number r seen started).2) := by
  have htag := (h.requests number r hr).tag
  unfold Gate.claimSlot
  split
  · next held hslot =>
      split
      · next hmatches =>
          refine h.put hr h.memo hfree hopen (by simp) (by simp) ⟨?_, by simp⟩
          obtain ⟨run, hrun, _, hruntag⟩ := h.slot held hslot
          unfold InFlight.tagMatches at hmatches
          split at hmatches
          · next a b ha hb =>
              obtain rfl : a = b := by simpa using hmatches
              exact ⟨run, a, hrun, hruntag.trans ha, hb⟩
          · cases hmatches
      · next hother =>
          refine h.put hr h.memo hfree hopen (by simp) (by simp) ⟨held, ?_, by simpa using hother⟩
          simp [lastInspection, Note.inspection]
  · next hslot =>
      split
      · exact h.register hr h.memo hslot hfree hopen
      · next tag hsome =>
          have hmemo := h.memo.lookup tag s.now
          simp only
          split
          · next hhit =>
              refine h.answer hr hmemo hfree hopen (by simp) (by simp) ?_
              obtain ⟨username, password, htag', hverify⟩ := h.memo.of_hit hhit
              exact (hinj.verify_eq (htag.symm.trans hsome) htag').trans hverify
          · next hhit =>
              refine h.answer hr hmemo hfree hopen (by simp) (by simp) ?_
              obtain ⟨username, password, htag', hverify⟩ := h.memo.of_negativeHit hhit
              exact stands_verdictOf
                ((hinj.verify_eq (htag.symm.trans hsome) htag').trans hverify)
          · exact h.register hr hmemo hslot hfree hopen

/-- A step of a request. -/
theorem stepRequest (h : s.Keeps v log) (hinj : v.TagsInjective) (hr : s.requests number = some r)
    {s' : Gate Text Tag} (hstep : s.stepRequest v number r = some (s', notes)) :
    s'.Keeps v (log ++ notes) := by
  have htag := (h.requests number r hr).tag
  have hstands := (h.requests number r hr).stands
  simp only [Gate.stepRequest] at hstep
  split at hstep
  · next hat =>
      have hfree : ∀ id, r.progress ≠ .holding id := by simp [hat]
      have hopen : ∀ verdict, r.progress ≠ .answered verdict := by simp [hat]
      split at hstep
      · cases hstep
        exact h.put hr h.memo hfree hopen (by simp) (by simp) trivial
      · next tag hsome =>
          have hmemo := h.memo.lookup tag s.now
          split at hstep
          · next hhit =>
              cases hstep
              refine h.answer hr hmemo hfree hopen (by simp) (by simp) ?_
              obtain ⟨username, password, htag', hverify⟩ := h.memo.of_hit hhit
              exact (hinj.verify_eq (htag.symm.trans hsome) htag').trans hverify
          · next hhit =>
              cases hstep
              refine h.answer hr hmemo hfree hopen (by simp) (by simp) ?_
              obtain ⟨username, password, htag', hverify⟩ := h.memo.of_negativeHit hhit
              exact stands_verdictOf
                ((hinj.verify_eq (htag.symm.trans hsome) htag').trans hverify)
          · cases hstep
            exact h.put hr hmemo hfree hopen (by simp) (by simp) trivial
  · next hat =>
      cases hstep
      exact h.put hr h.memo (by simp [hat]) (by simp [hat]) (by simp) (by simp) trivial
  · next seen started hat =>
      have hfree : ∀ id, r.progress ≠ .holding id := by simp [hat]
      have hopen : ∀ verdict, r.progress ≠ .answered verdict := by simp [hat]
      have hclaim := h.claimSlot hinj hr hfree hopen seen started
      rw [Option.some.inj hstep] at hclaim
      exact hclaim
  · next id hat =>
      split at hstep
      · next run hrun =>
          cases hstep
          rw [List.append_nil]
          exact h.spawn hr hat hrun
      · cases hstep
  · next id hat =>
      have hfree : ∀ id, r.progress ≠ .holding id := by simp [hat]
      have hopen : ∀ verdict, r.progress ≠ .answered verdict := by simp [hat]
      rw [hat] at hstands
      obtain ⟨howns, hclaimed⟩ := hstands
      split at hstep
      · cases hstep
      · next run hrun =>
          split at hstep
          · next ok hstage =>
              cases hstep
              refine h.answer hr h.memo hfree hopen (by simp) (by simp) (stands_verdictOf ?_)
              exact h.verdict_of_owns howns hrun (by rw [hstage]; rfl)
          · next hstage =>
              cases hstep
              refine h.answer hr h.memo hfree hopen (by simp) (by simp) ?_
              intro _
              refine ⟨id, .inl (List.mem_append_left _ hclaimed), List.mem_append_left _ ?_⟩
              exact (h.runs id run hrun).panicked (by rw [hstage]; rfl)
          · cases hstep
  · next id hat =>
      have hfree : ∀ id, r.progress ≠ .holding id := by simp [hat]
      have hopen : ∀ verdict, r.progress ≠ .answered verdict := by simp [hat]
      rw [hat] at hstands
      obtain ⟨⟨run, tag, hrun, hruntag, hrtag⟩, hjoined⟩ := hstands
      rw [hrun] at hstep
      simp only at hstep
      have hkept := h.runs id run hrun
      split at hstep
      · next ok hpublished =>
          cases hstep
          refine h.answer hr h.memo hfree hopen (by simp) (by simp) (stands_verdictOf ?_)
          rw [hinj.verify_eq (htag.symm.trans hrtag) (hkept.tag.symm.trans hruntag)]
          exact hkept.verdict ok (Stage.verdict_of_published hpublished)
      · next hpublished =>
          split at hstep
          · next hclosed =>
              cases hstep
              refine h.answer hr h.memo hfree hopen (by simp) (by simp) ?_
              intro _
              refine ⟨id, .inr (List.mem_append_left _ hjoined), List.mem_append_left _ ?_⟩
              exact hkept.panicked (Stage.panicked_of_closed hclosed hpublished)
          · cases hstep
  · next seen started hat =>
      have hfree : ∀ id, r.progress ≠ .holding id := by simp [hat]
      have hopen : ∀ verdict, r.progress ≠ .answered verdict := by simp [hat]
      rw [hat] at hstands
      split at hstep
      · cases hstep
        refine h.answer hr h.memo hfree hopen (by simp) (by simp) ?_
        obtain ⟨held, hlast, hother⟩ := hstands
        exact ⟨held, (lastInspection_append log (by simp)).trans hlast, hother⟩
      · cases hstep
        exact h.put hr h.memo hfree hopen (by simp) (by simp) trivial
  · next seen started deadline hat =>
      split at hstep
      · cases hstep
        exact h.put hr h.memo (by simp [hat]) (by simp [hat]) (by simp) (by simp) trivial
      · cases hstep
  · cases hstep
  · cases hstep

/-- A step of the task of a run. -/
theorem stepTask (h : s.Keeps v log) {id : ℕ} {run : KdfRun Text Tag} (hrun : s.runs id = some run)
    (panics : Bool) {s' : Gate Text Tag} (hstep : s.stepTask v id run panics = some (s', notes)) :
    s'.Keeps v (log ++ notes) := by
  have hkept := h.runs id run hrun
  simp only [Gate.stepTask] at hstep
  split at hstep
  · cases hstep
  · next hat =>
      cases hstep
      exact h.setStage hrun h.memo s.freed (by simp [hat]) (by simp [hat, Stage.holdsGuard]) (by simp)
        (fun _ hok => (by cases hok)) (fun hp => (by cases hp)) (by simp)
  · next hat =>
      split at hstep
      · cases hstep
        exact h.setStage hrun h.memo s.freed (by simp [hat]) (by simp [hat, Stage.holdsGuard])
          (by simp) (fun _ hok => (by cases hok)) (by simp) (by simp)
      · cases hstep
        refine h.setStage hrun h.memo s.freed (by simp [hat]) (by simp [hat, Stage.holdsGuard])
          (by simp) ?_ (fun hp => (by cases hp)) (by simp)
        intro ok hok
        exact Option.some.inj hok
  · next ok hat =>
      have hverdict : v.verify run.username run.password = ok :=
        hkept.verdict ok (by rw [hat]; rfl)
      have hverdict' : ∀ ok', (Stage.stored ok).verdict = some ok' →
          v.verify run.username run.password = ok' := by
        intro ok' hok'
        rw [hverdict]
        exact Option.some.inj hok'
      split at hstep
      · next tag hsome =>
          cases hstep
          refine h.setStage hrun (h.memo.store s.now ⟨_, _, hkept.tag.symm.trans hsome, hverdict⟩)
            s.freed (by simp [hat]) (by simp [hat, Stage.holdsGuard]) (by simp) hverdict'
            (fun hp => (by cases hp)) (by simp)
      · cases hstep
        exact h.setStage hrun h.memo s.freed (by simp [hat]) (by simp [hat, Stage.holdsGuard])
          (by simp) hverdict' (fun hp => (by cases hp)) (by simp)
  · next ok hat =>
      cases hstep
      refine h.setStage hrun h.memo s.freed (by simp [hat]) (by simp [hat, Stage.holdsGuard])
        (by simp) ?_ (fun hp => (by cases hp)) (by simp)
      intro ok' hok'
      exact hkept.verdict ok' (by rw [hat]; exact hok')
  · next result hat =>
      cases hstep
      rw [List.append_nil]
      exact (h.release hrun hat).1
  · next result hat =>
      cases hstep
      refine h.setStage hrun h.memo (s.freed + 1) (by simp [hat]) (by simp [hat, Stage.holdsGuard])
        (by simp) ?_ ?_ (by simp)
      · intro ok hok
        exact hkept.verdict ok (by rw [hat]; exact hok)
      · intro hpanicked
        refine List.mem_append_left _ (hkept.panicked ?_)
        rw [hat]
        cases result with
        | none => rfl
        | some ok => cases hpanicked
  · next result hat =>
      cases hstep
      refine h.setStage hrun h.memo s.freed (by simp [hat]) (by simp [hat, Stage.holdsGuard])
        (by simp) ?_ ?_ (by simp)
      · intro ok hok
        exact hkept.verdict ok (by rw [hat]; exact hok)
      · intro hpanicked
        refine List.mem_append_left _ (hkept.panicked ?_)
        rw [hat]
        cases result with
        | none => rfl
        | some ok => cases hpanicked
  · cases hstep

/-- A new request. -/
theorem arrive (h : s.Keeps v log) (hnew : s.requests number = none) (username password : Text) :
    (s.put number ⟨username, password, v.tag username password, .arrived⟩ .arrived).Keeps v log := by
  have hold : ∀ n r', s.requests n = some r' → n ≠ number := by
    intro n r' hr' heq
    rw [heq, hnew] at hr'
    cases hr'
  refine ⟨h.memo, h.slot, ?_, ?_, ?_⟩
  · intro id run hrun
    suffices run.Keeps v (log ++ []) (s.put number _ .arrived) id by rwa [List.append_nil] at this
    refine (h.runs id run hrun).leaves (Nat.le_refl _) (fun _ => rfl) ?_
    intro n r' _ hr' hholding
    exact ⟨r', (Function.update_of_ne (hold n r' hr') _ _).trans hr', hholding⟩
  · intro n r' hr'
    by_cases hn : n = number
    · subst hn
      obtain rfl := Option.some.inj ((Function.update_self n _ s.requests).symm.trans hr')
      exact ⟨rfl, trivial⟩
    · have hr : s.requests n = some r' := (Function.update_of_ne hn _ _).symm.trans hr'
      suffices r'.Keeps v (log ++ []) (s.put number _ .arrived) n by rwa [List.append_nil] at this
      refine (h.requests n r' hr).leaves ⟨?_, fun _ hslot => by cases hslot⟩
      intro id run hrun
      exact ⟨run, hrun, rfl, rfl, rfl, fun hat => hat⟩
  · intro n verdict hanswered
    obtain ⟨r', hr', hprogress⟩ := h.answered n verdict hanswered
    exact ⟨r', (Function.update_of_ne (hold n r' hr') _ _).trans hr', hprogress⟩

theorem wait (h : s.Keeps v log) (time : ℕ) :
    Gate.Keeps v log { s with now := s.now + time } := by
  refine ⟨h.memo, h.slot, ?_, ?_, h.answered⟩
  · intro id run hrun
    have hkept := h.runs id run hrun
    exact ⟨hkept.tag, hkept.older, hkept.guarded, hkept.verdict, hkept.panicked, hkept.claimed⟩
  · intro n r' hr'
    suffices r'.Keeps v (log ++ []) { s with now := s.now + time } n by
      rwa [List.append_nil] at this
    refine (h.requests n r' hr').leaves ⟨?_, fun _ hslot => by cases hslot⟩
    intro id run hrun
    exact ⟨run, hrun, rfl, rfl, rfl, fun hat => hat⟩

theorem step (h : s.Keeps v log) (hinj : v.TagsInjective) {move : Move Text} {s' : Gate Text Tag}
    (hstep : s.step v move = some (s', notes)) : s'.Keeps v (log ++ notes) := by
  cases move with
  | wait time =>
    cases hstep
    rw [List.append_nil]
    exact h.wait time
  | arrive number username password =>
    simp only [Gate.step] at hstep
    split at hstep
    · cases hstep
    · next hnew =>
        cases hstep
        rw [List.append_nil]
        exact h.arrive hnew username password
  | request number =>
    simp only [Gate.step] at hstep
    split at hstep
    · next r hr => exact h.stepRequest hinj hr hstep
    · cases hstep
  | cancel number =>
    simp only [Gate.step] at hstep
    split at hstep
    · next r hr =>
        split at hstep
        · next hawaits =>
            cases hstep
            refine h.put hr h.memo ?_ ?_ (by simp) (by simp) trivial
            · intro id hat
              rw [hat] at hawaits
              cases hawaits
            · intro verdict hat
              rw [hat] at hawaits
              cases hawaits
        · cases hstep
    · cases hstep
  | task id panics =>
    simp only [Gate.step] at hstep
    split at hstep
    · next run hrun => exact h.stepTask hrun panics hstep
    · cases hstep

theorem run {moves : List (Move Text)} (h : Gate.Run v moves log s) (hinj : v.TagsInjective) :
    s.Keeps v log :=
  History.invariant h (fun log s => s.Keeps v log) .new fun hkeeps _ hstep => hkeeps.step hinj hstep

end Gate.Keeps

/-! ## The slot is freed -/

/-- More moves free the slot. -/
def Freed (v : Verifier Text Key Tag Digest) (moves : List (Move Text)) : Prop :=
  ∃ more log s, Gate.Run v (moves ++ more) log s ∧ s.slot = none

section

variable {v : Verifier Text Key Tag Digest} {moves : List (Move Text)} {log : List (Note Tag)}
  {s : Gate Text Tag} {id : ℕ} {run : KdfRun Text Tag}

theorem Freed.snoc {move : Move Text} (h : Freed v (moves ++ [move])) : Freed v moves := by
  obtain ⟨more, log, s, hrun, hslot⟩ := h
  exact ⟨move :: more, log, s, by simpa using hrun, hslot⟩

theorem freed_of_returned (h : Gate.Run v moves log s) (hinj : v.TagsInjective)
    (hrun : s.runs id = some run) {result : Option Bool} (hat : run.stage = .returned result) :
    Freed v moves := by
  have hstep : s.step v (.task id false) = some (s.releaseSlot id run result, []) := by
    simp [Gate.step, hrun, Gate.stepTask, hat]
  exact ⟨[.task id false], _, _, h.snoc trivial hstep,
    ((Gate.Keeps.run h hinj).release hrun hat).2⟩

/-- A step of the task that only moves its stage. -/
theorem freed_of_stage (h : Gate.Run v moves log s) {memo : Memo Tag} {stage : Stage}
    (hstep : s.step v (.task id false) = some ({ s with memo := memo }.setStage id run stage, []))
    (hnext : ∀ {moves log} {s : Gate Text Tag} {run : KdfRun Text Tag}, Gate.Run v moves log s →
      s.runs id = some run → run.stage = stage → Freed v moves) : Freed v moves :=
  (hnext (h.snoc trivial hstep) (Function.update_self _ _ _) rfl).snoc

theorem freed_of_stored (h : Gate.Run v moves log s) (hinj : v.TagsInjective)
    (hrun : s.runs id = some run) {ok : Bool} (hat : run.stage = .stored ok) : Freed v moves := by
  have hstep : s.step v (.task id false) = some (s.setStage id run (.returned (some ok)), []) := by
    simp [Gate.step, hrun, Gate.stepTask, hat]
  exact freed_of_stage h hstep fun h hrun hat => freed_of_returned h hinj hrun hat

theorem freed_of_verified (h : Gate.Run v moves log s) (hinj : v.TagsInjective)
    (hrun : s.runs id = some run) {ok : Bool} (hat : run.stage = .verified ok) : Freed v moves := by
  cases htag : run.tag with
  | none =>
    have hstep : s.step v (.task id false) = some (s.setStage id run (.stored ok), []) := by
      simp [Gate.step, hrun, Gate.stepTask, hat, htag]
    exact freed_of_stage h hstep fun h hrun hat => freed_of_stored h hinj hrun hat
  | some tag =>
    have hstep : s.step v (.task id false) =
        some ({ s with memo := s.memo.store tag ok s.now }.setStage id run (.stored ok), []) := by
      simp [Gate.step, hrun, Gate.stepTask, hat, htag]
    exact freed_of_stage h hstep fun h hrun hat => freed_of_stored h hinj hrun hat

theorem freed_of_running (h : Gate.Run v moves log s) (hinj : v.TagsInjective)
    (hrun : s.runs id = some run) (hat : run.stage = .running) : Freed v moves := by
  have hstep : s.step v (.task id false) =
      some (s.setStage id run (.verified (v.verify run.username run.password)), []) := by
    simp [Gate.step, hrun, Gate.stepTask, hat]
  exact freed_of_stage h hstep fun h hrun hat => freed_of_verified h hinj hrun hat

theorem freed_of_spawned (h : Gate.Run v moves log s) (hinj : v.TagsInjective)
    (hrun : s.runs id = some run) (hat : run.stage = .spawned) : Freed v moves := by
  have hstep : s.step v (.task id false) = some (s.setStage id run .running, []) := by
    simp [Gate.step, hrun, Gate.stepTask, hat]
  exact freed_of_stage h hstep fun h hrun hat => freed_of_running h hinj hrun hat

theorem freed_of_claimed (h : Gate.Run v moves log s) (hinj : v.TagsInjective)
    (hrun : s.runs id = some run) {number : ℕ} (hat : run.stage = .claimed number) :
    Freed v moves := by
  obtain ⟨r, hr, hholding⟩ := ((Gate.Keeps.run h hinj).runs id run hrun).claimed number hat
  have hstep : s.step v (.request number) =
      some ((s.setStage id run .spawned).put number r (.joining id), []) := by
    simp [Gate.step, hr, Gate.stepRequest, hholding, hrun]
  exact (freed_of_spawned (h.snoc trivial hstep) hinj (Function.update_self _ _ _) rfl).snoc

/-- A held slot is freed by the holder of its guard alone, wherever that is. -/
theorem freed_of_slot (h : Gate.Run v moves log s) (hinj : v.TagsInjective) {held : InFlight Tag}
    (hslot : s.slot = some held) : Freed v moves := by
  obtain ⟨run, hrun, hguard, _⟩ := (Gate.Keeps.run h hinj).slot held hslot
  cases hat : run.stage with
  | claimed number => exact freed_of_claimed h hinj hrun hat
  | spawned => exact freed_of_spawned h hinj hrun hat
  | running => exact freed_of_running h hinj hrun hat
  | verified ok => exact freed_of_verified h hinj hrun hat
  | stored ok => exact freed_of_stored h hinj hrun hat
  | returned result => exact freed_of_returned h hinj hrun hat
  | _ =>
    rw [hat] at hguard
    cases hguard

end

/-! ## What a check answers -/

/-- A run that has not dropped its guard. -/
def Gate.Guarded (s : Gate Text Tag) (id : ℕ) : Prop :=
  ∃ run, s.runs id = some run ∧ run.stage.holdsGuard = true

/-- The username matches, the KDF accepts the password, and the stored hash is usable. -/
def Hashing.Admits (hashing : Hashing Text Key Tag Digest) (config : AuthConfig Text)
    (kdf : Text → Text → Bool) (username password : Text) : Prop :=
  hashing.digest username = hashing.digest config.username ∧
    kdf password config.passwordHash = true ∧ hashing.storedHashUsable config.passwordHash = true

omit [DecidableEq Tag] in
theorem verify_build_iff (hashing : Hashing Text Key Tag Digest) (config : AuthConfig Text)
    (kdf : Text → Text → Bool) (macKey : Option Key) (gateWait : ℕ) (username password : Text) :
    (Verifier.build hashing config kdf macKey gateWait).verify username password = true ↔
      hashing.Admits config kdf username password := by
  simp only [Verifier.verify, Verifier.build, Hashing.Admits, Bool.and_eq_true,
    and_assoc]
  constructor
  · rintro ⟨hname, hkdf, husable⟩
    rw [if_pos husable] at hkdf
    exact ⟨of_decide_eq_true hname, hkdf, husable⟩
  · rintro ⟨hname, hkdf, husable⟩
    rw [if_pos husable]
    exact ⟨decide_eq_true hname, hkdf, husable⟩

/-- The gate admits the right credential only, denies it only for a panic of the run it claimed or
joined, runs one KDF at a time, answers busy only behind another credential, and its slot is held by
the one run that has its guard, which frees it. -/
theorem check_of_run (hashing : Hashing Text Key Tag Digest) (config : AuthConfig Text)
    (kdf : Text → Text → Bool) (macKey : Option Key) (gateWait : ℕ)
    (hinj : ∀ key username password phc username' password' phc',
      hashing.compute key username password phc = hashing.compute key username' password' phc' →
        username = username' ∧ password = password' ∧ phc = phc')
    {moves : List (Move Text)} {log : List (Note Tag)} {s : Gate Text Tag}
    (h : Gate.Run (Verifier.build hashing config kdf macKey gateWait) moves log s) :
    (∀ number r, s.requests number = some r → .answered number .allow ∈ log →
      hashing.Admits config kdf r.username r.password) ∧
    (∀ number r, s.requests number = some r → .answered number .deny ∈ log →
      hashing.Admits config kdf r.username r.password → OwnPanicked log number) ∧
    (∀ id id' run run', s.runs id = some run → s.runs id' = some run' →
      run.stage = .running → run'.stage = .running → id = id') ∧
    (∀ number r, s.requests number = some r → .answered number .busy ∈ log →
      FoundOther log number r.tag) ∧
    (s.slot.isSome = true ↔ ∃! id, s.Guarded id) ∧
    (∀ held, s.slot = some held →
      s.Guarded held.id ∧
        Freed (Verifier.build hashing config kdf macKey gateWait) moves) := by
  have hinjective : (Verifier.build hashing config kdf macKey gateWait).TagsInjective := by
    intro key username password username' password' heq
    obtain ⟨hname, hpassword, _⟩ := hinj key _ _ _ _ _ _ heq
    exact ⟨hname, hpassword⟩
  have hkeeps := Gate.Keeps.run h hinjective
  have hanswer : ∀ number r verdict, s.requests number = some r →
      .answered number verdict ∈ log →
        r.Stands (Verifier.build hashing config kdf macKey gateWait) log s number
          (.answered verdict) := by
    intro number r verdict hr hanswered
    obtain ⟨r', hr', hat⟩ := hkeeps.answered number verdict hanswered
    rw [hr] at hr'
    obtain rfl := Option.some.inj hr'
    have := (hkeeps.requests number r hr).stands
    rwa [hat] at this
  have hunique : ∀ {held id}, s.slot = some held → s.Guarded id → id = held.id := by
    rintro held id hslot ⟨run, hrun, hguard⟩
    obtain ⟨held', hheld', hid⟩ := (hkeeps.runs id run hrun).guarded hguard
    rw [hslot] at hheld'
    obtain rfl := Option.some.inj hheld'
    exact hid.symm
  have hguarded : ∀ held, s.slot = some held → s.Guarded held.id := by
    intro held hslot
    obtain ⟨run, hrun, hguard, _⟩ := hkeeps.slot held hslot
    exact ⟨run, hrun, hguard⟩
  have hholder : ∀ {id}, s.Guarded id → ∃ held, s.slot = some held := by
    rintro id ⟨run, hrun, hguard⟩
    obtain ⟨held, hheld, _⟩ := (hkeeps.runs id run hrun).guarded hguard
    exact ⟨held, hheld⟩
  refine ⟨?_, ?_, ?_, ?_, ?_, ?_⟩
  · intro number r hr hallow
    exact (verify_build_iff ..).mp (hanswer number r .allow hr hallow)
  · intro number r hr hdeny hadmits
    exact hanswer number r .deny hr hdeny ((verify_build_iff ..).mpr hadmits)
  · intro id id' run run' hrun hrun' hat hat'
    have hone : s.Guarded id := ⟨run, hrun, by rw [hat]; rfl⟩
    have htwo : s.Guarded id' := ⟨run', hrun', by rw [hat']; rfl⟩
    obtain ⟨held, hslot⟩ := hholder hone
    exact (hunique hslot hone).trans (hunique hslot htwo).symm
  · intro number r hr hbusy
    exact hanswer number r .busy hr hbusy
  · constructor
    · intro hsome
      obtain ⟨held, hslot⟩ := Option.isSome_iff_exists.mp hsome
      exact ⟨held.id, hguarded held hslot, fun id hid => hunique hslot hid⟩
    · rintro ⟨id, hid, _⟩
      obtain ⟨held, hslot⟩ := hholder hid
      rw [hslot]
      rfl
  · intro held hslot
    exact ⟨hguarded held hslot, freed_of_slot h hinjective hslot⟩

/-- Hash functions that tell everything apart. -/
def plainHashing : Hashing ℕ Unit (ℕ × ℕ × ℕ) ℕ :=
  ⟨id, fun _ username password phc => (username, password, phc), fun _ => true, 0⟩

/-- One request of the configured credential, up to its answer. -/
def plainMoves : List (Move ℕ) :=
  [.arrive 0 1 2, .request 0, .request 0, .request 0, .request 0, .task 0 false, .task 0 false,
    .task 0 false, .task 0 false, .task 0 false, .task 0 false, .task 0 false, .request 0]

theorem check_of_run_plain : ∃ log s,
    Gate.Run (Verifier.build plainHashing ⟨1, 2⟩ (fun a b => a == b) (some ()) 5) plainMoves log s ∧
      .answered 0 .allow ∈ log ∧
      plainHashing.Admits ⟨1, 2⟩ (fun a b => a == b) 1 2 := by
  have hinj : ∀ (key : Unit) (username password phc username' password' phc' : ℕ),
      plainHashing.compute key username password phc =
        plainHashing.compute key username' password' phc' →
      username = username' ∧ password = password' ∧ phc = phc' := by
    intro _ _ _ _ _ _ _ heq
    simpa [plainHashing] using heq
  have hrun : Gate.Run (Verifier.build plainHashing ⟨1, 2⟩ (fun a b => a == b) (some ()) 5)
    plainMoves _ _ := History.of_play rfl
  refine ⟨_, _, hrun, .tail _ (.tail _ (.head _)), ?_⟩
  exact (check_of_run plainHashing ⟨1, 2⟩ _ (some ()) 5 hinj hrun).1 0 _ rfl (.tail _ (.tail _ (.head _)))

end RustyPhoton.RpAuth
