import RustyPhoton.RpAuth.Verifier

/-!
# What the steps of a gate keep

A verdict in the memo is that of some credential with the tag, a slot is held by one run that has its
guard, and every request knows of its run what it needs for its answer.
-/

namespace RustyPhoton.RpAuth

open RustyPhoton.Lib

variable {Text Key Tag Digest : Type} [DecidableEq Digest]

/-- Tags under one key and PHC string tell credentials apart. -/
def Verifier.TagsInjective (v : Verifier Text Key Tag Digest) : Prop :=
  ∀ key username password username' password',
    v.compute key username password v.phc = v.compute key username' password' v.phc →
      username = username' ∧ password = password'

theorem Verifier.TagsInjective.verify_eq {v : Verifier Text Key Tag Digest} (h : v.TagsInjective)
    {tag : Tag} {username password username' password' : Text}
    (htag : v.tag username password = some tag) (htag' : v.tag username' password' = some tag) :
    v.verify username password = v.verify username' password' := by
  obtain ⟨key, hkey, hcompute⟩ := Option.map_eq_some_iff.mp htag
  obtain ⟨key', hkey', hcompute'⟩ := Option.map_eq_some_iff.mp htag'
  rw [hkey] at hkey'
  obtain rfl := Option.some.inj hkey'
  obtain ⟨rfl, rfl⟩ := h key _ _ _ _ (hcompute.trans hcompute'.symm)
  rfl

/-! ## The memo -/

/-- Some credential with the tag is verified so. -/
def Verifier.Verdict (v : Verifier Text Key Tag Digest) (tag : Tag) (ok : Bool) : Prop :=
  ∃ username password, v.tag username password = some tag ∧ v.verify username password = ok

/-- The memo holds verdicts only. -/
structure Memo.Sound (v : Verifier Text Key Tag Digest) (memo : Memo Tag) : Prop where
  positive : ∀ entry, memo.positive = some entry → v.Verdict entry.tag true
  negative : ∀ entry ∈ memo.negative, v.Verdict entry.tag false

namespace Memo.Sound

variable {v : Verifier Text Key Tag Digest} {memo : Memo Tag}

theorem expire (h : memo.Sound v) (now : ℕ) : (memo.expire now).Sound v where
  positive := by
    intro entry hentry
    exact h.positive entry (Option.filter_eq_some_iff.mp hentry).1
  negative := by
    intro entry hentry
    exact h.negative entry (List.mem_filter.mp hentry).1

variable {tag : Tag}

theorem store (h : memo.Sound v) {ok : Bool} (now : ℕ) (hverdict : v.Verdict tag ok) :
    (memo.store tag ok now).Sound v := by
  cases ok with
  | true =>
    refine ⟨?_, h.negative⟩
    intro entry hentry
    cases hentry
    exact hverdict
  | false =>
    refine ⟨(h.expire now).positive, ?_⟩
    intro entry hentry
    rcases List.mem_append.mp hentry with hentry | hentry
    · exact (h.expire now).negative entry (List.mem_of_mem_drop hentry)
    · rw [List.mem_singleton.mp hentry]
      exact hverdict

variable [DecidableEq Tag]

theorem lookup (h : memo.Sound v) (tag : Tag) (now : ℕ) : (memo.lookup tag now).2.Sound v := by
  have hexpired := h.expire now
  unfold Memo.lookup
  simp only
  split
  · refine ⟨?_, hexpired.negative⟩
    intro entry hentry
    obtain ⟨old, hold, rfl⟩ := Option.map_eq_some_iff.mp hentry
    exact hexpired.positive old hold
  · split <;> exact hexpired

variable {now : ℕ}

theorem of_hit (h : memo.Sound v) (hhit : (memo.lookup tag now).1 = .hit) :
    v.Verdict tag true := by
  unfold Memo.lookup at hhit
  simp only at hhit
  split at hhit
  · next hany =>
      obtain ⟨entry, hentry, heq⟩ := (Option.any_eq_true _ _).mp hany
      have := (h.expire now).positive entry hentry
      rwa [of_decide_eq_true heq] at this
  · split at hhit <;> cases hhit

theorem of_negativeHit (h : memo.Sound v)
    (hhit : (memo.lookup tag now).1 = .negativeHit) : v.Verdict tag false := by
  unfold Memo.lookup at hhit
  simp only at hhit
  split at hhit
  · cases hhit
  · split at hhit
    · next hany =>
        obtain ⟨entry, hentry, heq⟩ := List.any_eq_true.mp hany
        have := (h.expire now).negative entry hentry
        rwa [of_decide_eq_true heq] at this
    · cases hhit

end Memo.Sound

/-! ## What the log says -/

def Note.inspection (number : ℕ) : Note Tag → Option (Option (InFlight Tag))
  | inspected other slot => if other = number then some slot else none
  | _ => none

/-- What a request found in the slot when it last inspected it. -/
def lastInspection (log : List (Note Tag)) (number : ℕ) : Option (Option (InFlight Tag)) :=
  (log.filterMap (Note.inspection number)).getLast?

variable {notes : List (Note Tag)} {number : ℕ}

theorem lastInspection_append (log : List (Note Tag))
    (h : ∀ slot, .inspected number slot ∉ notes) :
    lastInspection (log ++ notes) number = lastInspection log number := by
  have hnone : notes.filterMap (Note.inspection number) = [] := by
    rw [List.filterMap_eq_nil_iff]
    intro note hnote
    cases note with
    | inspected other slot =>
      have hne : other ≠ number := by
        intro heq
        exact h slot (heq ▸ hnote)
      simp [Note.inspection, hne]
    | claimed _ _ => rfl
    | joined _ _ => rfl
    | panicked _ => rfl
    | answered _ _ => rfl
  rw [lastInspection, List.filterMap_append, hnone, List.append_nil, lastInspection]

/-- The request last found the gate with another credential. -/
def FoundOther [DecidableEq Tag] (log : List (Note Tag)) (number : ℕ) (tag : Option Tag) : Prop :=
  ∃ held : InFlight Tag, lastInspection log number = some (some held) ∧ held.tagMatches tag = false

/-- A run that the request claimed or joined has panicked. -/
def OwnPanicked (log : List (Note Tag)) (number : ℕ) : Prop :=
  ∃ id, (.claimed number id ∈ log ∨ .joined number id ∈ log) ∧ .panicked id ∈ log

theorem OwnPanicked.append {log : List (Note Tag)} (h : OwnPanicked log number) :
    OwnPanicked (log ++ notes) number := by
  obtain ⟨id, hown, hpanicked⟩ := h
  exact ⟨id, hown.imp (List.mem_append_left _) (List.mem_append_left _),
    List.mem_append_left _ hpanicked⟩

/-! ## What the runs and the requests keep -/

namespace Stage

/-- What the KDF run came to, once it has. -/
def verdict : Stage → Option Bool
  | verified ok | stored ok => some ok
  | stage => stage.published

/-- The KDF run has panicked. -/
def panicked : Stage → Bool
  | returned none | freeing none | closing none | finished none => true
  | _ => false

end Stage

/-- What holds of a run: it holds the slot as long as it has its guard. -/
structure KdfRun.Keeps (v : Verifier Text Key Tag Digest) (log : List (Note Tag)) (s : Gate Text Tag)
    (id : ℕ) (run : KdfRun Text Tag) : Prop where
  tag : run.tag = v.tag run.username run.password
  older : id < s.nextId
  guarded : run.stage.holdsGuard = true → ∃ held, s.slot = some held ∧ held.id = id
  verdict : ∀ ok, run.stage.verdict = some ok → v.verify run.username run.password = ok
  panicked : run.stage.panicked = true → .panicked id ∈ log
  claimed : ∀ number, run.stage = .claimed number →
    ∃ r, s.requests number = some r ∧ r.progress = .holding id

/-- The run is one for the credential of the request. -/
def Request.Owns (s : Gate Text Tag) (r : Request Text Tag) (id : ℕ) : Prop :=
  ∃ run, s.runs id = some run ∧ run.username = r.username ∧ run.password = r.password

variable [DecidableEq Tag]

/-- What holds of a request where it is. -/
def Request.Stands (v : Verifier Text Key Tag Digest) (log : List (Note Tag)) (s : Gate Text Tag)
    (number : ℕ) (r : Request Text Tag) : Progress → Prop
  | .holding id => r.Owns s id ∧ (s.runs id).map (·.stage) = some (.claimed number) ∧
      .claimed number id ∈ log
  | .joining id => r.Owns s id ∧ .claimed number id ∈ log
  | .waiting id => (∃ run tag, s.runs id = some run ∧ run.tag = some tag ∧ r.tag = some tag) ∧
      .joined number id ∈ log
  | .refused _ _ | .answered .busy => FoundOther log number r.tag
  | .answered .allow => v.verify r.username r.password = true
  | .answered .deny => v.verify r.username r.password = true → OwnPanicked log number
  | .arrived | .subscribing | .claiming _ _ | .queueing _ _ _ | .cancelled => True

structure Request.Keeps (v : Verifier Text Key Tag Digest) (log : List (Note Tag))
    (s : Gate Text Tag) (number : ℕ) (r : Request Text Tag) : Prop where
  tag : r.tag = v.tag r.username r.password
  stands : r.Stands v log s number r.progress

/-- What every interleaving keeps. -/
structure Gate.Keeps (v : Verifier Text Key Tag Digest) (log : List (Note Tag))
    (s : Gate Text Tag) : Prop where
  memo : s.memo.Sound v
  slot : ∀ held, s.slot = some held → ∃ run, s.runs held.id = some run ∧
    run.stage.holdsGuard = true ∧ run.tag = held.tag
  runs : ∀ id run, s.runs id = some run → run.Keeps v log s id
  requests : ∀ number r, s.requests number = some r → r.Keeps v log s number
  answered : ∀ number verdict, .answered number verdict ∈ log →
    ∃ r, s.requests number = some r ∧ r.progress = .answered verdict

/-! ## What a step leaves to the others -/

/-- The runs of a request stay its runs, and a guard it holds stays with it. -/
structure Leaves (number : ℕ) (s s' : Gate Text Tag) (notes : List (Note Tag)) : Prop where
  runs : ∀ id run, s.runs id = some run → ∃ run', s'.runs id = some run' ∧
    run'.username = run.username ∧ run'.password = run.password ∧ run'.tag = run.tag ∧
    (run.stage = .claimed number → run'.stage = .claimed number)
  uninspected : ∀ slot, .inspected number slot ∉ notes

section

variable {v : Verifier Text Key Tag Digest} {log notes : List (Note Tag)} {s s' : Gate Text Tag}
  {number : ℕ}

variable {r : Request Text Tag} {id : ℕ}

omit [DecidableEq Tag] in
theorem Request.Owns.leaves (h : r.Owns s id)
    (hleaves : Leaves number s s' notes) : r.Owns s' id := by
  obtain ⟨run, hrun, husername, hpassword⟩ := h
  obtain ⟨run', hrun', husername', hpassword', _⟩ := hleaves.runs id run hrun
  exact ⟨run', hrun', husername'.trans husername, hpassword'.trans hpassword⟩

theorem FoundOther.leaves {tag : Option Tag} (h : FoundOther log number tag)
    (hleaves : Leaves number s s' notes) : FoundOther (log ++ notes) number tag := by
  obtain ⟨held, hlast, hother⟩ := h
  exact ⟨held, (lastInspection_append log hleaves.uninspected).trans hlast, hother⟩

/-- What holds of a request holds after a step of another. -/
theorem Request.Keeps.leaves (h : r.Keeps v log s number)
    (hleaves : Leaves number s s' notes) : r.Keeps v (log ++ notes) s' number := by
  refine ⟨h.tag, ?_⟩
  have hstands := h.stands
  cases hprogress : r.progress with
  | holding id =>
    rw [hprogress] at hstands
    obtain ⟨howns, hstage, hclaimed⟩ := hstands
    refine ⟨howns.leaves hleaves, ?_, List.mem_append_left _ hclaimed⟩
    obtain ⟨run, hrun, hat⟩ := Option.map_eq_some_iff.mp hstage
    obtain ⟨run', hrun', _, _, _, hkeeps⟩ := hleaves.runs id run hrun
    rw [hrun', Option.map_some, hkeeps hat]
  | joining id =>
    rw [hprogress] at hstands
    exact ⟨hstands.1.leaves hleaves, List.mem_append_left _ hstands.2⟩
  | waiting id =>
    rw [hprogress] at hstands
    obtain ⟨⟨run, tag, hrun, hruntag, htag⟩, hjoined⟩ := hstands
    obtain ⟨run', hrun', _, _, htag', _⟩ := hleaves.runs id run hrun
    exact ⟨⟨run', tag, hrun', htag'.trans hruntag, htag⟩, List.mem_append_left _ hjoined⟩
  | refused seen started =>
    rw [hprogress] at hstands
    exact FoundOther.leaves hstands hleaves
  | answered verdict =>
    rw [hprogress] at hstands
    cases verdict with
    | allow => exact hstands
    | deny => exact fun hverify => (hstands hverify).append
    | busy => exact FoundOther.leaves hstands hleaves
  | arrived => trivial
  | subscribing => trivial
  | claiming _ _ => trivial
  | queueing _ _ _ => trivial
  | cancelled => trivial

omit [DecidableEq Tag] in
/-- What holds of a run holds after a step that keeps its guard and its holder. -/
theorem KdfRun.Keeps.leaves {run : KdfRun Text Tag} (h : run.Keeps v log s id)
    (hnext : s.nextId ≤ s'.nextId)
    (hslot : run.stage.holdsGuard = true → s'.slot = s.slot)
    (hholder : ∀ n r, run.stage = .claimed n → s.requests n = some r → r.progress = .holding id →
      ∃ r', s'.requests n = some r' ∧ r'.progress = .holding id) :
    run.Keeps v (log ++ notes) s' id := by
  refine ⟨h.tag, Nat.lt_of_lt_of_le h.older hnext, ?_, h.verdict,
    fun hpanicked => List.mem_append_left _ (h.panicked hpanicked), ?_⟩
  · intro hguard
    rw [hslot hguard]
    exact h.guarded hguard
  · intro n hat
    obtain ⟨r, hr, hprogress⟩ := h.claimed n hat
    exact hholder n r hat hr hprogress

end

/-! ## Steps -/

namespace Gate.Keeps

variable {v : Verifier Text Key Tag Digest} {log notes : List (Note Tag)} {s : Gate Text Tag}
  {number : ℕ} {r : Request Text Tag}

theorem new : (Gate.new : Gate Text Tag).Keeps v [] where
  memo := ⟨fun _ h => (by cases h), fun _ h => (by cases h)⟩
  slot := by
    intro _ h
    cases h
  runs := by
    intro _ _ h
    cases h
  requests := by
    intro _ _ h
    cases h
  answered := by
    intro _ _ h
    cases h

variable {memo : Memo Tag}

/-- A request goes on, and neither has a guard nor is through. -/
theorem put (h : s.Keeps v log) (hr : s.requests number = some r)
    (hmemo : memo.Sound v) (hfree : ∀ id, r.progress ≠ .holding id)
    (hopen : ∀ verdict, r.progress ≠ .answered verdict) {progress : Progress}
    (hanswers : ∀ n verdict, .answered n verdict ∈ notes →
      n = number ∧ progress = .answered verdict)
    (hinspects : ∀ n slot, .inspected n slot ∈ notes → n = number)
    (hstands : r.Stands v (log ++ notes) s number progress) :
    ({ s with memo := memo }.put number r progress).Keeps v (log ++ notes) where
  memo := hmemo
  slot := h.slot
  runs := by
    intro id run hrun
    refine (h.runs id run hrun).leaves (Nat.le_refl _) (fun _ => rfl) ?_
    intro n other _ hother hholding
    have hne : n ≠ number := by
      intro heq
      rw [heq, hr] at hother
      cases hother
      exact hfree id hholding
    exact ⟨other, (Function.update_of_ne hne _ _).trans hother, hholding⟩
  requests := by
    intro n other hother
    by_cases hn : n = number
    · subst hn
      obtain rfl : { r with progress := progress } = other := by
        simpa [Gate.put] using hother
      exact ⟨(h.requests n r hr).tag, hstands⟩
    · have hold : s.requests n = some other := by
        simpa [Gate.put, Function.update_of_ne hn] using hother
      refine (h.requests n other hold).leaves ⟨?_, ?_⟩
      · intro id run hrun
        exact ⟨run, hrun, rfl, rfl, rfl, fun hat => hat⟩
      · intro slot hslot
        exact hn (hinspects n slot hslot)
  answered := by
    intro n verdict hanswered
    rcases List.mem_append.mp hanswered with hold | hnew
    · obtain ⟨other, hother, hprogress⟩ := h.answered n verdict hold
      have hne : n ≠ number := by
        intro heq
        rw [heq, hr] at hother
        cases hother
        exact hopen verdict hprogress
      exact ⟨other, (Function.update_of_ne hne _ _).trans hother, hprogress⟩
    · obtain ⟨rfl, hprogress⟩ := hanswers n verdict hnew
      exact ⟨_, Function.update_self _ _ _, hprogress⟩

theorem answer (h : s.Keeps v log) (hr : s.requests number = some r)
    (hmemo : memo.Sound v) (hfree : ∀ id, r.progress ≠ .holding id)
    (hopen : ∀ verdict, r.progress ≠ .answered verdict) {verdict : Verdict}
    (hanswers : ∀ n verdict, .answered n verdict ∉ notes)
    (hinspects : ∀ n slot, .inspected n slot ∈ notes → n = number)
    (hstands : r.Stands v (log ++ (notes ++ [.answered number verdict])) s number
      (.answered verdict)) :
    ({ s with memo := memo }.answer number r verdict notes).1.Keeps v
      (log ++ ({ s with memo := memo }.answer number r verdict notes).2) := by
  refine h.put hr hmemo hfree hopen ?_ ?_ hstands
  · intro n other hn
    rcases List.mem_append.mp hn with hn | hn
    · exact absurd hn (hanswers n other)
    · cases List.mem_singleton.mp hn
      exact ⟨rfl, rfl⟩
  · intro n slot hn
    rcases List.mem_append.mp hn with hn | hn
    · exact hinspects n slot hn
    · cases List.mem_singleton.mp hn

/-- A request claims the free gate. -/
theorem register (h : s.Keeps v log) (hr : s.requests number = some r)
    (hmemo : memo.Sound v) (hslot : s.slot = none) (hfree : ∀ id, r.progress ≠ .holding id)
    (hopen : ∀ verdict, r.progress ≠ .answered verdict) :
    ({ s with memo := memo }.register number r).1.Keeps v
      (log ++ ({ s with memo := memo }.register number r).2) := by
  have hfresh : s.runs s.nextId = none := by
    cases hrun : s.runs s.nextId with
    | none => rfl
    | some run => exact absurd (h.runs _ run hrun).older (Nat.lt_irrefl _)
  have hruns : ∀ id run, s.runs id = some run →
      Function.update s.runs s.nextId
        (some ⟨r.username, r.password, r.tag, .claimed number⟩) id = some run := by
    intro id run hrun
    have hne : id ≠ s.nextId := by
      intro heq
      rw [heq, hfresh] at hrun
      cases hrun
    exact (Function.update_of_ne hne _ _).trans hrun
  have hrequests : ∀ n other, s.requests n = some other → n ≠ number →
      Function.update s.requests number (some { r with progress := .holding s.nextId }) n =
        some other :=
    fun n other hother hne => (Function.update_of_ne hne _ _).trans hother
  have hself : Function.update s.runs s.nextId
      (some ⟨r.username, r.password, r.tag, .claimed number⟩) s.nextId =
        some ⟨r.username, r.password, r.tag, .claimed number⟩ := Function.update_self _ _ _
  have hholder : Function.update s.requests number
      (some { r with progress := .holding s.nextId }) number =
        some { r with progress := .holding s.nextId } := Function.update_self _ _ _
  have hclaimed : Note.claimed number s.nextId ∈
      log ++ [.inspected number none, .claimed number s.nextId] := by simp
  have htag := (h.requests number r hr).tag
  refine ⟨hmemo, ?_, ?_, ?_, ?_⟩
  · intro held hheld
    obtain rfl := Option.some.inj hheld
    exact ⟨_, hself, rfl, rfl⟩
  · intro id run hrun
    by_cases hid : id = s.nextId
    · subst hid
      obtain rfl := Option.some.inj (hself.symm.trans hrun)
      refine ⟨htag, Nat.lt_succ_self _, fun _ => ⟨_, rfl, rfl⟩, ?_, ?_, ?_⟩
      · intro ok hok
        cases hok
      · intro hpanicked
        cases hpanicked
      · intro n hat
        cases hat
        exact ⟨_, Function.update_self _ _ _, rfl⟩
    · have hold : s.runs id = some run := (Function.update_of_ne hid _ _).symm.trans hrun
      refine (h.runs id run hold).leaves (Nat.le_succ _) ?_ ?_
      · intro hguard
        obtain ⟨held, hheld, _⟩ := (h.runs id run hold).guarded hguard
        rw [hslot] at hheld
        cases hheld
      · intro n other hat hother hholding
        refine ⟨other, hrequests n other hother ?_, hholding⟩
        intro heq
        rw [heq, hr] at hother
        cases hother
        exact hfree id hholding
  · intro n other hother
    by_cases hn : n = number
    · subst hn
      obtain rfl := Option.some.inj (hholder.symm.trans hother)
      exact ⟨htag, ⟨_, hself, rfl, rfl⟩, congrArg (Option.map (·.stage)) hself, hclaimed⟩
    · have hold : s.requests n = some other := (Function.update_of_ne hn _ _).symm.trans hother
      refine (h.requests n other hold).leaves ⟨?_, ?_⟩
      · intro id run hrun
        exact ⟨run, hruns id run hrun, rfl, rfl, rfl, fun hat => hat⟩
      · intro slot hmem
        simp only [Gate.register, List.mem_cons, Note.inspected.injEq, reduceCtorEq,
          List.not_mem_nil, or_false] at hmem
        exact hn hmem.1
  · intro n verdict hanswered
    have hold : .answered n verdict ∈ log := by simpa [Gate.register] using hanswered
    obtain ⟨other, hother, hprogress⟩ := h.answered n verdict hold
    refine ⟨other, hrequests n other hother ?_, hprogress⟩
    intro heq
    rw [heq, hr] at hother
    cases hother
    exact hopen verdict hprogress

variable {id : ℕ} {run : KdfRun Text Tag}

/-- The task of a run goes on, with the slot as it was. -/
theorem setStage (h : s.Keeps v log) (hrun : s.runs id = some run)
    (hmemo : memo.Sound v) (freed : ℕ) (hclaim : ∀ n, run.stage ≠ .claimed n)
    {stage : Stage} (hguard : stage.holdsGuard = run.stage.holdsGuard)
    (hunclaimed : ∀ n, stage ≠ .claimed n)
    (hverdict : ∀ ok, stage.verdict = some ok → v.verify run.username run.password = ok)
    (hpanicked : stage.panicked = true → .panicked id ∈ log ++ notes)
    (hnotes : ∀ note ∈ notes, note = .panicked id) :
    ({ s with memo := memo, freed := freed }.setStage id run stage).Keeps v (log ++ notes) := by
  have hself : Function.update s.runs id (some { run with stage := stage }) id =
      some { run with stage := stage } := Function.update_self _ _ _
  have hkept := h.runs id run hrun
  refine ⟨hmemo, ?_, ?_, ?_, ?_⟩
  · intro held hheld
    obtain ⟨other, hother, hother', htag⟩ := h.slot held hheld
    by_cases hid : held.id = id
    · rw [hid, hrun] at hother
      cases hother
      refine ⟨{ run with stage := stage }, ?_, hguard.trans hother', htag⟩
      rw [hid]
      exact hself
    · exact ⟨other, (Function.update_of_ne hid _ _).trans hother, hother', htag⟩
  · intro other run' hrun'
    by_cases hid : other = id
    · subst hid
      obtain rfl := Option.some.inj (hself.symm.trans hrun')
      exact ⟨hkept.tag, hkept.older, fun hholds => hkept.guarded (hguard.symm.trans hholds),
        hverdict, hpanicked, fun n hat => absurd hat (hunclaimed n)⟩
    · have hold : s.runs other = some run' := (Function.update_of_ne hid _ _).symm.trans hrun'
      exact (h.runs other run' hold).leaves (Nat.le_refl _) (fun _ => rfl)
        fun n r' _ hr' hholding => ⟨r', hr', hholding⟩
  · intro n r' hr'
    refine (h.requests n r' hr').leaves ⟨?_, ?_⟩
    · intro other run' hrun'
      by_cases hid : other = id
      · subst hid
        obtain rfl := Option.some.inj (hrun.symm.trans hrun')
        exact ⟨_, hself, rfl, rfl, rfl, fun hat => absurd hat (hclaim n)⟩
      · exact ⟨run', (Function.update_of_ne hid _ _).trans hrun', rfl, rfl, rfl, fun hat => hat⟩
    · intro slot hslot
      cases hnotes _ hslot
  · intro n verdict hanswered
    rcases List.mem_append.mp hanswered with hold | hnew
    · exact h.answered n verdict hold
    · cases hnotes _ hnew

/-- The guard is dropped: the slot is that of the run, and is cleared. -/
theorem release (h : s.Keeps v log) (hrun : s.runs id = some run)
    {result : Option Bool} (hat : run.stage = .returned result) :
    (s.releaseSlot id run result).Keeps v log ∧ (s.releaseSlot id run result).slot = none := by
  have hkept := h.runs id run hrun
  obtain ⟨held, hheld, hid⟩ := hkept.guarded (by rw [hat]; rfl)
  have hours : s.slot.any (·.id = id) = true := by simp [hheld, hid]
  rw [Gate.releaseSlot, if_pos hours]
  refine ⟨?_, rfl⟩
  have hself : Function.update s.runs id (some { run with stage := .freeing result }) id =
      some { run with stage := .freeing result } := Function.update_self _ _ _
  refine ⟨h.memo, ?_, ?_, ?_, h.answered⟩
  · intro held hheld
    cases hheld
  · intro other run' hrun'
    by_cases hother : other = id
    · subst hother
      obtain rfl := Option.some.inj (hself.symm.trans hrun')
      refine ⟨hkept.tag, hkept.older, fun hholds => (by cases hholds), ?_, ?_, ?_⟩
      · intro ok hok
        exact hkept.verdict ok (by rw [hat]; exact hok)
      · intro hpanicked
        refine hkept.panicked ?_
        rw [hat]
        cases result with
        | none => rfl
        | some ok => cases hpanicked
      · intro n hclaimed
        cases hclaimed
    · have hold : s.runs other = some run' := (Function.update_of_ne hother _ _).symm.trans hrun'
      suffices run'.Keeps v (log ++ []) ({ s with slot := none }.setStage id run (.freeing result))
          other by rwa [List.append_nil] at this
      refine (h.runs other run' hold).leaves (Nat.le_refl _) ?_
        fun n r' _ hr' hholding => ⟨r', hr', hholding⟩
      -- no other run holds the slot
      intro hguard
      obtain ⟨held', hheld', hid'⟩ := (h.runs other run' hold).guarded hguard
      rw [hheld] at hheld'
      obtain rfl := Option.some.inj hheld'
      exact absurd (hid'.symm.trans hid) hother
  · intro n r' hr'
    suffices r'.Keeps v (log ++ []) ({ s with slot := none }.setStage id run (.freeing result)) n by
      rwa [List.append_nil] at this
    refine (h.requests n r' hr').leaves ⟨?_, fun _ hslot => by cases hslot⟩
    intro other run' hrun'
    by_cases hother : other = id
    · subst hother
      obtain rfl := Option.some.inj (hrun.symm.trans hrun')
      refine ⟨_, hself, rfl, rfl, rfl, ?_⟩
      intro hclaimed
      rw [hat] at hclaimed
      cases hclaimed
    · exact ⟨run', (Function.update_of_ne hother _ _).trans hrun', rfl, rfl, rfl, fun h => h⟩

/-- The guard goes from the request to the task. -/
theorem spawn (h : s.Keeps v log) (hr : s.requests number = some r)
    (hat : r.progress = .holding id) (hrun : s.runs id = some run) :
    ((s.setStage id run .spawned).put number r (.joining id)).Keeps v log := by
  have hkept := h.runs id run hrun
  have hself : Function.update s.runs id (some { run with stage := .spawned }) id =
      some { run with stage := .spawned } := Function.update_self _ _ _
  have hmine : Function.update s.requests number (some { r with progress := .joining id }) number =
      some { r with progress := .joining id } := Function.update_self _ _ _
  have hstands := (h.requests number r hr).stands
  rw [hat] at hstands
  obtain ⟨⟨run₀, hrun₀, husername, hpassword⟩, hstage, hclaimed⟩ := hstands
  rw [hrun] at hrun₀
  obtain rfl := Option.some.inj hrun₀
  have hheld : run.stage = .claimed number := by simpa [hrun] using hstage
  have hguard : run.stage.holdsGuard = true := by
    rw [hheld]
    rfl
  refine ⟨h.memo, ?_, ?_, ?_, ?_⟩
  · intro held hslot
    obtain ⟨other, hother, hother', htag⟩ := h.slot held hslot
    by_cases hid : held.id = id
    · rw [hid, hrun] at hother
      cases hother
      refine ⟨{ run with stage := .spawned }, ?_, rfl, htag⟩
      rw [hid]
      exact hself
    · exact ⟨other, (Function.update_of_ne hid _ _).trans hother, hother', htag⟩
  · intro other run' hrun'
    by_cases hother : other = id
    · subst hother
      obtain rfl := Option.some.inj (hself.symm.trans hrun')
      exact ⟨hkept.tag, hkept.older, fun _ => hkept.guarded hguard, fun _ hok => (by cases hok),
        fun hpanicked => (by cases hpanicked), fun _ hclaimed => (by cases hclaimed)⟩
    · have hold : s.runs other = some run' := (Function.update_of_ne hother _ _).symm.trans hrun'
      suffices run'.Keeps v (log ++ []) ((s.setStage id run .spawned).put number r (.joining id))
          other by rwa [List.append_nil] at this
      refine (h.runs other run' hold).leaves (Nat.le_refl _) (fun _ => rfl) ?_
      intro n r' _ hr' hholding
      have hne : n ≠ number := by
        intro heq
        rw [heq, hr] at hr'
        cases hr'
        rw [hat] at hholding
        exact hother (Progress.holding.inj hholding).symm
      exact ⟨r', (Function.update_of_ne hne _ _).trans hr', hholding⟩
  · intro n r' hr'
    by_cases hn : n = number
    · subst hn
      obtain rfl := Option.some.inj (hmine.symm.trans hr')
      exact ⟨(h.requests n r hr).tag, ⟨_, hself, husername, hpassword⟩, hclaimed⟩
    · have hold : s.requests n = some r' := (Function.update_of_ne hn _ _).symm.trans hr'
      suffices r'.Keeps v (log ++ []) ((s.setStage id run .spawned).put number r (.joining id)) n by
        rwa [List.append_nil] at this
      refine (h.requests n r' hold).leaves ⟨?_, fun _ hslot => by cases hslot⟩
      intro other run' hrun'
      by_cases hother : other = id
      · subst hother
        obtain rfl := Option.some.inj (hrun.symm.trans hrun')
        refine ⟨_, hself, rfl, rfl, rfl, ?_⟩
        intro hclaimed
        rw [hheld] at hclaimed
        exact absurd (Stage.claimed.inj hclaimed).symm hn
      · exact ⟨run', (Function.update_of_ne hother _ _).trans hrun', rfl, rfl, rfl, fun h => h⟩
  · intro n verdict hanswered
    obtain ⟨r', hr', hprogress⟩ := h.answered n verdict hanswered
    have hne : n ≠ number := by
      intro heq
      rw [heq, hr] at hr'
      cases hr'
      rw [hat] at hprogress
      cases hprogress
    exact ⟨r', (Function.update_of_ne hne _ _).trans hr', hprogress⟩

end Gate.Keeps

end RustyPhoton.RpAuth
