import RustyPhoton.SessionRunner.Runs.Footprint
import RustyPhoton.SessionRunner.Runs.Waiting

/-!
# Crashes and restarts

A run resumes from its manifest, on the blackboard under its session id. The blackboard that an
earlier run has left under the id is deleted by the first pass only, after the manifest has been
written: a crash in between resumes the run on the other run's blackboard. Where no crash finds a
manifest next to the blackboard of another run, and no session id makes a blackboard look like a
manifest, every pass sees what passes of its own run have written, and a run whose manifest `end`
has unlinked is not executed again (`passes_see_their_own_blackboard`).
-/

namespace RustyPhoton.SessionRunner.Runs

open Lib Engine

/-- The blackboard under a manifest's session id, if any, was written by a pass of its run. -/
def Dir.OwnBlackboard (dir : Dir) (m : RunManifest) : Prop :=
  ∀ file ∈ dir.lookup (blackboardName m.sessionId), ∃ session, file = .blackboard m.runId session

/-- The session id does not make a blackboard look like a manifest. -/
def PlainSession (sessionId : String) : Prop := ¬ ".run".toList <:+ sessionId.toList

/-- Where a run keeps its own blackboard: a request mints a new run id and names a session that
does not end in `.run`, and no crash finds a manifest next to the blackboard of another run. -/
def Tidy (log : List Event) (s : Service) : Input → Prop
  | .post r => (∀ m, .posted m ∈ log → m.runId ≠ r.runId) ∧ PlainSession r.sessionId
  | .crash _ => ∀ m, s.dir.lookup (manifestName m.sessionId) = some (.manifest m) →
      s.dir.OwnBlackboard m
  | _ => True

/-! ## The invariant -/

/-- The task has a manifest on disk: it is past its request and not yet at its end. -/
def Control.isLive : Control → Bool
  | .connect _ | .backoff _ _ | .readSafety _ | .awaitSafe _ | .prepare _ | .subscribe _ _ _
  | .execute _ _ _ _ => true
  | .writeManifest _ | .report _ _ | .unlinkManifest _ _ | .unlinkBlackboard _ _ | .record _ _ =>
      false

/-- The task's manifest may have been unlinked. -/
def Control.isUnlinked : Control → Bool
  | .unlinkBlackboard _ _ | .record _ _ => true
  | _ => false

/-- The task will load the blackboard, or has got it. -/
def Task.usesBlackboard (t : Task) : Bool :=
  match t.control with
  | .prepare _ => t.recovery.isSome
  | control => control.isLive

/-- What holds of a task: its run was posted, its manifest is on disk while it lives, and the
blackboard is its own from the moment on at which it counts. -/
structure Task.Sound (log : List Event) (dir : Dir) (t : Task) : Prop where
  posted : .posted t.manifest ∈ log
  linked : t.control.isUnlinked = false → .unlinked t.runId ∉ log
  onDisk : t.control.isLive = true →
    dir.lookup (manifestName t.sessionId) = some (.manifest t.manifest)
  own : t.usesBlackboard = true → dir.OwnBlackboard t.manifest

/-- What holds of a manifest that the startup resume will come to. -/
structure Pending (log : List Event) (dir : Dir) (m : RunManifest) : Prop where
  posted : .posted m ∈ log
  linked : .unlinked m.runId ∉ log
  onDisk : dir.lookup (manifestName m.sessionId) = some (.manifest m)
  own : dir.OwnBlackboard m

/-- Two runs that share neither an id nor a session. -/
def RunManifest.Unrelated (a b : RunManifest) : Prop :=
  a.runId ≠ b.runId ∧ a.sessionId ≠ b.sessionId

structure Process.Sound (log : List Event) (dir : Dir) (p : Process) : Prop where
  owned : p.Owned
  known : ∀ id ∈ p.registry.ids, ∃ m, .posted m ∈ log ∧ m.runId = id
  tasks : ∀ t ∈ p.tasks, t.Sound log dir
  resuming : ∀ m ∈ p.resuming, Pending log dir m
  unrelated : p.resuming.Pairwise RunManifest.Unrelated
  fresh : ∀ m ∈ p.resuming, m.runId ∉ p.registry.ids
  foreign : ∀ m ∈ p.resuming, ∀ t ∈ p.tasks, m.sessionId ≠ t.sessionId

/-- What holds of the log and the directory. -/
structure Files (log : List Event) (dir : Dir) : Prop where
  unique : ∀ m m', .posted m ∈ log → .posted m' ∈ log → m.runId = m'.runId → m = m'
  plain : ∀ m, .posted m ∈ log → PlainSession m.sessionId
  ended : ∀ id, .unlinked id ∈ log → ∃ m, .posted m ∈ log ∧ m.runId = id
  manifests : ∀ name m, dir.lookup name = some (.manifest m) →
    name = manifestName m.sessionId ∧ .posted m ∈ log ∧ .unlinked m.runId ∉ log
  blackboards : ∀ name owner session, dir.lookup name = some (.blackboard owner session) →
    ∃ sessionId, PlainSession sessionId ∧ name = blackboardName sessionId

/-- Every pass so far saw what its own run had written, and followed no unlink of its run. -/
def Log.Clean (log : List Event) : Prop :=
  ∀ before e after, log = before ++ e :: after →
    (∀ runId found, e = .began runId found →
      found = none ∨ ∃ session, found = some (.blackboard runId session)) ∧
    ∀ runId, e.isPassOf runId = true → .unlinked runId ∉ before

/-- The invariant of every tidy history. -/
structure Service.Sound (log : List Event) (s : Service) : Prop where
  files : Files log s.dir
  process : ∀ p ∈ s.process, p.Sound log s.dir
  down : s.process = none → ∀ m, s.dir.lookup (manifestName m.sessionId) = some (.manifest m) →
    s.dir.OwnBlackboard m
  clean : Log.Clean log

/-! ## Names of a plain session -/

variable {s : String}

theorem PlainSession.ne {t : String} (h : PlainSession s) : blackboardName s ≠ manifestName t := by
  intro he
  apply h
  rw [blackboardName_eq_manifestName.mp he, String.toList_append]
  exact List.suffix_append _ _

/-- A blackboard's name has the manifest suffix only where its session ends in `.run`. -/
theorem PlainSession.not_suffix (h : PlainSession s) :
    ¬ manifestSuffix.toList <:+ (blackboardName s).toList := by
  rintro ⟨rest, hrest⟩
  apply h
  have hsuffix : manifestSuffix.toList = ".run".toList ++ ".json".toList := by decide
  rw [hsuffix, blackboardName, String.toList_append, ← List.append_assoc,
    List.append_cancel_right_eq] at hrest
  exact ⟨rest, hrest⟩

/-! ## Changes of the log and the directory -/

/-- The events that neither register nor unlink a run. -/
def Event.isQuiet : Event → Bool
  | .posted _ | .unlinked _ => false
  | .began _ _ | .ran _ _ | .stopAnswered _ _ => true

section

variable {log events : List Event} {dir : Dir} {m : RunManifest} {t t' : Task}

theorem mem_append_quiet (hquiet : ∀ e ∈ events, e.isQuiet = true) {e : Event}
    (he : e.isQuiet = false) : e ∈ log ++ events ↔ e ∈ log := by
  refine ⟨fun h => ?_, fun h => List.mem_append_left _ h⟩
  rcases List.mem_append.mp h with h | h
  · exact h
  · rw [hquiet e h] at he
    cases he

theorem Files.quiet (h : Files log dir) (hquiet : ∀ e ∈ events, e.isQuiet = true) :
    Files (log ++ events) dir := by
  have hposted : ∀ m : RunManifest, .posted m ∈ log ++ events ↔ .posted m ∈ log :=
    fun m => mem_append_quiet hquiet rfl
  have hunlinked : ∀ id : String, .unlinked id ∈ log ++ events ↔ .unlinked id ∈ log :=
    fun id => mem_append_quiet hquiet rfl
  constructor
  · simpa only [hposted] using h.unique
  · simpa only [hposted] using h.plain
  · simpa only [hposted, hunlinked] using h.ended
  · simpa only [hposted, hunlinked] using h.manifests
  · exact h.blackboards

theorem Task.Sound.quiet (h : t.Sound log dir) (hquiet : ∀ e ∈ events, e.isQuiet = true) :
    t.Sound (log ++ events) dir :=
  ⟨(mem_append_quiet hquiet rfl).mpr h.posted,
    fun hc => fun hmem => h.linked hc ((mem_append_quiet hquiet rfl).mp hmem), h.onDisk, h.own⟩

/-- A manifest written under its own name. -/
theorem Files.putManifest (h : Files log dir) (hposted : .posted m ∈ log)
    (hlinked : .unlinked m.runId ∉ log) :
    Files log (dir.put (manifestName m.sessionId) (some (.manifest m))) := by
  refine ⟨h.unique, h.plain, h.ended, fun name m' hm' => ?_, fun name owner session hb => ?_⟩
  · by_cases hname : name = manifestName m.sessionId
    · subst hname
      rw [lookup_put_self] at hm'
      cases hm'
      exact ⟨rfl, hposted, hlinked⟩
    · rw [lookup_put_of_ne _ _ hname] at hm'
      exact h.manifests name m' hm'
  · by_cases hname : name = manifestName m.sessionId
    · subst hname
      rw [lookup_put_self] at hb
      cases hb
    · rw [lookup_put_of_ne _ _ hname] at hb
      exact h.blackboards name owner session hb

/-- A blackboard written or deleted under the name of a plain session. -/
theorem Files.putBlackboard (h : Files log dir) {sessionId : String}
    (hplain : PlainSession sessionId) (owner : String) (content : Option Value) :
    Files log (dir.put (blackboardName sessionId) (content.map (.blackboard owner))) := by
  refine ⟨h.unique, h.plain, h.ended, fun name m' hm' => ?_, fun name owner session hb => ?_⟩
  · by_cases hname : name = blackboardName sessionId
    · subst hname
      rw [lookup_put_self] at hm'
      cases content <;> cases hm'
    · rw [lookup_put_of_ne _ _ hname] at hm'
      exact h.manifests name m' hm'
  · by_cases hname : name = blackboardName sessionId
    · exact ⟨sessionId, hplain, hname⟩
    · rw [lookup_put_of_ne _ _ hname] at hb
      exact h.blackboards name owner session hb

/-- A run's manifest unlinked: no other file holds a manifest of the run. -/
theorem Files.unlink (h : Files log dir) (hposted : .posted m ∈ log) :
    Files (log ++ [.unlinked m.runId]) (dir.put (manifestName m.sessionId) none) := by
  have hmem : ∀ m' : RunManifest, .posted m' ∈ log ++ [.unlinked m.runId] ↔ .posted m' ∈ log := by
    simp
  refine ⟨?_, ?_, fun id hid => ?_, fun name m' hm' => ?_, fun name owner session hb => ?_⟩
  · simpa only [hmem] using h.unique
  · simpa only [hmem] using h.plain
  · simp only [hmem]
    rcases List.mem_append.mp hid with hid | hid
    · exact h.ended id hid
    · cases List.mem_singleton.mp hid
      exact ⟨m, hposted, rfl⟩
  · by_cases hname : name = manifestName m.sessionId
    · subst hname
      rw [lookup_put_self] at hm'
      cases hm'
    · rw [lookup_put_of_ne _ _ hname] at hm'
      obtain ⟨hown, hposted', hlinked⟩ := h.manifests name m' hm'
      refine ⟨hown, (hmem m').mpr hposted', fun hunlinked => ?_⟩
      rcases List.mem_append.mp hunlinked with hunlinked | hunlinked
      · exact hlinked hunlinked
      · have hid : m'.runId = m.runId := by simpa using hunlinked
        exact hname (h.unique m' m hposted' hposted hid ▸ hown)
  · by_cases hname : name = manifestName m.sessionId
    · subst hname
      rw [lookup_put_self] at hb
      cases hb
    · rw [lookup_put_of_ne _ _ hname] at hb
      exact h.blackboards name owner session hb

theorem ownBlackboard_congr {dir' : Dir}
    (h : dir'.lookup (blackboardName m.sessionId) = dir.lookup (blackboardName m.sessionId)) :
    dir'.OwnBlackboard m ↔ dir.OwnBlackboard m := by
  rw [Dir.OwnBlackboard, Dir.OwnBlackboard, h]

theorem ownBlackboard_put (content : Option Value) :
    (dir.put (blackboardName m.sessionId) (content.map (.blackboard m.runId))).OwnBlackboard m := by
  intro file hfile
  rw [lookup_put_self] at hfile
  obtain ⟨session, -, rfl⟩ := Option.map_eq_some_iff.mp hfile
  exact ⟨session, rfl⟩

/-! ## Tasks -/

/-- A task that goes on where it needs no more than before. -/
theorem Task.Sound.goto (h : t.Sound log dir) (hmanifest : t'.manifest = t.manifest)
    (hlinked : t'.control.isUnlinked = false → t.control.isUnlinked = false)
    (hlive : t'.control.isLive = true → t.control.isLive = true)
    (huses : t'.usesBlackboard = true → t.usesBlackboard = true) : t'.Sound log dir := by
  refine ⟨hmanifest ▸ h.posted, fun hc => ?_, fun hc => ?_, fun hc => ?_⟩
  · rw [Task.runId, hmanifest]
    exact h.linked (hlinked hc)
  · rw [Task.sessionId, hmanifest]
    exact h.onDisk (hlive hc)
  · rw [hmanifest]
    exact h.own (huses hc)

/-- A task past the unlink of its manifest needs nothing of the directory. -/
theorem Task.Sound.ofPosted (hposted : .posted t.manifest ∈ log)
    (hunlinked : t.control.isUnlinked = true) : t.Sound log dir := by
  obtain ⟨manifest, recovery, graceDeadline, control⟩ := t
  cases control with
  | unlinkBlackboard | record =>
    exact ⟨hposted, by simp [Control.isUnlinked], by simp [Control.isLive],
      by simp [Task.usesBlackboard, Control.isLive]⟩
  | _ => cases hunlinked

/-- What a step of a task leaves behind: sound files and a sound task; the events it logged are
about its own run, a pass of which sees its own blackboard and follows no unlink. -/
structure Move.Sound (log : List Event) (dir : Dir) (t : Task) (m : Move) : Prop where
  files : Files (log ++ m.events) (m.dirAfter dir)
  task : ∀ t' ∈ m.task, t'.Sound (log ++ m.events) (m.dirAfter dir)
  events : m.events = [] ∨ m.events = [.unlinked t.runId] ∨
    ∃ e, m.events = [e] ∧ e.isQuiet = true ∧ .unlinked t.runId ∉ log ∧
      (∀ runId, e.isPassOf runId = true → runId = t.runId) ∧
      ∀ runId found, e = .began runId found →
        found = none ∨ ∃ session, found = some (.blackboard runId session)

variable {note : Option Note}

/-- A step that changes no file and logs nothing. -/
theorem Task.Sound.silent (h : t.Sound log dir) (hfiles : Files log dir)
    (hmanifest : t'.manifest = t.manifest)
    (hlinked : t'.control.isUnlinked = false → t.control.isUnlinked = false)
    (hlive : t'.control.isLive = true → t.control.isLive = true)
    (huses : t'.usesBlackboard = true → t.usesBlackboard = true) :
    Move.Sound log dir t { task := some t', note } := by
  refine ⟨by simpa [Move.dirAfter] using hfiles, ?_, .inl rfl⟩
  rintro _ ⟨⟩
  simpa [Move.dirAfter] using h.goto hmanifest hlinked hlive huses

/-- The end of a pass: the blackboard is as it was, or the pass has written it. -/
theorem Task.Sound.passed (h : t.Sound log dir) (hfiles : Files log dir)
    (hlive : t.control.isLive = true) (huses : t.usesBlackboard = true)
    (hunlinked : t.control.isUnlinked = false) {before after : Option Value}
    {trace : Trace} (hmanifest : t'.manifest = t.manifest) :
    Move.Sound log dir t
      { task := some t', note, file := t.fileAfter before after, events := [.ran t.runId trace] } := by
  have hquiet : ∀ e ∈ [Event.ran t.runId trace], e.isQuiet = true := by simp [Event.isQuiet]
  have hplain : PlainSession t.sessionId := hfiles.plain _ h.posted
  have hevent : ∀ runId, (Event.ran t.runId trace).isPassOf runId = true → runId = t.runId := by
    intro runId hpass
    simpa [Event.isPassOf, eq_comm] using hpass
  have hsound : ∀ dir' : Dir, dir'.lookup (manifestName t.sessionId) =
        dir.lookup (manifestName t.sessionId) → dir'.OwnBlackboard t.manifest →
      t'.Sound (log ++ [.ran t.runId trace]) dir' := by
    intro dir' hname hown
    refine Task.Sound.quiet ⟨hmanifest ▸ h.posted, fun _ => ?_, fun _ => ?_, fun _ => ?_⟩ hquiet
    · rw [Task.runId, hmanifest]
      exact h.linked hunlinked
    · rw [Task.sessionId, hmanifest]
      exact hname.trans (h.onDisk hlive)
    · rw [hmanifest]
      exact hown
  have hlog : Event.unlinked t.runId ∉ log := h.linked hunlinked
  unfold Task.fileAfter
  split
  · refine ⟨by simpa [Move.dirAfter] using hfiles.quiet hquiet, ?_,
      .inr (.inr ⟨_, rfl, rfl, hlog, hevent, by simp⟩)⟩
    rintro _ ⟨⟩
    simpa [Move.dirAfter] using hsound dir rfl (h.own huses)
  · refine ⟨(hfiles.putBlackboard hplain t.runId after).quiet hquiet, ?_,
      .inr (.inr ⟨_, rfl, rfl, hlog, hevent, by simp⟩)⟩
    rintro _ ⟨⟩
    exact hsound _ (lookup_put_of_ne _ _ hplain.ne.symm) (ownBlackboard_put after)

end

/-- A launched run does not load a blackboard. -/
theorem Task.supervise_launch_fresh (config : Config) (m : RunManifest) (doc : Document) :
    (supervise config m (some doc)).usesBlackboard = false := by
  unfold supervise
  cases config.mcpServerUrl <;> rfl

variable {t : Task} {dir : Dir} {m : Move} {log : List Event}

/-- Every step of a sound task is sound. -/
theorem Task.Goes.sound [Crates] {config : Config} {registry : RunRegistry}
    {answer : Answered} (hgoes : t.Goes config registry dir answer m)
    (h : t.Sound log dir) (hfiles : Files log dir) : m.Sound log dir t := by
  have hplain : PlainSession t.sessionId := hfiles.plain _ h.posted
  cases hgoes with
  | @launched doc _ at_ =>
    have hlinked : .unlinked t.runId ∉ log := h.linked (by rw [at_]; rfl)
    refine ⟨?_, ?_, .inl rfl⟩
    · rw [List.append_nil]
      exact hfiles.putManifest h.posted hlinked
    · rintro _ ⟨⟩
      have hmanifest := supervise_manifest config t.manifest (some doc)
      rw [List.append_nil]
      refine ⟨hmanifest.symm ▸ h.posted, fun _ => ?_, fun _ => ?_, fun huses => ?_⟩
      · rwa [Task.runId, hmanifest]
      · rw [Task.sessionId, hmanifest]
        exact lookup_put_self (manifestName t.sessionId) (some (.manifest t.manifest)) dir
      · rw [supervise_launch_fresh] at huses
        cases huses
  | @notLaunched _ _ replaced _ at_ =>
    have hlinked : .unlinked t.runId ∉ log := h.linked (by rw [at_]; rfl)
    refine ⟨?_, by simp, .inl rfl⟩
    cases replaced with
    | true =>
      rw [List.append_nil]
      exact hfiles.putManifest h.posted hlinked
    | false => simpa [Move.dirAfter] using hfiles
  | connected at_ =>
    refine h.silent hfiles rfl (fun _ => by rw [at_]; rfl) (fun _ => by rw [at_]; rfl) fun _ => ?_
    simp [usesBlackboard, at_, Control.isLive]
  | invalid at_ | graceSpent at_ | stoppedBackoff at_ | stoppedWait at_ | notBegun at_ =>
    exact h.silent hfiles rfl (fun _ => by rw [at_]; rfl) (fun hc => by cases hc)
      (fun hc => by cases hc)
  | unreachable at_ | slept at_ | safe at_ | notSafe at_ | unavailable at_ | noStatus at_
  | reread at_ | began at_ =>
    refine h.silent hfiles rfl (fun _ => by rw [at_]; rfl) (fun _ => by rw [at_]; rfl) fun _ => ?_
    simp [usesBlackboard, at_, Control.isLive]
  | ignored at_ => exact h.silent hfiles rfl id id id
  | reported at_ | blackboardKept at_ =>
    exact h.silent hfiles rfl (fun hc => by first | (rw [at_]; rfl) | cases hc)
      (fun hc => by cases hc) (fun hc => by cases hc)
  | manifestKept at_ =>
    exact h.silent hfiles rfl (fun hc => by cases hc) (fun hc => by cases hc)
      (fun hc => by cases hc)
  | loaded at_ resume load =>
    have huses : t.usesBlackboard = true := by rw [usesBlackboard, at_]; exact resume
    have hquiet : ∀ e ∈ [Event.began t.runId (dir.lookup (blackboardName t.sessionId))],
        e.isQuiet = true := by simp [Event.isQuiet]
    have hlinked : .unlinked t.runId ∉ log := h.linked (by rw [at_]; rfl)
    refine ⟨by simpa [Move.dirAfter] using hfiles.quiet hquiet, ?_,
      .inr (.inr ⟨_, rfl, rfl, hlinked, ?_, ?_⟩)⟩
    · rintro _ ⟨⟩
      refine Task.Sound.quiet ?_ hquiet
      exact h.goto rfl (fun _ => by rw [at_]; rfl) (fun _ => by rw [at_]; rfl) fun _ => huses
    · simp [Event.isPassOf, eq_comm]
    · rintro runId found he
      obtain ⟨rfl, rfl⟩ := Event.began.inj he
      cases hfound : dir.lookup (blackboardName t.sessionId) with
      | none => exact .inl rfl
      | some file =>
        obtain ⟨session, rfl⟩ := h.own huses file hfound
        exact .inr ⟨session, rfl⟩
  | replaced at_ fresh =>
    have hquiet : ∀ e ∈ [Event.began t.runId none], e.isQuiet = true := by simp [Event.isQuiet]
    have hlinked : .unlinked t.runId ∉ log := h.linked (by rw [at_]; rfl)
    refine ⟨(hfiles.putBlackboard hplain t.runId none).quiet hquiet, ?_,
      .inr (.inr ⟨_, rfl, rfl, hlinked, by simp [Event.isPassOf, eq_comm], ?_⟩)⟩
    · rintro _ ⟨⟩
      refine Task.Sound.quiet ⟨h.posted, fun _ => hlinked, fun _ => ?_, fun _ => ?_⟩ hquiet
      · exact (lookup_put_of_ne none dir hplain.ne.symm).trans (h.onDisk (by rw [at_]; rfl))
      · exact ownBlackboard_put none
    · rintro runId found he
      exact .inl (Event.began.inj he).2.symm
  | ended at_ | paused at_ =>
    exact h.passed hfiles (by rw [at_]; rfl) (by rw [usesBlackboard, at_]; rfl)
      (by rw [at_]; rfl) rfl
  | manifestGone at_ =>
    refine ⟨hfiles.unlink h.posted, ?_, .inr (.inl rfl)⟩
    rintro _ ⟨⟩
    exact .ofPosted (List.mem_append_left _ h.posted) rfl
  | blackboardGone at_ =>
    refine ⟨?_, ?_, .inl rfl⟩
    · rw [List.append_nil]
      exact hfiles.putBlackboard hplain t.runId none
    · rintro _ ⟨⟩
      rw [List.append_nil]
      exact .ofPosted h.posted rfl
  | recorded at_ => exact ⟨by simpa [Move.dirAfter] using hfiles, by simp, .inl rfl⟩

/-! ## The log -/

theorem Log.Clean.nil : Log.Clean [] := by
  intro before e after h
  simp at h

variable {e : Event}

theorem Log.Clean.snoc (h : Log.Clean log) (hbegan : ∀ runId found, e = .began runId found →
      found = none ∨ ∃ session, found = some (.blackboard runId session))
    (hpass : ∀ runId, e.isPassOf runId = true → .unlinked runId ∉ log) :
    Log.Clean (log ++ [e]) := by
  intro before e' after hsplit
  rcases List.eq_nil_or_concat after with rfl | ⟨rest, last, rfl⟩
  · obtain ⟨rfl, he⟩ := List.append_inj' hsplit rfl
    obtain rfl : e = e' := by simpa using he
    exact ⟨hbegan, hpass⟩
  · have hsplit' : log ++ [e] = (before ++ e' :: rest) ++ [last] := by
      rw [hsplit]
      simp
    exact h before e' rest (List.append_inj' hsplit' rfl).1

/-- An event that is not about a pass keeps the log clean. -/
theorem Log.Clean.other (h : Log.Clean log)
    (he : ∀ runId, e.isPassOf runId = false) : Log.Clean (log ++ [e]) := by
  refine h.snoc (fun runId found hbegan => ?_) fun runId hpass => ?_
  · have := he runId
    simp [hbegan, Event.isPassOf] at this
  · rw [he runId] at hpass
    cases hpass

/-- The events of a sound step keep the log clean. -/
theorem Move.Sound.clean
    (hm : m.Sound log dir t) (h : Log.Clean log) : Log.Clean (log ++ m.events) := by
  rcases hm.events with he | he | ⟨e, he, -, hlinked, hrun, hbegan⟩ <;> rw [he]
  · rwa [List.append_nil]
  · exact h.other fun _ => rfl
  · exact h.snoc hbegan fun runId hpass => hrun runId hpass ▸ hlinked

/-! ## The startup resume -/

section

variable {log : List Event} {dir : Dir} {m : RunManifest}

variable {config : Config} {registry : RunRegistry} {t : Task} {answer : Answered} {move : Move}

/-- A step of a task leaves the manifests that wait for their resume, and what they need, alone. -/
theorem Pending.frame [Crates]
    (h : Pending log dir m) (hfiles : Files log dir)
    (ht : t.Sound log dir) (hgoes : t.Goes config registry dir answer move)
    (hrun : m.runId ≠ t.runId) (hsession : m.sessionId ≠ t.sessionId) :
    Pending (log ++ move.events) (move.dirAfter dir) m := by
  have hplain : PlainSession m.sessionId := hfiles.plain m h.posted
  have hplain' : PlainSession t.sessionId := hfiles.plain _ ht.posted
  have hboard : (move.dirAfter dir).lookup (blackboardName m.sessionId) =
      dir.lookup (blackboardName m.sessionId) := by
    refine Move.lookup_dirAfter fun f hf he => ?_
    rcases hgoes.file_name f hf with hname | hname <;> rw [hname] at he
    · exact hplain.ne he
    · exact hsession (blackboardName_injective he)
  refine ⟨List.mem_append_left _ h.posted, fun hunlinked => ?_, ?_,
    (ownBlackboard_congr hboard).mpr h.own⟩
  · rcases List.mem_append.mp hunlinked with hunlinked | hunlinked
    · exact h.linked hunlinked
    · rcases (hgoes.sound ht hfiles).events with he | he | ⟨e, he, hquiet, -⟩ <;>
        rw [he] at hunlinked
      · cases hunlinked
      · exact hrun (by simpa using hunlinked)
      · obtain rfl := List.mem_singleton.mp hunlinked
        cases hquiet
  · refine (Move.lookup_dirAfter fun f hf he => ?_).trans h.onDisk
    rcases hgoes.file_name f hf with hname | hname <;> rw [hname] at he
    · exact hsession (manifestName_injective he)
    · exact hplain'.ne he.symm

variable [Crates]

/-- A file that a scan reads as a manifest is one, under its own name. -/
theorem Files.manifest_of_scanned (h : Files log dir) {name : String}
    (hsuffix : manifestSuffix.toList <:+ name.toList)
    (hfound : (dir.lookup name).bind File.asManifest = some m) :
    dir.lookup name = some (.manifest m) ∧ name = manifestName m.sessionId := by
  obtain ⟨file, hfile, hm⟩ := Option.bind_eq_some_iff.mp hfound
  cases file with
  | manifest m' =>
    obtain rfl : m' = m := Option.some.inj hm
    exact ⟨hfile, (h.manifests name m' hfile).1⟩
  | blackboard owner session =>
    obtain ⟨sessionId, hplain, rfl⟩ := h.blackboards name owner session hfile
    exact absurd hsuffix hplain.not_suffix

variable {listing : List String}

theorem Files.pending_of_scan (h : Files log dir)
    (hdown : ∀ m, dir.lookup (manifestName m.sessionId) = some (.manifest m) →
      dir.OwnBlackboard m) (hm : m ∈ dir.scan listing) :
    Pending log dir m := by
  obtain ⟨name, -, hsuffix, hfound⟩ := mem_scan hm
  obtain ⟨hfile, rfl⟩ := h.manifest_of_scanned hsuffix hfound
  obtain ⟨-, hposted, hlinked⟩ := h.manifests _ m hfile
  exact ⟨hposted, hlinked, hfile, hdown m hfile⟩

/-- The manifests of a scan are of different runs and sessions. -/
theorem Files.scan_unrelated (h : Files log dir)
    (hnodup : listing.Nodup) : (dir.scan listing).Pairwise RunManifest.Unrelated := by
  have hsymm : ∀ {a b : RunManifest}, a.Unrelated b → b.Unrelated a :=
    fun hab => ⟨hab.1.symm, hab.2.symm⟩
  rw [Dir.scan, (List.perm_insertionSort _ _).pairwise_iff hsymm, List.pairwise_filterMap]
  refine List.Pairwise.imp_of_mem ?_ (hnodup.filter _)
  intro name name' hname hname' hne m hm m' hm'
  have hsuffix : manifestSuffix.toList <:+ name.toList :=
    List.isSuffixOf_iff_suffix.mp (List.mem_filter.mp hname).2
  have hsuffix' : manifestSuffix.toList <:+ name'.toList :=
    List.isSuffixOf_iff_suffix.mp (List.mem_filter.mp hname').2
  obtain ⟨hfile, rfl⟩ := h.manifest_of_scanned hsuffix hm
  obtain ⟨hfile', rfl⟩ := h.manifest_of_scanned hsuffix' hm'
  refine ⟨fun hid => hne ?_, fun hsession => hne (by rw [hsession])⟩
  rw [h.unique m m' (h.manifests _ m hfile).2.1 (h.manifests _ m' hfile').2.1 hid]

/-! ## The steps of the service -/

variable {s : Service} {p : Process}

/-- A restart on a directory whose manifests have their own blackboards. -/
theorem Service.Sound.restart (h : s.Sound log) (hdown : s.process = none)
    (hnodup : listing.Nodup) :
    Process.Sound log s.dir
      ⟨config, [], [], if config.resumeOnStart then s.dir.scan listing else []⟩ := by
  have howned : Process.Owned
      ⟨config, [], [], if config.resumeOnStart then s.dir.scan listing else []⟩ :=
    ⟨List.nodup_nil, rfl, Nat.zero_le 1⟩
  refine ⟨howned, by simp [RunRegistry.ids], by simp, ?_, ?_, by simp [RunRegistry.ids], by simp⟩
  · intro m hm
    dsimp only at hm
    split at hm
    · exact h.files.pending_of_scan (h.down hdown) hm
    · cases hm
  · dsimp only
    split
    · exact h.files.scan_unrelated hnodup
    · exact .nil

omit [Crates] in
/-- A crash: a pass that was running has written the blackboard of its own run. -/
theorem Process.Sound.crash (h : p.Sound log dir) (hfiles : Files log dir)
    (htidy : ∀ m, dir.lookup (manifestName m.sessionId) = some (.manifest m) → dir.OwnBlackboard m)
    (written : Option Value) :
    Files log (p.cut written dir) ∧
      ∀ m, (p.cut written dir).lookup (manifestName m.sessionId) = some (.manifest m) →
        (p.cut written dir).OwnBlackboard m := by
  unfold Process.cut
  split
  · next session t hfind =>
      have ht := h.tasks t (List.mem_of_find?_eq_some hfind)
      have hplain : PlainSession t.sessionId := hfiles.plain _ ht.posted
      have hlive : t.control.isLive = true := by
        have hexecute := List.find?_some hfind
        cases hcontrol : t.control <;> simp [hcontrol] at hexecute
        rfl
      refine ⟨hfiles.putBlackboard hplain t.runId (some session), fun m hm => ?_⟩
      rw [lookup_put_of_ne _ _ hplain.ne.symm] at hm
      by_cases hsession : m.sessionId = t.sessionId
      · rw [hsession, ht.onDisk hlive] at hm
        obtain rfl : t.manifest = m := by simpa using hm
        exact ownBlackboard_put (some session)
      · refine (ownBlackboard_congr ?_).mpr (htidy m hm)
        exact lookup_put_of_ne _ _ fun he => hsession (blackboardName_injective he)
  · exact ⟨hfiles, htidy⟩

omit [Crates] in
/-- The next manifest is resumed. -/
theorem Process.Sound.resumed (h : p.Sound log dir) {rest : List RunManifest}
    (next : p.resuming = m :: rest)
    (started : p.registry.start m.runId m.sessionId m.workflow m.startedAt = .ok registry) :
    Process.Sound log dir
      { p with
        registry
        tasks := p.tasks ++ [Task.supervise p.config m none]
        resuming := rest } := by
  have hpending := h.resuming m (by simp [next])
  have hmanifest := Task.supervise_manifest p.config m none
  have hunrelated : (m :: rest).Pairwise RunManifest.Unrelated := next ▸ h.unrelated
  have hrest : ∀ m' ∈ rest, m' ∈ p.resuming := by simp +contextual [next]
  have howned : Process.Owned { p with
      registry
      tasks := p.tasks ++ [Task.supervise p.config m none]
      resuming := rest } := h.owned.register (h.fresh m (by simp [next])) hmanifest started
  obtain ⟨-, -, rfl⟩ := RunRegistry.start_ok started
  refine ⟨howned, fun id hid => ?_, fun t ht => ?_, fun m' hm' => h.resuming m' (hrest m' hm'),
    (List.pairwise_cons.mp hunrelated).2, fun m' hm' hid => ?_, fun m' hm' t ht => ?_⟩
  · rw [RunRegistry.ids, List.map_append, List.mem_append] at hid
    rcases hid with hid | hid
    · exact h.known id hid
    · exact ⟨m, hpending.posted, (List.mem_singleton.mp hid).symm⟩
  · rcases List.mem_append.mp ht with ht | ht
    · exact h.tasks t ht
    · obtain rfl := List.mem_singleton.mp ht
      refine ⟨hmanifest.symm ▸ hpending.posted, fun _ => ?_, fun _ => ?_, fun _ => ?_⟩
      · rw [Task.runId, hmanifest]
        exact hpending.linked
      · rw [Task.sessionId, hmanifest]
        exact hpending.onDisk
      · rw [hmanifest]
        exact hpending.own
  · rw [RunRegistry.ids, List.map_append, List.mem_append] at hid
    rcases hid with hid | hid
    · exact h.fresh m' (hrest m' hm') hid
    · exact ((List.pairwise_cons.mp hunrelated).1 m' hm').1 (List.mem_singleton.mp hid).symm
  · rcases List.mem_append.mp ht with ht | ht
    · exact h.foreign m' (hrest m' hm') t ht
    · rw [List.mem_singleton.mp ht, Task.sessionId, hmanifest]
      exact ((List.pairwise_cons.mp hunrelated).1 m' hm').2.symm

omit [Crates] in
/-- A posted run is new to the log. -/
theorem Files.post (h : Files log dir) (hfresh : ∀ m', .posted m' ∈ log → m'.runId ≠ m.runId)
    (hplain : PlainSession m.sessionId) : Files (log ++ [.posted m]) dir := by
  have hmem : ∀ m', .posted m' ∈ log ++ [.posted m] ↔ .posted m' ∈ log ∨ m' = m := by simp
  have hunlinked : ∀ id, .unlinked id ∈ log ++ [.posted m] ↔ .unlinked id ∈ log := by simp
  refine ⟨fun a b ha hb hid => ?_, fun a ha => ?_, fun id hid => ?_, fun name a ha => ?_,
    h.blackboards⟩
  · rcases (hmem a).mp ha with ha' | rfl <;> rcases (hmem b).mp hb with hb' | rfl
    · exact h.unique a b ha' hb' hid
    · exact absurd hid (hfresh a ha')
    · exact absurd hid.symm (hfresh b hb')
    · rfl
  · rcases (hmem a).mp ha with ha | rfl
    · exact h.plain a ha
    · exact hplain
  · obtain ⟨a, ha, hid⟩ := h.ended id ((hunlinked id).mp hid)
    exact ⟨a, (hmem a).mpr (.inl ha), hid⟩
  · obtain ⟨hname, hposted, hlinked⟩ := h.manifests name a ha
    exact ⟨hname, (hmem a).mpr (.inl hposted), fun hu => hlinked ((hunlinked _).mp hu)⟩

omit [Crates] in
/-- A request registers its run. -/
theorem Process.Sound.posted (h : p.Sound log dir) (hfiles : Files log dir) {r : Request}
    {doc : Document} (serving : p.resuming = [])
    (hfresh : ∀ m, .posted m ∈ log → m.runId ≠ r.runId)
    (started : p.registry.start r.runId r.sessionId r.workflow r.now = .ok registry) :
    Process.Sound (log ++ [.posted r.manifest]) dir
      { p with
        registry
        tasks := p.tasks ++ [⟨r.manifest, none, none, .writeManifest doc⟩] } := by
  have hnew : r.runId ∉ p.registry.ids := fun hid => by
    obtain ⟨m, hposted, hm⟩ := h.known _ hid
    exact hfresh m hposted hm
  have howned : Process.Owned { p with
      registry
      tasks := p.tasks ++ [⟨r.manifest, none, none, .writeManifest doc⟩] } :=
    h.owned.register (m := r.manifest) hnew rfl started
  obtain ⟨hidle, -, rfl⟩ := RunRegistry.start_ok started
  have htasks : p.tasks = [] := by simpa [hidle] using h.owned.owners.symm
  refine ⟨howned, fun id hid => ?_, fun t ht => ?_, by simp [serving], by simp [serving],
    by simp [serving], by simp [serving]⟩
  · rw [RunRegistry.ids, List.map_append, List.mem_append] at hid
    rcases hid with hid | hid
    · obtain ⟨m, hposted, hm⟩ := h.known id hid
      exact ⟨m, List.mem_append_left _ hposted, hm⟩
    · exact ⟨r.manifest, by simp, (List.mem_singleton.mp hid).symm⟩
  · obtain rfl : t = ⟨r.manifest, none, none, .writeManifest doc⟩ := by simpa [htasks] using ht
    have hlinked : .unlinked r.runId ∉ log ++ [.posted r.manifest] := fun hunlinked => by
      obtain ⟨m, hposted, hm⟩ := hfiles.ended r.runId (by simpa using hunlinked)
      exact hfresh m hposted hm
    exact ⟨by simp, fun _ => hlinked, by simp [Control.isLive],
      by simp [Task.usesBlackboard, Control.isLive]⟩

/-- A step of the one task. -/
theorem Process.Sound.advanced {index : Nat}
    (h : p.Sound log dir) (hfiles : Files log dir) (at_ : p.tasks[index]? = some t)
    (hgoes : t.Goes p.config p.registry dir answer move) {p' : Process}
    (hp : (Service.apply dir p index t move).process = some p') :
    p'.Sound (log ++ move.events) (move.dirAfter dir) := by
  have howned := h.owned.advance at_ hgoes.ofRun hp
  obtain ⟨rfl, htasks, hactive⟩ := h.owned.of_task at_
  have ht := h.tasks t (by simp [htasks])
  have hrun : t.runId ∈ p.registry.ids :=
    RunRegistry.mem_ids_of_activeIds (hactive ▸ List.mem_singleton.mpr rfl)
  obtain rfl := Option.some.inj hp
  have hids : ((move.note.map (Note.apply t.runId)).elim p.registry (· p.registry)).ids =
      p.registry.ids := by
    cases move.note with
    | none => rfl
    | some note => exact note.ids_apply t.runId p.registry
  have htask : ∀ t' ∈ p.tasks.take 0 ++ move.task.toList ++ p.tasks.drop 1, t' ∈ move.task := by
    intro t' ht'
    simpa [htasks] using ht'
  have hsound := hgoes.sound ht hfiles
  refine ⟨howned, fun id hid => ?_, fun t' ht' => hsound.task t' (htask t' ht'), fun m hm => ?_,
    h.unrelated, fun m hm => ?_, fun m hm t' ht' => ?_⟩
  · obtain ⟨m, hposted, hm⟩ := h.known id (hids ▸ hid)
    exact ⟨m, List.mem_append_left _ hposted, hm⟩
  · refine (h.resuming m hm).frame hfiles ht hgoes (fun he => ?_) (h.foreign m hm t (by simp [htasks]))
    exact h.fresh m hm (he ▸ hrun)
  · exact fun hid => h.fresh m hm (hids ▸ hid)
  · rw [Task.sessionId, hgoes.ofRun.manifest t' (htask t' ht')]
    exact h.foreign m hm t (by simp [htasks])

variable {events : List Event}

omit [Crates] in
theorem Process.Sound.quiet (h : p.Sound log dir)
    (hquiet : ∀ e ∈ events, e.isQuiet = true) : p.Sound (log ++ events) dir := by
  refine ⟨h.owned, fun id hid => ?_, fun t ht => (h.tasks t ht).quiet hquiet, fun m hm => ?_,
    h.unrelated, h.fresh, h.foreign⟩
  · obtain ⟨m, hposted, hm⟩ := h.known id hid
    exact ⟨m, List.mem_append_left _ hposted, hm⟩
  · obtain ⟨hposted, hlinked, hdisk, hown⟩ := h.resuming m hm
    exact ⟨List.mem_append_left _ hposted,
      fun hunlinked => hlinked ((mem_append_quiet hquiet rfl).mp hunlinked), hdisk, hown⟩

/-- Every tidy step keeps the invariant. -/
theorem Transition.sound {s s' : Service} {i : Input} (h : s.Sound log)
    (htidy : Tidy log s i) (ht : Transition s i s' events) : s'.Sound (log ++ events) := by
  cases ht with
  | restarted nodup =>
    rw [List.append_nil]
    refine ⟨h.files, ?_, by simp, h.clean⟩
    rintro p ⟨⟩
    exact h.restart rfl nodup
  | @crashed dir p written =>
    rw [List.append_nil]
    obtain ⟨hfiles, hown⟩ := (h.process p rfl).crash h.files htidy written
    exact ⟨hfiles, by simp, fun _ => hown, h.clean⟩
  | @resumed dir p m rest registry next started =>
    rw [List.append_nil]
    refine ⟨h.files, ?_, by simp, h.clean⟩
    rintro _ ⟨⟩
    exact (h.process p rfl).resumed next started
  | @passedOver dir p m rest next =>
    rw [List.append_nil]
    refine ⟨h.files, ?_, by simp, h.clean⟩
    rintro _ ⟨⟩
    have hp := h.process p rfl
    have hrest : ∀ m' ∈ rest, m' ∈ p.resuming := by simp +contextual [next]
    have hunrelated : (m :: rest).Pairwise RunManifest.Unrelated := next ▸ hp.unrelated
    exact ⟨⟨hp.owned.distinct, hp.owned.owners, hp.owned.single⟩, hp.known, hp.tasks,
      fun m' hm' => hp.resuming m' (hrest m' hm'), (List.pairwise_cons.mp hunrelated).2,
      fun m' hm' => hp.fresh m' (hrest m' hm'), fun m' hm' => hp.foreign m' (hrest m' hm')⟩
  | @posted dir p r doc registry serving valid started =>
    refine ⟨h.files.post htidy.1 htidy.2, ?_, by simp, h.clean.other fun _ => rfl⟩
    rintro _ ⟨⟩
    exact (h.process p rfl).posted h.files serving htidy.1 started
  | refused =>
    rw [List.append_nil]
    exact h
  | @stopped dir p runId registry fired =>
    have hquiet : ∀ e ∈ [Event.stopAnswered runId (.ok ())], e.isQuiet = true := by
      simp [Event.isQuiet]
    refine ⟨h.files.quiet hquiet, ?_, by simp, h.clean.other fun _ => rfl⟩
    rintro _ ⟨⟩
    have hp := (h.process p rfl).quiet hquiet
    have howned := hp.owned.stop fired
    obtain ⟨rfl, -⟩ := RunRegistry.stop_ok fired
    have hids : (p.registry.update runId RunRecord.cancel).ids = p.registry.ids :=
      RunRegistry.ids_update RunRecord.cancel_runId p.registry
    exact ⟨howned, fun id hid => hp.known id (hids ▸ hid), hp.tasks, hp.resuming, hp.unrelated,
      fun m hm hid => hp.fresh m hm (hids ▸ hid), hp.foreign⟩
  | @stopRefused dir p runId e notFired =>
    have hquiet : ∀ e' ∈ [Event.stopAnswered runId (.error e)], e'.isQuiet = true := by
      simp [Event.isQuiet]
    refine ⟨h.files.quiet hquiet, ?_, by simp, h.clean.other fun _ => rfl⟩
    rintro _ ⟨⟩
    exact (h.process p rfl).quiet hquiet
  | @advanced dir p index answer t move at_ moved =>
    have hgoes := Task.step_cases moved
    have hp := h.process p rfl
    have hsound := hgoes.sound (hp.tasks t (List.mem_of_getElem? at_)) h.files
    exact ⟨hsound.files, fun p' hp' => hp.advanced h.files at_ hgoes hp',
      by simp [Service.apply], hsound.clean h.clean⟩

/-- In every tidy history a pass of a run sees only what passes of the run have written, and no
pass of a run follows the unlink of its manifest by `end`. -/
theorem passes_see_their_own_blackboard {inputs : List Input}
    (h : History Service.step Tidy .initial inputs log s) :
    ∀ before e after, log = before ++ e :: after →
      (∀ runId found, e = .began runId found →
        found = none ∨ ∃ session, found = some (.blackboard runId session)) ∧
      ∀ runId, e.isPassOf runId = true → .unlinked runId ∉ before := by
  have hinv : s.Sound log := by
    refine h.invariant (fun log s => s.Sound log) ⟨?_, by rintro p ⟨⟩, ?_, .nil⟩
      fun hinv htidy hstep => (Service.step_cases hstep).sound hinv htidy
    · exact ⟨by simp, by simp, by simp, by simp [Service.initial], by simp [Service.initial]⟩
    · simp [Service.initial]
  exact hinv.clean

end

/-! ## Two nights under one session id -/

/-- Capture once in a session. -/
def onceDocument : Document :=
  rootDocument (.mk none (some "flats") (.tool ⟨"capture", [], none⟩))

/-- The first run completes, and the process dies between the two unlinks of its end. -/
def orphanedNight : List Input :=
  [.restart benchConfig [], .post (requestFor "run-1" "night" onceDocument),
    .advance 0 (.manifestWrite .written 0), .advance 0 (.bound (.ok (.object [])) none),
    .advance 0 .subscribed, .advance 0 (passAgainst []), .advance 0 (.unlinked true), .crash none,
    .restart benchConfig ["night.json"]]

/-- The second run is posted under the same session id, and the process dies before its first pass;
the restart resumes it. -/
def hauntedNight : List Input :=
  [.post (requestFor "run-2" "night" onceDocument), .advance 0 (.manifestWrite .written 0),
    .crash none, .restart benchConfig ["night.json", "night.run.json"], .resume,
    .advance 0 (.attempt (.connected onceDocument) 0), .advance 0 (statusOf "safe"),
    .advance 0 (.bound (.ok (.object [])) none), .advance 0 .subscribed,
    .advance 0 (passAgainst [])]

/-- The second run gets as far as its first pass before the process dies. -/
def quietNight : List Input :=
  [.post (requestFor "run-2" "night" onceDocument), .advance 0 (.manifestWrite .written 0),
    .advance 0 (.bound (.ok (.object [])) none), .crash none,
    .restart benchConfig ["night.run.json"], .resume,
    .advance 0 (.attempt (.connected onceDocument) 0), .advance 0 (statusOf "safe"),
    .advance 0 (.bound (.ok (.object [])) none), .advance 0 .subscribed,
    .advance 0 (passAgainst [])]

/-- The runs whose passes began in a log, with the run that wrote what they found. -/
def beginnings (log : List Event) : List (String × Option String) :=
  log.filterMap fun
    | .began runId none => some (runId, none)
    | .began runId (some (.blackboard owner _)) => some (runId, some owner)
    | .began runId (some (.manifest m)) => some (runId, some m.sessionId)
    | _ => none

/-- A crash between the manifest of the second run and its first pass: the run resumes on the
blackboard of the first one and skips what that one had done. -/
theorem crash_resumes_on_another_blackboard :
    letI := Crates.wholeSeconds
    ∃ log s, History Service.step (fun _ s i => s.FreshId i) .initial
        (orphanedNight ++ hauntedNight) log s ∧
      beginnings log = [("run-1", none), ("run-2", some "run-1")] ∧ callsIn log = ["capture"] := by
  let _ := Crates.wholeSeconds
  have hplay : (History.play Service.step (fun _ s i => s.FreshId i) [] .initial
      (orphanedNight ++ hauntedNight)).map (fun r => (beginnings r.1, callsIn r.1)) =
      some ([("run-1", none), ("run-2", some "run-1")], ["capture"]) := by decide +kernel
  obtain ⟨⟨log, s⟩, hlog, hreport⟩ := Option.map_eq_some_iff.mp hplay
  exact ⟨log, s, .of_play hlog, (Prod.mk.inj hreport).1, (Prod.mk.inj hreport).2⟩

/-- The ids of the posted runs of a log. -/
def postedIds (log : List Event) : List String :=
  log.filterMap fun
    | .posted m => some m.runId
    | _ => none

theorem mem_postedIds {id : String} :
    id ∈ postedIds log ↔ ∃ m, .posted m ∈ log ∧ m.runId = id := by
  constructor
  · intro h
    obtain ⟨e, he, hid⟩ := List.mem_filterMap.mp h
    cases e with
    | posted m => exact ⟨m, he, Option.some.inj hid⟩
    | _ => cases hid
  · rintro ⟨m, hm, rfl⟩
    exact List.mem_filterMap.mpr ⟨_, hm, rfl⟩

def File.isOwnedBy (runId : String) : File → Bool
  | .blackboard owner _ => owner = runId
  | .manifest _ => false

instance (dir : Dir) (m : RunManifest) : Decidable (dir.OwnBlackboard m) :=
  decidable_of_iff (∀ file ∈ dir.lookup (blackboardName m.sessionId), file.isOwnedBy m.runId = true) <| by
    refine forall₂_congr fun file _ => ?_
    cases file <;> simp [File.isOwnedBy]

/-- The manifests of a directory. -/
def Dir.manifests (dir : Dir) : List RunManifest :=
  dir.filterMap fun
    | (_, .manifest m) => some m
    | _ => none

theorem mem_manifests {name : String} {m : RunManifest}
    (h : dir.lookup name = some (.manifest m)) : m ∈ dir.manifests := by
  obtain ⟨before, after, rfl, -⟩ := List.lookup_eq_some_iff.mp h
  exact List.mem_filterMap.mpr ⟨(name, .manifest m), by simp, rfl⟩

instance (log : List Event) (s : Service) (i : Input) : Decidable (Tidy log s i) :=
  match i with
  | .post r =>
      decidable_of_iff (r.runId ∉ postedIds log ∧ ¬ ".run".toList <:+ r.sessionId.toList) <| by
        simp [Tidy, PlainSession, mem_postedIds]
  | .crash _ =>
      decidable_of_iff (∀ m ∈ s.dir.manifests,
        s.dir.lookup (manifestName m.sessionId) = some (.manifest m) → s.dir.OwnBlackboard m)
        ⟨fun h m hm => h m (mem_manifests hm) hm, fun h m _ => h m⟩
  | .stop _ | .advance _ _ | .resume | .restart _ _ => .isTrue trivial

/-- Where the second run's first pass comes before the crash, its passes see nothing of the first. -/
theorem quietNight_sees_its_own :
    letI := Crates.wholeSeconds
    ∃ log s, History Service.step Tidy .initial (orphanedNight ++ quietNight) log s ∧
      beginnings log = [("run-1", none), ("run-2", none), ("run-2", none)] ∧
      ∀ before e after, log = before ++ e :: after → e.isPassOf "run-1" = true →
        .unlinked "run-1" ∉ before := by
  let _ := Crates.wholeSeconds
  have hplay : (History.play Service.step Tidy [] .initial (orphanedNight ++ quietNight)).map
      (fun r => beginnings r.1) =
      some [("run-1", none), ("run-2", none), ("run-2", none)] := by decide +kernel
  obtain ⟨⟨log, s⟩, hlog, hreport⟩ := Option.map_eq_some_iff.mp hplay
  have h := History.of_play hlog
  exact ⟨log, s, h, hreport, fun before e after hsplit =>
    (passes_see_their_own_blackboard h before e after hsplit).2 "run-1"⟩

end RustyPhoton.SessionRunner.Runs
