import RustyPhoton.Lib.Transition
import RustyPhoton.Rp.Guiding.Watch

/-!
# Baselines and episodes

What the watch emits is justified by what it did before. The events keep their distances whatever
the ring holds; the frames of a baseline are fresh as long as the ring holds no valid frame from
before the last re-arm when the baseline is taken.
-/

namespace RustyPhoton.Rp.Guiding

open Lib (Binary64 History Justified checkedAdd instantMax)

/-- What may stand between a degraded event and a later step of the same episode. -/
def Within (config : FocusWatchConfig) (escalated : Bool) : WatchTrace → Prop
  | .rearmed _ => False
  | .adopted _ _ => True
  | .judged baseline current => WatchCore.exceeds config baseline current = true
  | .emitted _ (.degraded _ _) => False
  | .emitted _ (.escalation _ _) => escalated = true

/-- What has to have happened before the watch does something. -/
def Reason (config : FocusWatchConfig) (before : List WatchTrace) : WatchTrace → Prop
  | .rearmed _ | .judged _ _ => True
  | .adopted frames baseline =>
      baseline = median (frames.map (·.2)) ∧ frames.length = config.window.value ∧
        ∀ time, .rearmed time ∈ before → ∀ f ∈ frames, time < f.1.recordedAt
  | .emitted time (.degraded _ _) =>
      ∀ a earlier x y b, before = a ++ .emitted earlier (.degraded x y) :: b →
        (∀ rearm, .rearmed rearm ∉ b) → earlier + config.cooldown ≤ time
  | .emitted time (.escalation _ _) =>
      ∃ a earlier x y b, before = a ++ .emitted earlier (.degraded x y) :: b ∧
        (∀ entry ∈ b, Within config false entry) ∧ earlier + config.escalationDeadline ≤ time

/-- No baseline is taken while the ring that was read has a valid frame from before a re-arm, and
the cooldown is short enough to end. -/
def Unspoiled (log : List WatchTrace) (s : Watch) : WatchInput → Prop
  | .observe => ∀ frames, s.poll = .read true frames →
      s.clock + s.core.config.cooldown ≤ instantMax ∧
        (s.core.adopts (validHfds frames) = true →
          ∀ time, .rearmed time ∈ log → ∀ f ∈ valid frames, time < f.1.recordedAt)
  | _ => True

/-! ## The valid frames -/

theorem validHfds_eq (frames : List FrameMetrics) :
    validHfds frames = (valid frames).map (·.2) := by
  unfold validHfds valid
  induction frames.filter (fun f => !f.starLost) with
  | nil => rfl
  | cons f rest ih =>
    cases hhfd : f.hfd with
    | none =>
      rw [List.filterMap_cons_none hhfd, List.filterMap_cons_none (by rw [hhfd]; rfl)]
      exact ih
    | some hfd =>
      rw [List.filterMap_cons_some hhfd,
        List.filterMap_cons_some (b := (f, hfd)) (by rw [hhfd]; rfl), List.map_cons, ih]

theorem length_validHfds (frames : List FrameMetrics) :
    (validHfds frames).length = (valid frames).length := by
  rw [validHfds_eq, List.length_map]

/-! ## What the log says of the state machine -/

/-- The cooldown and the episode are those of the last degraded event. -/
structure Kept (config : FocusWatchConfig) (log : List WatchTrace) (core : WatchCore) : Prop where
  configured : core.config = config
  justified : Justified (Reason config) log
  cooldown : ∀ a time x y b, log = a ++ .emitted time (.degraded x y) :: b →
    (∀ rearm, .rearmed rearm ∉ b) →
      ∃ until', core.cooldownUntil = some until' ∧ time + config.cooldown ≤ until'
  episode : ∀ episode, core.episode = some episode →
    ∃ a x y b, log = a ++ .emitted episode.firedAt (.degraded x y) :: b ∧
      ∀ entry ∈ b, Within config episode.escalated entry

variable {config : FocusWatchConfig} {log : List WatchTrace} {core : WatchCore}

theorem kept_new (config : FocusWatchConfig) : Kept config [] (.new config) where
  configured := rfl
  justified := .nil
  cooldown a time x y b h := by simp at h
  episode := nofun

/-- After a re-arm nothing of the last episode is left. -/
theorem Kept.rearm (h : Kept config log core) (time : Nat) :
    Kept config (log ++ [.rearmed time]) core.rearm where
  configured := h.configured
  justified := h.justified.snoc trivial
  cooldown a earlier x y b hsplit hquiet := by
    rcases Lib.mem_split_snoc hsplit with ⟨-, -, hlast⟩ | ⟨b', rfl, -⟩
    · cases hlast
    · exact (hquiet time (List.mem_append_right _ List.mem_cons_self)).elim
  episode := nofun

/-- An entry that is no event leaves the cooldown alone. -/
theorem Kept.cooldown_snoc (h : Kept config log core) {entry : WatchTrace}
    (hentry : ∀ time x y, entry ≠ .emitted time (.degraded x y)) (a : List WatchTrace) (time : Nat)
    (x y : Binary64) (b : List WatchTrace)
    (hsplit : log ++ [entry] = a ++ .emitted time (.degraded x y) :: b)
    (hquiet : ∀ rearm, .rearmed rearm ∉ b) :
    ∃ until', core.cooldownUntil = some until' ∧ time + config.cooldown ≤ until' := by
  rcases Lib.mem_split_snoc hsplit with ⟨-, -, hlast⟩ | ⟨b', rfl, hbefore⟩
  · exact (hentry time x y hlast.symm).elim
  · refine h.cooldown a time x y b' hbefore ?_
    intro rearm hmem
    exact hquiet rearm (List.mem_append_left _ hmem)

/-- What may stand in an episode still may once it has escalated. -/
theorem Within.mono {escalated later : Bool} {entry : WatchTrace}
    (h : Within config escalated entry) (hlater : escalated = true → later = true) :
    Within config later entry := by
  unfold Within at h ⊢
  split
  · exact h
  · trivial
  · exact h
  · exact h
  · exact hlater h

/-- An episode goes on past an entry that belongs to it. -/
theorem Kept.episode_snoc (h : Kept config log core) {entry : WatchTrace} {episode : Episode}
    (hepisode : core.episode = some episode) {later : Bool}
    (hlater : episode.escalated = true → later = true) (hentry : Within config later entry) :
    ∃ a x y b, log ++ [entry] = a ++ .emitted episode.firedAt (.degraded x y) :: b ∧
      ∀ e ∈ b, Within config later e := by
  obtain ⟨a, x, y, b, rfl, hwithin⟩ := h.episode episode hepisode
  refine ⟨a, x, y, b ++ [entry], by simp, ?_⟩
  intro e he
  rcases List.mem_append.mp he with hb | hlast
  · exact (hwithin e hb).mono hlater
  · rw [List.mem_singleton.mp hlast]
    exact hentry

/-- A baseline is taken of the oldest valid frames, and of fresh ones if all of them are. -/
theorem Kept.adopt (h : Kept config log core) {frames : List FrameMetrics}
    (hadopts : core.adopts (validHfds frames) = true)
    (hfresh : ∀ time, .rearmed time ∈ log → ∀ f ∈ valid frames, time < f.1.recordedAt) :
    Kept config (log ++ [.adopted ((valid frames).take core.config.window.value)
      (median ((validHfds frames).take core.config.window.value))])
      (core.adopt (validHfds frames)) := by
  have hlen : core.config.window.value ≤ (valid frames).length := by
    unfold WatchCore.adopts at hadopts
    rw [Bool.and_eq_true, decide_eq_true_eq, length_validHfds] at hadopts
    exact hadopts.2
  have hsame : core.adopt (validHfds frames) =
      { core with baseline := some (median ((validHfds frames).take core.config.window.value)) } :=
    if_pos hadopts
  rw [hsame]
  refine ⟨h.configured, h.justified.snoc ⟨?_, ?_, ?_⟩, h.cooldown_snoc nofun, ?_⟩
  · rw [validHfds_eq, List.map_take]
  · rw [List.length_take, h.configured]
    rw [h.configured] at hlen
    omega
  · intro time hmem f hf
    exact hfresh time hmem f (List.mem_of_mem_take hf)
  · intro episode hepisode
    exact h.episode_snoc hepisode id trivial

/-- Recovery ends the episode silently. -/
theorem Kept.recover (h : Kept config log core) :
    Kept config log { core with episode := none } where
  configured := h.configured
  justified := h.justified
  cooldown := h.cooldown
  episode := nofun

/-- A comparison that an open episode survives. -/
theorem Kept.judged (h : Kept config log core) {baseline current : Binary64}
    (hexceeds : core.episode ≠ none → WatchCore.exceeds config baseline current = true) :
    Kept config (log ++ [.judged baseline current]) core where
  configured := h.configured
  justified := h.justified.snoc trivial
  cooldown := h.cooldown_snoc nofun
  episode episode hepisode := by
    refine h.episode_snoc hepisode id (hexceeds ?_)
    rw [hepisode]
    nofun

/-- An event opens an episode once the cooldown of the last one is over. -/
theorem Kept.degrade (h : Kept config log core) (baseline current : Binary64) {now : Nat}
    (hcool : ∀ until', core.cooldownUntil = some until' → until' ≤ now)
    (hroom : now + config.cooldown ≤ instantMax) :
    Kept config (log ++ [.emitted now (.degraded baseline current)]) { core with
      episode := some ⟨now, false⟩
      cooldownUntil := some ((checkedAdd now core.config.cooldown).getD now) } := by
  have huntil : (checkedAdd now core.config.cooldown).getD now = now + config.cooldown := by
    rw [h.configured, Lib.checkedAdd_eq hroom]
    rfl
  have hspaced : ∀ a earlier x y b, log = a ++ .emitted earlier (.degraded x y) :: b →
      (∀ rearm, .rearmed rearm ∉ b) → earlier + config.cooldown ≤ now := by
    intro a earlier x y b hbefore hquiet
    obtain ⟨until', hsome, hle⟩ := h.cooldown a earlier x y b hbefore hquiet
    have hover := hcool until' hsome
    omega
  refine ⟨h.configured, h.justified.snoc hspaced, ?_, ?_⟩
  · intro a time x y b hlog hquiet
    refine ⟨_, rfl, ?_⟩
    rw [huntil]
    rcases Lib.mem_split_snoc hlog with ⟨-, -, hlast⟩ | ⟨b', rfl, hbefore⟩
    · cases hlast
      exact Nat.le_refl _
    · have hle := hspaced a time x y b' hbefore fun rearm hmem =>
        hquiet rearm (List.mem_append_left _ hmem)
      omega
  · intro episode hsome
    cases hsome
    exact ⟨log, baseline, current, [], rfl, nofun⟩

/-- An episode that has not escalated escalates when its deadline is over. -/
theorem Kept.escalate (h : Kept config log core) (baseline current : Binary64) {now : Nat}
    {episode : Episode} (hepisode : core.episode = some episode)
    (hfirst : episode.escalated = false)
    (hdue : episode.firedAt + config.escalationDeadline ≤ now) :
    Kept config (log ++ [.emitted now (.escalation baseline current)])
      { core with episode := some { episode with escalated := true } } := by
  refine ⟨h.configured, h.justified.snoc ?_, h.cooldown_snoc nofun, ?_⟩
  · obtain ⟨a, x, y, b, hlog, hb⟩ := h.episode episode hepisode
    rw [hfirst] at hb
    exact ⟨a, episode.firedAt, x, y, b, hlog, hb, hdue⟩
  · intro later hsome
    cases hsome
    exact h.episode_snoc hepisode (fun _ => rfl) rfl

/-- A comparison, and what is emitted on it. -/
theorem Kept.judge (h : Kept config log core) (baseline current : Binary64) {now : Nat}
    (hroom : now + config.cooldown ≤ instantMax) :
    Kept config (log ++ .judged baseline current ::
        (core.judge baseline current now).2.map (.emitted now))
      (core.judge baseline current now).1 := by
  unfold WatchCore.judge
  split
  · next hepisode hexceeds =>
      rw [h.configured] at hexceeds
      have hjudged := h.judged fun _ => hexceeds
      split
      · exact hjudged
      · next hcool =>
          have hdegraded := hjudged.degrade baseline current ?_ hroom
          · rw [List.append_assoc] at hdegraded
            exact hdegraded
          · intro until' hsome
            rw [hsome] at hcool
            have hover : ¬ now < until' := by simpa using hcool
            omega
  · next episode hepisode hexceeds =>
      rw [h.configured] at hexceeds
      have hjudged := h.judged fun _ => hexceeds
      split
      · next hdue =>
          rw [Bool.and_eq_true, Option.any_eq_true] at hdue
          obtain ⟨hfirst, deadline, hdeadline, hpast⟩ := hdue
          have hreached : episode.firedAt + config.escalationDeadline ≤ now := by
            rw [h.configured] at hdeadline
            rw [← Lib.eq_of_checkedAdd hdeadline]
            exact of_decide_eq_true hpast
          have hescalated := hjudged.escalate baseline current hepisode
            (by simpa using hfirst) hreached
          rw [List.append_assoc] at hescalated
          exact hescalated
      · exact hjudged
  · exact h.recover.judged fun hopen => (hopen rfl).elim
  · next hepisode hexceeds => exact h.judged fun hopen => (hopen hepisode).elim

/-- One observation. -/
theorem Kept.observed {s : Watch} (h : Kept config log s.core) {guiding : Bool}
    {frames : List FrameMetrics} (hpoll : s.poll = .read guiding frames)
    (ok : Unspoiled log s .observe) :
    Kept config (log ++ (s.observed guiding frames).2) (s.observed guiding frames).1.core := by
  unfold Watch.observed WatchCore.observe
  cases guiding with
  | false => exact h.rearm s.clock
  | true =>
    obtain ⟨hroom, hfresh⟩ := ok frames hpoll
    rw [h.configured] at hroom
    have hadopted : Kept config (log ++ Watch.adoption s.core frames)
        (s.core.adopt (validHfds frames)) := by
      unfold Watch.adoption
      split
      · next hadopts => exact h.adopt hadopts (hfresh hadopts)
      · next hkeeps =>
          unfold WatchCore.adopt
          rw [if_neg hkeeps, List.append_nil]
          exact h
    show Kept config (log ++ (Watch.adoption s.core frames ++
      Watch.judgement (s.core.adopt (validHfds frames)) frames s.clock)) _
    rw [← List.append_assoc]
    unfold Watch.judgement
    dsimp only
    rw [if_pos rfl]
    split
    · rw [List.append_nil]
      exact hadopted
    · next baseline current hreading => exact hadopted.judge baseline current hroom

/-! ## Every run -/

theorem core_pushMetrics (s : Watch) (entry : FrameMetrics) :
    (s.pushMetrics entry).core = s.core := by
  unfold Watch.pushMetrics
  split
  · rfl
  · rfl

theorem Kept.step {scope : Scope} {s s' : Watch} {i : WatchInput} {events : List WatchTrace}
    (h : Kept config log s.core) (ok : Unspoiled log s i)
    (taken : s.step scope i = some (s', events)) : Kept config (log ++ events) s'.core := by
  have hsame : Kept config (log ++ []) s.core := by
    rw [List.append_nil]
    exact h
  unfold Watch.step at taken
  cases i with
  | tick duration =>
    cases taken
    exact hsame
  | phd2 guiding =>
    cases taken
    exact hsame
  | guideStep frame hfd | starLost frame =>
    cases taken
    rw [core_pushMetrics]
    exact hsame
  | startGuiding =>
    cases taken
    exact hsame
  | getAppState | readRing | lagged | closed =>
    dsimp only at taken
    split at taken
    · cases taken
      exact hsame
    · cases taken
  | unavailable =>
    dsimp only at taken
    split at taken
    · cases taken
    · cases taken
    · cases taken
      exact hsame
  | observe =>
    dsimp only at taken
    split at taken
    · next guiding frames hpoll =>
        cases taken
        exact h.observed hpoll ok
    · cases taken
  | heard event payload =>
    dsimp only at taken
    split at taken
    · split at taken
      · cases taken
        exact h.rearm s.clock
      · cases taken
        exact hsame
    · cases taken

/-- What the watch does is justified in every run that takes no baseline from a ring with a valid
frame from before the last re-arm. -/
theorem watch_justified {scope : Scope} {inputs : List WatchInput} {s : Watch}
    (h : History (Watch.step scope) Unspoiled (Watch.new config) inputs log s) :
    Justified (Reason config) log := by
  have hkept : Kept config log s.core :=
    h.invariant (fun log s => Kept config log s.core) (kept_new config)
      fun hinv ok taken => hinv.step ok taken
  exact hkept.justified

namespace Evaluation

/-- An HFD of three pixels. -/
def three : Binary64 := ⟨0x4008000000000000#64⟩

/-- Three frames a median, events when the HFD doubles. -/
def threeFrames : FocusWatchConfig where
  window := ⟨3, by decide, by decide⟩
  degradeRatio := ⟨⟨0x4000000000000000#64⟩, by decide, by decide⟩
  cooldown := 600000000000
  escalationDeadline := 600000000000

def guideTrain : Scope := ⟨some "guide", ["guide-focuser"]⟩

def refocused : WatchInput :=
  .heard "focus_complete" (.object [("train_id", .string "guide")])

/-- The refocus comes first, and the frames after it. -/
def framesAfter : List WatchInput :=
  [refocused, .tick 1, .guideStep 1 three, .guideStep 2 three, .guideStep 3 three, .phd2 true,
    .getAppState, .readRing, .observe]

theorem frames_after_refocus_justified :
    ∃ log s, History (Watch.step guideTrain) Unspoiled (Watch.new threeFrames) framesAfter log s ∧
      Justified (Reason threeFrames) log := by
  have h : History (Watch.step guideTrain) Unspoiled (Watch.new threeFrames) [] [] _ := .nil
  have h := h.snoc (i := refocused) trivial rfl
  have h := h.snoc (i := WatchInput.tick 1) trivial rfl
  have h := h.snoc (i := WatchInput.guideStep 1 three) trivial rfl
  have h := h.snoc (i := WatchInput.guideStep 2 three) trivial rfl
  have h := h.snoc (i := WatchInput.guideStep 3 three) trivial rfl
  have h := h.snoc (i := WatchInput.phd2 true) trivial rfl
  have h := h.snoc (i := WatchInput.getAppState) trivial rfl
  have h := h.snoc (i := WatchInput.readRing) trivial rfl
  have h := h.snoc (i := WatchInput.observe) ?_ rfl
  · exact ⟨_, _, h, watch_justified h⟩
  · intro frames hread
    cases hread
    refine ⟨by decide, ?_⟩
    intro _ time hmem f hf
    cases List.mem_singleton.mp hmem
    have hrecorded : f.1.recordedAt = 1 := by
      revert f
      decide
    rw [hrecorded]
    exact Nat.one_pos

/-- The frames come first, and the refocus after them: they are still in the ring. -/
def framesBefore : List WatchInput :=
  [.guideStep 1 three, .guideStep 2 three, .guideStep 3 three, .phd2 true, .tick 1, refocused,
    .tick 1, .getAppState, .readRing, .observe]

theorem refocus_keeps_old_frames :
    ∃ log s, History (Watch.step guideTrain) (fun _ _ _ => True) (Watch.new threeFrames)
      framesBefore log s ∧ ¬ Justified (Reason threeFrames) log := by
  refine ⟨_, _, History.of_play rfl, ?_⟩
  intro hjustified
  have hreason := hjustified [.rearmed 1] _ _ rfl
  have hlate := hreason.2.2 1 List.mem_cons_self _ List.mem_cons_self
  exact absurd hlate (by decide)

end Evaluation

end RustyPhoton.Rp.Guiding
