import RustyPhoton.Sentinel.Replay

/-!
# Deadlines

A deadline runs on while the stream is down, and the timer is asked as soon as the channel of a new
connection is empty, before the replay has come into it. Where the timer fires only after the ends
that can still come have come, no operation that finished in time is acted on.
-/

namespace RustyPhoton.Sentinel

open Lib Rp.Events

variable {b : Broadcast EventEnvelope} {h : b.Lawful broadcastCapacity} {wire : Wire}
  {log events : List WatchdogTrace} {s s' : Watch b}

/-! ## The end of an operation -/

/-- An event type with one suffix does not have the other. -/
theorem not_suffix_of_suffix {text p q : List Char} (hp : p <:+ text) (hpq : ¬ p <:+ q)
    (hqp : ¬ q <:+ p) : ¬ q <:+ text := by
  intro hq
  rcases List.suffix_or_suffix_of_suffix hp hq with hpre | hpre
  · exact hpq hpre
  · exact hqp hpre

variable {e : EventEnvelope}

/-- An event that ends an operation is read as its end. -/
theorem frameAction_finish (htold : Told wire e) {operationId : String}
    (hfinish : Finishes operationId e) : frameAction wire (.envelope e) = .ended operationId := by
  obtain ⟨v, hread, hid⟩ := htold
  obtain ⟨hop, hsuffix⟩ := hfinish
  have hstarted : ¬ "_started".toList <:+ e.event.toList := by
    rcases hsuffix with hsuffix | hsuffix
    · exact not_suffix_of_suffix hsuffix (by decide) (by decide)
    · exact not_suffix_of_suffix hsuffix (by decide) (by decide)
  have hgap : e.event.toList ≠ "stream_gap".toList := by
    intro heq
    rw [heq] at hsuffix
    revert hsuffix
    decide
  have hdrop : List.dropSuffix? e.event.toList "_started".toList = none := by
    rw [Option.eq_none_iff_forall_ne_some]
    intro family hsome
    obtain ⟨s', hs', heq⟩ := List.dropSuffix?_eq_some_iff.mp hsome
    rw [eq_of_beq heq] at hs'
    exact hstarted ⟨family, hs'.symm⟩
  have hends : ("_complete".toList.isSuffixOf e.event.toList ||
      "_failed".toList.isSuffixOf e.event.toList) = true := by
    rw [Bool.or_eq_true, List.isSuffixOf_iff_suffix, List.isSuffixOf_iff_suffix]
    exact hsuffix
  unfold frameAction classify
  simp only [Wire.frame, hread, Option.getD_some, Option.some_or, if_neg hgap, hdrop, if_pos hends,
    hid, hop]

/-! ## What is lost stays lost -/

variable {x : Origin}

/-- Only a connect that finds the event held makes it one that was held at the next connect. -/
theorem HeldAtNext.of_append (hheld : HeldAtNext (log ++ events) x)
    (hnot : ∀ held, .connected held ∈ events → x ∉ held) : HeldAtNext log x := by
  obtain ⟨a, time, mid, held, c, hsplit, hquiet, hx⟩ := hheld
  have hnot' : ∀ rest, events = rest ++ .connected held :: c → False := by
    intro rest hevents
    refine hnot held ?_ hx
    rw [hevents]
    exact List.mem_append_right _ List.mem_cons_self
  rw [← List.cons_append, ← List.append_assoc] at hsplit
  rcases List.append_eq_append_iff.mp hsplit with ⟨rest, -, hevents⟩ | ⟨rest, hlog, hrest⟩
  · exact (hnot' _ hevents).elim
  · cases rest with
    | nil => exact (hnot' [] hrest.symm).elim
    | cons first rest =>
      obtain ⟨rfl, -⟩ := List.cons.inj hrest
      refine ⟨a, time, mid, held, rest, ?_, hquiet, hx⟩
      rw [hlog, List.append_assoc, List.cons_append]

/-- An event is lost still where a step neither delivers it nor finds it. -/
theorem Lost.carry (hlost : Lost log s x) (harrived : x ∉ delivered events)
    (hlink : ∀ link, s'.link = some link → x ∉ link.queued)
    (hheld : ¬ (x.1 = s'.process ∧ x.2 ∈ s'.bus.history))
    (hnext : ∀ held, .connected held ∈ events → x ∉ held) : Lost (log ++ events) s' x := by
  refine ⟨?_, hlink, hheld, fun hat => hlost.2.2.2 (hat.of_append hnext)⟩
  rw [delivered_append]
  intro hmem
  rcases List.mem_append.mp hmem with hold | hnew
  · exact hlost.1 hold
  · exact harrived hnew

/-- What changes neither the stream nor the history. -/
theorem Lost.same (hlost : Lost log s x) (harrived : delivered events = [])
    (hprocess : s'.process = s.process) (hbus : s'.bus = s.bus) (hlink : s'.link = s.link)
    (hnext : ∀ held, .connected held ∉ events) : Lost (log ++ events) s' x := by
  refine hlost.carry ?_ ?_ ?_ fun held hmem => absurd hmem (hnext held)
  · rw [harrived]
    exact List.not_mem_nil
  · intro link hsome
    exact hlost.2.1 link (hlink ▸ hsome)
  · rw [hprocess, hbus]
    exact hlost.2.2.1

theorem mem_retain {history : List EventEnvelope} {e' : EventEnvelope}
    (he : e ∈ EventBus.retain history e') : e ∈ history ∨ e = e' := by
  unfold EventBus.retain at he
  rcases List.mem_append.mp he with he | he
  · split at he
    · exact .inl (List.mem_of_mem_tail he)
    · exact .inl he
  · exact .inr (List.mem_singleton.mp he)

variable {link : Link b}

/-- An event that the receiver is given is one that `rp` still holds: the channel lags before the
ring does. -/
theorem Line.given_held (hl : Line h wire log s) (hlive : Live h s link)
    (hvalue : (b.recv s.bus.broadcast link.receiver).1 = .value e) :
    e ∈ s.bus.history := by
  obtain ⟨hprocess, hof, k, hunread⟩ := hlive
  have hroom : (h.unread s.bus.broadcast link.receiver).length ≤ broadcastCapacity := by
    by_contra hfull
    obtain ⟨hlag, -⟩ := h.overrun hof (Nat.lt_of_not_le hfull)
    rw [hvalue] at hlag
    cases hlag
  have hmem : e ∈ h.unread s.bus.broadcast link.receiver := by
    rcases (h.recv hof).2 with ⟨hempty, -⟩ | ⟨a, ha, hun⟩ | ⟨missed, hlag, -⟩
    · rw [hvalue] at hempty
      cases hempty
    · rw [hvalue] at ha
      obtain rfl := Received.value.inj ha
      rw [hun]
      exact List.mem_cons_self
    · rw [hvalue] at hlag
      cases hlag
  rw [hunread] at hmem hroom
  rw [hl.ring]
  show e ∈ s.emitted.drop (s.emitted.length - historyCapacity)
  rw [List.length_drop] at hroom
  have hcapacity : broadcastCapacity ≤ historyCapacity := by decide
  obtain ⟨rest, hrest⟩ : ∃ n, k = s.emitted.length - historyCapacity + n ∨ s.emitted.length ≤ k :=
    ⟨k - (s.emitted.length - historyCapacity), by omega⟩
  rcases hrest with hk | hk
  · rw [hk, ← List.drop_drop] at hmem
    exact List.mem_of_mem_drop hmem
  · rw [List.drop_eq_nil_of_le hk] at hmem
    exact absurd hmem List.not_mem_nil

theorem Lost.emit (hl : Line h wire log s) (hlost : Lost log s x)
    (hx : x ∈ emissions log) (envelope : EventEnvelope) (eventId timestamp : String)
    (hfew : s.emitted.length + 1 < seqModulus) :
    Lost (log ++ [.emitted s.clock (s.process, s.bus.stamp envelope eventId timestamp)])
      { s with
        bus := s.bus.dispatch envelope eventId timestamp
        emitted := s.emitted ++ [s.bus.stamp envelope eventId timestamp] } x := by
  refine hlost.carry List.not_mem_nil hlost.2.1 ?_ ?_
  · intro hheld
    obtain ⟨hprocess, hmem⟩ := hheld
    rcases mem_retain hmem with hold | hnew
    · exact hlost.2.2.1 ⟨hprocess, hold⟩
    · -- the new event has a number of its own
      have hseq : (s.bus.stamp envelope eventId timestamp).eventSeq = s.emitted.length + 1 :=
        hl.bus.next.trans (Nat.mod_eq_of_lt hfew)
      have hlast := hl.new_last hseq hx
      rw [← hnew, ← hprocess] at hlast
      exact Precedes.irrefl _ hlast
  · intro held hmem
    rw [List.mem_singleton] at hmem
    cases hmem

theorem Lost.closed (hlost : Lost log s x) (link : Link b)
    (hsome : s.link.map Link.close = some link) : x ∉ link.queued := by
  obtain ⟨old, hold, rfl⟩ := Option.map_eq_some_iff.mp hsome
  exact hlost.2.1 old hold

theorem Lost.serve (hl : Line h wire log s) (hlost : Lost log s x)
    (hlink : s.link = some link) (hopen : link.isOpen = true) :
    Lost log { s with link := some (link.serve s.bus.broadcast) } x := by
  have hlive := hl.live link hlink hopen
  have hold : x ∉ link.queued := hlost.2.1 link hlink
  refine ⟨hlost.1, ?_, hlost.2.2⟩
  intro link' hsome
  obtain rfl := Option.some.inj hsome
  unfold Link.serve
  rcases (h.recv hlive.of).2 with ⟨hempty, -⟩ | ⟨e, hvalue, -⟩ | ⟨missed, hlag, -⟩
  · simp only [hempty]
    exact hold
  · simp only [hvalue]
    show x ∉ List.filterMap (Item.origin link.process) (link.queue ++ [.envelope e])
    rw [List.filterMap_append]
    intro hmem
    rcases List.mem_append.mp hmem with hmem | hmem
    · exact hold hmem
    · obtain rfl := List.mem_singleton.mp hmem
      exact hlost.2.2.1 ⟨hlive.process, hl.given_held hlive hvalue⟩
  · simp only [hlag]
    show x ∉ List.filterMap (Item.origin link.process) (link.queue ++ [.lagGap missed])
    rw [List.filterMap_append]
    intro hmem
    rcases List.mem_append.mp hmem with hmem | hmem
    · exact hold hmem
    · exact absurd hmem List.not_mem_nil

variable {process : Nat} {item : Item}

theorem Lost.deliver (hlost : Lost log s x)
    {rest : List Item} {receiver : b.Receiver} {isOpen : Bool}
    (hlink : s.link = some ⟨process, item :: rest, receiver, isOpen⟩) :
    Lost (log ++ [.arrived process item])
      { s with
        link := some ⟨process, rest, receiver, isOpen⟩
        channel := s.channel ++ [(process, item)] } x := by
  have hqueue : Link.queued ⟨process, item :: rest, receiver, isOpen⟩ =
      (item.origin process).toList ++ Link.queued ⟨process, rest, receiver, isOpen⟩ := by
    cases item <;> rfl
  have hold := hlost.2.1 _ hlink
  rw [hqueue] at hold
  refine hlost.carry ?_ ?_ hlost.2.2.1 ?_
  · intro hmem
    refine hold (List.mem_append_left _ ?_)
    cases item <;> exact hmem
  · intro link hsome
    obtain rfl := Option.some.inj hsome
    intro hmem
    exact hold (List.mem_append_right _ hmem)
  · intro held hmem
    rw [List.mem_singleton] at hmem
    cases hmem

/-- A connect finds only what is held. -/
theorem Lost.connect (hlost : Lost log s x) :
    Lost (log ++ [.connected (s.bus.history.map (Prod.mk s.process))])
      { s with
        link := some (openStream s.process s.bus s.lastSeq), stage := .consuming, attempts := 0 }
      x := by
  have hnot : ∀ events : List EventEnvelope, (∀ e ∈ events, e ∈ s.bus.history) →
      x ∉ events.map (Prod.mk s.process) := by
    intro events hsub hmem
    obtain ⟨e, he, rfl⟩ := List.mem_map.mp hmem
    exact hlost.2.2.1 ⟨rfl, hsub e he⟩
  refine hlost.carry List.not_mem_nil ?_ hlost.2.2.1 ?_
  · intro link hsome
    obtain rfl := Option.some.inj hsome
    rw [openStream_queued]
    exact hnot _ fun e he => (mem_replay he).1
  · intro held hmem
    obtain rfl := WatchdogTrace.connected.inj (List.mem_singleton.mp hmem)
    exact hnot _ fun e he => he

/-! ## The operations that are acted on -/

/-- The event ended an operation in time that was acted on all the same. -/
def Suspect (log : List WatchdogTrace) (x : Origin) : Prop :=
  ∃ a entry c operationId t, log = a ++ entry :: c ∧ entry.late = some (operationId, t) ∧
    FinishedInTime a operationId t x

theorem mem_emissions {time : Nat} (hmem : .emitted time x ∈ log) :
    x ∈ emissions log := List.mem_filterMap.mpr ⟨_, hmem, rfl⟩

theorem Suspect.emitted (hsuspect : Suspect log x) : x ∈ emissions log := by
  obtain ⟨a, entry, c, operationId, t, rfl, -, time, deadline, hmem, -⟩ := hsuspect
  exact mem_emissions (List.mem_append_left _ hmem)

/-- An event comes under suspicion only where a step acts on its operation. -/
theorem Suspect.of_append (hsuspect : Suspect (log ++ events) x) :
    Suspect log x ∨ ∃ front entry back operationId t, events = front ++ entry :: back ∧
      entry.late = some (operationId, t) ∧ FinishedInTime (log ++ front) operationId t x := by
  obtain ⟨a, entry, c, operationId, t, hsplit, hlate, hfinished⟩ := hsuspect
  rcases List.append_eq_append_iff.mp hsplit with ⟨rest, rfl, hevents⟩ | ⟨rest, hlog, hrest⟩
  · exact .inr ⟨rest, entry, c, operationId, t, hevents, hlate, hfinished⟩
  · cases rest with
    | nil =>
      rw [List.append_nil] at hlog
      refine .inr ⟨[], entry, c, operationId, t, hrest.symm, hlate, ?_⟩
      rw [List.append_nil, hlog]
      exact hfinished
    | cons first rest =>
      obtain ⟨rfl, -⟩ := List.cons.inj hrest
      exact .inl ⟨a, entry, rest, operationId, t, hlog, hlate, hfinished⟩

theorem Suspect.of_quiet (hsuspect : Suspect (log ++ events) x)
    (hquiet : ∀ entry ∈ events, entry.late = none) : Suspect log x := by
  rcases hsuspect.of_append with hold | ⟨front, entry, back, operationId, t, hevents, hlate, -⟩
  · exact hold
  · have hnone := hquiet entry (by rw [hevents]; exact List.mem_append_right _ List.mem_cons_self)
    rw [hlate] at hnone
    cases hnone

/-! ## What a frame does -/

/-- The operation that the frame starts. -/
def FrameAction.begun : FrameAction → Option String
  | .started _ operationId _ => some operationId
  | _ => none

theorem begun_handled (process : Nat) (item : Item) :
    WatchdogTrace.begun wire (.handled process item) = (frameAction wire item).begun := rfl

section Reports

variable (config : OperationWatchdogConfig) (now : Nat) (place : Nat × Nat)
  {tracked : List (String × Tracked)}

variable {action : FrameAction}

/-- An operation that is tracked after a frame was tracked before it and is not ended by it, or is
started by it. -/
theorem mem_applyAction (hkeys : (Assoc.keys tracked).Nodup)
    {operationId : String} {t : Tracked}
    (hmem : (operationId, t) ∈ (applyAction config now place tracked action).1) :
    (operationId, t) ∈ tracked ∧ action ≠ .ended operationId ∨
      t.place = place ∧ action.begun = some operationId := by
  cases action with
  | started family started maxDurationMs =>
    rcases (Assoc.mem_insert hkeys).mp hmem with heq | ⟨-, hold⟩
    · obtain ⟨rfl, rfl⟩ := Prod.mk.inj heq
      exact .inr ⟨rfl, rfl⟩
    · refine .inl ⟨hold, fun heq => by cases heq⟩
  | ended ended =>
    obtain ⟨hold, hne⟩ := Assoc.mem_erase.mp hmem
    refine .inl ⟨hold, fun heq => ?_⟩
    exact hne (FrameAction.ended.inj heq).symm
  | gap => exact absurd hmem List.not_mem_nil
  | ignore => exact .inl ⟨hmem, fun heq => by cases heq⟩

theorem nodup_applyAction (hkeys : (Assoc.keys tracked).Nodup) (action : FrameAction) :
    (Assoc.keys (applyAction config now place tracked action).1).Nodup := by
  cases action with
  | started family operationId maxDurationMs => exact Assoc.nodup_keys_insert _ hkeys
  | ended operationId =>
    show (Assoc.keys (Assoc.erase operationId tracked)).Nodup
    rw [Assoc.keys_erase]
    exact hkeys.filter _
  | gap => exact List.nodup_nil
  | ignore => exact hkeys

/-- What a frame has reported says nothing of the stream and finds no operation late. -/
theorem applyAction_reports {entry : WatchdogTrace}
    (hmem : entry ∈ (applyAction config now place tracked action).2) :
    ∃ operation, operation ∈ tracked ∧ entry = unconfirm now operation := by
  cases action with
  | gap =>
    obtain ⟨operation, hop, rfl⟩ := List.mem_map.mp hmem
    exact ⟨operation, hop, rfl⟩
  | started family operationId maxDurationMs => exact absurd hmem List.not_mem_nil
  | ended operationId => exact absurd hmem List.not_mem_nil
  | ignore => exact absurd hmem List.not_mem_nil

theorem silent_applyAction (action : FrameAction) :
    Silent (applyAction config now place tracked action).2 := by
  refine .of_forall fun entry hmem => ?_
  obtain ⟨operation, -, rfl⟩ := applyAction_reports config now place hmem
  exact ⟨rfl, rfl, rfl⟩

/-- A start that is handled pays for one escalation. -/
theorem budget_applyAction (action : FrameAction) (operationId : String) :
    ((applyAction config now place tracked action).2.filterMap WatchdogTrace.alarm).count
          operationId +
        (Assoc.keys (applyAction config now place tracked action).1).count operationId ≤
      (Assoc.keys tracked).count operationId + action.begun.toList.count operationId := by
  cases action with
  | started family started maxDurationMs =>
    show (List.filterMap WatchdogTrace.alarm []).count operationId +
      (Assoc.keys (Assoc.insert started _ tracked)).count operationId ≤
      _ + [started].count operationId
    rw [List.filterMap_nil, List.count_nil, Nat.zero_add]
    by_cases hmem : started ∈ Assoc.keys tracked
    · rw [Assoc.keys_insert_of_mem _ hmem]
      exact Nat.le_add_right _ _
    · rw [Assoc.insert_of_not_mem _ hmem, Assoc.keys, List.map_append, List.count_append]
      exact Nat.le_refl _
  | ended ended =>
    show (List.filterMap WatchdogTrace.alarm []).count operationId +
      (Assoc.keys (Assoc.erase ended tracked)).count operationId ≤ _
    rw [List.filterMap_nil, List.count_nil, Nat.zero_add, Assoc.keys_erase]
    exact Nat.le_add_right_of_le (List.filter_sublist.count_le operationId)
  | gap =>
    show ((tracked.map (unconfirm now)).filterMap WatchdogTrace.alarm).count operationId + 0 ≤
      (Assoc.keys tracked).count operationId + 0
    rw [List.filterMap_map]
    exact Nat.le_of_eq (congrArg (List.count operationId)
      (congrFun (List.filterMap_eq_map' (f := Prod.fst)) tracked))
  | ignore =>
    show 0 + (Assoc.keys tracked).count operationId ≤ _
    rw [Nat.zero_add]
    exact Nat.le_add_right _ _

/-! ## What the timer does -/

variable (services : Services) (actionSuffix : CorrectiveTarget → String)

/-- An expired operation is escalated once, and what is reported of it is about it. -/
theorem expire_reports (operation : String × Tracked) :
    (expire config services actionSuffix now operation).filterMap WatchdogTrace.alarm =
        [operation.1] ∧
      ∀ entry ∈ expire config services actionSuffix now operation,
        entry.late = some operation ∧ entry.emission = none ∧ entry.arrival = none ∧
          entry.handling = none ∧ ∀ held, entry ≠ .connected held := by
  obtain ⟨operationId, t⟩ := operation
  simp only [expire]
  split
  · refine ⟨rfl, fun entry hmem => ?_⟩
    rcases List.mem_cons.mp hmem with rfl | hmem
    · exact ⟨rfl, rfl, rfl, rfl, fun held heq => by cases heq⟩
    · obtain rfl := List.mem_singleton.mp hmem
      exact ⟨rfl, rfl, rfl, rfl, fun held heq => by cases heq⟩
  · refine ⟨rfl, fun entry hmem => ?_⟩
    obtain rfl := List.mem_singleton.mp hmem
    exact ⟨rfl, rfl, rfl, rfl, fun held heq => by cases heq⟩

theorem alarms_expire (operations : List (String × Tracked)) :
    (operations.flatMap (expire config services actionSuffix now)).filterMap WatchdogTrace.alarm =
      Assoc.keys operations := by
  induction operations with
  | nil => rfl
  | cons operation rest ih =>
    rw [List.flatMap_cons, List.filterMap_append,
      (expire_reports config now services actionSuffix operation).1, ih]
    rfl

/-- The operations that have expired and the rest are all there were. -/
theorem count_expired (tracked : List (String × Tracked)) (p : String × Tracked → Bool) (operationId : String) :
    (Assoc.keys (tracked.filter p)).count operationId +
        (Assoc.keys (tracked.filter fun operation => !p operation)).count operationId =
      (Assoc.keys tracked).count operationId := by
  have hperm := (List.filter_append_perm p tracked).map Prod.fst
  rw [List.map_append] at hperm
  rw [← List.count_append]
  exact hperm.count_eq operationId

end Reports

/-! ## Every run -/

variable {config : OperationWatchdogConfig} {services : Services}
  {actionSuffix : CorrectiveTarget → String}

/-- What holds along every run in which the timer fires caught up. -/
structure Watching (h : b.Lawful broadcastCapacity) (wire : Wire) (log : List WatchdogTrace)
    (s : Watch b) : Prop where
  line : Line h wire log s
  keys : (Assoc.keys s.tracked).Nodup
  unended : ∀ operationId t, (operationId, t) ∈ s.tracked →
    ∀ x ∈ handled log, Precedes t.place (key x) → ¬ Finishes operationId x.2
  budget : ∀ operationId, (log.filterMap WatchdogTrace.alarm).count operationId +
      (Assoc.keys s.tracked).count operationId ≤
    (log.filterMap (WatchdogTrace.begun wire)).count operationId
  lost : ∀ x, Suspect log x → Lost log s x

theorem start_watching : Watching h wire [] (Watch.start : Watch b) where
  line := start_line
  keys := List.nodup_nil
  unended operationId t hmem := absurd hmem List.not_mem_nil
  budget operationId := Nat.le_refl _
  lost x hsuspect := absurd hsuspect.emitted List.not_mem_nil

/-- What the watchdog takes no notice of. -/
structure Unheard (events : List WatchdogTrace) : Prop where
  handled : handled events = []
  late : ∀ entry ∈ events, entry.late = none
  alarm : events.filterMap WatchdogTrace.alarm = []

theorem unheard_nil : Unheard [] := ⟨rfl, fun entry hmem => absurd hmem List.not_mem_nil, rfl⟩

/-- An entry that is neither a frame nor about an operation. -/
theorem unheard_singleton {entry : WatchdogTrace} (hhandling : entry.handling = none)
    (hlate : entry.late = none) (halarm : entry.alarm = none) : Unheard [entry] where
  handled := List.filterMap_cons_none hhandling
  late other hmem := by
    rw [List.mem_singleton.mp hmem]
    exact hlate
  alarm := List.filterMap_cons_none halarm

theorem Watching.unheard (hw : Watching h wire log s) (hline : Line h wire (log ++ events) s')
    (htracked : s'.tracked = s.tracked) (hevents : Unheard events)
    (hlost : ∀ x, x ∈ emissions log → Lost log s x → Lost (log ++ events) s' x) :
    Watching h wire (log ++ events) s' where
  line := hline
  keys := by
    rw [htracked]
    exact hw.keys
  unended := by
    rw [htracked, handled_append, hevents.handled, List.append_nil]
    exact hw.unended
  budget operationId := by
    rw [htracked, List.filterMap_append, List.filterMap_append, hevents.alarm, List.append_nil,
      List.count_append]
    exact Nat.le_add_right_of_le (hw.budget operationId)
  lost x hsuspect := by
    have hold := hsuspect.of_quiet hevents.late
    exact hlost x hold.emitted (hw.lost x hold)

/-- A step that changes nothing of the stream and nothing of the operations. -/
theorem Watching.idle (hw : Watching h wire log s) (hsilent : Silent events)
    (hevents : Unheard events) (hconnected : ∀ held, .connected held ∉ events)
    (hprocess : s'.process = s.process) (hbus : s'.bus = s.bus) (hemitted : s'.emitted = s.emitted)
    (hlink : s'.link = s.link) (hchannel : s'.channel = s.channel) (hlast : s'.lastSeq = s.lastSeq)
    (htracked : s'.tracked = s.tracked)
    (hidle : s'.stage ≠ .consuming → s.channel = [] ∧ s.link = none) :
    Watching h wire (log ++ events) s' := by
  have hline := hw.line.unnoticed hsilent hprocess hbus hemitted hlink hchannel hlast hidle
  refine hw.unheard hline htracked hevents fun x _ hlost => ?_
  exact hlost.same hsilent.delivered hprocess hbus hlink hconnected

variable {rest : List (Nat × Item)}

/-- The frame in front of the channel comes after all that were handled. -/
theorem Line.next_last (hl : Line h wire log s)
    (hchannel : s.channel = (process, item) :: rest) {y : Origin}
    (hy : item.origin process = some y) (hx : x ∈ handled log) : Earlier x y := by
  have horder := (List.pairwise_append.mp hl.order).1
  rw [hl.passed, hchannel] at horder
  refine (List.pairwise_append.mp horder).2.2 x hx y ?_
  exact List.mem_filterMap.mpr ⟨_, List.mem_cons_self, hy⟩

/-- The frames' starts, with one more frame. -/
theorem begun_frame (wire : Wire) (log reports : List WatchdogTrace) (process : Nat) (item : Item)
    (operationId : String) :
    (log.filterMap (WatchdogTrace.begun wire)).count operationId +
        (frameAction wire item).begun.toList.count operationId ≤
      ((log ++ .handled process item :: reports).filterMap (WatchdogTrace.begun wire)).count
        operationId := by
  have hone : List.filterMap (WatchdogTrace.begun wire) [.handled process item] =
      (frameAction wire item).begun.toList := by
    rw [List.filterMap_cons, begun_handled]
    cases (frameAction wire item).begun <;> rfl
  rw [List.filterMap_append, List.count_append, ← List.singleton_append, List.filterMap_append,
    List.count_append, hone]
  omega

theorem Watching.receive (hw : Watching h wire log s)
    (hchannel : s.channel = (process, item) :: rest)
    (hstage : s.stage = .consuming) {next : List (String × Tracked) × List WatchdogTrace}
    (hnext : applyAction config s.clock (process, (wire.frame item).id.getD 0) s.tracked
      (frameAction wire item) = next) :
    Watching h wire (log ++ .handled process item :: next.2)
      { s with
        channel := rest, lastSeq := advance s.lastSeq (wire.frame item).id, tracked := next.1 } := by
  have hreports : Silent next.2 := by
    rw [← hnext]
    exact silent_applyAction config s.clock _ _
  have hunconfirmed : ∀ entry ∈ next.2, ∃ operation ∈ s.tracked,
      entry = unconfirm s.clock operation := by
    rw [← hnext]
    exact fun entry hmem => applyAction_reports config s.clock _ hmem
  have hquiet : ∀ entry ∈ WatchdogTrace.handled process item :: next.2,
      entry.late = none ∧ ∀ held, entry ≠ .connected held := by
    intro entry hmem
    rcases List.mem_cons.mp hmem with rfl | hmem
    · exact ⟨rfl, fun held heq => by cases heq⟩
    · obtain ⟨operation, -, rfl⟩ := hunconfirmed entry hmem
      exact ⟨rfl, fun held heq => by cases heq⟩
  refine ⟨hw.line.receive hchannel hreports next.1 hstage, ?_, ?_, ?_, ?_⟩
  · show (Assoc.keys next.1).Nodup
    rw [← hnext]
    exact nodup_applyAction config s.clock _ hw.keys _
  · intro operationId t hmem x hx hprecedes hfinish
    have hkept : (operationId, t) ∈ s.tracked ∧ frameAction wire item ≠ .ended operationId ∨
        t.place = (process, (wire.frame item).id.getD 0) ∧
          (frameAction wire item).begun = some operationId := by
      refine mem_applyAction config s.clock _ hw.keys ?_
      rw [hnext]
      exact hmem
    rw [handled_frame log process item hreports] at hx
    cases item with
    | gap info =>
      rcases hkept with ⟨hold, -⟩ | ⟨-, hbegun⟩
      · exact hw.unended operationId t hold x (by simpa [Item.origin] using hx) hprecedes hfinish
      · cases hbegun
    | lagGap missed =>
      rcases hkept with ⟨hold, -⟩ | ⟨-, hbegun⟩
      · exact hw.unended operationId t hold x (by simpa [Item.origin] using hx) hprecedes hfinish
      · cases hbegun
    | envelope e =>
      rcases List.mem_append.mp hx with hx | hx
      · rcases hkept with ⟨hold, -⟩ | ⟨hplace, -⟩
        · exact hw.unended operationId t hold x hx hprecedes hfinish
        · -- what was handled before the start is no end of it
          have hlast := hw.line.next_last hchannel rfl hx
          rw [hplace] at hprecedes
          exact hlast.asymm hprecedes
      · obtain rfl := List.mem_singleton.mp hx
        rcases hkept with ⟨-, hne⟩ | ⟨hplace, -⟩
        · have hknown : (process, e) ∈ emissions log := by
            refine hw.line.known _ (List.mem_append_left _ ?_)
            rw [hw.line.passed, hchannel]
            exact List.mem_append_right _ List.mem_cons_self
          exact hne (frameAction_finish (hw.line.told _ hknown) hfinish)
        · rw [hplace] at hprecedes
          exact Precedes.irrefl _ hprecedes
  · intro operationId
    have hbefore := hw.budget operationId
    have hstep : (next.2.filterMap WatchdogTrace.alarm).count operationId +
        (Assoc.keys next.1).count operationId ≤ (Assoc.keys s.tracked).count operationId +
          (frameAction wire item).begun.toList.count operationId := by
      rw [← hnext]
      exact budget_applyAction config s.clock _ _ operationId
    have hbegun := begun_frame wire log next.2 process item operationId
    have halarm : List.filterMap WatchdogTrace.alarm
        (log ++ WatchdogTrace.handled process item :: next.2) =
        log.filterMap WatchdogTrace.alarm ++ next.2.filterMap WatchdogTrace.alarm :=
      List.filterMap_append
    show (List.filterMap WatchdogTrace.alarm _).count operationId +
      (Assoc.keys next.1).count operationId ≤ _
    rw [halarm, List.count_append]
    omega
  · intro x hsuspect
    have hold := hsuspect.of_quiet fun entry hmem => (hquiet entry hmem).1
    refine (hw.lost x hold).same hreports.delivered rfl rfl rfl fun held hmem => ?_
    exact (hquiet _ hmem).2 held rfl

/-- Of those that have expired, none has an end that came, and none has one that can still come. -/
theorem Watching.timer (hw : Watching h wire log s) (hchannel : s.channel = [])
    (hstage : s.stage = .consuming) (hcaught : CaughtUp log s) :
    let next := s.fireExpired config services actionSuffix
    Watching h wire (log ++ next.2) next.1 := by
  have hreports : ∀ entry ∈ (s.fireExpired config services actionSuffix).2,
      ∃ operation ∈ s.tracked, operation.2.expired s.clock = true ∧ entry.late = some operation ∧
        entry.emission = none ∧ entry.arrival = none ∧ entry.handling = none ∧
        ∀ held, entry ≠ .connected held := by
    intro entry hmem
    obtain ⟨operation, hop, hentry⟩ := List.mem_flatMap.mp hmem
    obtain ⟨htracked, hexpired⟩ := List.mem_filter.mp hop
    exact ⟨operation, htracked, hexpired,
      (expire_reports config s.clock services actionSuffix operation).2 entry hentry⟩
  have hsilent : Silent (s.fireExpired config services actionSuffix).2 := by
    refine .of_forall fun entry hmem => ?_
    obtain ⟨-, -, -, -, hem, har, hha, -⟩ := hreports entry hmem
    exact ⟨hem, har, hha⟩
  have hsame : ∀ x, Lost log s x → Lost (log ++ (s.fireExpired config services actionSuffix).2)
      (s.fireExpired config services actionSuffix).1 x := by
    intro x hlost
    refine hlost.same hsilent.delivered rfl rfl rfl fun held hmem => ?_
    obtain ⟨-, -, -, -, -, -, -, hne⟩ := hreports _ hmem
    exact hne held rfl
  refine ⟨?_, ?_, ?_, ?_, ?_⟩
  · exact hw.line.unnoticed hsilent rfl rfl rfl rfl rfl rfl fun hne => absurd hstage hne
  · exact hw.keys.sublist (List.filter_sublist.map _)
  · rw [handled_append, hsilent.handled, List.append_nil]
    intro operationId t hmem
    exact hw.unended operationId t (List.mem_filter.mp hmem).1
  · intro operationId
    have hbefore := hw.budget operationId
    have hsplit := count_expired s.tracked (fun operation => operation.2.expired s.clock)
      operationId
    have halarms := alarms_expire config s.clock services actionSuffix
      (s.tracked.filter fun operation => operation.2.expired s.clock)
    show (List.filterMap _ (log ++ (List.flatMap _ _))).count operationId +
      (Assoc.keys (s.tracked.filter _)).count operationId ≤ _
    rw [List.filterMap_append, List.filterMap_append, List.count_append, List.count_append, halarms]
    omega
  · intro x hsuspect
    rcases hsuspect.of_append with hold | ⟨front, entry, back, operationId, t, hevents, hlate, hfin⟩
    · exact hsame x (hw.lost x hold)
    · have hentry : entry ∈ (s.fireExpired config services actionSuffix).2 := by
        rw [hevents]
        exact List.mem_append_right _ List.mem_cons_self
      obtain ⟨operation, htracked, hexpired, hlate', -⟩ := hreports entry hentry
      rw [hlate] at hlate'
      obtain rfl := Option.some.inj hlate'
      -- what the timer reports brings no emission
      obtain ⟨time, deadline, hmem, hdeadline, htime, hplace, hfinish⟩ := hfin
      have hlog : .emitted time x ∈ log := by
        rcases List.mem_append.mp hmem with hmem | hmem
        · exact hmem
        · have hfront : .emitted time x ∈ (s.fireExpired config services actionSuffix).2 := by
            rw [hevents]
            exact List.mem_append_left _ hmem
          obtain ⟨-, -, -, -, hnone, -⟩ := hreports _ hfront
          cases hnone
      rcases hcaught operationId t htracked hexpired x
        ⟨time, deadline, hlog, hdeadline, htime, hplace, hfinish⟩ with hcame | hlost
      · rw [hw.line.passed, hchannel] at hcame
        refine absurd hfinish (hw.unended operationId t htracked x ?_ hplace)
        simpa [inChannel] using hcame
      · exact hsame x hlost

/-! ## The steps -/

/-- A step that only the stream takes part in. -/
theorem Watching.stream (hw : Watching h wire log s) (hline : Line h wire log s')
    (htracked : s'.tracked = s.tracked) (hlost : ∀ x, Lost log s x → Lost log s' x) :
    Watching h wire (log ++ []) s' := by
  refine hw.unheard ?_ htracked unheard_nil ?_
  · rw [List.append_nil]
    exact hline
  · intro x _ hold
    rw [List.append_nil]
    exact hlost x hold

theorem Lost.close (hlost : Lost log s x) :
    Lost log { s with link := s.link.map Link.close } x :=
  ⟨hlost.1, hlost.closed, hlost.2.2⟩

theorem Lost.disconnect (hlost : Lost log s x) : Lost log { s with link := none } x := by
  refine ⟨hlost.1, ?_, hlost.2.2⟩
  intro link hsome
  cases hsome

/-- The new process holds nothing. -/
theorem Lost.restart (hlost : Lost log s x) :
    Lost log
      { s with
        process := s.process + 1, bus := .new, emitted := []
        link := s.link.map Link.close } x := by
  refine ⟨hlost.1, hlost.closed, ?_, hlost.2.2.2⟩
  intro hheld
  exact absurd hheld.2 List.not_mem_nil

theorem Watching.emit (hw : Watching h wire log s) (envelope : EventEnvelope)
    (eventId timestamp : String) (hok : Promised wire s (.emit envelope eventId timestamp)) :
    Watching h wire
      (log ++ [.emitted s.clock (s.process, s.bus.stamp envelope eventId timestamp)])
      { s with
        bus := s.bus.dispatch envelope eventId timestamp
        emitted := s.emitted ++ [s.bus.stamp envelope eventId timestamp] } := by
  refine hw.unheard (hw.line.emit envelope eventId timestamp hok.1 hok.2) rfl
    (unheard_singleton rfl rfl rfl) ?_
  intro x hx hlost
  exact hlost.emit hw.line hx envelope eventId timestamp hok.2

theorem Watching.serve (hw : Watching h wire log s)
    (hstep : s.step config wire .serve = some (s', events)) : Watching h wire (log ++ events) s' := by
  simp only [Watch.step] at hstep
  split at hstep
  · next link hlink =>
      split at hstep
      · next hopen =>
          obtain ⟨rfl, rfl⟩ := Prod.mk.inj (Option.some.inj hstep)
          exact hw.stream (hw.line.serve hlink hopen) rfl fun x hlost =>
            hlost.serve hw.line hlink hopen
      · cases hstep
  · cases hstep

theorem Watching.deliver (hw : Watching h wire log s)
    (hstep : s.step config wire .deliver = some (s', events)) :
    Watching h wire (log ++ events) s' := by
  simp only [Watch.step] at hstep
  split at hstep
  · next process item rest receiver isOpen hlink =>
      split at hstep
      · obtain ⟨rfl, rfl⟩ := Prod.mk.inj (Option.some.inj hstep)
        refine hw.unheard (hw.line.deliver hlink) rfl (unheard_singleton rfl rfl rfl) ?_
        intro x _ hlost
        exact hlost.deliver hlink
      · cases hstep
  · cases hstep

theorem Watching.connect (hw : Watching h wire log s)
    (hstep : s.step config wire .connect = some (s', events)) :
    Watching h wire (log ++ events) s' := by
  simp only [Watch.step] at hstep
  split at hstep
  · next hstage =>
      obtain ⟨rfl, rfl⟩ := Prod.mk.inj (Option.some.inj hstep)
      refine hw.unheard (hw.line.connect hstage) rfl (unheard_singleton rfl rfl rfl) ?_
      intro x _ hlost
      exact hlost.connect
  · cases hstep

theorem Watching.connectFails (hw : Watching h wire log s)
    (hstep : s.step config wire .connectFails = some (s', events)) :
    Watching h wire (log ++ events) s' := by
  simp only [Watch.step] at hstep
  split at hstep
  · next hstage =>
      have hidle := hw.line.idle (by rw [hstage]; decide)
      simp only [Watch.connectFails] at hstep
      split at hstep
      · obtain ⟨rfl, rfl⟩ := Prod.mk.inj (Option.some.inj hstep)
        exact hw.idle ⟨rfl, rfl, rfl⟩ (unheard_singleton rfl rfl rfl)
          (fun held hmem => by cases List.mem_singleton.mp hmem) rfl rfl rfl rfl rfl rfl rfl
          fun _ => hidle
      · obtain ⟨rfl, rfl⟩ := Prod.mk.inj (Option.some.inj hstep)
        exact hw.idle silent_nil unheard_nil (fun held => List.not_mem_nil) rfl rfl rfl rfl rfl rfl
          rfl fun _ => hidle
  · cases hstep

theorem Watching.step (hw : Watching h wire log s) {i : WatchdogInput}
    (hok : FiresCaughtUp wire log s i) (hstep : s.step config wire i = some (s', events)) :
    Watching h wire (log ++ events) s' := by
  cases i with
  | tick elapsed =>
    simp only [Watch.step] at hstep
    split at hstep
    · obtain ⟨rfl, rfl⟩ := Prod.mk.inj (Option.some.inj hstep)
      exact hw.idle silent_nil unheard_nil (fun held => List.not_mem_nil) rfl rfl rfl rfl rfl rfl
        rfl hw.line.idle
    · cases hstep
  | emit envelope eventId timestamp =>
    obtain ⟨rfl, rfl⟩ := Prod.mk.inj (Option.some.inj hstep)
    exact hw.emit envelope eventId timestamp hok.1
  | restart =>
    obtain ⟨rfl, rfl⟩ := Prod.mk.inj (Option.some.inj hstep)
    exact hw.stream hw.line.restart rfl fun x hlost => hlost.restart
  | serve => exact hw.serve hstep
  | deliver => exact hw.deliver hstep
  | close =>
    obtain ⟨rfl, rfl⟩ := Prod.mk.inj (Option.some.inj hstep)
    exact hw.stream hw.line.close rfl fun x hlost => hlost.close
  | disconnect =>
    obtain ⟨rfl, rfl⟩ := Prod.mk.inj (Option.some.inj hstep)
    exact hw.stream hw.line.disconnect rfl fun x hlost => hlost.disconnect
  | connect => exact hw.connect hstep
  | connectFails => exact hw.connectFails hstep
  | receive =>
    simp only [Watch.step] at hstep
    split at hstep
    · next process item rest hchannel =>
        split at hstep
        · next hstage =>
            obtain ⟨rfl, rfl⟩ := Prod.mk.inj (Option.some.inj hstep)
            exact hw.receive hchannel hstage rfl
        · cases hstep
    · cases hstep
  | ended =>
    simp only [Watch.step] at hstep
    split at hstep
    · next hended =>
        obtain ⟨rfl, rfl⟩ := Prod.mk.inj (Option.some.inj hstep)
        exact hw.idle silent_nil unheard_nil (fun held => List.not_mem_nil) rfl rfl rfl rfl rfl rfl
          rfl fun _ => ⟨hended.2.1, Option.isNone_iff_eq_none.mp hended.2.2⟩
    · cases hstep
  | timer services actionSuffix =>
    simp only [Watch.step] at hstep
    split at hstep
    · next hfires =>
        obtain ⟨rfl, rfl⟩ := Prod.mk.inj (Option.some.inj hstep)
        exact hw.timer hfires.2.1 hfires.1 (hok.2 services actionSuffix rfl)
    · cases hstep
  | wake =>
    simp only [Watch.step] at hstep
    split at hstep
    · next wake hstage =>
        split at hstep
        · obtain ⟨rfl, rfl⟩ := Prod.mk.inj (Option.some.inj hstep)
          exact hw.idle silent_nil unheard_nil (fun held => List.not_mem_nil) rfl rfl rfl rfl rfl
            rfl rfl fun _ => hw.line.idle (by rw [hstage]; exact fun heq => by cases heq)
        · cases hstep
    · cases hstep

/-- In every run in which the timer fires only when the watchdog has caught up, no operation that
finished in time is reported late or corrected, and none is escalated more often than it was seen to
start. -/
theorem watchdog_acts_on_open (h : b.Lawful broadcastCapacity) (config : OperationWatchdogConfig)
    (wire : Wire) {inputs : List WatchdogInput} {log : List WatchdogTrace} {s : Watch b}
    (hrun : History (Watch.step config wire) (FiresCaughtUp wire) Watch.start inputs log s) :
    ActsOnlyOnOpen wire log := by
  have hw : Watching h wire log s := hrun.invariant (Watching h wire) start_watching
    fun hw hok hstep => hw.step hok hstep
  constructor
  · intro a entry c operationId t hsplit hlate x hfinished
    have hlost := hw.lost x ⟨a, entry, c, operationId, t, hsplit, hlate, hfinished⟩
    exact ⟨hlost.1, hlost.2.2.2⟩
  · intro operationId
    have hbudget := hw.budget operationId
    omega

/-! ## Outages -/

namespace Slews

instance (e : EventEnvelope) : Decidable (Told wire e) :=
  decidable_of_iff ((wire.fromStr (wire.envelopeJson e)).any (fun v =>
      (v.get "operation_id").bind Value.asStr = e.operationId) = true)
    (by simp [Told, Option.any_eq_true])

instance (operationId : String) (e : EventEnvelope) : Decidable (Finishes operationId e) :=
  inferInstanceAs (Decidable (_ ∧ _))

def promised (wire : Wire) (s : Watch b) : WatchdogInput → Bool
  | .emit envelope eventId timestamp =>
      Told wire (s.bus.stamp envelope eventId timestamp) ∧ s.emitted.length + 1 < seqModulus
  | _ => true

/-- The timer fires where no end of a tracked operation was emitted at all. -/
def calm (wire : Wire) (log : List WatchdogTrace) (s : Watch b) : WatchdogInput → Bool
  | .timer _ _ => ∀ operation ∈ s.tracked, ∀ x ∈ emissions log, ¬ Finishes operation.1 x.2
  | i => promised wire s i

variable {i : WatchdogInput}

theorem of_promised (hi : promised wire s i = true) : Promised wire s i := by
  cases i with
  | emit envelope eventId timestamp =>
    have hboth : Told wire (s.bus.stamp envelope eventId timestamp) ∧
        s.emitted.length + 1 < seqModulus := of_decide_eq_true hi
    exact hboth
  | _ => trivial

theorem of_calm (hi : calm wire log s i = true) :
    FiresCaughtUp wire log s i := by
  cases i with
  | timer services actionSuffix =>
    refine ⟨trivial, fun _ _ _ => ?_⟩
    have hnone : ∀ operation ∈ s.tracked, ∀ x ∈ emissions log, ¬ Finishes operation.1 x.2 :=
      of_decide_eq_true hi
    intro operationId t htracked _ x hfinished
    obtain ⟨time, deadline, hmem, -, -, -, hfinish⟩ := hfinished
    exact absurd hfinish (hnone _ htracked x (mem_emissions hmem))
  | _ => exact ⟨of_promised hi, fun services actionSuffix heq => by cases heq⟩

/-- A mount whose slews are aborted and restarted when they are late. -/
def mount : OperationWatchdogConfig :=
  ⟨5, 1000000000, 0, [("slew", ⟨none, .abortThenRestart, some "mount"⟩)]⟩

def site : Services :=
  ⟨[⟨"mount", "rusty-photon-mount.service", .running, none⟩], by decide⟩

/-- The fields that the watchdog reads. -/
def recorded : Wire where
  envelopeJson e := match e.operationId with
    | some id => (if e.maxDurationMs.isSome then 't' else 'u') :: id.toList
    | none => []
  gapJson _ := []
  lagJson _ := []
  fromStr
    | 't' :: id => some (.object
        [("operation_id", .string (String.ofList id)), ("max_duration_ms", .nat 1000)])
    | 'u' :: id => some (.object [("operation_id", .string (String.ofList id))])
    | _ => some (.object [])

/-- A slew that may take a second. -/
def slewStarted (operationId : String) : EventEnvelope :=
  ⟨"", 0, some operationId, "slew_started", "", none, none, none, none, some 1000, .null⟩

def slewComplete (operationId : String) : EventEnvelope :=
  ⟨"", 0, some operationId, "slew_complete", "", none, none, none, none, none, .null⟩

/-- An event that comes through at once. -/
def seen (envelope : EventEnvelope) : List WatchdogInput :=
  [.emit envelope "" "", .serve, .deliver, .receive]

/-- The stream is lost, an event is emitted, and a backoff later the watchdog is connected again. -/
def outage (envelope : EventEnvelope) : List WatchdogInput :=
  [.disconnect, .ended, .emit envelope "" "", .tick 1000000000, .wake, .connect]

def fires : WatchdogInput := .timer site fun _ => ""

/-- The first slew is complete when the stream is down; the end is replayed, and of two slews only
the second is late. -/
def replayed : List WatchdogInput :=
  .connect :: seen (slewStarted "op-1") ++ outage (slewComplete "op-1") ++ [.deliver, .receive] ++
    seen (slewStarted "op-2") ++ [.tick 1000000000, fires]

theorem replayed_plays :
    (History.play (Watch.step mount recorded) (fun log s i => calm recorded log s i = true) []
        (Watch.start : Watch kept) replayed).map (fun p => p.1.filterMap WatchdogTrace.alarm) =
      some ["op-2"] := by decide +kernel

/-- A replay that comes in before the timer fires clears its operation, and the slew that is late is
escalated once. -/
theorem replay_clears :
    ∃ log s, History (Watch.step mount recorded) (FiresCaughtUp recorded) (Watch.start : Watch kept)
        replayed log s ∧
      ActsOnlyOnOpen recorded log ∧ log.filterMap WatchdogTrace.alarm = ["op-2"] := by
  obtain ⟨⟨log, s⟩, hplay, halarms⟩ := Option.map_eq_some_iff.mp replayed_plays
  have hrun := (History.of_play hplay).mono fun _ _ _ hi => of_calm hi
  exact ⟨log, s, hrun, watchdog_acts_on_open
    (Broadcast.bufferedLawful EventEnvelope broadcastCapacity) mount recorded hrun, halarms⟩

/-- The deadline passes when the stream is down, and the timer is asked before the replay is in. -/
def lateReconnect : List WatchdogInput :=
  .connect :: seen (slewStarted "op-1") ++ outage (slewComplete "op-1") ++ [fires]

/-- A restarted `rp` counts below the cursor, and the end of its first slew is never replayed. -/
def lowCount : List WatchdogInput :=
  .connect :: seen tick ++ seen tick ++ [.restart, .disconnect, .ended, .tick 1000000000, .wake,
    .connect] ++ seen (slewStarted "op-1") ++ outage (slewComplete "op-1") ++ [fires]

def started (process : Nat) : Origin := (process, { slewStarted "op-1" with eventSeq := 1 })

def complete (process : Nat) : Origin := (process, { slewComplete "op-1" with eventSeq := 2 })

/-- The slew as it is tracked. -/
def slew (process start : Nat) : Tracked :=
  ⟨"slew", start, some (start + 1000000000), (process, 1)⟩

def target : CorrectiveTarget := ⟨"mount", "rusty-photon-mount.service", none, alpacaBinding "slew"⟩

/-- How either run ends: the end of the slew, the connect that finds it held, and the ladder. -/
def ends (process start : Nat) : List WatchdogTrace :=
  [.emitted start (complete process), .connected [started process, complete process],
    .corrected "op-1" (slew process start) target,
    .exceeded (slew process start) ⟨"slew", "op-1", 1000000000, "exceeded its deadline", ""⟩]

example : (ends 0 0).filterMap WatchdogTrace.alarm = ["op-1"] := by decide +kernel

theorem ends_acts (front : List WatchdogTrace) (process start : Nat) :
    ¬ ActsOnlyOnOpen wire (front ++ ends process start) := by
  intro hacts
  have hsplit : front ++ ends process start =
      (front ++ [.emitted start (complete process),
        .connected [started process, complete process]]) ++
      .corrected "op-1" (slew process start) target :: (ends process start).drop 3 := by
    rw [List.append_assoc]
    rfl
  have hsuffix : "_complete".toList <:+ "slew_complete".toList := by decide +kernel
  have hfinish : Finishes "op-1" (complete process).2 := ⟨rfl, .inl hsuffix⟩
  have hfinished : FinishedInTime (front ++ [.emitted start (complete process),
      .connected [started process, complete process]]) "op-1" (slew process start)
      (complete process) := by
    refine ⟨start, start + 1000000000, ?_, rfl, by omega, .inr ⟨rfl, Nat.lt_succ_self 1⟩, hfinish⟩
    exact List.mem_append_right _ List.mem_cons_self
  refine (hacts.unfinished _ _ _ "op-1" (slew process start) hsplit rfl _ hfinished).2 ?_
  exact ⟨front, start, [], _, _, rfl, fun other hmem => absurd hmem List.not_mem_nil,
    List.mem_cons_of_mem _ List.mem_cons_self⟩

/-- The run ends in this way. -/
theorem acts_of_plays {inputs : List WatchdogInput} {process start : Nat}
    (hplays : (History.play (Watch.step mount recorded) (fun _ s i => promised recorded s i = true)
      [] (Watch.start : Watch kept) inputs).map
        (fun p => p.1.drop (p.1.length - 4)) = some (ends process start)) :
    ∃ log s, History (Watch.step mount recorded) (fun _ s i => Promised recorded s i)
        (Watch.start : Watch kept) inputs log s ∧ ¬ ActsOnlyOnOpen recorded log := by
  obtain ⟨⟨log, s⟩, hplay, hends⟩ := Option.map_eq_some_iff.mp hplays
  refine ⟨log, s, (History.of_play hplay).mono fun _ _ _ hi => of_promised hi, ?_⟩
  rw [← List.take_append_drop (log.length - 4) log, hends]
  exact ends_acts _ _ _

/-- A slew that finished in time is aborted and restarted: after a reconnect past its deadline, or
after a restart of `rp`. -/
theorem finished_slew_corrected :
    (∃ log s, History (Watch.step mount recorded) (fun _ s i => Promised recorded s i)
        (Watch.start : Watch kept) lateReconnect log s ∧ ¬ ActsOnlyOnOpen recorded log) ∧
    ∃ log s, History (Watch.step mount recorded) (fun _ s i => Promised recorded s i)
        (Watch.start : Watch kept) lowCount log s ∧ ¬ ActsOnlyOnOpen recorded log := by
  have hlate : (History.play (Watch.step mount recorded)
      (fun _ s i => promised recorded s i = true) [] (Watch.start : Watch kept) lateReconnect).map
        (fun p => p.1.drop (p.1.length - 4)) = some (ends 0 0) := by decide +kernel
  have hlow : (History.play (Watch.step mount recorded)
      (fun _ s i => promised recorded s i = true) [] (Watch.start : Watch kept) lowCount).map
        (fun p => p.1.drop (p.1.length - 4)) = some (ends 1 1000000000) := by decide +kernel
  exact ⟨acts_of_plays hlate, acts_of_plays hlow⟩

end Slews

end RustyPhoton.Sentinel
