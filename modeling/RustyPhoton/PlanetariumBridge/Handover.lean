import RustyPhoton.PlanetariumBridge.Delivery

/-!
# The handover at exit

The worker looks into its channel once more before it drops it. A request that is sent between that
look and the drop was sent for nothing. Those are the only requests a run loses.
-/

namespace RustyPhoton.PlanetariumBridge

/-- A request is sent although the worker has looked into its channel for the last time. -/
def Pipeline.unheard {Request : Type} (s : Pipeline Request) : ImportEvent Request → Bool
  | .send _ => s.isDrained
  | _ => false

/-- No request of a run is sent between the worker's last look and its exit. -/
def Heard {Request : Type} (codec : Codec Request) (s : Pipeline Request) :
    List (ImportEvent Request) → Prop
  | [] => True
  | event :: rest =>
      s.unheard event = false ∧ ∀ s', s.step codec event = some s' → Heard codec s' rest

/-- A request that was sent is in the spool: an entry of its own holds its line. -/
def Pipeline.IsSpooled {Request : Type} (codec : Codec Request) (s : Pipeline Request) (t : Nat) :
    Prop :=
  ∃ entry, (entry, some t) ∈ s.spool.entries.zip s.tickets ∧
    ∃ request line, s.sent[t]? = some request ∧ codec.serialize request = some line ∧
      entry.line = line.text

/-- A request that was sent is delivered, rejected, dropped by the bound, or in the spool. -/
def Pipeline.Accounted {Request : Type} (codec : Codec Request) (s : Pipeline Request) (t : Nat) :
    Prop :=
  t ∈ s.account.delivered ∨ t ∈ s.account.rejected ∨ some t ∈ s.account.drops ∨ s.IsSpooled codec t

section

variable {Request : Type} {codec : Codec Request} {base : Nat} {s s' : Pipeline Request}

/-! ## The requests that are sent too late -/

@[simp]
theorem spoolRequest_late (queued : QueuedImport Request) :
    (s.spoolRequest codec queued).account.late = s.account.late := by
  unfold Pipeline.spoolRequest
  cases codec.serialize queued.request with
  | none => rfl
  | some line =>
    dsimp only
    split <;> rfl

theorem receive_late {queued : QueuedImport Request} (h : s.receive = some (queued, s')) :
    s'.account.late = s.account.late := by
  unfold Pipeline.receive at h
  split at h <;> cases h
  rfl

/-- A look into the channel. -/
theorem look_late {after : WorkerStage Request} (h : (match s.receive with
      | some (queued, s) => some (s.spoolRequest codec queued)
      | none => some { s with stage := after }) = some s') :
    s'.account.late = s.account.late := by
  cases hreceive : s.receive with
  | none =>
    simp only [hreceive, Option.some.injEq] at h
    rw [← h]
  | some found =>
    simp only [hreceive, Option.some.injEq] at h
    rw [← h, spoolRequest_late, receive_late hreceive]

theorem delivered_late (queued : QueuedImport Request) (delivery : Delivery) :
    (s.delivered codec queued delivery).account.late = s.account.late := by
  cases delivery with
  | unreachable message => exact spoolRequest_late queued
  | _ => rfl

theorem replayed_late (delivery : Delivery) :
    (s.replayed delivery).account.late = s.account.late := by
  cases delivery <;> rfl

/-- The worker sends nothing. -/
theorem work_late {input : WorkerInput} (h : s.work codec input = some s') :
    s'.account.late = s.account.late := by
  unfold Pipeline.work at h
  split at h
  -- the ends of the selects
  case h_1 | h_2 | h_3 | h_4 | h_5 | h_6 =>
    split at h <;> cases h
    rfl
  case h_7 | h_14 | h_17 =>
    cases h
    rfl
  -- the looks into the channel
  case h_9 | h_16 => exact look_late h
  case h_8 | h_15 =>
    obtain ⟨⟨queued, t⟩, hreceive, hnext⟩ := Option.bind_eq_some_iff.mp h
    cases hnext
    exact (spoolRequest_late queued).trans (receive_late hreceive)
  case h_11 =>
    obtain ⟨⟨queued, t⟩, hreceive, hnext⟩ := Option.bind_eq_some_iff.mp h
    by_cases hfirst : (queued.spoolFirst || !t.reachable) = true
    · simp only [if_pos hfirst] at hnext
      cases hnext
      exact (spoolRequest_late queued).trans (receive_late hreceive)
    · have hsame := receive_late hreceive
      simp only [if_neg hfirst] at hnext
      cases hnext
      exact hsame
  case h_10 =>
    split at h
    · cases h
      rfl
    · cases hentries : s.spool.entries with
      | nil =>
        simp only [hentries, Option.some.injEq] at h
        rw [← h]
      | cons head rest =>
        cases hparse : codec.parse head.line with
        | none =>
          simp only [hentries, hparse, Option.some.injEq] at h
          rw [← h]
          rfl
        | some request =>
          simp only [hentries, hparse, Option.some.injEq] at h
          rw [← h]
  case h_12 =>
    cases h
    exact delivered_late _ _
  case h_13 =>
    cases h
    exact replayed_late _
  case h_18 => cases h

variable {event : ImportEvent Request}

/-- A step only adds to the requests that are sent too late, and only where it is one. -/
theorem step_late (h : s.step codec event = some s') :
    s'.account.late = s.account.late ++ (if s.unheard event then [s.account.next] else []) := by
  cases event with
  | stamp request | dropImporters =>
    simp only [Pipeline.step] at h
    split at h <;> cases h
    exact (List.append_nil _).symm
  | send place =>
    obtain ⟨⟨request, spoolFirst⟩, -, hnext⟩ := Option.bind_eq_some_iff.mp h
    cases hnext
    cases hstage : s.stage <;>
      simp [Pipeline.send, Pipeline.hasExited, Pipeline.unheard, Pipeline.isDrained, hstage]
  | cancel =>
    cases h
    exact (List.append_nil _).symm
  | worker input => exact (work_late h).trans (List.append_nil _).symm

theorem heard_cons {rest : List (ImportEvent Request)} (h : s.step codec event = some s') :
    Heard codec s (event :: rest) ↔ s.unheard event = false ∧ Heard codec s' rest := by
  refine and_congr_right fun _ => ⟨fun hall => hall s' h, fun hheard t ht => ?_⟩
  rw [h] at ht
  cases ht
  exact hheard

variable {events : List (ImportEvent Request)}

/-- A run sends nothing too late just when every request of it is heard. -/
theorem late_run (h : s.run codec events = some s') :
    s'.account.late = [] ↔ s.account.late = [] ∧ Heard codec s events := by
  induction events generalizing s with
  | nil =>
    cases h
    exact (and_iff_left trivial).symm
  | cons event rest ih =>
    obtain ⟨mid, hstep, hrun⟩ := Option.bind_eq_some_iff.mp h
    rw [ih hrun, step_late hstep]
    rw [heard_cons hstep]
    cases hunheard : s.unheard event <;> simp

/-! ## Whole runs -/

/-- A step that only the submissions and the shutdown see. -/
theorem Keeps.same (h : Keeps codec base s) (hstage : s'.stage = s.stage)
    (hspool : s'.spool = s.spool) (htickets : s'.tickets = s.tickets)
    (hchannel : s'.channel = s.channel) (hsent : s'.sent = s.sent)
    (haccount : s'.account = s.account) (hdropped : s'.droppedTotal = s.droppedTotal) :
    Keeps codec base s' := by
  have hcore : ∀ {held : List (QueuedImport Request)}, Core codec base s held →
      Core codec base s' held :=
    fun hcore => hcore.congr hspool htickets hchannel hsent haccount hdropped
  unfold Keeps at h ⊢
  rw [hstage]
  cases hs : s.stage with
  | direct queued | idle =>
    simp only [hs] at h
    exact ⟨hcore h.1, by rw [hspool]; exact h.2.1, by rw [haccount]; exact h.2.2⟩
  | drained =>
    simp only [hs] at h
    exact ⟨hcore h.1, by rw [haccount, Pipeline.queued, hchannel]; exact h.2⟩
  | exited =>
    simp only [hs] at h ⊢
    rw [hspool, htickets, hsent, haccount, hdropped]
    exact h
  | _ =>
    simp only [hs] at h
    exact ⟨hcore h.1, by rw [haccount]; exact h.2⟩

theorem Keeps.send (h : Keeps codec base s) (request : Request) (spoolFirst : Bool) :
    Keeps codec base (s.send request spoolFirst) := by
  have hopen : s.hasExited = false → (s.send request spoolFirst).stage = s.stage ∧
      (s.send request spoolFirst).spool = s.spool ∧
      (s.send request spoolFirst).queued = s.queued ++ [s.account.next] ∧
      (s.send request spoolFirst).account.late =
        if s.isDrained then s.account.late ++ [s.account.next] else s.account.late := by
    intro hopen
    unfold Pipeline.send
    rw [hopen, if_neg Bool.false_ne_true]
    exact ⟨rfl, rfl, List.map_append, rfl⟩
  cases hs : s.stage with
  | exited =>
    have hsend : s.send request spoolFirst = s := by simp [Pipeline.send, Pipeline.hasExited, hs]
    rw [hsend]
    exact h
  | drained =>
    have hexited : s.hasExited = false := by simp [Pipeline.hasExited, hs]
    obtain ⟨hstage, -, hqueued, hlate⟩ := hopen hexited
    unfold Keeps at h ⊢
    rw [hstage]
    simp only [hs] at h ⊢
    refine ⟨h.1.send hexited request spoolFirst, ?_⟩
    rw [hlate, hqueued, Pipeline.isDrained, hs, h.2]
    rfl
  | direct queued | idle =>
    have hexited : s.hasExited = false := by simp [Pipeline.hasExited, hs]
    obtain ⟨hstage, hspool, -, hlate⟩ := hopen hexited
    unfold Keeps at h ⊢
    rw [hstage]
    simp only [hs] at h ⊢
    refine ⟨h.1.send hexited request spoolFirst, by rw [hspool]; exact h.2.1, ?_⟩
    rw [hlate, Pipeline.isDrained, hs]
    exact h.2.2
  | _ =>
    have hexited : s.hasExited = false := by simp [Pipeline.hasExited, hs]
    obtain ⟨hstage, -, -, hlate⟩ := hopen hexited
    obtain ⟨hcore, hnone⟩ := (keeps_plain (by rw [hs]; rfl)).mp h
    refine (keeps_plain (by rw [hstage, hs]; rfl)).mpr ⟨hcore.send hexited request spoolFirst, ?_⟩
    rw [hlate, Pipeline.isDrained, hs]
    exact hnone

theorem Keeps.step (hcodec : codec.Faithful) (h : Keeps codec base s)
    (hstep : s.step codec event = some s') : Keeps codec base s' := by
  cases event with
  | stamp request | dropImporters =>
    simp only [Pipeline.step] at hstep
    split at hstep <;> cases hstep
    exact h.same rfl rfl rfl rfl rfl rfl rfl
  | send place =>
    obtain ⟨⟨request, spoolFirst⟩, -, hnext⟩ := Option.bind_eq_some_iff.mp hstep
    cases hnext
    exact (h.same rfl rfl rfl rfl rfl rfl rfl :
      Keeps codec base { s with stamped := s.stamped.eraseIdx place }).send request spoolFirst
  | cancel =>
    cases hstep
    exact h.same rfl rfl rfl rfl rfl rfl rfl
  | worker input => exact h.work hcodec hstep

theorem Keeps.run (hcodec : codec.Faithful) (h : Keeps codec base s)
    (hrun : s.run codec events = some s') :
    Keeps codec base s' := by
  induction events generalizing s with
  | nil =>
    cases hrun
    exact h
  | cons event rest ih =>
    obtain ⟨mid, hstep, hrest⟩ := Option.bind_eq_some_iff.mp hrun
    exact ih (h.step hcodec hstep) hrest

/-- Whatever the worker's stage, what it keeps covers the deliveries and the drops. -/
theorem Keeps.sound (h : Keeps codec base s) :
    s.account.delivered.Pairwise (· < ·) ∧ s.droppedTotal = base + s.account.drops.length := by
  have hcore : ∀ {held : List (QueuedImport Request)}, Core codec base s held →
      s.account.delivered.Pairwise (· < ·) ∧ s.droppedTotal = base + s.account.drops.length :=
    fun hcore => ⟨hcore.flow.inOrder, hcore.counted⟩
  unfold Keeps at h
  split at h
  · exact hcore h.1
  · exact hcore h.1
  · exact hcore h.1
  · exact ⟨h.2.2.inOrder, h.2.1⟩
  · exact hcore h.1

/-- An entry's ticket is that of a request that is in the spool. -/
theorem isSpooled_iff (h : List.Forall₂ (Readback codec s.sent) s.spool.entries s.tickets)
    {t : Nat} : s.IsSpooled codec t ↔ t ∈ s.tickets.reduceOption := by
  rw [List.reduceOption_mem_iff]
  constructor
  · rintro ⟨entry, hin, -⟩
    exact (List.of_mem_zip hin).2
  · intro hin
    obtain ⟨i, hi, hget⟩ := List.getElem_of_mem hin
    have hlen := h.length_eq
    have hi' : i < s.spool.entries.length := by omega
    have hzip : (s.spool.entries[i], some t) ∈ s.spool.entries.zip s.tickets := by
      refine List.mem_iff_getElem.mpr ⟨i, by rw [List.length_zip]; omega, ?_⟩
      rw [List.getElem_zip, hget]
    obtain ⟨request, line, hsent, hline, hentry, -⟩ := (List.forall₂_zip h hzip) t rfl
    exact ⟨s.spool.entries[i], hzip, request, line, hsent, hline, hentry⟩

/-- At the exit, the requests that are not accounted for are those that were sent too late. -/
theorem Keeps.exited (h : Keeps codec base s) (hexited : s.hasExited = true) :
    (∀ t < s.account.next, s.Accounted codec t) ↔ s.account.late = [] := by
  have hstage : s.stage = .exited := by
    unfold Pipeline.hasExited at hexited
    split at hexited
    · assumption
    · cases hexited
  unfold Keeps at h
  simp only [hstage] at h
  obtain ⟨hpaired, -, hflow⟩ := h
  have haccounted : ∀ t, s.Accounted codec t ↔
      t ∈ s.account.done ∨ t ∈ s.tickets.reduceOption := by
    intro t
    rw [Pipeline.Accounted, isSpooled_iff hpaired, mem_done, or_assoc, or_assoc]
  constructor
  · intro hall
    rw [List.eq_nil_iff_forall_not_mem]
    intro t hlost
    obtain ⟨hlt, hdone, hspooled⟩ := hflow.apart t hlost
    rcases (haccounted t).mp (hall t hlt) with hin | hin
    · exact hdone hin
    · exact hspooled hin
  · intro hnone t hlt
    rw [haccounted]
    rcases hflow.complete t hlt with hin | hin | hin
    · exact .inl hin
    · exact .inr hin
    · rw [hnone] at hin
      exact (List.not_mem_nil hin).elim

end

/-- Deliveries succeed in the order the requests were sent in, each request at most once. The drops
are counted. Once the worker has exited, every request is accounted for just when the run sent none
between its last look into the channel and its exit. -/
theorem accounted_iff_heard {Request : Type} (codec : Codec Request) (hcodec : codec.Faithful)
    (spool : Spool) (hbound : 1 ≤ spool.maxEntries) (backoffMax replayedTotal droppedTotal : Nat)
    (events : List (ImportEvent Request)) (s : Pipeline Request)
    (hrun : (Pipeline.start spool backoffMax replayedTotal droppedTotal).run codec events = some s) :
    s.account.delivered.Pairwise (· < ·) ∧ s.droppedTotal = droppedTotal + s.account.drops.length ∧
      (s.hasExited = true → ((∀ t < s.account.next, s.Accounted codec t) ↔
        Heard codec (.start spool backoffMax replayedTotal droppedTotal) events)) := by
  have hstart : Keeps codec droppedTotal (.start spool backoffMax replayedTotal droppedTotal) :=
    keeps_start spool hbound backoffMax replayedTotal droppedTotal
  have hkeeps := hstart.run hcodec hrun
  refine ⟨hkeeps.sound.1, hkeeps.sound.2, fun hexited => ?_⟩
  rw [hkeeps.exited hexited, late_run hrun]
  exact and_iff_right rfl

/-- The requests that are their own lines. -/
def lineCodec : Codec Line where
  serialize := some
  parse text :=
    if h : '\n' ∉ text ∧ '\r' ∉ text ∧ isBlank text = false then
      some ⟨text, h.1, h.2.1, h.2.2⟩
    else none
  isObject _ := true

theorem lineCodec_faithful : lineCodec.Faithful := by
  refine ⟨fun request => ⟨request, rfl, ?_⟩, fun _ => rfl⟩
  unfold lineCodec
  dsimp only
  rw [dif_pos ⟨request.feed, request.carriage, request.blank⟩]
  rfl

def someLine : Line := ⟨['a'], by decide, by decide, by decide⟩

/-- A request that waits in the channel at the stop is in the spool at the exit. -/
theorem accounted_of_drained :
    ∃ s, (Pipeline.start ⟨[], 1⟩ 1 0 0).run lineCodec
        [.stamp someLine, .send 0, .cancel, .worker .cancelled, .worker .next, .worker .next,
          .worker .next] = some s ∧
      s.hasExited = true ∧ ∀ t < s.account.next, s.Accounted lineCodec t := by
  refine ⟨_, rfl, rfl, ?_⟩
  refine ((accounted_iff_heard lineCodec lineCodec_faithful ⟨[], 1⟩ (Nat.le_refl 1) 1 0 0
    [.stamp someLine, .send 0, .cancel, .worker .cancelled, .worker .next, .worker .next,
      .worker .next] _ rfl).2.2 rfl).mpr ?_
  iterate 7 refine (heard_cons rfl).mpr ⟨rfl, ?_⟩
  trivial

/-- A request that is sent between the last look and the exit is nowhere. -/
theorem unaccounted_of_late :
    ∃ s, (Pipeline.start ⟨[], 1⟩ 1 0 0).run lineCodec
        [.stamp someLine, .cancel, .worker .cancelled, .worker .next, .send 0, .worker .next] =
          some s ∧
      s.hasExited = true ∧ s.account.next = 1 ∧ ¬ s.Accounted lineCodec 0 := by
  refine ⟨_, rfl, rfl, rfl, ?_⟩
  rintro (h | h | h | ⟨entry, h, -⟩) <;> exact List.not_mem_nil h

end RustyPhoton.PlanetariumBridge
