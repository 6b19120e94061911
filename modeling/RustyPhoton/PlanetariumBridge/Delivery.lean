import Mathlib.Data.List.Forall2
import Mathlib.Data.List.ReduceOption
import RustyPhoton.PlanetariumBridge.Import

/-!
# What becomes of an accepted Align

The requests that wait stand in one line: the spool, the delivery in flight, the channel. Every step
of the worker moves the line's parts without changing its order, or takes its head off and settles
it. `Flow` is what that keeps. A request is lost only when it is sent after the worker has looked
into its channel for the last time.
-/

namespace RustyPhoton.PlanetariumBridge

section

-- the equations every proof below unfolds, computed once
attribute [local simp] Pipeline.work Pipeline.receive Pipeline.popHead Pipeline.spoolRequest
  Spool.popHead Spool.append Pipeline.headTicket

end

/-- The requests that were delivered, rejected or dropped. -/
def Account.done (account : Account) : List Nat :=
  account.delivered ++ account.rejected ++ account.drops.reduceOption

/-! ## The line -/

/-- The requests in the line, in order, with those that are done before them and those that are
lost. -/
structure Flow (pending lost : List Nat) (account : Account) : Prop where
  ordered : pending.Pairwise (· < ·)
  fresh : ∀ t ∈ pending, t < account.next
  ahead : ∀ t ∈ account.done, t < account.next ∧ ∀ u ∈ pending, t < u
  inOrder : account.delivered.Pairwise (· < ·)
  complete : ∀ t < account.next, t ∈ account.done ∨ t ∈ pending ∨ t ∈ lost
  apart : ∀ t ∈ lost, t < account.next ∧ t ∉ account.done ∧ t ∉ pending

section

variable {pending rest : List Nat} {account : Account}

theorem mem_done {t : Nat} : t ∈ account.done ↔
    t ∈ account.delivered ∨ t ∈ account.rejected ∨ some t ∈ account.drops := by
  unfold Account.done
  rw [List.mem_append, List.mem_append, List.reduceOption_mem_iff, or_assoc]

theorem flow_start : Flow [] [] ⟨0, [], [], [], []⟩ :=
  ⟨.nil, by simp, by simp [Account.done], .nil, by simp, by simp⟩

variable {account' : Account}

/-- The head of the line is settled, or an entry that is no request of the line leaves. -/
theorem Flow.settle (ticket : Option Nat) (h : Flow (ticket.toList ++ rest) [] account)
    (hnext : account'.next = account.next)
    (hdone : ∀ t, t ∈ account'.done ↔ t ∈ account.done ∨ some t = ticket)
    (hdelivered : account'.delivered = account.delivered ∨
      account'.delivered = account.delivered ++ ticket.toList) : Flow rest [] account' := by
  obtain ⟨-, hrest, hhead⟩ := List.pairwise_append.mp h.ordered
  have hmem : ∀ {t}, some t = ticket → t ∈ ticket.toList := fun heq => by simp [← heq]
  refine ⟨hrest, ?_, ?_, ?_, ?_, by simp⟩
  · intro t hin
    rw [hnext]
    exact h.fresh t (List.mem_append_right _ hin)
  · intro t hin
    rw [hnext]
    rcases (hdone t).mp hin with hin | heq
    · obtain ⟨hlt, hbefore⟩ := h.ahead t hin
      exact ⟨hlt, fun u hu => hbefore u (List.mem_append_right _ hu)⟩
    · exact ⟨h.fresh t (List.mem_append_left _ (hmem heq)), hhead t (hmem heq)⟩
  · rcases hdelivered with hsame | hmore
    · rw [hsame]
      exact h.inOrder
    · rw [hmore]
      refine List.pairwise_append.mpr ⟨h.inOrder, ?_, ?_⟩
      · cases ticket <;> simp
      · intro t hin u hu
        exact (h.ahead t (mem_done.mpr (.inl hin))).2 u (List.mem_append_left _ hu)
  · intro t hlt
    rw [hnext] at hlt
    rcases h.complete t hlt with hin | hin | hin
    · exact .inl ((hdone t).mpr (.inl hin))
    · rcases List.mem_append.mp hin with hin | hin
      · exact .inl ((hdone t).mpr (.inr (Option.mem_toList.mp hin).symm))
      · exact .inr (.inl hin)
    · exact (List.not_mem_nil hin).elim

/-- A request joins the line. -/
theorem Flow.join (h : Flow pending [] account)
    (hnext : account'.next = account.next + 1) (hdone : account'.done = account.done)
    (hdelivered : account'.delivered = account.delivered) :
    Flow (pending ++ [account.next]) [] account' := by
  refine ⟨?_, ?_, ?_, hdelivered ▸ h.inOrder, ?_, by simp⟩
  · refine List.pairwise_append.mpr ⟨h.ordered, List.pairwise_singleton _ _, ?_⟩
    intro t hin u hu
    rw [List.mem_singleton.mp hu]
    exact h.fresh t hin
  · intro t hin
    rw [hnext]
    rcases List.mem_append.mp hin with hin | hin
    · exact Nat.lt_succ_of_lt (h.fresh t hin)
    · rw [List.mem_singleton.mp hin]
      exact Nat.lt_succ_self _
  · intro t hin
    rw [hdone] at hin
    obtain ⟨hlt, hbefore⟩ := h.ahead t hin
    rw [hnext]
    refine ⟨Nat.lt_succ_of_lt hlt, fun u hu => ?_⟩
    rcases List.mem_append.mp hu with hu | hu
    · exact hbefore u hu
    · rw [List.mem_singleton.mp hu]
      exact hlt
  · intro t hlt
    rw [hnext] at hlt
    rw [hdone]
    rcases Nat.lt_succ_iff_lt_or_eq.mp hlt with hlt | rfl
    · exact (h.complete t hlt).imp_right (Or.imp_left (List.mem_append_left _))
    · exact .inr (.inl (List.mem_append_right _ List.mem_cons_self))

/-- The end of the line is lost. -/
theorem Flow.lose {lost : List Nat} (h : Flow (pending ++ lost) [] account) :
    Flow pending lost account := by
  obtain ⟨hordered, -, hlost⟩ := List.pairwise_append.mp h.ordered
  refine ⟨hordered, fun t hin => h.fresh t (List.mem_append_left _ hin), ?_, h.inOrder, ?_, ?_⟩
  · intro t hin
    obtain ⟨hlt, hbefore⟩ := h.ahead t hin
    exact ⟨hlt, fun u hu => hbefore u (List.mem_append_left _ hu)⟩
  · intro t hlt
    rcases h.complete t hlt with hin | hin | hin
    · exact .inl hin
    · exact .inr (List.mem_append.mp hin)
    · exact (List.not_mem_nil hin).elim
  · intro t hin
    refine ⟨h.fresh t (List.mem_append_right _ hin), ?_, ?_⟩
    · intro hdone
      exact Nat.lt_irrefl t ((h.ahead t hdone).2 t (List.mem_append_right _ hin))
    · intro hpending
      exact Nat.lt_irrefl t (hlost t hpending t hin)

end

/-! ## The pipeline's line -/

variable {Request : Type} {codec : Codec Request} {base : Nat}

/-- A serializer that reads back what it writes. -/
structure Codec.Faithful (codec : Codec Request) : Prop where
  reads : ∀ request, ∃ line, codec.serialize request = some line ∧
    (codec.parse line.text).isSome
  object : ∀ request, codec.isObject request = true

/-- An entry of a request that was sent here is the request's line, and reads as a request. -/
def Readback (codec : Codec Request) (sent : List Request) (entry : SpoolEntry)
    (ticket : Option Nat) : Prop :=
  ∀ t, ticket = some t → ∃ request line, sent[t]? = some request ∧
    codec.serialize request = some line ∧ entry.line = line.text ∧
      (codec.parse entry.line).isSome

/-- The tickets of the channel. -/
def Pipeline.queued (s : Pipeline Request) : List Nat := s.channel.map (·.ticket)

/-- The spool and the counters, with the requests that are taken off the channel and not yet settled
or spooled. -/
structure Core (codec : Codec Request) (base : Nat) (s : Pipeline Request)
    (held : List (QueuedImport Request)) : Prop where
  bound : 1 ≤ s.spool.maxEntries
  numbered : s.sent.length = s.account.next
  known : ∀ queued ∈ held ++ s.channel, s.sent[queued.ticket]? = some queued.request
  paired : List.Forall₂ (Readback codec s.sent) s.spool.entries s.tickets
  counted : s.droppedTotal = base + s.account.drops.length
  flow : Flow (s.tickets.reduceOption ++ held.map (·.ticket) ++ s.queued) [] s.account

section

variable {s s' : Pipeline Request} {queued : QueuedImport Request}

variable {held : List (QueuedImport Request)}

/-- A change of what the line does not depend on. -/
theorem Core.congr (h : Core codec base s held) (hspool : s'.spool = s.spool)
    (htickets : s'.tickets = s.tickets) (hchannel : s'.channel = s.channel)
    (hsent : s'.sent = s.sent) (haccount : s'.account = s.account)
    (hdropped : s'.droppedTotal = s.droppedTotal) : Core codec base s' held := by
  obtain ⟨hbound, hnumbered, hknown, hpaired, hcounted, hflow⟩ := h
  refine ⟨?_, ?_, ?_, ?_, ?_, ?_⟩
  · rwa [hspool]
  · rwa [hsent, haccount]
  · rwa [hsent, hchannel]
  · rwa [hspool, htickets, hsent]
  · rwa [haccount, hdropped]
  · rwa [htickets, haccount, Pipeline.queued, hchannel]

theorem Core.receive (h : Core codec base s []) (hreceive : s.receive = some (queued, s')) :
    Core codec base s' [queued] ∧ s'.stage = s.stage ∧ s'.account = s.account ∧
      s'.spool = s.spool ∧ s'.reachable = s.reachable := by
  unfold Pipeline.receive at hreceive
  cases hchannel : s.channel with
  | nil => simp [hchannel] at hreceive
  | cons first rest =>
    simp only [hchannel, Option.some.injEq, Prod.mk.injEq] at hreceive
    obtain ⟨rfl, rfl⟩ := hreceive
    have hflow := h.flow
    rw [List.map_nil, List.append_nil, Pipeline.queued, hchannel] at hflow
    refine ⟨⟨h.bound, h.numbered, ?_, h.paired, h.counted, ?_⟩, rfl, rfl, rfl, rfl⟩
    · intro other hin
      refine h.known other ?_
      rw [hchannel]
      exact hin
    · rw [List.append_assoc]
      exact hflow

theorem reduceOption_cons (ticket : Option Nat) (rest : List (Option Nat)) :
    (ticket :: rest).reduceOption = ticket.toList ++ rest.reduceOption := by
  cases ticket <;> rfl

/-- The head of the spool leaves it, settled where it is a request that was sent here. -/
theorem Core.dropHead (h : Core codec base s held) {ticket : Option Nat}
    {rest : List (Option Nat)} (htickets : s.tickets = ticket :: rest)
    (hentries : s'.spool.entries = s.spool.entries.tail)
    (hmax : s'.spool.maxEntries = s.spool.maxEntries) (htickets' : s'.tickets = rest)
    (hchannel : s'.channel = s.channel) (hsent : s'.sent = s.sent)
    (hcounted : s'.droppedTotal = base + s'.account.drops.length)
    (hnext : s'.account.next = s.account.next)
    (hdone : ∀ t, t ∈ s'.account.done ↔ t ∈ s.account.done ∨ some t = ticket)
    (hdelivered : s'.account.delivered = s.account.delivered ∨
      s'.account.delivered = s.account.delivered ++ ticket.toList) :
    Core codec base s' held := by
  have hpaired := h.paired
  have hflow := h.flow
  rw [htickets] at hpaired hflow
  rw [reduceOption_cons, List.append_assoc, List.append_assoc] at hflow
  refine ⟨?_, ?_, ?_, ?_, hcounted, ?_⟩
  · rw [hmax]
    exact h.bound
  · rw [hsent, hnext]
    exact h.numbered
  · rw [hsent, hchannel]
    exact h.known
  · rw [hentries, htickets', hsent]
    cases hs : s.spool.entries with
    | nil => rw [hs] at hpaired; cases hpaired
    | cons entry more =>
      rw [hs] at hpaired
      exact (List.forall₂_cons.mp hpaired).2
  · rw [htickets', Pipeline.queued, hchannel, List.append_assoc]
    exact Flow.settle ticket hflow hnext hdone hdelivered

/-- A request that is spooled goes to the end of the spool, which may drop its head. -/
theorem Core.spoolRequest (hcodec : codec.Faithful) (h : Core codec base s [queued]) :
    Core codec base (s.spoolRequest codec queued) [] ∧
      (s.spoolRequest codec queued).stage = s.stage ∧
      (s.spoolRequest codec queued).channel = s.channel ∧
      (s.spoolRequest codec queued).account.late = s.account.late := by
  obtain ⟨line, hline, hreads⟩ := hcodec.reads queued.request
  -- the request joins the spool's end, whatever has left at its head
  have hjoin : ∀ {s' : Pipeline Request}, Core codec base s' [queued] →
      ∀ spooled, Core codec base { s' with
        spool := { s'.spool with entries := s'.spool.entries ++ [⟨line.text, none⟩] }
        tickets := s'.tickets ++ [some queued.ticket]
        spooled := spooled } [] := by
    intro s' h' spooled
    have hback : Readback codec s'.sent ⟨line.text, none⟩ (some queued.ticket) := by
      intro t heq
      cases heq
      exact ⟨queued.request, line, h'.known queued List.mem_cons_self, hline, rfl, hreads⟩
    refine ⟨h'.bound, h'.numbered, fun other hin => h'.known other (List.mem_cons_of_mem _ hin),
      List.rel_append h'.paired (.cons hback .nil), h'.counted, ?_⟩
    show Flow ((s'.tickets ++ [some queued.ticket]).reduceOption ++ [] ++ s'.queued) [] s'.account
    rw [List.reduceOption_append, List.append_nil]
    exact h'.flow
  by_cases hfull : s.spool.maxEntries ≤ s.spool.entries.length
  · cases htickets : s.tickets with
    | nil =>
      have hpaired := h.paired
      have hbound := h.bound
      rw [htickets] at hpaired
      rw [List.forall₂_nil_right_iff.mp hpaired, List.length_nil] at hfull
      omega
    | cons ticket rest =>
      have hspool : s.spoolRequest codec queued =
          { s with
            spool := { s.spool with entries := s.spool.entries.tail ++ [⟨line.text, none⟩] }
            tickets := rest ++ [some queued.ticket]
            spooled := (s.spool.entries.tail ++ [⟨line.text, none⟩] : List SpoolEntry).length
            droppedTotal := s.droppedTotal + 1
            account := { s.account with drops := s.account.drops ++ [ticket] } } := by
        simp only [Pipeline.spoolRequest, hline, Spool.append, if_pos hfull, if_true, htickets,
          List.tail_cons, List.head?_cons, Option.toList_some]
      rw [hspool]
      have hdropped : Core codec base
          { s with
            spool := { s.spool with entries := s.spool.entries.tail }
            tickets := rest
            droppedTotal := s.droppedTotal + 1
            account := { s.account with drops := s.account.drops ++ [ticket] } }
          [queued] := by
        refine h.dropHead htickets rfl rfl rfl rfl rfl ?_ rfl ?_ (.inl rfl)
        · show s.droppedTotal + 1 = base + (s.account.drops ++ [ticket]).length
          rw [h.counted, List.length_append, List.length_singleton, Nat.add_assoc]
        · intro t
          simp only [mem_done, List.mem_append, List.mem_singleton]
          tauto
      exact ⟨hjoin hdropped _, rfl, rfl, rfl⟩
  · have hspool : s.spoolRequest codec queued =
        { s with
          spool := { s.spool with entries := s.spool.entries ++ [⟨line.text, none⟩] }
          tickets := s.tickets ++ [some queued.ticket]
          spooled := (s.spool.entries ++ [⟨line.text, none⟩] : List SpoolEntry).length } := by
      simp [Pipeline.spoolRequest, hline, Spool.append, if_neg hfull]
    rw [hspool]
    exact ⟨hjoin h _, rfl, rfl, rfl⟩

/-- The end of a replay that settles the head of the spool. -/
theorem Core.replayed (h : Core codec base s []) (delivery : Delivery) :
    Core codec base (s.replayed delivery) [] ∧
      (s.replayed delivery).account.late = s.account.late := by
  have hpop : ∀ {s' : Pipeline Request}, s'.spool = s.popHead.spool → s'.tickets = s.tickets.tail →
      s'.channel = s.channel → s'.sent = s.sent → s'.droppedTotal = s.droppedTotal →
      s'.account.next = s.account.next → s'.account.drops = s.account.drops →
      (∀ t, t ∈ s'.account.done ↔ t ∈ s.account.done ∨ t ∈ s.headTicket) →
      (s'.account.delivered = s.account.delivered ∨
        s'.account.delivered = s.account.delivered ++ s.headTicket) →
      Core codec base s' [] := by
    intro s' hspool htickets' hchannel hsent hdropped hnext hdrops hdone hdelivered
    have hcounted : s'.droppedTotal = base + s'.account.drops.length := by
      rw [hdropped, hdrops]
      exact h.counted
    cases htickets : s.tickets with
    | nil =>
      have hpaired := h.paired
      rw [htickets] at hpaired
      have hentries := List.forall₂_nil_right_iff.mp hpaired
      have hhead : s.headTicket = [] := by simp [Pipeline.headTicket, htickets]
      have hflow := h.flow
      refine ⟨?_, ?_, ?_, ?_, hcounted, ?_⟩
      · rw [hspool]
        simp only [Pipeline.popHead, Spool.popHead, hentries]
        exact h.bound
      · rw [hsent, hnext]
        exact h.numbered
      · rw [hsent, hchannel]
        exact h.known
      · rw [hspool, htickets', htickets]
        simp only [Pipeline.popHead, Spool.popHead, hentries]
        exact .nil
      · rw [htickets', htickets, Pipeline.queued, hchannel]
        rw [htickets] at hflow
        refine Flow.settle none hflow hnext ?_ ?_
        · intro t
          rw [hdone, hhead]
          simp
        · rcases hdelivered with hsame | hmore
          · exact .inl hsame
          · rw [hhead, List.append_nil] at hmore
            exact .inl hmore
    | cons ticket rest =>
      have hhead : s.headTicket = ticket.toList := by simp [Pipeline.headTicket, htickets]
      have hspool' : s.popHead.spool = { s.spool with entries := s.spool.entries.tail } := by
        show (s.spool.popHead).1 = _
        obtain ⟨entries, maxEntries⟩ := s.spool
        cases entries <;> rfl
      refine h.dropHead htickets (by rw [hspool, hspool']) (by rw [hspool, hspool'])
        (by rw [htickets', htickets]; rfl) hchannel hsent hcounted hnext ?_ (hhead ▸ hdelivered)
      intro t
      rw [hdone, hhead, Option.mem_toList]
      exact or_congr_right eq_comm
  cases delivery with
  | delivered =>
    refine ⟨hpop rfl rfl rfl rfl rfl rfl rfl ?_ (.inr rfl), rfl⟩
    intro t
    simp only [mem_done, Pipeline.replayed, Pipeline.popHead, List.mem_append]
    tauto
  | toolRejected message =>
    refine ⟨hpop rfl rfl rfl rfl rfl rfl rfl ?_ (.inl rfl), rfl⟩
    intro t
    simp only [mem_done, Pipeline.replayed, Pipeline.popHead, List.mem_append]
    tauto
  | unreachable message => exact ⟨h.congr rfl rfl rfl rfl rfl rfl, rfl⟩

/-- The end of a direct delivery, while the spool is empty. -/
theorem Core.delivered (hcodec : codec.Faithful) (h : Core codec base s [queued])
    (hempty : s.spool.entries = []) (delivery : Delivery) :
    Core codec base (s.delivered codec queued delivery) [] ∧
      (s.delivered codec queued delivery).stage = .looping ∧
      (s.delivered codec queued delivery).account.late = s.account.late := by
  have htickets : s.tickets = [] := by
    have hpaired := h.paired
    rw [hempty] at hpaired
    exact List.forall₂_nil_left_iff.mp hpaired
  have hflow := h.flow
  rw [htickets] at hflow
  have hknown : ∀ other ∈ [] ++ s.channel, s.sent[other.ticket]? = some other.request :=
    fun other hin => h.known other (List.mem_cons_of_mem _ hin)
  cases delivery with
  | delivered =>
    refine ⟨⟨h.bound, h.numbered, hknown, h.paired, h.counted, ?_⟩, rfl, rfl⟩
    show Flow (s.tickets.reduceOption ++ [] ++ s.queued) [] _
    rw [htickets]
    refine Flow.settle (some queued.ticket) hflow rfl ?_ (.inr rfl)
    intro t
    simp only [mem_done, Pipeline.delivered, List.mem_append, List.mem_singleton,
      Option.some.injEq]
    tauto
  | toolRejected message =>
    refine ⟨⟨h.bound, h.numbered, hknown, h.paired, h.counted, ?_⟩, rfl, rfl⟩
    show Flow (s.tickets.reduceOption ++ [] ++ s.queued) [] _
    rw [htickets]
    refine Flow.settle (some queued.ticket) hflow rfl ?_ (.inl rfl)
    intro t
    simp only [mem_done, Pipeline.delivered, List.mem_append, List.mem_singleton,
      Option.some.injEq]
    tauto
  | unreachable message =>
    have hs : Core codec base { s with reachable := false, stage := .looping } [queued] :=
      h.congr rfl rfl rfl rfl rfl rfl
    obtain ⟨hcore, hstage, -, hlate⟩ := hs.spoolRequest hcodec
    exact ⟨hcore, hstage, hlate⟩

/-- A corrupt line leaves the spool. No request that was sent here is one. -/
theorem Core.skip (h : Core codec base s []) {head : SpoolEntry} {rest : List SpoolEntry}
    (hentries : s.spool.entries = head :: rest) (hparse : codec.parse head.line = none) :
    Core codec base s.popHead [] := by
  cases htickets : s.tickets with
  | nil =>
    have hpaired := h.paired
    rw [hentries, htickets] at hpaired
    cases hpaired
  | cons ticket more =>
    have hpaired := h.paired
    rw [hentries, htickets] at hpaired
    have hticket : ticket = none := by
      cases ticket with
      | none => rfl
      | some t =>
        obtain ⟨_, _, _, _, _, hreads⟩ := (List.forall₂_cons.mp hpaired).1 t rfl
        rw [hparse] at hreads
        cases hreads
    subst hticket
    refine h.dropHead htickets ?_ ?_ (by simp [Pipeline.popHead, htickets]) rfl rfl h.counted rfl ?_
      (.inl rfl)
    · simp [Pipeline.popHead, Spool.popHead, hentries]
    · simp [Pipeline.popHead, Spool.popHead, hentries]
    · intro t
      simp [Pipeline.popHead]

theorem getElem?_append_some {α : Type} {l more : List α} {i : Nat} {a : α} (h : l[i]? = some a) :
    (l ++ more)[i]? = some a := by
  obtain ⟨hlt, -⟩ := List.getElem?_eq_some_iff.mp h
  rw [List.getElem?_append_left hlt, h]

/-- A request that is sent joins the line, while the worker holds its channel. -/
theorem Core.send (h : Core codec base s held) (hopen : s.hasExited = false)
    (request : Request) (spoolFirst : Bool) : Core codec base (s.send request spoolFirst) held := by
  unfold Pipeline.send
  rw [hopen, if_neg Bool.false_ne_true]
  refine ⟨h.bound, ?_, ?_, ?_, h.counted, ?_⟩
  · show (s.sent ++ [request]).length = s.account.next + 1
    rw [List.length_append, List.length_singleton, h.numbered]
  · intro other hin
    show (s.sent ++ [request])[other.ticket]? = some other.request
    rw [← List.append_assoc, List.mem_append, List.mem_singleton] at hin
    rcases hin with hin | rfl
    · exact getElem?_append_some (h.known other hin)
    · rw [← h.numbered, List.getElem?_concat_length]
  · refine h.paired.imp fun entry ticket hback t heq => ?_
    obtain ⟨found, line, hfound, hrest⟩ := hback t heq
    exact ⟨found, line, getElem?_append_some hfound, hrest⟩
  show Flow (s.tickets.reduceOption ++ held.map (·.ticket) ++
    (s.channel ++ [QueuedImport.mk s.account.next request spoolFirst]).map (·.ticket)) [] _
  rw [List.map_append, ← List.append_assoc]
  exact h.flow.join rfl rfl rfl

end

/-! ## Runs -/

section

variable {s s' : Pipeline Request}

/-- What holds of the line at every stage of the worker. -/
def Keeps (codec : Codec Request) (base : Nat) (s : Pipeline Request) : Prop :=
  match s.stage with
  | .direct queued =>
      Core codec base s [queued] ∧ s.spool.entries = [] ∧ s.account.late = []
  | .idle => Core codec base s [] ∧ s.spool.entries = [] ∧ s.account.late = []
  | .drained => Core codec base s [] ∧ s.account.late = s.queued
  | .exited =>
      List.Forall₂ (Readback codec s.sent) s.spool.entries s.tickets ∧
        s.droppedTotal = base + s.account.drops.length ∧
        Flow s.tickets.reduceOption s.account.late s.account
  | _ => Core codec base s [] ∧ s.account.late = []

/-- The stages in which nothing is off the line and the channel is still looked into. -/
def WorkerStage.plain : WorkerStage Request → Bool
  | .direct _ | .idle | .drained | .exited => false
  | _ => true

theorem keeps_plain (hstage : s.stage.plain = true) :
    Keeps codec base s ↔ Core codec base s [] ∧ s.account.late = [] := by
  unfold Keeps
  cases h : s.stage <;> first | rfl | (rw [h] at hstage; cases hstage)

theorem keeps_start (spool : Spool) (hbound : 1 ≤ spool.maxEntries)
    (backoffMax replayedTotal droppedTotal : Nat) :
    Keeps codec droppedTotal (.start spool backoffMax replayedTotal droppedTotal) := by
  refine (keeps_plain rfl).mpr ⟨⟨hbound, rfl, fun _ hin => absurd hin List.not_mem_nil, ?_, rfl, ?_⟩, rfl⟩
  · show List.Forall₂ (Readback codec []) spool.entries (spool.entries.map fun _ => none)
    induction spool.entries with
    | nil => exact .nil
    | cons entry rest ih => exact .cons (fun t h => by cases h) ih
  · show Flow ((spool.entries.map fun _ => (none : Option Nat)).reduceOption ++ [] ++ []) [] _
    have hnone : (spool.entries.map fun _ => (none : Option Nat)).reduceOption = [] := by
      rw [List.map_const', List.reduceOption_replicate_none]
    rw [hnone]
    exact flow_start

/-- A step that leaves the line alone, between plain stages. -/
theorem Keeps.congr (h : Keeps codec base s) (hstage : s.stage.plain = true)
    (hstage' : s'.stage.plain = true) (hspool : s'.spool = s.spool)
    (htickets : s'.tickets = s.tickets) (hchannel : s'.channel = s.channel)
    (hsent : s'.sent = s.sent) (haccount : s'.account = s.account)
    (hdropped : s'.droppedTotal = s.droppedTotal) : Keeps codec base s' := by
  obtain ⟨hcore, hlate⟩ := (keeps_plain hstage).mp h
  exact (keeps_plain hstage').mpr
    ⟨hcore.congr hspool htickets hchannel hsent haccount hdropped, haccount ▸ hlate⟩

/-- A request taken off the channel is spooled. -/
theorem Keeps.spool (hcodec : codec.Faithful) {queued : QueuedImport Request}
    {before : Pipeline Request} (hcore : Core codec base before []) (hlate : before.account.late = [])
    (hreceive : before.receive = some (queued, s))
    (hspool : s' = { s.spoolRequest codec queued with stage := s'.stage })
    (hstage : s'.stage.plain = true) : Keeps codec base s' := by
  obtain ⟨hheld, -, haccount, -, -⟩ := hcore.receive hreceive
  obtain ⟨hnew, -, -, hsame⟩ := hheld.spoolRequest hcodec
  refine (keeps_plain hstage).mpr ⟨?_, ?_⟩
  · rw [hspool]
    exact hnew.congr rfl rfl rfl rfl rfl rfl
  · rw [hspool]
    show (s.spoolRequest codec queued).account.late = []
    rw [hsame, haccount, hlate]

/-- A look into the channel, on the way to another look or out of the loop. -/
theorem Keeps.look (hcodec : codec.Faithful) (hcore : Core codec base s [])
    (hlate : s.account.late = []) (hplain : s.stage.plain = true) {after : WorkerStage Request}
    (hafter : s.receive = none → Keeps codec base { s with stage := after })
    (hwork : (match s.receive with
      | some (queued, s) => some (s.spoolRequest codec queued)
      | none => some { s with stage := after }) = some s') : Keeps codec base s' := by
  cases hreceive : s.receive with
  | none =>
    simp only [hreceive, Option.some.injEq] at hwork
    rw [← hwork]
    exact hafter hreceive
  | some found =>
    obtain ⟨queued, t⟩ := found
    simp only [hreceive, Option.some.injEq] at hwork
    obtain ⟨hheld, hstage, -⟩ := hcore.receive hreceive
    have hsame := (hheld.spoolRequest hcodec).2.1
    have hstage' : s'.stage = s.stage := by rw [← hwork, hsame, hstage]
    refine Keeps.spool hcodec hcore hlate hreceive ?_ (by rw [hstage']; exact hplain)
    rw [← hwork]

/-- The start of a turn of the loop. -/
theorem Keeps.turn (hcore : Core codec base s []) (hlate : s.account.late = [])
    (hstage : s.stage = .looping) (hwork : s.work codec .next = some s') :
    Keeps codec base s' := by
  have hto : ∀ {after : WorkerStage Request}, after.plain = true →
      Keeps codec base { s with stage := after } := fun hplain =>
    (keeps_plain hplain).mpr ⟨hcore.congr rfl rfl rfl rfl rfl rfl, hlate⟩
  simp only [Pipeline.work, hstage] at hwork
  by_cases hcancel : s.cancelled = true
  · rw [if_pos hcancel] at hwork
    cases hwork
    exact hto rfl
  rw [if_neg hcancel] at hwork
  cases hentries : s.spool.entries with
  | nil =>
    simp only [hentries, Option.some.injEq] at hwork
    rw [← hwork]
    exact ⟨hcore.congr rfl rfl rfl rfl rfl rfl, hentries, hlate⟩
  | cons head rest =>
    cases hparse : codec.parse head.line with
    | none =>
      simp only [hentries, hparse, Option.some.injEq] at hwork
      rw [← hwork]
      exact (keeps_plain (by show s.stage.plain = true; rw [hstage]; rfl)).mpr
        ⟨hcore.skip hentries hparse, hlate⟩
    | some request =>
      simp only [hentries, hparse, Option.some.injEq] at hwork
      rw [← hwork]
      exact hto rfl

variable {input : WorkerInput}

/-- A step of the worker that is between two deliveries. -/
theorem Keeps.work_plain (hcodec : codec.Faithful) (h : Keeps codec base s)
    (hplain : s.stage.plain = true) (hwork : s.work codec input = some s') :
    Keeps codec base s' := by
  obtain ⟨hcore, hlate⟩ := (keeps_plain hplain).mp h
  have hto : ∀ {after : WorkerStage Request}, after.plain = true →
      Keeps codec base { s with stage := after } := fun hafter =>
    h.congr hplain hafter rfl rfl rfl rfl rfl rfl
  cases hstage : s.stage with
  | direct queued => rw [hstage] at hplain; cases hplain
  | idle => rw [hstage] at hplain; cases hplain
  | drained => rw [hstage] at hplain; cases hplain
  | exited => rw [hstage] at hplain; cases hplain
  | probing =>
    cases input <;> simp only [Pipeline.work, hstage] at hwork
    case cancelled =>
      split at hwork <;> cases hwork
      exact hto rfl
    case closed =>
      split at hwork <;> cases hwork
      exact hto rfl
    case probed result =>
      cases hwork
      exact h.congr hplain rfl rfl rfl rfl rfl rfl rfl
    case received =>
      obtain ⟨⟨queued, t⟩, hreceive, hnext⟩ := Option.bind_eq_some_iff.mp hwork
      cases hnext
      exact Keeps.spool hcodec hcore hlate hreceive rfl rfl
    all_goals cases hwork
  | collecting probing =>
    cases input <;> simp only [Pipeline.work, hstage] at hwork
    case next =>
      refine Keeps.look hcodec hcore hlate hplain (fun _ => hto ?_) hwork
      cases probing <;> rfl
    all_goals cases hwork
  | looping =>
    cases input with
    | next => exact Keeps.turn hcore hlate hstage hwork
    | _ => simp only [Pipeline.work, hstage] at hwork; cases hwork
  | replaying request =>
    cases input <;> simp only [Pipeline.work, hstage] at hwork
    case answered connected result =>
      cases hwork
      have hs : Core codec base
          { s with client := (deliver codec s.client request connected result).2 } [] :=
        hcore.congr rfl rfl rfl rfl rfl rfl
      obtain ⟨hnew, hsame⟩ := hs.replayed (deliver codec s.client request connected result).1
      refine (keeps_plain ?_).mpr ⟨hnew, hsame.trans hlate⟩
      cases (deliver codec s.client request connected result).1 <;> rfl
    all_goals cases hwork
  | backingOff =>
    cases input <;> simp only [Pipeline.work, hstage] at hwork
    case cancelled =>
      split at hwork <;> cases hwork
      exact hto rfl
    case closed =>
      split at hwork <;> cases hwork
      exact hto rfl
    case slept =>
      cases hwork
      exact h.congr hplain rfl rfl rfl rfl rfl rfl rfl
    case received =>
      obtain ⟨⟨queued, t⟩, hreceive, hnext⟩ := Option.bind_eq_some_iff.mp hwork
      cases hnext
      obtain ⟨hheld, hsame, -⟩ := hcore.receive hreceive
      have hsame' := (hheld.spoolRequest hcodec).2.1
      refine Keeps.spool hcodec hcore hlate hreceive rfl ?_
      rw [hsame', hsame]
      exact hplain
    all_goals cases hwork
  | draining =>
    cases input <;> simp only [Pipeline.work, hstage] at hwork
    case next =>
      refine Keeps.look hcodec hcore hlate hplain (fun hreceive => ?_) hwork
      -- the last look: the channel is empty
      have hchannel : s.channel = [] := by
        cases hc : s.channel with
        | nil => rfl
        | cons queued rest => simp [Pipeline.receive, hc] at hreceive
      refine ⟨hcore.congr rfl rfl rfl rfl rfl rfl, ?_⟩
      show s.account.late = s.channel.map (·.ticket)
      rw [hlate, hchannel, List.map_nil]
    all_goals cases hwork

theorem Keeps.work (hcodec : codec.Faithful) (h : Keeps codec base s)
    (hwork : s.work codec input = some s') : Keeps codec base s' := by
  cases hstage : s.stage with
  | idle =>
    unfold Keeps at h
    simp only [hstage] at h
    obtain ⟨hcore, hempty, hlate⟩ := h
    have hto : Keeps codec base { s with stage := .draining } :=
      ⟨hcore.congr rfl rfl rfl rfl rfl rfl, hlate⟩
    cases input <;> simp only [Pipeline.work, hstage] at hwork
    case cancelled =>
      split at hwork <;> cases hwork
      exact hto
    case closed =>
      split at hwork <;> cases hwork
      exact hto
    case received =>
      obtain ⟨⟨queued, t⟩, hreceive, hnext⟩ := Option.bind_eq_some_iff.mp hwork
      split at hnext <;> cases hnext
      · exact Keeps.spool hcodec hcore hlate hreceive rfl rfl
      · obtain ⟨hheld, -, haccount, hspool, -⟩ := hcore.receive hreceive
        refine ⟨hheld.congr rfl rfl rfl rfl rfl rfl, ?_, ?_⟩
        · rw [← hempty, ← hspool]
        · rw [← hlate, ← haccount]
    all_goals cases hwork
  | direct queued =>
    unfold Keeps at h
    simp only [hstage] at h
    obtain ⟨hcore, hempty, hlate⟩ := h
    cases input <;> simp only [Pipeline.work, hstage] at hwork
    case answered connected result =>
      cases hwork
      have hs : Core codec base
          { s with
            client := (deliver codec s.client queued.request connected result).2
            stage := .direct queued }
          [queued] := hcore.congr rfl rfl rfl rfl rfl rfl
      obtain ⟨hnew, hafter, hsame⟩ :=
        hs.delivered hcodec hempty (deliver codec s.client queued.request connected result).1
      exact (keeps_plain (by rw [hafter]; rfl)).mpr ⟨hnew, hsame.trans hlate⟩
    all_goals cases hwork
  | drained =>
    unfold Keeps at h
    simp only [hstage] at h
    obtain ⟨hcore, hlate⟩ := h
    cases input <;> simp only [Pipeline.work, hstage] at hwork
    case next =>
      cases hwork
      refine ⟨hcore.paired, hcore.counted, ?_⟩
      have hflow := hcore.flow
      rw [List.map_nil, List.append_nil, ← hlate] at hflow
      exact hflow.lose
    all_goals cases hwork
  | exited => cases input <;> simp only [Pipeline.work, hstage] at hwork <;> cases hwork
  | _ => exact Keeps.work_plain hcodec h (by rw [hstage]; rfl) hwork

end

end RustyPhoton.PlanetariumBridge
