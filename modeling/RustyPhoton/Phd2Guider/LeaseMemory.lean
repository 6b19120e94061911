import RustyPhoton.Phd2Guider.LeaseBook

/-!
# The book against the history

`Keeps` says what a book holds of the history at the time of the last call, with `past` the leases
that are not held any more. Every call settles first, so each lemma below is about a settled book.
-/

namespace RustyPhoton.Phd2Guider

open Lib

def Held.lease (held : Held) : Lease := ⟨held.token, held.ttlS, held.expires⟩

def Ended.note (ended : Ended) : Token × Nat := (ended.token, ended.since)

theorem tokenMemory_pos : 0 < tokenMemory := by decide

theorem recent_iff {now : Nat} {note : Token × Nat} :
    recent now note = true ↔ now < note.2 + tokenMemory := by
  have hpos := tokenMemory_pos
  unfold recent
  rw [decide_eq_true_iff]
  generalize tokenMemory = memory at hpos ⊢
  omega

theorem recent_self (token : Token) (now : Nat) : recent now (token, now) = true :=
  recent_iff.mpr (Nat.lt_add_of_pos_right tokenMemory_pos)

theorem recent_of_le {now later : Nat} (hle : now ≤ later) {note : Token × Nat}
    (h : recent later note = true) : recent now note = true :=
  recent_iff.mpr (Nat.lt_of_le_of_lt hle (recent_iff.mp h))

namespace LeaseBook

variable {now later : Nat} {book : LeaseBook} {history : History} {past : List Lease}

/-- The lease that is held. -/
def current (book : LeaseBook) : List Lease := book.held.toList.map Held.lease

/-- No lease is held past its end. -/
def Settled (now : Nat) (book : LeaseBook) : Prop :=
  ∀ held, book.held = some held → now < held.expires

structure Keeps (now : Nat) (book : LeaseBook) (history : History) (past : List Lease) :
    Prop where
  leases : history.leases.Perm (book.current ++ past)
  passed : ∀ lease ∈ past, lease.ends ≤ now
  noted : ∀ note ∈ history.notes, note.2 ≤ now
  ended : (book.ended.map Ended.note).Perm
    ((past.map Lease.note ++ history.notes).filter (recent now))
  nodup : book.tokens.Nodup
  capped : book.tokens.length ≤ tokensRemembered

theorem keeps_new : new.Keeps 0 .new [] :=
  ⟨.refl _, by simp, by simp [History.new], .refl _, .nil, by decide⟩

theorem length_tokens (book : LeaseBook) : book.tokens.length = book.remembered := by
  unfold tokens remembered
  cases book.held <;> simp

theorem endedRecord_eq_none {token : Token} :
    book.endedRecord token = none ↔ token ∉ book.ended.map (·.token) := by
  simp [endedRecord, List.find?_eq_none]

theorem not_mem_tokens_iff {token : Token}
    (h : ¬ (book.held.filter fun held => held.token = token).isSome) :
    token ∉ book.tokens ↔ token ∉ book.ended.map (·.token) := by
  unfold tokens
  cases hheld : book.held with
  | none => rfl
  | some held =>
    have hother : token ≠ held.token := by
      intro heq
      rw [hheld, Option.filter_some, if_pos (decide_eq_true heq.symm)] at h
      exact h rfl
    rw [List.mem_append, not_or]
    exact and_iff_right (by simpa using hother)

/-! ## Settling -/

theorem settle_held (book : LeaseBook) (now : Nat) : (book.settle now).held = (book.lapse now).held :=
  rfl

theorem settle_ended (book : LeaseBook) (now : Nat) :
    (book.settle now).ended.map Ended.note =
      ((book.lapse now).ended.map Ended.note).filter (recent now) := by
  rw [List.filter_map]
  rfl

theorem settled_settle (book : LeaseBook) (now : Nat) : Settled now (book.settle now) := by
  intro held h
  rw [settle_held, lapse] at h
  cases hheld : book.held with
  | none => simp [hheld] at h
  | some before =>
    simp only [hheld] at h
    split at h
    · cases h
    · next hlive =>
        rw [hheld] at h
        cases h
        exact Nat.lt_of_not_le hlive

theorem settle_of_settled (h : Settled now book) : (book.settle now).held = book.held := by
  rw [settle_held, lapse]
  cases hheld : book.held with
  | none => exact hheld
  | some held =>
    simp only
    rw [if_neg (Nat.not_le_of_lt (h held hheld)), hheld]

theorem recent_and_recent (hle : now ≤ later) :
    (fun note => recent later note && recent now note) = recent later := by
  funext note
  cases hlater : recent later note with
  | false => exact Bool.false_and _
  | true => rw [recent_of_le hle hlater, Bool.and_self]

/-- A lapse moves the held lease to the past, under its own end. -/
theorem Keeps.lapse (h : book.Keeps now history past) (hle : now ≤ later) :
    ∃ past', history.leases.Perm ((book.lapse later).current ++ past') ∧
      (∀ lease ∈ past', lease.ends ≤ later) ∧
      (((book.lapse later).ended.map Ended.note).filter (recent later)).Perm
        ((past'.map Lease.note ++ history.notes).filter (recent later)) ∧
      (book.lapse later).tokens.Perm book.tokens := by
  have hpassed : ∀ lease ∈ past, lease.ends ≤ later := fun lease hin =>
    Nat.le_trans (h.passed lease hin) hle
  have hended := h.ended.filter (recent later)
  rw [List.filter_filter, recent_and_recent hle] at hended
  unfold LeaseBook.lapse
  cases hheld : book.held with
  | none => exact ⟨past, h.leases, hpassed, hended, .refl _⟩
  | some held =>
    simp only
    split
    · next hend =>
        refine ⟨held.lease :: past, ?_, ?_, ?_, ?_⟩
        · have hleases := h.leases
          rw [current, hheld] at hleases
          exact hleases
        · intro lease hin
          rcases List.mem_cons.mp hin with rfl | hin
          · exact hend
          · exact hpassed lease hin
        · rw [List.map_append, List.filter_append]
          refine List.perm_append_comm.trans ?_
          show (List.filter (recent later) [held.lease.note] ++ _).Perm
            (List.filter (recent later)
              ([held.lease.note] ++ (past.map Lease.note ++ history.notes)))
          rw [List.filter_append]
          exact hended.append_left _
        · unfold tokens
          rw [hheld, List.map_append]
          show (book.ended.map (·.token) ++ [held.token]).Perm
            ([held.token] ++ book.ended.map (·.token))
          exact List.perm_append_comm
    · exact ⟨past, h.leases, hpassed, hended, .refl _⟩

/-- Settling keeps what a book says of the history. -/
theorem Keeps.settle (h : book.Keeps now history past) (hle : now ≤ later) :
    ∃ past', (book.settle later).Keeps later history past' := by
  obtain ⟨past', hleases, hpassed, hended, htokens⟩ := h.lapse hle
  have hsub : (book.settle later).tokens.Sublist (book.lapse later).tokens :=
    (List.filter_sublist.map _).append_left _
  refine ⟨past', hleases, hpassed, ?_, ?_, ?_, ?_⟩
  · intro note hin
    exact Nat.le_trans (h.noted note hin) hle
  · rw [settle_ended]
    exact hended
  · exact (htokens.nodup_iff.mpr h.nodup).sublist hsub
  · exact Nat.le_trans hsub.length_le (htokens.length_eq ▸ h.capped)

/-- What a settled book names is what the history remembers. -/
theorem Keeps.perm_remembers (h : book.Keeps now history past) (hs : book.Settled now) :
    book.tokens.Perm (history.remembers now) := by
  have hcurrent : (book.current.map Lease.note).filter (recent now) =
      book.current.map Lease.note := by
    refine List.filter_eq_self.mpr fun note hin => ?_
    obtain ⟨lease, hlease, rfl⟩ := List.mem_map.mp hin
    obtain ⟨held, hheld, rfl⟩ := List.mem_map.mp hlease
    exact recent_iff.mpr (Nat.lt_add_right _ (hs held (Option.mem_toList.mp hheld)))
  have hall := (h.leases.map Lease.note).append_right history.notes
  rw [List.map_append, List.append_assoc] at hall
  have hended := h.ended.map (·.1)
  rw [List.map_map] at hended
  calc book.tokens
      = (book.current.map Lease.note).map (·.1) ++ book.ended.map fun ended => ended.note.1 := by
        unfold tokens current
        rw [List.map_map, List.map_map]
        rfl
    _ |>.Perm ((book.current.map Lease.note).map (·.1) ++
        ((past.map Lease.note ++ history.notes).filter (recent now)).map (·.1)) :=
        hended.append_left _
    _ |>.Perm (history.remembers now) := by
        have hrecent := (hall.filter (recent now)).symm
        rw [List.filter_append, hcurrent] at hrecent
        rw [← List.map_append]
        exact hrecent.map _

/-! ## What each call does to a settled book -/

section

variable {held : Held}

theorem verdict_ok {wall : Nat → Nat → String} {token : Token}
    (h : book.verdict wall token now = .ok ()) :
    book.held = none ∧ token ∉ book.tokens ∧ book.tokens.length < tokensRemembered := by
  unfold verdict at h
  cases hheld : book.held with
  | some held => rw [hheld] at h; cases h
  | none =>
    simp only [hheld] at h
    cases hrecord : book.endedRecord token with
    | some ended => rw [hrecord] at h; cases h
    | none =>
      simp only [hrecord] at h
      split at h
      · cases h
      · next hroom =>
          refine ⟨rfl, ?_, ?_⟩
          · unfold tokens
            rw [hheld]
            exact endedRecord_eq_none.mp hrecord
          · rw [length_tokens]
            exact Nat.lt_of_not_le hroom

theorem Keeps.grant (h : book.Keeps now history past) {token : Token} (hfree : book.held = none)
    (hnew : token ∉ book.tokens) (hroom : book.tokens.length < tokensRemembered)
    (ttlS expires : Nat) :
    Keeps now { book with held := some ⟨token, ttlS, expires⟩ }
      { history with leases := ⟨token, ttlS, expires⟩ :: history.leases } past := by
  have htokens : ({ book with held := some ⟨token, ttlS, expires⟩ } : LeaseBook).tokens =
      token :: book.tokens := by
    unfold tokens
    rw [hfree]
    rfl
  refine ⟨?_, h.passed, h.noted, h.ended, ?_, ?_⟩
  · have hleases := h.leases
    rw [current, hfree] at hleases
    exact hleases.cons _
  · rw [htokens]
    exact List.nodup_cons.mpr ⟨hnew, h.nodup⟩
  · rw [htokens]
    exact hroom

/-- A change of the live leases under the held token is a change of the held lease alone. -/
theorem Keeps.move (h : book.Keeps now history past) (hheld : book.held = some held)
    (hlive : now < held.expires) {token : Option Token} (hmatch : token.all (held.token = ·))
    (ends : Lease → Nat) :
    (history.move now token ends).leases.Perm
      ({ held.lease with ends := ends held.lease } :: past) := by
  have hleases := h.leases.map (Lease.moved now token ends)
  have hpast : past.map (Lease.moved now token ends) = past := by
    rw [List.map_congr_left (g := id), List.map_id]
    intro lease hin
    exact if_neg fun hmove => Nat.not_lt_of_le (h.passed lease hin) hmove.1
  have hmoved : held.lease.moved now token ends = { held.lease with ends := ends held.lease } :=
    if_pos ⟨hlive, hmatch⟩
  rw [List.map_append, hpast, current, hheld] at hleases
  rw [← hmoved]
  exact hleases

theorem Keeps.renew (h : book.Keeps now history past) (hheld : book.held = some held)
    (hlive : now < held.expires) (ends : Lease → Nat) :
    Keeps now { book with held := some { held with expires := ends held.lease } }
      (history.move now (some held.token) ends) past := by
  have htokens : ({ book with
      held := some { held with expires := ends held.lease } } : LeaseBook).tokens =
      book.tokens := by
    unfold tokens
    rw [hheld]
    rfl
  refine ⟨h.move hheld hlive (by simp) _, h.passed, h.noted, h.ended, ?_, ?_⟩
  · rw [htokens]
    exact h.nodup
  · rw [htokens]
    exact h.capped

/-- The held lease ends now, and its token moves into the record. -/
theorem Keeps.finish (h : book.Keeps now history past) (hheld : book.held = some held)
    (hlive : now < held.expires) {token : Option Token} (hmatch : token.all (held.token = ·))
    (why : LeaseEnd) :
    Keeps now ⟨none, book.ended ++ [⟨held.token, now, why⟩]⟩
      (history.move now token fun _ => now) ({ held.lease with ends := now } :: past) := by
  have htokens : (LeaseBook.mk none (book.ended ++ [⟨held.token, now, why⟩])).tokens.Perm
      book.tokens := by
    unfold tokens
    rw [hheld, List.map_append]
    show (book.ended.map (·.token) ++ [held.token]).Perm
      ([held.token] ++ book.ended.map (·.token))
    exact List.perm_append_comm
  refine ⟨h.move hheld hlive hmatch _, ?_, h.noted, ?_, ?_, ?_⟩
  · intro lease hin
    rcases List.mem_cons.mp hin with rfl | hin
    · exact Nat.le_refl now
    · exact h.passed lease hin
  · rw [List.map_append]
    show (book.ended.map Ended.note ++ [(held.token, now)]).Perm
      (((held.token, now) :: (past.map Lease.note ++ history.notes)).filter (recent now))
    rw [List.filter_cons_of_pos (recent_self held.token now)]
    exact List.perm_append_comm.trans (h.ended.cons _)
  · exact htokens.nodup_iff.mpr h.nodup
  · rw [htokens.length_eq]
    exact h.capped

/-- A release of a token that was never seen is recorded. -/
theorem Keeps.note (h : book.Keeps now history past) {token : Token} (hnew : token ∉ book.tokens)
    (hroom : book.tokens.length < tokensRemembered) (why : LeaseEnd) :
    Keeps now { book with ended := book.ended ++ [⟨token, now, why⟩] }
      { history with notes := (token, now) :: history.notes } past := by
  have htokens : ({ book with ended := book.ended ++ [⟨token, now, why⟩] } : LeaseBook).tokens.Perm
      (token :: book.tokens) := by
    unfold tokens
    rw [List.map_append, ← List.append_assoc]
    exact List.perm_append_comm
  refine ⟨h.leases, h.passed, ?_, ?_, ?_, ?_⟩
  · intro note hin
    rcases List.mem_cons.mp hin with rfl | hin
    · exact Nat.le_refl now
    · exact h.noted note hin
  · have hnotes : (past.map Lease.note ++ (token, now) :: history.notes).Perm
        ((token, now) :: (past.map Lease.note ++ history.notes)) := List.perm_middle
    refine List.Perm.trans ?_ (hnotes.filter _).symm
    rw [List.map_append, List.filter_cons_of_pos (recent_self token now)]
    exact List.perm_append_comm.trans (h.ended.cons _)
  · exact htokens.nodup_iff.mpr (List.nodup_cons.mpr ⟨hnew, h.nodup⟩)
  · rw [htokens.length_eq]
    exact hroom

end

/-! ## Runs -/

section

variable (wall : Nat → Nat → String)

/-- Every call keeps what the book says of the history. -/
theorem Keeps.call (h : book.Keeps now history past) (hle : now ≤ later) (call : LeaseCall) :
    ∃ past', (book.call wall later call).2.Keeps later
      (history.record later (book.call wall later call).1 call) past' := by
  obtain ⟨past', hk⟩ := h.settle hle
  have hs := settled_settle book later
  cases call with
  | checkGrant token => exact ⟨past', hk⟩
  | heldUntil => exact ⟨past', hk⟩
  | grant token ttlS =>
    cases hverdict : (book.settle later).verdict wall token later with
    | error refusal =>
      have hcall : book.call wall later (.grant token ttlS) = (.none, book.settle later) := by
        simp only [LeaseBook.call, LeaseBook.grant, checkGrant, hverdict]
      rw [hcall]
      exact ⟨past', hk⟩
    | ok answer =>
      have hcall : book.call wall later (.grant token ttlS) = (.granted,
          { book.settle later with held := some ⟨token, ttlS, expiry later ttlS⟩ }) := by
        simp only [LeaseBook.call, LeaseBook.grant, checkGrant, hverdict]
      rw [hcall]
      obtain ⟨hfree, hnew, hroom⟩ := verdict_ok hverdict
      exact ⟨past', hk.grant hfree hnew hroom ttlS (expiry later ttlS)⟩
  | renew token =>
    cases hheld : (book.settle later).held.filter fun held => held.token = token with
    | none =>
      have hcall : book.call wall later (.renew token) = (.none, book.settle later) := by
        simp only [LeaseBook.call, LeaseBook.renew, hheld]
        cases (book.settle later).endedRecord token <;> rfl
      rw [hcall]
      exact ⟨past', hk⟩
    | some held =>
      have hcall : book.call wall later (.renew token) = (.granted,
          { book.settle later with
            held := some { held with expires := expiry later held.ttlS } }) := by
        simp only [LeaseBook.call, LeaseBook.renew, hheld]
      rw [hcall]
      obtain ⟨hsome, htoken⟩ := Option.filter_eq_some_iff.mp hheld
      have htoken := of_decide_eq_true htoken
      subst htoken
      exact ⟨past', hk.renew hsome (hs held hsome) fun lease => expiry later lease.ttlS⟩
  | endLease why =>
    cases hheld : (book.settle later).held with
    | none =>
      have hcall : book.call wall later (.endLease why) = (.none, book.settle later) := by
        simp only [LeaseBook.call, LeaseBook.endLease, hheld]
      rw [hcall]
      exact ⟨past', hk⟩
    | some held =>
      have hcall : book.call wall later (.endLease why) = (.ended,
          ⟨none, (book.settle later).ended ++ [⟨held.token, later, why⟩]⟩) := by
        simp only [LeaseBook.call, LeaseBook.endLease, hheld]
      rw [hcall]
      exact ⟨_, hk.finish hheld (hs held hheld) rfl why⟩
  | release token =>
    by_cases hmine : ((book.settle later).held.filter fun held => held.token = token).isSome
    · obtain ⟨held, hheld⟩ := Option.isSome_iff_exists.mp hmine
      obtain ⟨hsome, htoken⟩ := Option.filter_eq_some_iff.mp hheld
      have htoken := of_decide_eq_true htoken
      subst htoken
      have hagain : ((book.settle later).settle later).held = some held :=
        (settle_of_settled hs).trans hsome
      have hcall : book.call wall later (.release held.token) = (.ended,
          ⟨none, ((book.settle later).settle later).ended ++ [⟨held.token, later, .released⟩]⟩) := by
        simp only [LeaseBook.call, LeaseBook.release, if_pos hmine, LeaseBook.endLease, hagain]
      rw [hcall]
      obtain ⟨past'', hk⟩ := hk.settle (Nat.le_refl later)
      exact ⟨_, hk.finish hagain (hs held hsome) (by simp) .released⟩
    · have hperm := hk.perm_remembers hs
      have hroom : (((book.settle later).endedRecord token).isNone ∧
          (book.settle later).remembered < tokensRemembered) ↔
          (token ∉ history.remembers later ∧
            (history.remembers later).length < tokensRemembered) := by
        rw [← hperm.mem_iff, ← hperm.length_eq, length_tokens, Option.isNone_iff_eq_none,
          endedRecord_eq_none, not_mem_tokens_iff hmine]
      by_cases hrecord : ((book.settle later).endedRecord token).isNone ∧
          (book.settle later).remembered < tokensRemembered
      · have hcall : book.call wall later (.release token) = (.none,
            { book.settle later with
              ended := (book.settle later).ended ++ [⟨token, later, .releasedFirst⟩] }) := by
          simp only [LeaseBook.call, LeaseBook.release, if_neg hmine, if_pos hrecord]
        have hrecorded := hroom.mp hrecord
        rw [hcall]
        simp only [History.record, if_pos hrecorded]
        rw [← hperm.mem_iff, ← hperm.length_eq] at hrecorded
        exact ⟨past', hk.note hrecorded.1 hrecorded.2 .releasedFirst⟩
      · have hcall : book.call wall later (.release token) = (.none, book.settle later) := by
          simp only [LeaseBook.call, LeaseBook.release, if_neg hmine, if_neg hrecord]
        rw [hcall]
        simp only [History.record, if_neg (mt hroom.mpr hrecord)]
        exact ⟨past', hk⟩

/-- A run of calls at times that never go back keeps what the book says of the history. -/
theorem Keeps.play (h : book.Keeps now history past) (calls : List (Nat × LeaseCall))
    (hmono : (now :: calls.map (·.1)).Pairwise (· ≤ ·)) :
    ∃ last ∈ now :: calls.map (·.1), ∃ past',
      (LeaseBook.play wall calls (book, history)).1.Keeps last
        (LeaseBook.play wall calls (book, history)).2 past' := by
  induction calls generalizing now book history past with
  | nil => exact ⟨now, List.mem_cons_self, past, h⟩
  | cons entry rest ih =>
    obtain ⟨later, call⟩ := entry
    have hle : now ≤ later := (List.pairwise_cons.mp hmono).1 later List.mem_cons_self
    obtain ⟨past', hk⟩ := h.call wall hle call
    obtain ⟨last, hin, hlast⟩ := ih hk (List.pairwise_cons.mp hmono).2
    exact ⟨last, List.mem_cons_of_mem _ hin, hlast⟩

/-- A settled book holds the live leases and no others. -/
theorem Keeps.live (h : book.Keeps now history past) (hs : book.Settled now) :
    history.leases.filter (fun lease => decide (now < lease.ends)) = book.current := by
  have hpast : past.filter (fun lease => decide (now < lease.ends)) = [] := by
    refine List.filter_eq_nil_iff.mpr fun lease hin hlive => ?_
    exact Nat.not_lt_of_le (h.passed lease hin) (of_decide_eq_true hlive)
  have hcurrent : book.current.filter (fun lease => decide (now < lease.ends)) = book.current := by
    refine List.filter_eq_self.mpr fun lease hin => ?_
    obtain ⟨held, hheld, rfl⟩ := List.mem_map.mp hin
    exact decide_eq_true (hs held (Option.mem_toList.mp hheld))
  have hperm := h.leases.filter fun lease => decide (now < lease.ends)
  rw [List.filter_append, hpast, hcurrent, List.append_nil] at hperm
  unfold current at hperm ⊢
  cases hheld : book.held with
  | none =>
    rw [hheld] at hperm
    exact hperm.eq_nil
  | some held =>
    rw [hheld] at hperm
    exact List.perm_singleton.mp hperm

/-- The record of a settled book: what ended within the last hour, under its own end. -/
theorem Keeps.recorded (h : book.Keeps now history past) (hs : book.Settled now) {token : Token}
    {since : Nat} :
    (∃ ended ∈ book.ended, ended.token = token ∧ ended.since = since) ↔
      ((∃ lease ∈ history.leases, lease.token = token ∧ lease.ends = since) ∨
        (token, since) ∈ history.notes) ∧ since ≤ now ∧ now < since + tokenMemory := by
  have hmem : (∃ ended ∈ book.ended, ended.token = token ∧ ended.since = since) ↔
      (token, since) ∈ book.ended.map Ended.note := by
    rw [List.mem_map]
    constructor
    · rintro ⟨ended, hin, rfl, rfl⟩
      exact ⟨ended, hin, rfl⟩
    · rintro ⟨ended, hin, heq⟩
      cases heq
      exact ⟨ended, hin, rfl, rfl⟩
  rw [hmem, h.ended.mem_iff, List.mem_filter, recent_iff, List.mem_append]
  constructor
  · rintro ⟨hin | hin, hrecent⟩
    · obtain ⟨lease, hlease, heq⟩ := List.mem_map.mp hin
      cases heq
      have hlisted := h.leases.mem_iff.mpr (List.mem_append_right _ hlease)
      exact ⟨.inl ⟨lease, hlisted, rfl, rfl⟩, h.passed lease hlease, hrecent⟩
    · exact ⟨.inr hin, h.noted _ hin, hrecent⟩
  · rintro ⟨⟨lease, hlease, rfl, rfl⟩ | hin, hended, hrecent⟩
    · refine ⟨.inl ?_, hrecent⟩
      rcases List.mem_append.mp (h.leases.mem_iff.mp hlease) with hcurrent | hpast
      · obtain ⟨held, hheld, rfl⟩ := List.mem_map.mp hcurrent
        exact absurd hended (Nat.not_le_of_lt (hs held (Option.mem_toList.mp hheld)))
      · exact List.mem_map_of_mem hpast
    · exact ⟨.inr hin, hrecent⟩

end

/-- What the book shows of the history at a time. -/
structure Exact (wall : Nat → Nat → String) (now : Nat) (book : LeaseBook) (history : History) :
    Prop where
  distinct : book.tokens.Nodup
  capped : book.tokens.length ≤ tokensRemembered
  one : history.leases.filter (fun lease => decide (now < lease.ends)) = (book.settle now).current
  granted : ∀ token ttlS answer, (book.grant wall token ttlS now).1 = .ok answer →
    (∀ lease ∈ history.leases, lease.ends ≤ now) ∧
    (∀ lease ∈ history.leases, lease.token = token → lease.ends + tokenMemory ≤ now) ∧
    ∀ since, (token, since) ∈ history.notes → since + tokenMemory ≤ now
  recorded : ∀ token since,
    (∃ ended ∈ (book.settle now).ended, ended.token = token ∧ ended.since = since) ↔
      ((∃ lease ∈ history.leases, lease.token = token ∧ lease.ends = since) ∨
        (token, since) ∈ history.notes) ∧ since ≤ now ∧ now < since + tokenMemory

/-- After every run of calls, at any time not before the last of them, one lease at most is held,
the tokens are distinct and bounded, a token is granted only an hour after its last use, and every
token is recorded for the hour after its lease ended. -/
theorem exact_of_play (wall : Nat → Nat → String) (calls : List (Nat × LeaseCall)) (now : Nat)
    (hmono : (calls.map (·.1) ++ [now]).Pairwise (· ≤ ·)) :
    Exact wall now (play wall calls (new, .new)).1 (play wall calls (new, .new)).2 := by
  obtain ⟨htimes, -, hlast⟩ := List.pairwise_append.mp hmono
  obtain ⟨last, hin, past, hk⟩ := keeps_new.play wall calls
    (List.pairwise_cons.mpr ⟨fun time _ => Nat.zero_le time, htimes⟩)
  have hle : last ≤ now := by
    rcases List.mem_cons.mp hin with rfl | hin
    · exact Nat.zero_le now
    · exact hlast last hin now (List.mem_singleton_self now)
  obtain ⟨past', hk'⟩ := hk.settle hle
  have hs := settled_settle (play wall calls (new, .new)).1 now
  refine ⟨hk.nodup, hk.capped, hk'.live hs, ?_, fun token since => hk'.recorded hs⟩
  intro token ttlS answer hgrant
  have hverdict : ((play wall calls (new, .new)).1.settle now).verdict wall token now = .ok () := by
    unfold grant checkGrant at hgrant
    cases h : ((play wall calls (new, .new)).1.settle now).verdict wall token now with
    | ok => rfl
    | error refusal =>
      simp only [h] at hgrant
      cases hgrant
  obtain ⟨hfree, hnew, -⟩ := verdict_ok hverdict
  have hpassed : ∀ lease ∈ (play wall calls (new, .new)).2.leases, lease.ends ≤ now := by
    intro lease hlease
    refine Nat.le_of_not_lt fun hlive => ?_
    have hlisted : lease ∈ (play wall calls (new, .new)).2.leases.filter
        fun lease => decide (now < lease.ends) :=
      List.mem_filter.mpr ⟨hlease, decide_eq_true hlive⟩
    rw [hk'.live hs, current, hfree] at hlisted
    exact List.not_mem_nil hlisted
  have hold : ∀ since, ((∃ lease ∈ (play wall calls (new, .new)).2.leases,
      lease.token = token ∧ lease.ends = since) ∨
        (token, since) ∈ (play wall calls (new, .new)).2.notes) → since ≤ now →
      since + tokenMemory ≤ now := by
    intro since hused hended
    refine Nat.le_of_not_lt fun hrecent => hnew ?_
    obtain ⟨ended, hin, rfl, -⟩ := (hk'.recorded hs).mpr ⟨hused, hended, hrecent⟩
    exact List.mem_append_right _ (List.mem_map_of_mem hin)
  refine ⟨hpassed, ?_, ?_⟩
  · intro lease hlease htoken
    exact hold _ (.inl ⟨lease, hlease, htoken, rfl⟩) (hpassed lease hlease)
  · intro since hnote
    exact hold since (.inr hnote) (hk'.noted _ hnote)

/-- The token of the run below. -/
def sweepToken : Token := ⟨"0123456789abcdef0123456789abcdef", by decide +kernel⟩

/-- A lease taken at the start and renewed after fifty seconds, which nothing settles for an hour. -/
theorem exact_of_renewed :
    ((play (fun _ _ => "") [(0, .grant sweepToken 60), (50000000000, .renew sweepToken)]
      (new, .new)).1.settle 3709999999999).ended.map (·.since) = [110000000000] ∧
    Exact (fun _ _ => "") 3709999999999
      (play (fun _ _ => "") [(0, .grant sweepToken 60), (50000000000, .renew sweepToken)]
        (new, .new)).1
      (play (fun _ _ => "") [(0, .grant sweepToken 60), (50000000000, .renew sweepToken)]
        (new, .new)).2 :=
  ⟨by decide +kernel, exact_of_play _ _ _ (by decide)⟩

end LeaseBook

end RustyPhoton.Phd2Guider
