import RustyPhoton.Rp.TrainLease.Book

/-!
# Reservations never overlap

What holds of the book along every run: the live leases are the ones in the table, their
reservations are disjoint, an id is remembered for its hour, and the sweeps that run stay in the
table for as long as no new sweep is handed the key of a running one.
-/

namespace RustyPhoton.Rp.TrainLease

open Lib

namespace TrainLeases

variable {s s' : TrainLeases} {log : List BookEvent} {events : List BookEvent} {input : BookInput}
  {k l : Nat} {a b : Lease}

/-! ## The tables -/

variable {book : Book} {lease : Lease}

theorem mem_liveIn :
    lease ∈ s.liveIn book ↔
      ∃ id k, (id, Seen.live k) ∈ book.seen ∧ s.leases[k]? = some lease := by
  rw [liveIn, List.mem_filterMap]
  constructor
  · intro h
    obtain ⟨k, hk, hfound⟩ := h
    obtain ⟨⟨id, seen⟩, hmem, hseen⟩ := List.mem_filterMap.mp hk
    cases seen with
    | live place =>
      cases hseen
      exact ⟨id, k, hmem, hfound⟩
    | ended why since => cases hseen
    | releasedFirst since => cases hseen
  · intro h
    obtain ⟨id, k, hmem, hfound⟩ := h
    exact ⟨k, List.mem_filterMap.mpr ⟨(id, .live k), hmem, rfl⟩, hfound⟩

variable {plan : LeasePlan}

theorem overlap_eq_none :
    s.overlap book plan = none ↔ ∀ other ∈ s.liveIn book, plan.Disjoint other.plan := by
  rw [overlap, List.findSome?_eq_none_iff]
  simp only [Option.map_eq_none_iff, LeasePlan.sharedWith_eq_none]

theorem sweepOverlap_eq_none :
    sweepOverlap book plan = none ↔ ∀ entry ∈ book.sweeps,
      plan.reserves entry.2.cameraId = false ∧ plan.reserves entry.2.focuserId = false := by
  rw [sweepOverlap, Option.map_eq_none_iff, List.find?_eq_none]
  simp only [Bool.or_eq_true, not_or, Bool.not_eq_true]

theorem sweepConflict_eq_none {cameraId focuserId : String} :
    s.sweepConflict cameraId focuserId = none ↔ ∀ lease ∈ s.liveIn s.book,
      lease.plan.reserves cameraId = false ∧ lease.plan.reserves focuserId = false := by
  rw [sweepConflict, List.findSome?_eq_none_iff]
  simp only [Option.map_eq_none_iff, List.find?_eq_none, List.forall_mem_cons, Bool.not_eq_true,
    List.not_mem_nil, false_implies, implies_true, and_true]

variable {leases : List Lease}

/-- The leases after one was added. -/
theorem getElem?_concat_eq_some {new : Lease} :
    (leases ++ [new])[k]? = some lease ↔
      leases[k]? = some lease ∨ k = leases.length ∧ lease = new := by
  rw [List.getElem?_append]
  split
  · next hlt =>
      constructor
      · exact Or.inl
      · intro h
        rcases h with hfound | ⟨heq, _⟩
        · exact hfound
        · omega
  · next hge =>
      have hnone : leases[k]? = none := List.getElem?_eq_none (by omega)
      rw [hnone]
      constructor
      · intro h
        have hk : k - leases.length = 0 := by
          by_contra hne
          rw [List.getElem?_eq_none (by simp only [List.length_singleton]; omega)] at h
          cases h
        rw [hk] at h
        exact .inr ⟨by omega, (Option.some.inj h).symm⟩
      · intro h
        rcases h with hfound | ⟨heq, hnew⟩
        · cases hfound
        · rw [heq, Nat.sub_self, hnew]
          rfl

/-- The leases after one of them took a step. -/
theorem getElem?_set_eq_some {old new : Lease} (hold : leases[k]? = some old) :
    (leases.set k new)[l]? = some lease ↔
      (l = k ∧ lease = new) ∨ (l ≠ k ∧ leases[l]? = some lease) := by
  have hlt : k < leases.length := (List.getElem?_eq_some_iff.mp hold).1
  by_cases heq : l = k
  · subst heq
    rw [List.getElem?_set_self hlt]
    constructor
    · intro h
      exact .inl ⟨rfl, (Option.some.inj h).symm⟩
    · intro h
      rcases h with ⟨_, rfl⟩ | ⟨hne, _⟩
      · rfl
      · exact absurd rfl hne
  · rw [List.getElem?_set_ne (Ne.symm heq)]
    constructor
    · exact fun h => .inr ⟨heq, h⟩
    · intro h
      rcases h with ⟨hsame, _⟩ | ⟨_, hfound⟩
      · exact absurd hsame heq
      · exact hfound

/-! ## The ids -/

/-- A lease lives from its reservation until it has given everything back. -/
def Live (s : TrainLeases) (k : Nat) (lease : Lease) : Prop :=
  s.leases[k]? = some lease ∧ lease.keeper ≠ .gone

/-- The id of a lease that ended, or that a release named first, with the time it is remembered
from. -/
def Recorded (log : List BookEvent) (leaseId : String) (since : Nat) : Prop :=
  .ended leaseId since ∈ log ∨ .releasedFirst leaseId since ∈ log

/-- The table of ids agrees with the leases and the log. -/
structure Booked (log : List BookEvent) (s : TrainLeases) : Prop where
  keys : (Assoc.keys s.book.seen).Nodup
  cap : s.book.seen.length ≤ seenIdCap
  live : ∀ {id k}, (id, Seen.live k) ∈ s.book.seen → ∃ lease, s.Live k lease ∧ lease.id = id
  kept : ∀ {k lease}, s.Live k lease → (lease.id, Seen.live k) ∈ s.book.seen
  remembered : ∀ {id since}, Recorded log id since → s.clock < later since seenIdMemory →
    ∃ seen, (id, seen) ∈ s.book.seen ∧ seen.rememberedSince = some since
  told : ∀ {id seen}, (id, seen) ∈ s.book.seen → (∃ k, .reserved id k ∈ log) ∨
    ∃ since, seen = .releasedFirst since ∧ .releasedFirst id since ∈ log

namespace Booked

theorem opened (now : Nat) : Booked [] (TrainLeases.opened now) where
  keys := List.nodup_nil
  cap := Nat.zero_le _
  live := fun h => by cases h
  kept := fun h => by cases h.1
  remembered := fun h => by
    rcases h with h | h <;> cases h
  told := fun h => by cases h

variable {id : String}

theorem recorded_of_append {since : Nat} (silent : ∀ e ∈ events, e.records = false)
    (h : Recorded (log ++ events) id since) : Recorded log id since := by
  rcases h with h | h
  · rcases List.mem_append.mp h with h | h
    · exact .inl h
    · cases silent _ h
  · rcases List.mem_append.mp h with h | h
    · exact .inr h
    · cases silent _ h

theorem told_append {book : Book}
    (h : ∀ {id seen}, (id, seen) ∈ book.seen → (∃ k, .reserved id k ∈ log) ∨
      ∃ since, seen = .releasedFirst since ∧ .releasedFirst id since ∈ log)
    (events : List BookEvent) {seen : Seen} (hmem : (id, seen) ∈ book.seen) :
    (∃ k, .reserved id k ∈ log ++ events) ∨
      ∃ since, seen = .releasedFirst since ∧ .releasedFirst id since ∈ log ++ events := by
  rcases h hmem with ⟨k, hk⟩ | ⟨since, hseen, hsince⟩
  · exact .inl ⟨k, List.mem_append_left _ hk⟩
  · exact .inr ⟨since, hseen, List.mem_append_left _ hsince⟩

/-- Events that record no id. -/
theorem append (h : Booked log s) (silent : ∀ e ∈ events, e.records = false) :
    Booked (log ++ events) s where
  keys := h.keys
  cap := h.cap
  live := h.live
  kept := h.kept
  remembered := fun hrecorded => h.remembered (recorded_of_append silent hrecorded)
  told := told_append h.told events

variable {now : Nat}

theorem ticked (h : Booked log s) (hlater : s.clock ≤ now) :
    Booked log { s with clock := now } where
  keys := h.keys
  cap := h.cap
  live := h.live
  kept := h.kept
  remembered := fun hrecorded hsince => h.remembered hrecorded (Nat.lt_of_le_of_lt hlater hsince)
  told := h.told

/-- What is forgotten is out of its hour. -/
theorem forgot (h : Booked log s) (read : now ≤ s.clock) :
    Booked log (s.withBook (s.book.forgetOld now)) where
  keys := h.keys.sublist (List.filter_sublist.map _)
  cap := (List.length_filter_le _ _).trans h.cap
  live := fun hmem => h.live (List.mem_filter.mp hmem).1
  kept := fun hlive => List.mem_filter.mpr ⟨h.kept hlive, rfl⟩
  remembered := by
    intro id since hrecorded hsince
    obtain ⟨seen, hmem, hseen⟩ := h.remembered hrecorded hsince
    refine ⟨seen, List.mem_filter.mpr ⟨hmem, ?_⟩, hseen⟩
    rw [Book.remembers, hseen, decide_eq_true_eq]
    exact Nat.lt_of_le_of_lt read hsince
  told := fun hmem => h.told (List.mem_filter.mp hmem).1

/-- An id that is not in the table is neither live nor within its hour. -/
theorem fresh (h : Booked log s) (unseen : s.book.seen.lookup id = none) :
    (∀ k lease, s.Live k lease → lease.id ≠ id) ∧
      ∀ since, Recorded log id since → later since seenIdMemory ≤ s.clock := by
  have hnot := Assoc.not_mem_keys_of_lookup unseen
  constructor
  · intro k lease hlive heq
    have hmem : lease.id ∈ Assoc.keys s.book.seen := List.mem_map_of_mem (h.kept hlive)
    rw [heq] at hmem
    exact hnot hmem
  · intro since hrecorded
    by_contra hsince
    obtain ⟨seen, hmem, _⟩ := h.remembered hrecorded (Nat.lt_of_not_le hsince)
    exact hnot (List.mem_map_of_mem hmem)

theorem length_insert (h : s.book.seen.length < seenIdCap) (seen : Seen)
    (unseen : s.book.seen.lookup id = none) :
    (Assoc.insert id seen s.book.seen).length ≤ seenIdCap := by
  rw [Assoc.insert_of_not_mem seen (Assoc.not_mem_keys_of_lookup unseen), List.length_append,
    List.length_singleton]
  omega

/-- An entry other than a new one was there before. -/
theorem mem_insert_of_mem (h : Booked log s) (seen : Seen)
    (unseen : s.book.seen.lookup id = none) {entry : String × Seen} (hmem : entry ∈ s.book.seen) :
    entry ∈ Assoc.insert id seen s.book.seen := by
  refine (Assoc.mem_insert h.keys).mpr (.inr ⟨?_, hmem⟩)
  intro heq
  have hkey : entry.1 ∈ Assoc.keys s.book.seen := List.mem_map_of_mem hmem
  rw [heq] at hkey
  exact Assoc.not_mem_keys_of_lookup unseen hkey

theorem reserved (h : Booked log s) (plan : LeasePlan)
    (unseen : s.book.seen.lookup id = none) (room : s.book.seen.length < seenIdCap) :
    Booked (log ++ [.reserved id s.leases.length]) (s.withLease s.book id plan) where
  keys := Assoc.nodup_keys_insert _ h.keys
  cap := length_insert room _ unseen
  live := by
    intro other k hmem
    rcases (Assoc.mem_insert h.keys).mp hmem with heq | ⟨_, hold⟩
    · cases heq
      refine ⟨Lease.reserved id plan s.clock, ⟨?_, ?_⟩, rfl⟩
      · exact getElem?_concat_eq_some.mpr (.inr ⟨rfl, rfl⟩)
      · intro hgone
        cases hgone
    · obtain ⟨lease, ⟨hfound, hkeeper⟩, hid⟩ := h.live hold
      exact ⟨lease, ⟨getElem?_concat_eq_some.mpr (.inl hfound), hkeeper⟩, hid⟩
  kept := by
    intro k lease hlive
    rcases getElem?_concat_eq_some.mp hlive.1 with hfound | ⟨rfl, rfl⟩
    · exact h.mem_insert_of_mem _ unseen (h.kept ⟨hfound, hlive.2⟩)
    · exact (Assoc.mem_insert h.keys).mpr (.inl rfl)
  remembered := by
    intro other since hrecorded hsince
    have hbefore : Recorded log other since := by
      rcases hrecorded with hmem | hmem
      · rcases List.mem_append.mp hmem with hmem | hmem
        · exact .inl hmem
        · cases List.mem_singleton.mp hmem
      · rcases List.mem_append.mp hmem with hmem | hmem
        · exact .inr hmem
        · cases List.mem_singleton.mp hmem
    obtain ⟨seen, hmem, hseen⟩ := h.remembered hbefore hsince
    exact ⟨seen, h.mem_insert_of_mem _ unseen hmem, hseen⟩
  told := by
    intro other seen hmem
    rcases (Assoc.mem_insert h.keys).mp hmem with heq | ⟨_, hold⟩
    · cases heq
      exact .inl ⟨_, List.mem_append_right _ (List.mem_singleton_self _)⟩
    · exact told_append h.told _ hold

theorem releasedFirst (h : Booked log s) (now : Nat)
    (unseen : s.book.seen.lookup id = none) (room : s.book.seen.length < seenIdCap) :
    Booked (log ++ [.releasedFirst id now]) (s.withReleased s.book now id) where
  keys := Assoc.nodup_keys_insert _ h.keys
  cap := length_insert room _ unseen
  live := by
    intro other k hmem
    rcases (Assoc.mem_insert h.keys).mp hmem with heq | ⟨_, hold⟩
    · cases heq
    · exact h.live hold
  kept := fun hlive => h.mem_insert_of_mem _ unseen (h.kept hlive)
  remembered := by
    intro other since hrecorded hsince
    have hbefore : Recorded log other since ∨ other = id ∧ since = now := by
      rcases hrecorded with hmem | hmem
      · rcases List.mem_append.mp hmem with hmem | hmem
        · exact .inl (.inl hmem)
        · cases List.mem_singleton.mp hmem
      · rcases List.mem_append.mp hmem with hmem | hmem
        · exact .inl (.inr hmem)
        · cases List.mem_singleton.mp hmem
          exact .inr ⟨rfl, rfl⟩
    rcases hbefore with hbefore | ⟨rfl, rfl⟩
    · obtain ⟨seen, hmem, hseen⟩ := h.remembered hbefore hsince
      exact ⟨seen, h.mem_insert_of_mem _ unseen hmem, hseen⟩
    · exact ⟨_, (Assoc.mem_insert h.keys).mpr (.inl rfl), rfl⟩
  told := by
    intro other seen hmem
    rcases (Assoc.mem_insert h.keys).mp hmem with heq | ⟨_, hold⟩
    · cases heq
      exact .inr ⟨now, rfl, List.mem_append_right _ (List.mem_singleton_self _)⟩
    · exact told_append h.told _ hold

variable {lease : Lease}

/-- A section of a lease other than the keeper's last leaves the table as it was. -/
theorem onLease (h : Booked log s) {lease' : Lease} (found : s.leases[k]? = some lease)
    (hid : lease'.id = lease.id) (hgone : lease'.keeper = .gone ↔ lease.keeper = .gone) :
    Booked log (s.withLeaseAt k lease') where
  keys := h.keys
  cap := h.cap
  live := by
    intro id j hmem
    obtain ⟨old, ⟨hfound, hkeeper⟩, hold⟩ := h.live hmem
    by_cases hj : j = k
    · subst hj
      rw [found] at hfound
      cases hfound
      refine ⟨lease', ⟨(getElem?_set_eq_some found).mpr (.inl ⟨rfl, rfl⟩), ?_⟩, hid.trans hold⟩
      exact fun hafter => hkeeper (hgone.mp hafter)
    · exact ⟨old, ⟨(getElem?_set_eq_some found).mpr (.inr ⟨hj, hfound⟩), hkeeper⟩, hold⟩
  kept := by
    intro j other hlive
    rcases (getElem?_set_eq_some found).mp hlive.1 with ⟨rfl, rfl⟩ | ⟨_, hfound⟩
    · rw [hid]
      exact h.kept ⟨found, fun hbefore => hlive.2 (hgone.mpr hbefore)⟩
    · exact h.kept ⟨hfound, hlive.2⟩
  remembered := h.remembered
  told := h.told

/-- The keeper's last section turns a live id into one that is remembered from then on. -/
theorem left (h : Booked log s) (found : s.leases[k]? = some lease)
    (hkeeper : lease.keeper ≠ .gone) :
    Booked (log ++ [.ended lease.id s.clock])
      ((s.withLeaseAt k { lease with keeper := .gone }).recordEnd lease) where
  keys := Assoc.nodup_keys_insert _ h.keys
  cap := by
    have hmem : lease.id ∈ Assoc.keys s.book.seen := List.mem_map_of_mem (h.kept ⟨found, hkeeper⟩)
    have hlength := congrArg List.length (Assoc.keys_insert_of_mem
      (Seen.ended (lease.state.endReason.getD .acquireFailed) s.clock) hmem)
    rw [Assoc.keys, Assoc.keys, List.length_map, List.length_map] at hlength
    exact hlength.trans_le h.cap
  live := by
    intro id j hmem
    rcases (Assoc.mem_insert h.keys).mp hmem with heq | ⟨hne, hold⟩
    · cases heq
    · obtain ⟨other, ⟨hfound, halive⟩, hid⟩ := h.live hold
      refine ⟨other, ⟨(getElem?_set_eq_some found).mpr (.inr ⟨?_, hfound⟩), halive⟩, hid⟩
      intro hj
      rw [hj, found] at hfound
      cases hfound
      exact hne hid.symm
  kept := by
    intro j other hlive
    rcases (getElem?_set_eq_some found).mp hlive.1 with ⟨_, rfl⟩ | ⟨hj, hfound⟩
    · exact absurd rfl hlive.2
    · refine (Assoc.mem_insert h.keys).mpr (.inr ⟨?_, h.kept ⟨hfound, hlive.2⟩⟩)
      -- One id has one entry, so another live lease has another id.
      intro heq
      have hself := Assoc.lookup_of_mem h.keys (h.kept ⟨found, hkeeper⟩)
      have hother := Assoc.lookup_of_mem h.keys (h.kept ⟨hfound, hlive.2⟩)
      rw [show other.id = lease.id from heq, hself] at hother
      cases hother
      exact hj rfl
  remembered := by
    intro id since hrecorded hsince
    by_cases hid : id = lease.id
    · subst hid
      have hnew : since = s.clock := by
        have hbefore : ¬ Recorded log lease.id since := by
          intro hbefore
          obtain ⟨seen, hmem, hseen⟩ := h.remembered hbefore hsince
          have hself := Assoc.lookup_of_mem h.keys (h.kept ⟨found, hkeeper⟩)
          rw [Assoc.lookup_of_mem h.keys hmem] at hself
          cases hself
          cases hseen
        rcases hrecorded with hmem | hmem
        · rcases List.mem_append.mp hmem with hmem | hmem
          · exact absurd (.inl hmem) hbefore
          · cases List.mem_singleton.mp hmem
            rfl
        · rcases List.mem_append.mp hmem with hmem | hmem
          · exact absurd (.inr hmem) hbefore
          · cases List.mem_singleton.mp hmem
      subst hnew
      exact ⟨_, (Assoc.mem_insert h.keys).mpr (.inl rfl), rfl⟩
    · have hbefore : Recorded log id since := by
        rcases hrecorded with hmem | hmem
        · rcases List.mem_append.mp hmem with hmem | hmem
          · exact .inl hmem
          · cases List.mem_singleton.mp hmem
            exact absurd rfl hid
        · rcases List.mem_append.mp hmem with hmem | hmem
          · exact .inr hmem
          · cases List.mem_singleton.mp hmem
      obtain ⟨seen, hmem, hseen⟩ := h.remembered hbefore hsince
      exact ⟨seen, (Assoc.mem_insert h.keys).mpr (.inr ⟨hid, hmem⟩), hseen⟩
  told := by
    intro id seen hmem
    rcases (Assoc.mem_insert h.keys).mp hmem with heq | ⟨_, hold⟩
    · cases heq
      rcases h.told (h.kept ⟨found, hkeeper⟩) with ⟨j, hj⟩ | ⟨since, hseen, _⟩
      · exact .inl ⟨j, List.mem_append_left _ hj⟩
      · cases hseen
    · exact told_append h.told _ hold

theorem step (h : Booked log s) (heffect : Effect s input s' events) :
    Booked (log ++ events) s' := by
  cases heffect with
  | ticked now later becomes silent =>
    subst becomes silent
    exact (h.ticked later).append silent_nil
  | unchanged becomes silent =>
    subst becomes
    exact h.append silent
  | forgot now read becomes silent =>
    subst becomes
    exact (h.forgot read).append silent
  | reserved now leaseId plan _ read unseen room _ _ becomes told =>
    subst becomes told
    exact (h.forgot read).reserved plan unseen room
  | releasedFirst now leaseId read unseen room becomes told =>
    subst becomes told
    exact (h.forgot read).releasedFirst now unseen room
  | sweepEntered _ _ _ _ _ becomes silent | sweepDropped _ _ becomes silent =>
    subst becomes silent
    have hsame := h.append silent_nil
    exact ⟨hsame.keys, hsame.cap, hsame.live, hsame.kept, hsame.remembered, hsame.told⟩
  | onLease k lease lease' inner told found effect stays becomes hevents =>
    subst becomes hevents
    refine (h.onLease found effect.plan.1 (effect.gone_iff stays)).append ?_
    intro e he
    obtain ⟨event, _, rfl⟩ := List.mem_map.mp he
    rfl
  | left k lease lease' told found holdingsTaken becomes becomes' hevents =>
    subst becomes becomes' hevents
    rw [← List.append_assoc]
    refine (h.append ?_).left found ?_
    · intro e he
      obtain ⟨event, _, rfl⟩ := List.mem_map.mp he
      rfl
    · rw [holdingsTaken]
      exact Keeper.noConfusion

end Booked

/-! ## The reservations -/

/-- Where a live lease of the next state comes from: it was live, with its plan, or it is the one
that was reserved. -/
theorem Effect.live_cases (heffect : Effect s input s' events) (hlive : s'.Live k a) :
    (∃ old, s.Live k old ∧ old.plan = a.plan) ∨
      (k = s.leases.length ∧ ∃ now leaseId, now ≤ s.clock ∧
        input = .reserve now leaseId a.plan ∧ s.overlap (s.book.forgetOld now) a.plan = none ∧
        sweepOverlap (s.book.forgetOld now) a.plan = none) := by
  obtain ⟨hfound, hkeeper⟩ := hlive
  cases heffect with
  | ticked _ _ becomes | unchanged becomes | forgot _ _ becomes | releasedFirst _ _ _ _ _ becomes
  | sweepEntered _ _ _ _ _ becomes | sweepDropped _ _ becomes =>
    subst becomes
    exact .inl ⟨a, ⟨hfound, hkeeper⟩, rfl⟩
  | reserved now leaseId plan input read _ _ apart sweeps becomes =>
    subst becomes
    rcases getElem?_concat_eq_some.mp hfound with hold | ⟨rfl, rfl⟩
    · exact .inl ⟨a, ⟨hold, hkeeper⟩, rfl⟩
    · exact .inr ⟨rfl, now, leaseId, read, input, apart, sweeps⟩
  | onLease j lease lease' inner told found effect stays becomes =>
    subst becomes
    rcases (getElem?_set_eq_some found).mp hfound with ⟨rfl, rfl⟩ | ⟨_, hold⟩
    · refine .inl ⟨lease, ⟨found, ?_⟩, effect.plan.2.symm⟩
      exact fun hbefore => hkeeper ((effect.gone_iff stays).mpr hbefore)
    · exact .inl ⟨a, ⟨hold, hkeeper⟩, rfl⟩
  | left j lease lease' told found holdingsTaken becomes becomes' =>
    subst becomes becomes'
    rcases (getElem?_set_eq_some found).mp hfound with ⟨_, rfl⟩ | ⟨_, hold⟩
    · exact absurd rfl hkeeper
    · exact .inl ⟨a, ⟨hold, hkeeper⟩, rfl⟩

variable {now : Nat}

/-- A live lease is in the table that a reservation is checked against. -/
theorem Booked.liveIn_forgetOld (h : Booked log s) (read : now ≤ s.clock)
    (hlive : s.Live k a) : a ∈ s.liveIn (s.book.forgetOld now) :=
  mem_liveIn.mpr ⟨a.id, k, (h.forgot read).kept hlive, hlive.1⟩

/-- No two live leases reserve a camera or device in common. -/
def Apart (s : TrainLeases) : Prop :=
  ∀ {k l a b}, s.Live k a → s.Live l b → k ≠ l → a.plan.Disjoint b.plan

theorem Apart.opened (now : Nat) : (TrainLeases.opened now).Apart := by
  intro k l a b ha
  cases ha.1

/-- The reservations stay apart: a new one is checked against every live lease. -/
theorem Apart.step (hbooked : Booked log s) (h : s.Apart) (heffect : Effect s input s' events) :
    s'.Apart := by
  intro k l a b ha hb hne
  rcases heffect.live_cases ha with ⟨a', ha', hplan⟩ | ⟨hk, now, leaseId, read, hinput, hapart, _⟩
  · rcases heffect.live_cases hb with ⟨b', hb', hplan'⟩ | ⟨_, now, leaseId, read, _, hapart, _⟩
    · rw [← hplan, ← hplan']
      exact h ha' hb' hne
    · rw [← hplan]
      exact (overlap_eq_none.mp hapart a' (hbooked.liveIn_forgetOld read ha')).symm
  · rcases heffect.live_cases hb with ⟨b', hb', hplan'⟩ | ⟨hl, _⟩
    · rw [← hplan']
      exact overlap_eq_none.mp hapart b' (hbooked.liveIn_forgetOld read hb')
    · exact absurd (hk.trans hl.symm) hne

/-! ## The sweeps -/

/-- No new sweep is handed the key of a sweep that runs. -/
def FreshKey (_ : List BookEvent) (s : TrainLeases) (input : BookInput) : Prop :=
  input.entersSweep = true → ∀ guard ∈ s.running, guard.key ≠ s.book.nextSweep

instance (log : List BookEvent) (s : TrainLeases) (input : BookInput) :
    Decidable (FreshKey log s input) :=
  inferInstanceAs (Decidable (_ → _))

/-- Every sweep that runs is in the table under its own key. -/
structure SweepsKept (s : TrainLeases) : Prop where
  keys : (Assoc.keys s.book.sweeps).Nodup
  distinct : (s.running.map SweepGuard.key).Nodup
  entered : ∀ guard ∈ s.running, (guard.key, guard.sweep) ∈ s.book.sweeps

/-- No live lease reserves the camera or the focuser of a sweep that runs. -/
def SweepsApart (s : TrainLeases) : Prop :=
  ∀ {k a}, s.Live k a → ∀ guard ∈ s.running,
    a.plan.reserves guard.sweep.cameraId = false ∧ a.plan.reserves guard.sweep.focuserId = false

namespace SweepsKept

theorem entersSweep (h : s.SweepsKept) (sweep : Sweep)
    (fresh : ∀ guard ∈ s.running, guard.key ≠ s.book.nextSweep) : (s.withSweep sweep).SweepsKept where
  keys := Assoc.nodup_keys_insert _ h.keys
  distinct := by
    refine List.nodup_cons.mpr ⟨?_, h.distinct⟩
    intro hmem
    obtain ⟨guard, hguard, heq⟩ := List.mem_map.mp hmem
    exact fresh guard hguard heq
  entered := by
    intro guard hguard
    rcases List.mem_cons.mp hguard with heq | hold
    · subst heq
      exact (Assoc.mem_insert h.keys).mpr (.inl rfl)
    · exact (Assoc.mem_insert h.keys).mpr (.inr ⟨fresh guard hold, h.entered guard hold⟩)

theorem dropsSweep (h : s.SweepsKept) {guard : SweepGuard} (hrunning : guard ∈ s.running) :
    (s.dropSweep guard).SweepsKept where
  keys := by
    show (Assoc.keys (Assoc.erase guard.key s.book.sweeps)).Nodup
    rw [Assoc.keys_erase]
    exact h.keys.filter _
  distinct := h.distinct.sublist (List.erase_sublist.map _)
  entered := by
    intro other hother
    have hnodup : s.running.Nodup := h.distinct.of_map
    obtain ⟨hne, hmem⟩ := hnodup.mem_erase_iff.mp hother
    refine Assoc.mem_erase.mpr ⟨h.entered other hmem, ?_⟩
    intro hkey
    exact hne (List.inj_on_of_nodup_map h.distinct hmem hrunning hkey)

theorem step (h : s.SweepsKept) (ok : FreshKey log s input) (heffect : Effect s input s' events) :
    s'.SweepsKept := by
  cases heffect with
  | ticked _ _ becomes | unchanged becomes | forgot _ _ becomes
  | reserved _ _ _ _ _ _ _ _ _ becomes | releasedFirst _ _ _ _ _ becomes
  | onLease _ _ _ _ _ _ _ _ becomes | left _ _ _ _ _ _ _ becomes =>
    subst becomes
    exact ⟨h.keys, h.distinct, h.entered⟩
  | sweepEntered label cameraId focuserId input free becomes =>
    subst becomes input
    exact h.entersSweep _ (ok rfl)
  | sweepDropped guard running becomes =>
    subst becomes
    exact h.dropsSweep running

end SweepsKept

/-- A sweep that runs in the next state ran before, or has just been entered. -/
theorem Effect.running_cases (heffect : Effect s input s' events) {guard : SweepGuard}
    (hguard : guard ∈ s'.running) :
    guard ∈ s.running ∨
      (input.entersSweep = true ∧
        s.sweepConflict guard.sweep.cameraId guard.sweep.focuserId = none) := by
  cases heffect with
  | ticked _ _ becomes | unchanged becomes | forgot _ _ becomes
  | reserved _ _ _ _ _ _ _ _ _ becomes | releasedFirst _ _ _ _ _ becomes
  | onLease _ _ _ _ _ _ _ _ becomes | left _ _ _ _ _ _ _ becomes =>
    subst becomes
    exact .inl hguard
  | sweepEntered label cameraId focuserId input free becomes =>
    subst becomes input
    rcases List.mem_cons.mp hguard with heq | hold
    · subst heq
      exact .inr ⟨rfl, free⟩
    · exact .inl hold
  | sweepDropped other running becomes =>
    subst becomes
    exact .inl (List.mem_of_mem_erase hguard)

/-- A new lease is checked against every running sweep, and a new sweep against every live lease. -/
theorem SweepsApart.step (hbooked : Booked log s) (hkept : s.SweepsKept) (h : s.SweepsApart)
    (heffect : Effect s input s' events) : s'.SweepsApart := by
  intro k a ha guard hguard
  rcases heffect.running_cases hguard with hrunning | ⟨henters, hfree⟩
  · rcases heffect.live_cases ha with ⟨old, hold, hplan⟩ | ⟨_, now, leaseId, _, _, _, hsweeps⟩
    · rw [← hplan]
      exact h hold guard hrunning
    · exact sweepOverlap_eq_none.mp hsweeps _ (hkept.entered guard hrunning)
  · rcases heffect.live_cases ha with ⟨old, hold, hplan⟩ | ⟨_, now, leaseId, _, hinput, _⟩
    · rw [← hplan]
      exact sweepConflict_eq_none.mp hfree old
        (mem_liveIn.mpr ⟨old.id, k, hbooked.kept hold, hold.1⟩)
    · rw [hinput] at henters
      cases henters

/-! ## Runs of the book -/

/-- The invariant of the book, its reservations and its sweeps. -/
structure Kept (log : List BookEvent) (s : TrainLeases) : Prop where
  booked : Booked log s
  apart : s.Apart
  sweeps : s.SweepsKept
  sweepsApart : s.SweepsApart

theorem Kept.opened (now : Nat) : Kept [] (TrainLeases.opened now) where
  booked := Booked.opened now
  apart := Apart.opened now
  sweeps := ⟨List.nodup_nil, List.nodup_nil, fun guard h => by cases h⟩
  sweepsApart := fun ha => by cases ha.1

theorem Kept.step (h : Kept log s) (ok : FreshKey log s input) (heffect : Effect s input s' events) :
    Kept (log ++ events) s' where
  booked := h.booked.step heffect
  apart := Apart.step h.booked h.apart heffect
  sweeps := h.sweeps.step ok heffect
  sweepsApart := SweepsApart.step h.booked h.sweeps h.sweepsApart heffect

/-- What the reservations, the sweeps and the ids come to in a run, and what the next `reserve` and
`release` may do. -/
structure Reservations (log : List BookEvent) (s : TrainLeases) : Prop where
  apart : s.Apart
  sweepsApart : s.SweepsApart
  oneLive : ∀ {k l a b}, s.Live k a → s.Live l b → a.id = b.id → k = l
  cap : s.book.seen.length ≤ seenIdCap
  fresh : ∀ {now leaseId plan s' events k},
    s.step (.reserve now leaseId plan) = some (s', events) → .reserved leaseId k ∈ events →
    (∀ l b, s.Live l b → b.id ≠ leaseId) ∧
      ∀ since, Recorded log leaseId since → later since seenIdMemory ≤ s.clock
  releasedFirst : ∀ {now leaseId s' events},
    s.step (.release now leaseId) = some (s', events) → (∀ k, .reserved leaseId k ∉ log) →
    (s.book.forgetOld now).seen.length < seenIdCap →
    ∃ since, .releasedFirst leaseId since ∈ log ++ events ∧
      (since = now ∨ now < later since seenIdMemory)

theorem Booked.oneLive (h : Booked log s) (ha : s.Live k a) (hb : s.Live l b) (hid : a.id = b.id) :
    k = l := by
  have hk := Assoc.lookup_of_mem h.keys (h.kept ha)
  have hl := Assoc.lookup_of_mem h.keys (h.kept hb)
  rw [hid, hl] at hk
  cases hk
  rfl

variable {leaseId : String}

theorem Booked.reserve_fresh (h : Booked log s)
    (hstep : s.step (.reserve now leaseId plan) = some (s', events))
    (hmem : .reserved leaseId k ∈ events) :
    (∀ l b, s.Live l b → b.id ≠ leaseId) ∧
      ∀ since, Recorded log leaseId since → later since seenIdMemory ≤ s.clock := by
  simp only [TrainLeases.step] at hstep
  split at hstep
  · next hread =>
      split at hstep
      · next after lease hreserve =>
          rcases reserve_cases hreserve with ⟨why, herror, _⟩ | ⟨hunseen, _⟩
          · cases herror
          · exact (h.forgot hread).fresh hunseen
      · cases hstep
        cases List.mem_singleton.mp hmem
  · cases hstep

theorem Booked.release_recorded (h : Booked log s)
    (hstep : s.step (.release now leaseId) = some (s', events))
    (hnever : ∀ k, .reserved leaseId k ∉ log)
    (room : (s.book.forgetOld now).seen.length < seenIdCap) :
    ∃ since, .releasedFirst leaseId since ∈ log ++ events ∧
      (since = now ∨ now < later since seenIdMemory) := by
  simp only [TrainLeases.step] at hstep
  split at hstep
  · next hread =>
      cases hseen : (s.book.forgetOld now).seen.lookup leaseId with
      | some seen =>
        have hmem := Assoc.mem_of_lookup hseen
        rcases (h.forgot hread).told hmem with ⟨k, hk⟩ | ⟨since, rfl, hsince⟩
        · exact absurd hk (hnever k)
        · have hremembers := (List.mem_filter.mp hmem).2
          simp only [Book.remembers, Seen.rememberedSince, decide_eq_true_eq] at hremembers
          exact ⟨since, List.mem_append_left _ hsince, .inr hremembers⟩
      | none =>
        simp only [release, hseen, if_pos room] at hstep
        cases hstep
        exact ⟨now, List.mem_append_right _ (List.mem_singleton_self _), .inl rfl⟩
  · cases hstep

/-- In every run in which no new sweep is handed the key of a running one, the reservations never
overlap. -/
theorem reservations_apart {start : Nat} {inputs : List BookInput}
    (h : History step FreshKey (opened start) inputs log s) : Reservations log s := by
  have hkept : Kept log s := by
    refine h.invariant Kept (Kept.opened start) ?_
    intro log s input s' events hkept ok hstep
    exact hkept.step ok (step_effect hstep)
  constructor
  case apart => exact hkept.apart
  case sweepsApart => exact hkept.sweepsApart
  case oneLive => exact fun ha hb hid => hkept.booked.oneLive ha hb hid
  case cap => exact hkept.booked.cap
  case fresh => exact fun hstep hmem => hkept.booked.reserve_fresh hstep hmem
  case releasedFirst => exact fun hstep hnever room => hkept.booked.release_recorded hstep hnever room

end TrainLeases

/-! ## Runs on two trains -/

namespace Evaluation

open TrainLeases

def mainSweep : Sweep where
  label := "auto_focus on train 'main'"
  cameraId := "main-cam"
  focuserId := "eaf"

def spareSweep : Sweep where
  label := "auto_focus on train 'spare'"
  cameraId := "spare-cam"
  focuserId := "spare-focuser"

/-- A release that comes before its acquire, a lease on the main train and a sweep on the other. -/
def bookInputs : List BookInput :=
  [.release 0 "late", .reserve 0 "a" mainPlan, .reserve 0 "late" mainPlan,
    .enterSweep "auto_focus on train 'spare'" "spare-cam" "spare-focuser",
    .enterSweep "auto_focus on train 'main'" "main-cam" "eaf"]

theorem book_keeps_apart :
    ∃ log s, History step FreshKey (opened 0) bookInputs log s ∧ s.leases.length = 1 ∧
      s.running = [{ key := 0, sweep := spareSweep }] ∧ Reservations log s := by
  have hrun : History step FreshKey (opened 0) bookInputs _ _ := History.of_play rfl
  exact ⟨_, _, hrun, rfl, rfl, reservations_apart hrun⟩

/-- The book while the main sweep runs, and the next key is this one. -/
def swept (next : Nat) : TrainLeases where
  book := { seen := [], sweeps := [(0, mainSweep)], nextSweep := next }
  leases := []
  running := [{ key := 0, sweep := mainSweep }]
  clock := 0

/-- A sweep on the other train comes and goes. -/
def spareInputs (next : Nat) : List BookInput :=
  [.enterSweep "auto_focus on train 'spare'" "spare-cam" "spare-focuser",
    .dropSweep { key := next, sweep := spareSweep }]

theorem swept_spare {inputs : List BookInput} {next : Nat} (hnext : next ≠ 0)
    (h : History step (fun _ _ _ => True) (opened 0) inputs [] (swept next)) :
    History step (fun _ _ _ => True) (opened 0) (inputs ++ spareInputs next) []
      (swept ((next + 1) % sweepKeys)) := by
  have henter : (swept next).step
      (.enterSweep "auto_focus on train 'spare'" "spare-cam" "spare-focuser") =
      some ((swept next).withSweep spareSweep, []) := rfl
  have hinsert : Assoc.insert next spareSweep [(0, mainSweep)] =
      [(0, mainSweep), (next, spareSweep)] := by
    rw [Assoc.insert, if_neg (Ne.symm hnext)]
    rfl
  have hdrop : ((swept next).withSweep spareSweep).step
      (.dropSweep { key := next, sweep := spareSweep }) =
      some (swept ((next + 1) % sweepKeys), []) := by
    simp only [TrainLeases.step, withSweep, swept, hinsert, dropSweep, List.mem_cons, true_or,
      if_true, List.erase_cons_head]
    rw [Assoc.erase, List.filter_cons, List.filter_cons, if_pos (decide_eq_true (Ne.symm hnext)),
      if_neg (by simp)]
    rfl
  have hmore := (h.snoc trivial henter).snoc trivial hdrop
  rwa [List.append_assoc] at hmore

/-- Sweeps on the other train come and go while the main sweep runs. -/
theorem sweeps_come_and_go (count : Nat) (h : count < sweepKeys) :
    ∃ inputs, History step (fun _ _ _ => True) (opened 0) inputs []
      (swept ((count + 1) % sweepKeys)) := by
  induction count with
  | zero =>
    refine ⟨[.enterSweep "auto_focus on train 'main'" "main-cam" "eaf"], ?_⟩
    exact History.of_play rfl
  | succ count ih =>
    obtain ⟨inputs, hrun⟩ := ih (by omega)
    have hmod : (count + 1) % sweepKeys = count + 1 := Nat.mod_eq_of_lt h
    rw [hmod] at hrun
    exact ⟨_, swept_spare (Nat.succ_ne_zero count) hrun⟩

/-- When the keys have come round, a new sweep takes the place of the main sweep in the table while
that still runs, and a lease on the main train is reserved. -/
theorem sweep_key_comes_round :
    ¬ ∀ inputs log s, History step (fun _ _ _ => True) (opened 0) inputs log s → SweepsApart s := by
  intro h
  obtain ⟨inputs, hrun⟩ := sweeps_come_and_go (sweepKeys - 1) (by rw [sweepKeys]; omega)
  have hround : (sweepKeys - 1 + 1) % sweepKeys = 0 := rfl
  rw [hround] at hrun
  have hreserved : History step (fun _ _ _ => True) (opened 0) (inputs ++
      [.enterSweep "auto_focus on train 'spare'" "spare-cam" "spare-focuser",
        .reserve 0 "a" mainPlan]) _ _ :=
    hrun.append_play rfl
  have hapart := h _ _ _ hreserved (k := 0) ⟨rfl, Keeper.noConfusion⟩
    { key := 0, sweep := mainSweep } (List.mem_cons_of_mem _ (List.mem_singleton_self _))
  cases hapart.1

end Evaluation

end RustyPhoton.Rp.TrainLease
