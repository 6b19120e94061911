import Mathlib.Data.List.Nodup
import Mathlib.Data.List.Induction

/-!
# Recency

Keys are used and evicted. The recency of a log is the keys in it, the least recently used first; an
eviction is of the oldest key if it is of the front of the recency before it.
-/

namespace RustyPhoton.Lib.Recency

variable {κ : Type} [DecidableEq κ]

/-- What happens to a key. -/
inductive Touch (κ : Type) where
  | used (key : κ)
  | evicted (key : κ)
  deriving DecidableEq

/-- One event: a used key goes last, an evicted one goes away. -/
def touch (order : List κ) : Touch κ → List κ
  | .used key => order.filter (· ≠ key) ++ [key]
  | .evicted key => order.filter (· ≠ key)

variable {key : κ}

theorem filter_ne_of_not_mem {order : List κ} (h : key ∉ order) :
    order.filter (· ≠ key) = order :=
  List.filter_eq_self.mpr fun _ hk => decide_eq_true fun heq => h (heq ▸ hk)

/-- The keys of a log, the least recently used first. -/
def recency (log : List (Touch κ)) : List κ := log.foldl touch []

theorem recency_append (log : List (Touch κ)) (t : Touch κ) :
    recency (log ++ [t]) = touch (recency log) t := by
  rw [recency, List.foldl_append]
  rfl

/-- The last use of a key that is still in. -/
structure LastUse (log : List (Touch κ)) (key : κ) (before after : List (Touch κ)) : Prop where
  split : log = before ++ .used key :: after
  used : .used key ∉ after
  kept : .evicted key ∉ after

/-- The key is in. -/
def Present (log : List (Touch κ)) (key : κ) : Prop := ∃ before after, LastUse log key before after

/-- The key is in, and every other key that is in was used after it. -/
def LeastRecent (log : List (Touch κ)) (key : κ) : Prop :=
  ∃ before after, LastUse log key before after ∧
    ∀ other, other ≠ key → Present log other → .used other ∈ after

/-- Every eviction is of the least recently used key. -/
def OldestFirst (log : List (Touch κ)) : Prop :=
  ∀ before key after, log = before ++ .evicted key :: after → LeastRecent before key

/-! ## The recency of a log -/

variable {log : List (Touch κ)} {t : Touch κ}

omit [DecidableEq κ] in
theorem LastUse.snoc {before after : List (Touch κ)} (h : LastUse log key before after)
    (hused : t ≠ .used key) (hkept : t ≠ .evicted key) :
    LastUse (log ++ [t]) key before (after ++ [t]) where
  split := by rw [h.split, List.append_assoc, List.cons_append]
  used hmem := by
    rcases List.mem_append.mp hmem with hmem | hmem
    · exact h.used hmem
    · exact hused (List.mem_singleton.mp hmem).symm
  kept hmem := by
    rcases List.mem_append.mp hmem with hmem | hmem
    · exact h.kept hmem
    · exact hkept (List.mem_singleton.mp hmem).symm

omit [DecidableEq κ] in
theorem LastUse.last (log : List (Touch κ)) (key : κ) : LastUse (log ++ [.used key]) key log [] :=
  ⟨rfl, List.not_mem_nil, List.not_mem_nil⟩

omit [DecidableEq κ] in
/-- A last use is the event just added, or a last use before it. -/
theorem LastUse.of_snoc {before after : List (Touch κ)}
    (h : LastUse (log ++ [t]) key before after) :
    t = .used key ∧ after = [] ∨
      ∃ after', after = after' ++ [t] ∧ LastUse log key before after' ∧ t ≠ .used key ∧
        t ≠ .evicted key := by
  obtain ⟨hsplit, hused, hkept⟩ := h
  rcases List.eq_nil_or_concat after with rfl | ⟨after', last, rfl⟩
  · obtain ⟨-, ht⟩ := List.append_inj' hsplit rfl
    exact .inl ⟨(List.cons.inj ht).1, rfl⟩
  · rw [List.concat_eq_append] at hsplit hused hkept ⊢
    have hregroup : before ++ .used key :: (after' ++ [last]) = (before ++ .used key :: after') ++ [last] := by
      simp
    rw [hregroup] at hsplit
    obtain ⟨hlog, hlast⟩ := List.append_inj' hsplit rfl
    obtain ⟨rfl, -⟩ := List.cons.inj hlast
    refine .inr ⟨after', rfl, ⟨hlog, fun h => hused (List.mem_append_left _ h),
      fun h => hkept (List.mem_append_left _ h)⟩, fun h => hused ?_, fun h => hkept ?_⟩
    · simp [h]
    · simp [h]

theorem mem_recency : key ∈ recency log ↔ Present log key := by
  induction log using List.reverseRecOn with
  | nil =>
    constructor
    · intro h
      cases h
    · intro ⟨before, after, h⟩
      exact absurd h.split (by simp)
  | append_singleton log t ih =>
    rw [recency_append]
    have hstep : ∀ k, t = .used k ∨ t = .evicted k → key ≠ k →
        (Present (log ++ [t]) key ↔ Present log key) := by
      intro k ht hne
      have hothers : t ≠ .used key ∧ t ≠ .evicted key := by
        rcases ht with rfl | rfl <;> simp [Ne.symm hne]
      constructor
      · intro ⟨before, after, h⟩
        rcases h.of_snoc with ⟨hused, -⟩ | ⟨after', -, h', -⟩
        · exact absurd hused hothers.1
        · exact ⟨before, after', h'⟩
      · intro ⟨before, after, h⟩
        exact ⟨before, after ++ [t], h.snoc hothers.1 hothers.2⟩
    cases t with
    | used k =>
      by_cases hk : key = k
      · subst hk
        exact iff_of_true (by simp [touch]) ⟨log, [], LastUse.last log key⟩
      · rw [hstep k (.inl rfl) hk, ← ih]
        simp [touch, hk]
    | evicted k =>
      by_cases hk : key = k
      · subst hk
        refine iff_of_false (by simp [touch]) ?_
        intro ⟨before, after, h⟩
        rcases h.of_snoc with ⟨hused, -⟩ | ⟨-, -, -, -, hne⟩
        · cases hused
        · exact hne rfl
      · rw [hstep k (.inr rfl) hk, ← ih]
        simp [touch, hk]

/-- A key before another in the recency was last used before it. -/
theorem recency_pairwise (log : List (Touch κ)) :
    (recency log).Pairwise fun a b =>
      ∀ before after, LastUse log a before after → .used b ∈ after := by
  induction log using List.reverseRecOn with
  | nil => exact .nil
  | append_singleton log t ih =>
    have hold : ∀ k, t = .used k ∨ t = .evicted k →
        ((recency log).filter (· ≠ k)).Pairwise fun a b =>
          ∀ before after, LastUse (log ++ [t]) a before after → .used b ∈ after := by
      intro k ht
      refine (ih.filter _).imp_of_mem fun {a b} ha _ hab before after h => ?_
      have hne : a ≠ k := by simpa using (List.mem_filter.mp ha).2
      rcases h.of_snoc with ⟨hused, -⟩ | ⟨after', rfl, h', -⟩
      · rcases ht with rfl | rfl
        · exact absurd (Touch.used.inj hused).symm hne
        · cases hused
      · exact List.mem_append_left _ (hab before after' h')
    rw [recency_append]
    cases t with
    | used k =>
      refine List.pairwise_append.mpr ⟨hold k (.inl rfl), List.pairwise_singleton _ _, ?_⟩
      intro a ha b hb before after h
      have hne : a ≠ k := by simpa using (List.mem_filter.mp ha).2
      cases List.mem_singleton.mp hb
      rcases h.of_snoc with ⟨hused, -⟩ | ⟨after', rfl, -⟩
      · exact absurd (Touch.used.inj hused).symm hne
      · exact List.mem_append_right _ List.mem_cons_self
    | evicted k => exact hold k (.inr rfl)

/-- The front of the recency is the least recently used key. -/
theorem leastRecent_head {rest : List κ} (h : recency log = key :: rest) : LeastRecent log key := by
  have hpairwise := recency_pairwise log
  rw [h] at hpairwise
  obtain ⟨hhead, -⟩ := List.pairwise_cons.mp hpairwise
  obtain ⟨before, after, hlast⟩ := mem_recency.mp (h ▸ List.mem_cons_self : key ∈ recency log)
  refine ⟨before, after, hlast, fun other hne hpresent => ?_⟩
  have hmem := mem_recency.mpr hpresent
  rw [h] at hmem
  exact hhead other ((List.mem_cons.mp hmem).resolve_left hne) before after hlast

/-! ## Logs whose evictions are oldest first -/

omit [DecidableEq κ] in
theorem oldestFirst_nil : OldestFirst ([] : List (Touch κ)) := by
  intro before key after h
  exact absurd h (by simp)

omit [DecidableEq κ] in
theorem OldestFirst.snoc (h : OldestFirst log)
    (ht : ∀ key, t = .evicted key → LeastRecent log key) : OldestFirst (log ++ [t]) := by
  intro before key after hsplit
  rcases List.eq_nil_or_concat after with rfl | ⟨after', last, rfl⟩
  · obtain ⟨rfl, hlast⟩ := List.append_inj' hsplit rfl
    exact ht key (List.cons.inj hlast).1
  · have hregroup : before ++ .evicted key :: after'.concat last =
        (before ++ .evicted key :: after') ++ [last] := by simp
    rw [hregroup] at hsplit
    exact h before key after' (List.append_inj' hsplit rfl).1

/-- A log that lists these keys by recency, with its evictions oldest first. -/
structure Tracks (log : List (Touch κ)) (order : List κ) : Prop where
  recency : recency log = order
  oldest : OldestFirst log

namespace Tracks

variable {log : List (Touch κ)} {order : List κ}

theorem nil : Tracks ([] : List (Touch κ)) [] := ⟨rfl, oldestFirst_nil⟩

theorem used (h : Tracks log order) (key : κ) :
    Tracks (log ++ [.used key]) (order.filter (· ≠ key) ++ [key]) where
  recency := by
    rw [recency_append, h.recency]
    rfl
  oldest := h.oldest.snoc fun _ ht => by cases ht

/-- Evictions from the front. -/
theorem evicted {gone rest : List κ} (h : Tracks log (gone ++ rest)) (hnodup : (gone ++ rest).Nodup) :
    Tracks (log ++ gone.map .evicted) rest := by
  induction gone generalizing log with
  | nil => simpa using h
  | cons key gone ih =>
    obtain ⟨hnot, hnodup⟩ := List.nodup_cons.mp hnodup
    have hfilter : (key :: (gone ++ rest)).filter (· ≠ key) = gone ++ rest := by
      rw [List.filter_cons_of_neg (by simp)]
      exact filter_ne_of_not_mem hnot
    have hnext : Tracks (log ++ [.evicted key]) (gone ++ rest) := by
      refine ⟨?_, h.oldest.snoc fun k hk => ?_⟩
      · rw [recency_append, h.recency]
        exact hfilter
      · cases hk
        exact leastRecent_head h.recency
    have hall := ih hnext hnodup
    rwa [List.append_assoc] at hall

end Tracks

end RustyPhoton.Lib.Recency
