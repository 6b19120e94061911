import Mathlib.Data.List.Lex
import Mathlib.Data.List.Sort

/-!
# The prefix-stack scan

Entries whose paths come in lexicographic order are scanned with a stack of prefixes: those that are
no prefix of the next entry are popped, and the next entry's nearest prefix is on top of what is
left. Everything between a prefix and its extension extends the prefix too, so a popped entry is a
prefix of nothing that follows.
-/

namespace RustyPhoton.Lib.PrefixScan

universe u v

variable {σ : Type u} {β : Type v}

/-- Everything between a prefix and its extension extends the prefix. -/
theorem prefix_between [LinearOrder σ] {low middle high : List σ} (hlow : ¬ middle < low)
    (hhigh : ¬ high < middle) (h : low <+: high) : low <+: middle := by
  induction low generalizing middle high with
  | nil => exact List.nil_prefix
  | cons a low ih =>
    obtain ⟨rest, rfl⟩ := h
    cases middle with
    | nil => exact absurd (List.nil_lt_cons _ _) hlow
    | cons b middle =>
      rw [List.cons_append, List.cons_lt_cons_iff, not_or, not_and] at hhigh
      rw [List.cons_lt_cons_iff, not_or, not_and] at hlow
      obtain rfl : a = b := le_antisymm (not_lt.mp hlow.1) (not_lt.mp hhigh.1)
      exact List.cons_prefix_cons.mpr
        ⟨rfl, ih (hlow.2 rfl) (hhigh.2 rfl) (List.prefix_append low rest)⟩

/-- A prefix comes first. -/
theorem not_lt_of_prefix [LinearOrder σ] {low high : List σ} (h : low <+: high) : ¬ high < low := by
  induction low generalizing high with
  | nil => exact List.not_lt_nil _
  | cons a low ih =>
    obtain ⟨rest, rfl⟩ := h
    rw [List.cons_append, List.cons_lt_cons_iff, not_or, not_and]
    exact ⟨lt_irrefl a, fun _ => ih (List.prefix_append low rest)⟩

variable [DecidableEq σ]

/-- Each entry with its nearest prefix, from the stack `chain` on. -/
def scan (path : β → List σ) : List β → List β → List (β × β)
  | _, [] => []
  | chain, entry :: rest =>
      let chain := chain.dropWhile fun top => !(path top).isPrefixOf (path entry)
      (chain.head?.map fun top => (top, entry)).toList ++ scan path (entry :: chain) rest

variable {path : β → List σ} {chain rest : List β}

/-- What the stack is: each entry on it is a prefix of those above it. -/
def Chain (path : β → List σ) (chain : List β) : Prop :=
  chain.Pairwise fun top below => path below <+: path top

/-- The entries that stay on the stack are the prefixes of the next entry. -/
theorem mem_dropWhile (hchain : Chain path chain) {entry c : β} :
    c ∈ chain.dropWhile (fun top => !(path top).isPrefixOf (path entry)) ↔
      c ∈ chain ∧ path c <+: path entry := by
  induction chain with
  | nil => simp
  | cons top chain ih =>
    obtain ⟨htop, hrest⟩ := List.pairwise_cons.mp hchain
    by_cases hbegin : path top <+: path entry
    · have hkeep : (top :: chain).dropWhile
          (fun top => !(path top).isPrefixOf (path entry)) = top :: chain :=
        List.dropWhile_cons_of_neg (by simpa using hbegin)
      rw [hkeep]
      refine ⟨fun hc => ⟨hc, ?_⟩, And.left⟩
      rcases List.mem_cons.mp hc with rfl | hc
      · exact hbegin
      · exact (htop c hc).trans hbegin
    · have hnot : (path top).isPrefixOf (path entry) = false := by
        rw [Bool.eq_false_iff, ne_eq, List.isPrefixOf_iff_prefix]
        exact hbegin
      have hpop : (top :: chain).dropWhile (fun top => !(path top).isPrefixOf (path entry)) =
          chain.dropWhile (fun top => !(path top).isPrefixOf (path entry)) :=
        List.dropWhile_cons_of_pos (by rw [hnot]; rfl)
      rw [hpop, ih hrest, List.mem_cons]
      refine ⟨fun hc => ⟨.inr hc.1, hc.2⟩, ?_⟩
      rintro ⟨rfl | hc, hpath⟩
      · exact absurd hpath hbegin
      · exact ⟨hc, hpath⟩

theorem chain_next (hchain : Chain path chain) (entry : β) :
    Chain path (entry :: chain.dropWhile fun top => !(path top).isPrefixOf (path entry)) :=
  List.pairwise_cons.mpr ⟨fun _ hc => ((mem_dropWhile hchain).mp hc).2,
    hchain.sublist (List.dropWhile_sublist _)⟩

/-- One report at most for each entry, in their order. -/
theorem map_snd_sublist : ((scan path chain rest).map Prod.snd).Sublist rest := by
  induction rest generalizing chain with
  | nil => exact List.Sublist.slnil
  | cons entry rest ih =>
    rw [scan, List.map_append]
    cases hhead : (chain.dropWhile fun top => !(path top).isPrefixOf (path entry)).head? with
    | none =>
      simp only [Option.map_none, Option.toList_none, List.map_nil, List.nil_append]
      exact (@ih (entry :: _)).cons entry
    | some top =>
      simp only [Option.map_some, Option.toList_some, List.map_cons, List.map_nil,
        List.singleton_append]
      exact (@ih (entry :: _)).cons_cons entry

/-- What is reported is a prefix and its extension, and any relation `R` that holds between each
entry and those after it holds between them. -/
theorem of_mem_scan (R : β → β → Prop) (hchain : Chain path chain)
    (hbefore : ∀ c ∈ chain, ∀ e ∈ rest, R c e) (hrest : rest.Pairwise R) {pair : β × β}
    (h : pair ∈ scan path chain rest) :
    pair.1 ∈ chain ++ rest ∧ pair.2 ∈ rest ∧ path pair.1 <+: path pair.2 ∧ R pair.1 pair.2 := by
  induction rest generalizing chain with
  | nil => cases h
  | cons entry rest ih =>
    obtain ⟨hentry, hpairs⟩ := List.pairwise_cons.mp hrest
    rw [scan] at h
    rcases List.mem_append.mp h with h | h
    · obtain ⟨top, htop, rfl⟩ := Option.map_eq_some_iff.mp (Option.mem_toList.mp h)
      obtain ⟨hin, hbegin⟩ := (mem_dropWhile hchain).mp (List.mem_of_mem_head? htop)
      exact ⟨List.mem_append_left _ hin, List.mem_cons_self, hbegin,
        hbefore top hin entry List.mem_cons_self⟩
    · have hnext : ∀ c ∈ entry :: chain.dropWhile fun top => !(path top).isPrefixOf (path entry),
          ∀ e ∈ rest, R c e := by
        intro c hc e he
        rcases List.mem_cons.mp hc with rfl | hc
        · exact hentry e he
        · exact hbefore c ((mem_dropWhile hchain).mp hc).1 e (List.mem_cons_of_mem _ he)
      obtain ⟨hfirst, hsecond, hpath, hR⟩ := ih (chain_next hchain entry) hnext hpairs h
      refine ⟨?_, List.mem_cons_of_mem _ hsecond, hpath, hR⟩
      rcases List.mem_append.mp hfirst with hfirst | hfirst
      · rcases List.mem_cons.mp hfirst with heq | hfirst
        · exact List.mem_append_right _ (List.mem_cons.mpr (.inl heq))
        · exact List.mem_append_left _ ((mem_dropWhile hchain).mp hfirst).1
      · exact List.mem_append_right _ (List.mem_cons_of_mem _ hfirst)

variable [LinearOrder σ]

/-- Every entry that has a prefix before it is reported. -/
theorem scan_of_prefix (hchain : Chain path chain)
    (hbefore : ∀ c ∈ chain, ∀ e ∈ rest, ¬ path e < path c)
    (hrest : rest.Pairwise fun a b => ¬ path b < path a) :
    (∀ c ∈ chain, ∀ e ∈ rest, path c <+: path e → ∃ p, (p, e) ∈ scan path chain rest) ∧
      rest.Pairwise fun c e => path c <+: path e → ∃ p, (p, e) ∈ scan path chain rest := by
  induction rest generalizing chain with
  | nil => exact ⟨by simp, .nil⟩
  | cons entry rest ih =>
    obtain ⟨hentry, hpairs⟩ := List.pairwise_cons.mp hrest
    have hnext : ∀ c ∈ entry :: chain.dropWhile fun top => !(path top).isPrefixOf (path entry),
        ∀ e ∈ rest, ¬ path e < path c := by
      intro c hc e he
      rcases List.mem_cons.mp hc with rfl | hc
      · exact hentry e he
      · exact hbefore c ((mem_dropWhile hchain).mp hc).1 e (List.mem_cons_of_mem _ he)
    obtain ⟨hold, hnew⟩ := ih (chain_next hchain entry) hnext hpairs
    have hlater : ∀ {e}, (∃ p, (p, e) ∈ scan path (entry :: chain.dropWhile
        fun top => !(path top).isPrefixOf (path entry)) rest) →
        ∃ p, (p, e) ∈ scan path chain (entry :: rest) := by
      intro e h
      obtain ⟨p, hp⟩ := h
      exact ⟨p, List.mem_append_right _ hp⟩
    refine ⟨?_, List.pairwise_cons.mpr ⟨?_, hnew.imp fun h hbegin => hlater (h hbegin)⟩⟩
    · intro c hc e he hbegin
      rcases List.mem_cons.mp he with rfl | he
      · -- the stack's prefixes of this entry are not popped, so one is on top
        have hin := (mem_dropWhile hchain).mpr ⟨hc, hbegin⟩
        obtain ⟨top, htop⟩ := Option.isSome_iff_exists.mp
          (List.isSome_head?.mpr (List.ne_nil_of_mem hin))
        refine ⟨top, List.mem_append_left _ (Option.mem_toList.mpr ?_)⟩
        exact Option.map_eq_some_iff.mpr ⟨top, htop, rfl⟩
      · -- an entry popped here is no prefix of anything that follows
        have hbetween := prefix_between (hbefore c hc entry List.mem_cons_self)
          (hentry e he) hbegin
        exact hlater (hold c (List.mem_cons_of_mem _ ((mem_dropWhile hchain).mpr ⟨hc, hbetween⟩))
          e he hbegin)
    · intro e he hbegin
      exact hlater (hold entry List.mem_cons_self e he hbegin)

end RustyPhoton.Lib.PrefixScan
