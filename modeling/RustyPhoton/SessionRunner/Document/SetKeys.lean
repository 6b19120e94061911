import Mathlib.Data.List.Pairwise
import Mathlib.Data.String.Basic
import RustyPhoton.Lib.PrefixScan
import RustyPhoton.SessionRunner.Document.Validate

/-!
# The overlap scan of a `set`

The scan is the prefix-stack scan of the entries in the order of their paths, so that it finds what
comparing every two entries would.
-/

namespace RustyPhoton.SessionRunner

open Lib

/-- The order the entries are scanned in. -/
def sortedEntries (entries : List SetEntry) : List SetEntry :=
  entries.insertionSort fun a b => ¬ b.path < a.path

/-- The entries that the scan reports, each with its nearest prefix. -/
def overlapPairs (entries : List SetEntry) : List (SetEntry × SetEntry) :=
  PrefixScan.scan SetEntry.path [] (sortedEntries entries)

theorem scanPrefix_eq (chain rest : List SetEntry) :
    scanPrefix chain rest =
      (PrefixScan.scan SetEntry.path chain rest).map fun pair => (pair.1.key, pair.2.key) := by
  induction rest generalizing chain with
  | nil => rfl
  | cons entry rest ih =>
    rw [scanPrefix, PrefixScan.scan, List.map_append, ih]
    cases hhead : (chain.dropWhile fun top => !top.path.isPrefixOf entry.path).head? <;> rfl

theorem overlaps_eq (entries : List SetEntry) :
    overlaps entries = (overlapPairs entries).map fun pair => (pair.1.key, pair.2.key) :=
  scanPrefix_eq [] (sortedEntries entries)

theorem perm_sortedEntries (entries : List SetEntry) : (sortedEntries entries).Perm entries :=
  List.perm_insertionSort _ entries

theorem sorted_sortedEntries (entries : List SetEntry) :
    (sortedEntries entries).Pairwise fun a b => ¬ b.path < a.path := by
  have : Std.Total (α := SetEntry) fun a b => ¬ b.path < a.path :=
    ⟨fun a b => (le_total a.path b.path).imp not_lt.mpr not_lt.mpr⟩
  have : IsTrans SetEntry fun a b => ¬ b.path < a.path :=
    ⟨fun a b c hab hbc => not_lt.mpr ((not_lt.mp hab).trans (not_lt.mp hbc))⟩
  exact List.pairwise_insertionSort _ entries

theorem mem_sortedEntries {entries : List SetEntry} {entry : SetEntry} :
    entry ∈ sortedEntries entries ↔ entry ∈ entries := (perm_sortedEntries entries).mem_iff

/-- An entry that another of the list is a prefix of is reported. -/
theorem overlapPairs_ordered (entries : List SetEntry) :
    (sortedEntries entries).Pairwise fun a b =>
      a.path <+: b.path → ∃ p, (p, b) ∈ overlapPairs entries :=
  (PrefixScan.scan_of_prefix .nil (by simp) (sorted_sortedEntries entries)).2

/-- The scan finds no overlap only where no path is a prefix of another, itself included. -/
theorem pairwise_of_overlaps_nil {entries : List SetEntry} (h : overlaps entries = []) :
    entries.Pairwise fun a b => ¬ a.path <+: b.path ∧ ¬ b.path <+: a.path := by
  have hnone : overlapPairs entries = [] := by
    rwa [overlaps_eq, List.map_eq_nil_iff] at h
  refine ((perm_sortedEntries entries).pairwise_iff fun hab => ⟨hab.2, hab.1⟩).mp ?_
  refine ((overlapPairs_ordered entries).and (sorted_sortedEntries entries)).imp ?_
  rintro a b ⟨hreport, hle⟩
  have hforward : ¬ a.path <+: b.path := by
    intro hbegin
    obtain ⟨p, hp⟩ := hreport hbegin
    rw [hnone] at hp
    cases hp
  refine ⟨hforward, fun hback => ?_⟩
  -- a prefix comes first, so the two paths are one
  have hsame : a.path = b.path :=
    le_antisymm (not_lt.mp hle) (not_lt.mp (PrefixScan.not_lt_of_prefix hback))
  exact hforward (hsame ▸ List.prefix_rfl)

/-- The scan reports an overlap exactly where some path is a proper prefix of another; what it
reports are such pairs, and each entry once at most. -/
theorem overlaps_exact (entries : List SetEntry) (hdistinct : (entries.map SetEntry.path).Nodup) :
    overlaps entries = ((overlapPairs entries).map fun pair => (pair.1.key, pair.2.key)) ∧
      (overlaps entries ≠ [] ↔
        ∃ a ∈ entries, ∃ b ∈ entries, a.path <+: b.path ∧ a.path ≠ b.path) ∧
      (∀ pair ∈ overlapPairs entries, pair.1 ∈ entries ∧ pair.2 ∈ entries ∧
        pair.1.path <+: pair.2.path ∧ pair.1.path ≠ pair.2.path) ∧
      ((overlapPairs entries).map fun pair => pair.2.path).Nodup := by
  have hsorted : ((sortedEntries entries).map SetEntry.path).Nodup :=
    ((perm_sortedEntries entries).map _).nodup_iff.mpr hdistinct
  have hreported : ∀ pair ∈ overlapPairs entries, pair.1 ∈ entries ∧ pair.2 ∈ entries ∧
      pair.1.path <+: pair.2.path ∧ pair.1.path ≠ pair.2.path := by
    intro pair hpair
    obtain ⟨hfirst, hsecond, hbegin, hne⟩ := PrefixScan.of_mem_scan
      (fun a b => a.path ≠ b.path) .nil (by simp) (List.pairwise_map.mp hsorted) hpair
    exact ⟨mem_sortedEntries.mp hfirst, mem_sortedEntries.mp hsecond, hbegin, hne⟩
  refine ⟨overlaps_eq entries, ⟨?_, ?_⟩, hreported, ?_⟩
  · intro hne
    rw [overlaps_eq, ne_eq, List.map_eq_nil_iff] at hne
    obtain ⟨pair, hpair⟩ := List.exists_mem_of_ne_nil _ hne
    obtain ⟨hfirst, hsecond, hproper⟩ := hreported pair hpair
    exact ⟨pair.1, hfirst, pair.2, hsecond, hproper⟩
  · rintro ⟨a, ha, b, hb, hbegin, hne⟩ hnone
    have : Std.Symm fun a b : SetEntry => ¬ a.path <+: b.path ∧ ¬ b.path <+: a.path :=
      ⟨fun _ _ h => ⟨h.2, h.1⟩⟩
    have hnot := (pairwise_of_overlaps_nil hnone).forall ha hb fun heq => hne (heq ▸ rfl)
    exact hnot.1 hbegin
  · have hreports : ((overlapPairs entries).map Prod.snd).Sublist (sortedEntries entries) :=
      PrefixScan.map_snd_sublist
    have hsublist := hsorted.sublist (hreports.map SetEntry.path)
    rwa [List.map_map] at hsublist

/-- A prefix whose extension comes after a sibling's extension. -/
def siblings : List SetEntry :=
  [["a", "b", "c"], ["d"], ["a", "a"], ["a", "b"]].map fun path => ⟨path, ⟨"null", .null ⟨0, 4⟩⟩⟩

theorem overlaps_exact_siblings :
    (siblings.map SetEntry.path).Nodup ∧ overlaps siblings ≠ [] := by
  have hdistinct : (siblings.map SetEntry.path).Nodup := by decide
  refine ⟨hdistinct, (overlaps_exact siblings hdistinct).2.1.mpr ?_⟩
  exact ⟨⟨["a", "b"], ⟨"null", .null ⟨0, 4⟩⟩⟩, by simp [siblings],
    ⟨["a", "b", "c"], ⟨"null", .null ⟨0, 4⟩⟩⟩, by simp [siblings], ⟨["c"], rfl⟩, by decide⟩

end RustyPhoton.SessionRunner
