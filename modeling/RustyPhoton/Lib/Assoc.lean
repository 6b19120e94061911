import Mathlib.Data.List.Sort

/-!
# Maps as association lists

Two map disciplines share `List.lookup` as their read. `insert` keeps insertion order and
overwrites in place; `insertSorted` keeps the keys increasing. `count` and `uncount` are a
multiset of keys kept as positive counters.
-/

namespace RustyPhoton.Lib.Assoc

variable {κ α : Type} [DecidableEq κ]

/-- Whether the key is bound. -/
def contains (key : κ) (entries : List (κ × α)) : Bool :=
  (entries.lookup key).isSome

/-- Bind a key: an existing binding is overwritten in place, a new one goes last. -/
def insert (key : κ) (value : α) : List (κ × α) → List (κ × α)
  | [] => [(key, value)]
  | (k, v) :: rest => if k = key then (k, value) :: rest else (k, v) :: insert key value rest

/-- Bind a key, keeping the keys in increasing order. -/
def insertSorted [LT κ] [DecidableLT κ] (key : κ) (value : α) : List (κ × α) → List (κ × α)
  | [] => [(key, value)]
  | (k, v) :: rest =>
      if k = key then (k, value) :: rest
      else if key < k then (key, value) :: (k, v) :: rest
      else (k, v) :: insertSorted key value rest

/-- Drop a key. -/
def erase (key : κ) (entries : List (κ × α)) : List (κ × α) :=
  entries.filter fun entry => entry.1 ≠ key

section

-- the equations the proofs below unfold, computed once
attribute [local simp] contains insert insertSorted erase

end

@[simp] theorem lookup_cons (key k : κ) (v : α) (rest : List (κ × α)) :
    List.lookup key ((k, v) :: rest) = if key = k then some v else rest.lookup key := by
  rw [List.lookup_cons]
  by_cases h : key = k
  · simp [h]
  · simp [h, beq_false_of_ne h]

/-- An insertion is read back. -/
@[simp] theorem lookup_insert_self (key : κ) (value : α) (entries : List (κ × α)) :
    (insert key value entries).lookup key = some value := by
  induction entries with
  | nil => simp [insert]
  | cons entry rest ih =>
    obtain ⟨k, v⟩ := entry
    by_cases h : k = key
    · simp [insert, h]
    · simp [insert, h, Ne.symm h, ih]

variable {key : κ}

/-- An insertion leaves the other keys alone. -/
theorem lookup_insert_of_ne {other : κ} (value : α) (entries : List (κ × α))
    (hne : other ≠ key) : (insert key value entries).lookup other = entries.lookup other := by
  induction entries with
  | nil => simp [insert, hne]
  | cons entry rest ih =>
    obtain ⟨k, v⟩ := entry
    by_cases h : k = key
    · subst h
      simp [insert, hne]
    · simp [insert, h, ih]

/-- Two insertions under one key keep the second. -/
theorem insert_insert_self (key : κ) (first second : α) (entries : List (κ × α)) :
    insert key second (insert key first entries) = insert key second entries := by
  induction entries with
  | nil => simp [insert]
  | cons entry rest ih =>
    obtain ⟨k, v⟩ := entry
    by_cases h : k = key
    · simp [insert, h]
    · simp [insert, h, ih]

variable {value : α} {entries : List (κ × α)}

/-- Overwriting a value with itself changes nothing. -/
theorem insert_of_lookup
    (h : entries.lookup key = some value) : insert key value entries = entries := by
  induction entries with
  | nil => cases h
  | cons entry rest ih =>
    obtain ⟨k, v⟩ := entry
    rw [lookup_cons] at h
    by_cases hk : key = k
    · rw [if_pos hk] at h
      cases h
      simp [insert, hk]
    · rw [if_neg hk] at h
      simp [insert, Ne.symm hk, ih h]

/-- Erasing a key that was just bound for the first time changes nothing. -/
theorem erase_insert (value : α)
    (h : entries.lookup key = none) : erase key (insert key value entries) = entries := by
  induction entries with
  | nil => simp [insert, erase]
  | cons entry rest ih =>
    obtain ⟨k, v⟩ := entry
    rw [lookup_cons] at h
    by_cases hk : key = k
    · rw [if_pos hk] at h
      cases h
    · rw [if_neg hk] at h
      have herase : erase key ((k, v) :: insert key value rest) =
          (k, v) :: erase key (insert key value rest) := by
        simp [erase, Ne.symm hk]
      rw [insert, if_neg (Ne.symm hk), herase, ih h]

@[simp] theorem lookup_erase_self (key : κ) (entries : List (κ × α)) :
    (erase key entries).lookup key = none := by
  induction entries with
  | nil => rfl
  | cons entry rest ih =>
    obtain ⟨k, v⟩ := entry
    by_cases h : k = key
    · simpa [erase, h] using ih
    · simpa [erase, h, Ne.symm h] using ih

theorem lookup_erase_of_ne {other : κ} (entries : List (κ × α)) (hne : other ≠ key) :
    (erase key entries).lookup other = entries.lookup other := by
  induction entries with
  | nil => rfl
  | cons entry rest ih =>
    obtain ⟨k, v⟩ := entry
    by_cases h : k = key
    · subst h
      simpa [erase, hne] using ih
    · have hfilter : erase key ((k, v) :: rest) = (k, v) :: erase key rest := by
        simp [erase, h]
      rw [hfilter, lookup_cons, lookup_cons, ih]

/-- A sorted insertion is read back, and leaves the other keys alone. -/
theorem lookup_insertSorted [LT κ] [DecidableLT κ] (key other : κ) (value : α)
    (entries : List (κ × α)) : (insertSorted key value entries).lookup other =
      if other = key then some value else entries.lookup other := by
  induction entries with
  | nil => simp [insertSorted]
  | cons entry rest ih =>
    obtain ⟨k, v⟩ := entry
    rw [insertSorted]
    split
    · next h =>
        subst h
        by_cases ho : other = k <;> simp [ho]
    · next h =>
        split
        · rw [lookup_cons]
        · rw [lookup_cons, lookup_cons, ih]
          by_cases ho : other = k
          · subst ho
            simp [h]
          · simp [ho]

/-- The keys, in the order of the entries. -/
def keys (entries : List (κ × α)) : List κ := entries.map Prod.fst

theorem keys_erase (key : κ) (entries : List (κ × α)) :
    keys (erase key entries) = (keys entries).filter (· ≠ key) := by
  rw [keys, keys, erase, List.filter_map]
  rfl

theorem lookup_isSome_iff :
    (entries.lookup key).isSome ↔ key ∈ keys entries := by
  induction entries with
  | nil => simp [keys]
  | cons entry rest ih =>
    obtain ⟨k, v⟩ := entry
    rw [lookup_cons]
    by_cases h : key = k
    · simp [keys, h]
    · simpa [keys, h] using ih

theorem exists_lookup (h : key ∈ keys entries) :
    ∃ value, entries.lookup key = some value :=
  Option.isSome_iff_exists.mp (lookup_isSome_iff.mpr h)

theorem lookup_eq_none (h : key ∉ keys entries) :
    entries.lookup key = none := by
  rw [← lookup_isSome_iff] at h
  exact Option.not_isSome_iff_eq_none.mp h

theorem erase_of_not_mem (h : key ∉ keys entries) :
    erase key entries = entries := by
  refine List.filter_eq_self.mpr fun entry hentry => ?_
  have hne : entry.1 ≠ key := fun heq => h (heq ▸ List.mem_map_of_mem hentry)
  simpa using hne

/-- Erasing a key takes its one entry out. -/
theorem perm_cons_erase (hkeys : (keys entries).Nodup) (hlookup : entries.lookup key = some value) :
    entries.Perm ((key, value) :: erase key entries) := by
  induction entries with
  | nil => cases hlookup
  | cons entry rest ih =>
    obtain ⟨k, v⟩ := entry
    obtain ⟨hnot, hrest⟩ := List.nodup_cons.mp hkeys
    rw [lookup_cons] at hlookup
    split at hlookup
    · next h =>
        subst h
        cases hlookup
        have herase : erase key ((key, value) :: rest) = erase key rest := by simp [erase]
        rw [herase, erase_of_not_mem hnot]
    · next h =>
        have herase : erase key ((k, v) :: rest) = (k, v) :: erase key rest := by
          simp [erase, Ne.symm h]
        rw [herase]
        exact ((ih hrest hlookup).cons _).trans (.swap _ _ _)

theorem mem_of_lookup (h : entries.lookup key = some value) : (key, value) ∈ entries := by
  induction entries with
  | nil => cases h
  | cons entry rest ih =>
    obtain ⟨k, v⟩ := entry
    rw [lookup_cons] at h
    split at h
    · next hk =>
        cases h
        exact hk ▸ List.mem_cons_self
    · exact List.mem_cons_of_mem _ (ih h)

/-- An entry is what its key reads when no key occurs twice. -/
theorem lookup_of_mem (hkeys : (keys entries).Nodup)
    (hmem : (key, value) ∈ entries) : entries.lookup key = some value := by
  induction entries with
  | nil => cases hmem
  | cons entry rest ih =>
    obtain ⟨k, v⟩ := entry
    obtain ⟨hk, hrest⟩ := List.nodup_cons.mp hkeys
    rw [lookup_cons]
    rcases List.mem_cons.mp hmem with heq | hmem
    · obtain ⟨rfl, rfl⟩ := Prod.mk.inj heq
      simp
    · have hkey : key ∈ keys rest := List.mem_map_of_mem hmem
      rw [if_neg fun he : key = k => hk (he ▸ hkey)]
      exact ih hrest hmem

variable {entry : κ × α}

theorem mem_of_mem_insertSorted [LT κ] [DecidableLT κ]
    (h : entry ∈ insertSorted key value entries) :
    entry = (key, value) ∨ entry ∈ entries := by
  induction entries with
  | nil => exact .inl (List.mem_singleton.mp h)
  | cons first rest ih =>
    rw [insertSorted] at h
    split at h
    · next hk =>
        rcases List.mem_cons.mp h with h | h
        · exact .inl (hk ▸ h)
        · exact .inr (List.mem_cons_of_mem _ h)
    split at h
    · rcases List.mem_cons.mp h with h | h
      · exact .inl h
      · exact .inr h
    · rcases List.mem_cons.mp h with h | h
      · exact .inr (h ▸ List.mem_cons_self)
      · exact (ih h).imp_right (List.mem_cons_of_mem _)

/-- A sorted insertion keeps the keys increasing. -/
theorem sorted_insertSorted [LT κ] [DecidableLT κ] [IsTrans κ (· < ·)]
    [Std.Trichotomous (α := κ) (· < ·)] (key : κ) (value : α)
    (h : entries.Pairwise fun a b => a.1 < b.1) :
    (insertSorted key value entries).Pairwise fun a b => a.1 < b.1 := by
  induction entries with
  | nil => simp [insertSorted]
  | cons first rest ih =>
    obtain ⟨k, v⟩ := first
    obtain ⟨hfirst, hrest⟩ := List.pairwise_cons.mp h
    rw [insertSorted]
    split
    · next hk => exact List.pairwise_cons.mpr ⟨hfirst, hrest⟩
    · next hk =>
        split
        · next hlt =>
            refine List.pairwise_cons.mpr ⟨fun entry hentry => ?_, h⟩
            rcases List.mem_cons.mp hentry with rfl | hentry
            · exact hlt
            · exact Trans.trans hlt (hfirst entry hentry)
        · next hlt =>
            have hgt : k < key := by
              refine Decidable.byContradiction fun hnot => ?_
              exact hk (Std.Trichotomous.trichotomous k key hnot hlt)
            refine List.pairwise_cons.mpr ⟨fun entry hentry => ?_, ih hrest⟩
            rcases mem_of_mem_insertSorted hentry with rfl | hentry
            · exact hgt
            · exact hfirst entry hentry

/-- A key that is not bound goes last. -/
theorem insert_of_not_mem (value : α) (h : key ∉ keys entries) :
    insert key value entries = entries ++ [(key, value)] := by
  induction entries with
  | nil => rfl
  | cons entry rest ih =>
    obtain ⟨k, v⟩ := entry
    rw [keys, List.map_cons, List.mem_cons, not_or] at h
    rw [insert, if_neg (Ne.symm h.1), ih h.2, List.cons_append]

/-- A key that is bound stays where it is. -/
theorem keys_insert_of_mem (value : α) (h : key ∈ keys entries) :
    keys (insert key value entries) = keys entries := by
  induction entries with
  | nil => cases h
  | cons entry rest ih =>
    obtain ⟨k, v⟩ := entry
    rw [insert]
    split
    · rfl
    · next hne =>
        rcases List.mem_cons.mp h with heq | hrest
        · exact absurd heq.symm hne
        · exact congrArg (List.cons k) (ih hrest)

theorem nodup_keys_insert (value : α)
    (h : (keys entries).Nodup) : (keys (insert key value entries)).Nodup := by
  by_cases hmem : key ∈ keys entries
  · rwa [keys_insert_of_mem value hmem]
  · rw [insert_of_not_mem value hmem, keys, List.map_append]
    refine List.nodup_append.mpr ⟨h, List.nodup_singleton key, ?_⟩
    intro other hother k hk
    rw [List.mem_singleton.mp hk]
    intro heq
    have hbound : other ∈ keys entries := hother
    rw [heq] at hbound
    exact hmem hbound

/-- With no key twice, an insertion leaves its own entry and those of the other keys. -/
theorem mem_insert (h : (keys entries).Nodup)
    :
    entry ∈ insert key value entries ↔ entry = (key, value) ∨ entry.1 ≠ key ∧ entry ∈ entries := by
  obtain ⟨k, v⟩ := entry
  by_cases hk : k = key
  · subst hk
    constructor
    · intro hmem
      have hlookup := lookup_of_mem (nodup_keys_insert value h) hmem
      rw [lookup_insert_self] at hlookup
      cases hlookup
      exact .inl rfl
    · intro hmem
      rcases hmem with heq | hne
      · rw [heq]
        exact mem_of_lookup (lookup_insert_self k value entries)
      · exact absurd rfl hne.1
  · have hlookup := lookup_insert_of_ne value entries hk
    constructor
    · intro hmem
      have hfound := lookup_of_mem (nodup_keys_insert value h) hmem
      rw [hlookup] at hfound
      exact .inr ⟨hk, mem_of_lookup hfound⟩
    · intro hmem
      rcases hmem with heq | hother
      · exact absurd (congrArg Prod.fst heq) hk
      · exact mem_of_lookup (hlookup.trans (lookup_of_mem h hother.2))

theorem mem_erase :
    entry ∈ erase key entries ↔ entry ∈ entries ∧ entry.1 ≠ key := by
  rw [erase, List.mem_filter, decide_eq_true_eq]

theorem not_mem_keys_of_lookup (h : entries.lookup key = none) :
    key ∉ keys entries := by
  intro hmem
  rw [← lookup_isSome_iff, h] at hmem
  cases hmem

/-- The entries grew by exactly these keys, each once and none bound before. -/
structure Fresh (keys : List κ) (before after : List (κ × α)) : Prop where
  nodup : keys.Nodup
  unbound : ∀ key ∈ keys, contains key before = false
  grown : ∀ key, contains key after = true ↔ contains key before = true ∨ key ∈ keys

namespace Fresh

variable {keys more : List κ} {before middle after : List (κ × α)}

theorem nil : Fresh [] before before :=
  ⟨List.nodup_nil, by simp, by simp⟩

theorem append (h : Fresh keys before middle) (h' : Fresh more middle after) :
    Fresh (keys ++ more) before after := by
  have hmiddle : ∀ key ∈ more, contains key before = false ∧ key ∉ keys := by
    intro key hkey
    have hnot : ¬ contains key middle = true := by simp [h'.unbound key hkey]
    rw [h.grown key, not_or] at hnot
    exact ⟨by simpa using hnot.1, hnot.2⟩
  refine ⟨List.nodup_append.mpr ⟨h.nodup, h'.nodup, fun a ha b hb hab => ?_⟩, ?_, fun key => ?_⟩
  · exact (hmiddle b hb).2 (hab ▸ ha)
  · intro key hkey
    rcases List.mem_append.mp hkey with hkey | hkey
    · exact h.unbound key hkey
    · exact (hmiddle key hkey).1
  · rw [h'.grown key, h.grown key, List.mem_append, or_assoc]

/-- Binding an unbound key. -/
theorem insertSorted [LT κ] [DecidableLT κ] {key : κ} (value : α)
    (h : contains key before = false) :
    Fresh [key] before (Assoc.insertSorted key value before) := by
  refine ⟨List.nodup_singleton key, by simpa using h, fun other => ?_⟩
  rw [contains, lookup_insertSorted]
  by_cases ho : other = key
  · simp [ho]
  · simp [ho, contains]

end Fresh

end RustyPhoton.Lib.Assoc
