import RustyPhoton.Lib.JsonPointer
import RustyPhoton.Rp.Targets.Tools

/-!
# Slugs of new rows

What `allocate_suffix` and `resolveSlug` answer on a store that stays, and the shape of the tools:
reads, and one write at most.
-/

namespace RustyPhoton.Rp.Targets

open Lib
open SessionRunner (isWhiteSpace whiteSpace)

section Canonical

/-! ## Canonical tokens -/

theorem not_isWhiteSpace_of_isSlugChar {c : Char} (h : isSlugChar c = true) :
    isWhiteSpace c = false := by
  have hspaces : whiteSpace.all (fun c => !isSlugChar c) = true := by decide
  cases hspace : isWhiteSpace c with
  | false => rfl
  | true =>
    have hc := List.all_eq_true.mp hspaces c (List.contains_iff_mem.mp hspace)
    rw [h] at hc
    cases hc

theorem isSlugChar_of_isDigit {c : Char} (h : c.isDigit = true) : isSlugChar c = true := by
  rw [isSlugChar, h, Bool.or_true, Bool.true_or]

/-- The slug `"{base}-{n}"`. -/
def suffixSlug (base : TargetSlug) (n : Nat) : TargetSlug where
  text := base.text ++ "-" ++ toString n
  nonempty := by
    rw [String.toList_append, String.toList_append]
    intro h
    exact base.nonempty (List.append_eq_nil_iff.mp (List.append_eq_nil_iff.mp h).1).1
  canonical := by
    rw [String.toList_append, String.toList_append, List.all_append, List.all_append, base.canonical]
    refine List.all_eq_true.mpr fun c hc => isSlugChar_of_isDigit (Value.isDigit_of_mem_toString hc)

theorem suffixSlug_ne (base : TargetSlug) (n : Nat) : suffixSlug base n ≠ base := by
  intro h
  have hlength := congrArg (fun slug : TargetSlug => slug.text.length) h
  have hhyphen : "-".length = 1 := rfl
  simp only [suffixSlug, String.length_append, hhyphen] at hlength
  omega

variable [Crates]

/-- A canonical token is its own slug. -/
theorem TargetSlug.new_text (crates : Crates.Lawful) (slug : TargetSlug) :
    TargetSlug.new slug.text = .ok slug := by
  have hchars : ∀ c ∈ slug.text.toList, isSlugChar c = true := List.all_eq_true.mp slug.canonical
  have hspaces : slug.text.toList.any isWhiteSpace = false :=
    List.any_eq_false.mpr fun c hc => by simp [not_isWhiteSpace_of_isSlugChar (hchars c hc)]
  have hblank : ¬ slug.text.toList.all isWhiteSpace = true := by
    intro hall
    obtain ⟨c, hc⟩ := List.exists_mem_of_ne_nil _ slug.nonempty
    have hspace := List.all_eq_true.mp hall c hc
    rw [not_isWhiteSpace_of_isSlugChar (hchars c hc)] at hspace
    cases hspace
  have hlower : slug.text.toList.flatMap Crates.toLowercase = slug.text.toList := by
    have hsame : ∀ cs : List Char, (∀ c ∈ cs, isSlugChar c = true) →
        cs.flatMap Crates.toLowercase = cs := by
      intro cs
      induction cs with
      | nil => intro _; rfl
      | cons c rest ih =>
        intro hcs
        rw [List.flatMap_cons, crates.lower c (hcs c (by simp)),
          ih fun d hd => hcs d (List.mem_cons_of_mem c hd)]
        rfl
    exact hsame _ hchars
  rw [TargetSlug.new, dif_neg hblank, hspaces, if_neg Bool.false_ne_true,
    dif_pos (by rw [hlower]; exact slug.canonical)]
  exact congrArg Except.ok (Store.text_inj.mp (by
    show String.ofList _ = slug.text
    rw [hlower, String.ofList_toList]))

theorem suffixed_eq (crates : Crates.Lawful) (base : TargetSlug) (n : Nat) :
    suffixed base n = .ok (suffixSlug base n) :=
  TargetSlug.new_text crates (suffixSlug base n)

end Canonical

variable [Crates] {base : TargetSlug} {s : Store}

/-! ## Shapes -/

theorem probeSuffix_readsOnly (base : TargetSlug) (n left : Nat) :
    (probeSuffix base n left).ReadsOnly := by
  induction left generalizing n with
  | zero => trivial
  | succ left ih =>
    rw [probeSuffix]
    split
    · trivial
    · refine ⟨rfl, ?_⟩
      intro (found : Option Target)
      cases found with
      | none => trivial
      | some _ => exact ih (n + 1)

theorem allocateSuffix_readsOnly (base : TargetSlug) : (allocateSuffix base).ReadsOnly :=
  probeSuffix_readsOnly base 2 _

theorem freeSlug_readsOnly (base : TargetSlug) : (freeSlug base).ReadsOnly := by
  refine ⟨rfl, ?_⟩
  intro (found : Option Target)
  cases found with
  | none => trivial
  | some _ => exact allocateSuffix_readsOnly base

theorem resolveSlug_readsOnly (name : Named) (base : TargetSlug) :
    (resolveSlug name base).ReadsOnly := by
  refine ⟨rfl, ?_⟩
  intro (existing : Option Target)
  cases existing with
  | none => trivial
  | some existing =>
    show Program.ReadsOnly (if _ then _ else _)
    split
    · trivial
    · exact (allocateSuffix_readsOnly base).andThen fun allocated => by cases allocated <;> trivial

/-- The write at the end of a tool is its only operation. -/
theorem upsertAndReply_writesOnce (target : Target) (reply : ToolReply) :
    (upsertAndReply target reply).WritesOnce := by
  intro (answer : Except TargetStoreError Unit)
  cases answer <;> trivial

theorem addResolved_writesOnce (handler : Handler) (params : AddTargetParams) (now : String)
    (prepared : Prepared) (resolved : Except String (TargetSlug × Bool)) :
    (addResolved handler params now prepared resolved).WritesOnce := by
  unfold addResolved
  split
  · trivial
  · split
    · trivial
    · split
      · trivial
      · exact upsertAndReply_writesOnce _ _

theorem importListed_writesOnce (handler : Handler) (params : AddTargetParams) (source : SourceWire)
    (now : String) (coord : IcrsCoord) (goals : List AcquisitionGoal) (all : List Target) :
    (importListed handler params source now coord goals all).WritesOnce := by
  rw [importListed]
  split
  · exact upsertAndReply_writesOnce _ _
  · simp only [importBeside]
    split
    · trivial
    · refine (freeSlug_readsOnly _).bind fun allocated => ?_
      cases allocated with
      | error e => trivial
      | ok slug => exact upsertAndReply_writesOnce _ _

theorem addTarget_writesOnce (handler : Handler) (params : AddTargetParams) (now : String) :
    (addTarget handler params now).WritesOnce := by
  rw [addTarget]
  split
  · rw [addTargetImport]
    split
    · trivial
    · exact fun all => importListed_writesOnce _ _ _ _ _ _ all
  · rw [addTargetOperator]
    split
    · trivial
    · exact (resolveSlug_readsOnly _ _).bind fun resolved => addResolved_writesOnce _ _ _ _ resolved

theorem updateTarget_writesOnce (params : UpdateTargetParams) (now : String) :
    (updateTarget params now).WritesOnce := by
  rw [updateTarget]
  split
  · trivial
  · intro (found : Option Target)
    cases found with
    | none => trivial
    | some target =>
      dsimp only
      split
      · trivial
      · exact upsertAndReply_writesOnce _ _

theorem deleteTarget_writesOnce (slug : String) : (deleteTarget slug).WritesOnce := by
  rw [deleteTarget]
  split
  · trivial
  · exact fun _ => trivial

theorem setGoals_writesOnce (handler : Handler) (params : SetGoalsParams) (now : String) :
    (setGoals handler params now).WritesOnce := by
  rw [setGoals]
  split
  · trivial
  · split
    · trivial
    · intro (answer : Except TargetStoreError Unit)
      cases answer with
      | error e => trivial
      | ok _ =>
        refine ⟨rfl, ?_⟩
        intro (found : Option Target)
        cases found <;> trivial

/-! ## The suffix that is found -/

/-- Some suffix of a base slug is free. -/
def FreeSuffix (s : Store) (base : TargetSlug) : Prop :=
  ∃ n, 2 ≤ n ∧ n ≤ lastSuffix ∧ s.getTarget (suffixSlug base n) = none

theorem probeSuffix_ok {n left : Nat} {slug : TargetSlug} (crates : Crates.Lawful)
    (h : ((probeSuffix base n left).alone s).1 = .ok slug) :
    ∃ k, k < left ∧ slug = suffixSlug base (n + k) ∧ s.getTarget slug = none := by
  induction left generalizing n with
  | zero => cases h
  | succ left ih =>
    rw [probeSuffix, suffixed_eq crates] at h
    cases hget : s.getTarget (suffixSlug base n) with
    | none =>
      simp only [Program.alone_call, StoreOp.perform, hget, Program.alone_done] at h
      cases h
      exact ⟨0, Nat.succ_pos _, rfl, hget⟩
    | some row =>
      simp only [Program.alone_call, StoreOp.perform, hget] at h
      obtain ⟨k, hk, rfl, hfree⟩ := ih h
      have hnext : n + 1 + k = n + (k + 1) := by omega
      rw [hnext] at hfree ⊢
      exact ⟨k + 1, by omega, rfl, hfree⟩

theorem probeSuffix_error {n left : Nat} {e : String} (crates : Crates.Lawful)
    (h : ((probeSuffix base n left).alone s).1 = .error e) {k : Nat} (hk : k < left) :
    s.getTarget (suffixSlug base (n + k)) ≠ none := by
  induction left generalizing n k with
  | zero => omega
  | succ left ih =>
    rw [probeSuffix, suffixed_eq crates] at h
    cases hget : s.getTarget (suffixSlug base n) with
    | none =>
      simp only [Program.alone_call, StoreOp.perform, hget, Program.alone_done] at h
      cases h
    | some row =>
      simp only [Program.alone_call, StoreOp.perform, hget] at h
      cases k with
      | zero =>
        rw [Nat.add_zero, hget]
        exact Option.some_ne_none row
      | succ k =>
        have hnext : n + (k + 1) = n + 1 + k := by omega
        rw [hnext]
        exact ih h (by omega)

theorem allocateSuffix_ok {slug : TargetSlug} (crates : Crates.Lawful)
    (h : ((allocateSuffix base).alone s).1 = .ok slug) :
    ∃ n, 2 ≤ n ∧ n ≤ lastSuffix ∧ slug = suffixSlug base n ∧ s.getTarget slug = none := by
  obtain ⟨k, hk, hslug, hfree⟩ := probeSuffix_ok crates h
  exact ⟨2 + k, by omega, by rw [lastSuffix] at hk ⊢; omega, hslug, hfree⟩

/-- A suffix is allocated exactly where one is free. -/
theorem allocateSuffix_iff (crates : Crates.Lawful) :
    (∃ slug, ((allocateSuffix base).alone s).1 = .ok slug) ↔ FreeSuffix s base := by
  constructor
  · intro h
    obtain ⟨slug, hslug⟩ := h
    obtain ⟨n, hlow, hhigh, rfl, hfree⟩ := allocateSuffix_ok crates hslug
    exact ⟨n, hlow, hhigh, hfree⟩
  · intro h
    obtain ⟨n, hlow, hhigh, hfree⟩ := h
    cases hresult : ((allocateSuffix base).alone s).1 with
    | ok slug => exact ⟨slug, rfl⟩
    | error e =>
      have htaken := probeSuffix_error crates hresult (k := n - 2)
        (by rw [lastSuffix] at hhigh ⊢; omega)
      have hn : 2 + (n - 2) = n := by omega
      rw [hn] at htaken
      exact absurd hfree htaken

end RustyPhoton.Rp.Targets
