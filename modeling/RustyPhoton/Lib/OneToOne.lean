import Mathlib.Data.List.FinRange
import Mathlib.Logic.Equiv.Fin.Basic

/-!
# One-to-one matching

A relation between two kinds of things, and the pairs it forces: those that match nothing else on either
side, and the one pair left over when everything else is paired. An injective choice that agrees with the
first must take the second. Both survive a renaming of either side.
-/

namespace RustyPhoton.Lib

variable {α β α' β' : Type}

/-- Each is the other's only match. -/
structure Sole (K : α → β → Prop) (a : α) (b : β) : Prop where
  pair : K a b
  right : ∀ b', K a b' → b' = b
  left : ∀ a', K a' b → a' = a

/-- Nothing else is left over on either side. -/
structure Leftover (P : α → β → Prop) (a : α) (b : β) : Prop where
  left : ∀ b', ¬P a b'
  right : ∀ a', ¬P a' b
  others : ∀ a', a' ≠ a → ∃ b', P a' b'
  others' : ∀ b', b' ≠ b → ∃ a', P a' b'

variable {K P : α → β → Prop}

theorem Sole.eq_left {a a' : α} {b : β} (h : Sole K a b) (h' : Sole K a' b) : a = a' :=
  h'.left a h.pair

theorem Leftover.eq {a a' : α} {b b' : β} (h : Leftover P a b) (h' : Leftover P a' b') :
    a = a' ∧ b = b' := by
  constructor
  · by_contra hne
    obtain ⟨c, hc⟩ := h'.others a hne
    exact h.left c hc
  · by_contra hne
    obtain ⟨c, hc⟩ := h'.others' b hne
    exact h.right c hc

/-- An injective choice that takes every pair takes the one left over. -/
theorem Leftover.forced {f : α → β} {a : α} {b : β} (h : Leftover P a b) (hf : Function.Injective f)
    (hpairs : ∀ a b, P a b → f a = b) : f a = b := by
  by_contra hne
  obtain ⟨a', ha'⟩ := h.others' (f a) hne
  have hsame : a' = a := hf (hpairs a' (f a) ha')
  rw [hsame] at ha'
  exact h.left (f a) ha'

/-! ## Renaming -/

section Renaming

variable {K' P' : α' → β' → Prop} {σ : α ≃ α'} {τ : β ≃ β'}

theorem Sole.map (hK : ∀ a b, K' (σ a) (τ b) ↔ K a b) {a : α} {b : β} (h : Sole K a b) :
    Sole K' (σ a) (τ b) where
  pair := (hK a b).mpr h.pair
  right := by
    rw [τ.surjective.forall]
    intro b' hb'
    rw [h.right b' ((hK a b').mp hb')]
  left := by
    rw [σ.surjective.forall]
    intro a' ha'
    rw [h.left a' ((hK a' b).mp ha')]

theorem sole_iff (hK : ∀ a b, K' (σ a) (τ b) ↔ K a b) (a : α) (b : β) :
    Sole K' (σ a) (τ b) ↔ Sole K a b := by
  refine ⟨fun h => ?_, fun h => h.map hK⟩
  have hback : ∀ a' b', K (σ.symm a') (τ.symm b') ↔ K' a' b' := fun a' b' => by
    rw [← hK, σ.apply_symm_apply, τ.apply_symm_apply]
  have hmap := h.map hback
  rwa [σ.symm_apply_apply, τ.symm_apply_apply] at hmap

theorem Leftover.map (hP : ∀ a b, P' (σ a) (τ b) ↔ P a b) {a : α} {b : β} (h : Leftover P a b) :
    Leftover P' (σ a) (τ b) where
  left := by
    rw [τ.surjective.forall]
    exact fun b' hb' => h.left b' ((hP a b').mp hb')
  right := by
    rw [σ.surjective.forall]
    exact fun a' ha' => h.right a' ((hP a' b).mp ha')
  others := by
    rw [σ.surjective.forall]
    intro a' hne
    obtain ⟨b', hb'⟩ := h.others a' fun hsame => hne (by rw [hsame])
    exact ⟨τ b', (hP a' b').mpr hb'⟩
  others' := by
    rw [τ.surjective.forall]
    intro b' hne
    obtain ⟨a', ha'⟩ := h.others' b' fun hsame => hne (by rw [hsame])
    exact ⟨σ a', (hP a' b').mpr ha'⟩

theorem leftover_iff (hP : ∀ a b, P' (σ a) (τ b) ↔ P a b) (a : α) (b : β) :
    Leftover P' (σ a) (τ b) ↔ Leftover P a b := by
  refine ⟨fun h => ?_, fun h => h.map hP⟩
  have hback : ∀ a' b', P (σ.symm a') (τ.symm b') ↔ P' a' b' := fun a' b' => by
    rw [← hP, σ.apply_symm_apply, τ.apply_symm_apply]
  have hmap := h.map hback
  rwa [σ.symm_apply_apply, τ.symm_apply_apply] at hmap

end Renaming

/-! ## Lists under new indices -/

/-- The second list is the first under new indices. -/
def Relabels {γ : Type} (l l' : List γ) (σ : Fin l.length ≃ Fin l'.length) : Prop :=
  ∀ i, l'.get (σ i) = l.get i

/-- A permuted list is the list under new indices. -/
theorem exists_relabels {γ : Type} {l l' : List γ} (h : l.Perm l') :
    ∃ σ : Fin l.length ≃ Fin l'.length, Relabels l l' σ := by
  induction h with
  | nil => exact ⟨Equiv.refl _, fun i => i.elim0⟩
  | cons x _ ih =>
    obtain ⟨σ, hσ⟩ := ih
    refine ⟨(finSuccEquiv _).trans (σ.optionCongr.trans (finSuccEquiv _).symm), fun i => ?_⟩
    induction i using Fin.cases with
    | zero => simp
    | succ i => simpa using hσ i
  | swap x y l =>
    refine ⟨(Equiv.swap 0 1 : Equiv.Perm (Fin (l.length + 2))), fun i => ?_⟩
    induction i using Fin.cases with
    | zero => rw [Equiv.swap_apply_left]; rfl
    | succ i =>
      induction i using Fin.cases with
      | zero => rw [show (Fin.succ 0 : Fin (l.length + 2)) = 1 from rfl, Equiv.swap_apply_right]; rfl
      | succ i =>
        rw [Equiv.swap_apply_of_ne_of_ne (Fin.succ_ne_zero _)]
        · rfl
        · exact fun h => Fin.succ_ne_zero i (Fin.succ_injective _ h)
  | trans _ _ ih ih' =>
    obtain ⟨σ, hσ⟩ := ih
    obtain ⟨τ, hτ⟩ := ih'
    exact ⟨σ.trans τ, fun i => (hτ (σ i)).trans (hσ i)⟩

/-- What a test holds of, under new indices. -/
theorem filter_finRange_perm {n m : ℕ} (σ : Fin n ≃ Fin m) {p : Fin n → Bool} {p' : Fin m → Bool}
    (h : ∀ i, p' (σ i) = p i) :
    ((List.finRange m).filter p').Perm (((List.finRange n).filter p).map σ) := by
  refine (List.perm_ext_iff_of_nodup ((List.nodup_finRange m).filter _)
    (((List.nodup_finRange n).filter _).map σ.injective)).mpr ?_
  rw [σ.surjective.forall]
  intro i
  simp [h]

end RustyPhoton.Lib
