import Mathlib.Data.Nat.Notation

/-!
# Slots with fencing tokens

A slot is empty or names its owner by a token, and no token is handed out twice. Whoever has lost
the slot never owns it again, whatever the others do.
-/

namespace RustyPhoton.Lib

universe u v w

/-- The token of the owner, and the tokens handed out: all those before `next`. -/
structure Fence where
  owner : Option ℕ
  next : ℕ

namespace Fence

/-- An owner goes on, the slot is emptied, or a token that was never out claims it. -/
structure Moves (before after : Fence) : Prop where
  next_le : before.next ≤ after.next
  owner : ∀ token, after.owner = some token →
    before.owner = some token ∨ (before.next ≤ token ∧ token < after.next)

/-- A token that was handed out and no longer owns the slot. -/
structure Lost (fence : Fence) (token : ℕ) : Prop where
  issued : token < fence.next
  gone : fence.owner ≠ some token

variable {before after last : Fence} {token : ℕ}

theorem Moves.refl (fence : Fence) : Moves fence fence :=
  ⟨Nat.le_refl _, fun _ h => .inl h⟩

theorem Moves.trans (h : Moves before after) (h' : Moves after last) : Moves before last := by
  refine ⟨Nat.le_trans h.next_le h'.next_le, ?_⟩
  intro token howner
  rcases h'.owner token howner with hafter | ⟨hle, hlt⟩
  · rcases h.owner token hafter with hbefore | ⟨hle, hlt⟩
    · exact .inl hbefore
    · exact .inr ⟨hle, Nat.lt_of_lt_of_le hlt h'.next_le⟩
  · exact .inr ⟨Nat.le_trans h.next_le hle, hlt⟩

/-- The owner goes on, or is no more. -/
theorem Moves.of_keeps (hnext : before.next ≤ after.next)
    (howner : after.owner = before.owner ∨ after.owner = none) : Moves before after := by
  refine ⟨hnext, ?_⟩
  intro token h
  rcases howner with hkept | hnone
  · exact .inl (hkept ▸ h)
  · rw [hnone] at h
    cases h

theorem Lost.moves (h : before.Lost token) (hmoves : Moves before after) : after.Lost token := by
  refine ⟨Nat.lt_of_lt_of_le h.issued hmoves.next_le, ?_⟩
  intro howner
  rcases hmoves.owner token howner with hbefore | ⟨hle, -⟩
  · exact h.gone hbefore
  · exact absurd h.issued (Nat.not_lt.mpr hle)

end Fence

end RustyPhoton.Lib
