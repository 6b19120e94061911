import Mathlib.Logic.Basic

/-!
# Runs of fallible code

A computation in `Except` that returns a value took no error exit on the way. These rules take
such a run apart, step by step; `Ends` says something of both exits at once.
-/

namespace RustyPhoton.Lib.Fallible

variable {ε α β : Type}

variable {f : α → Except ε β} {b : β}

theorem bind_eq_ok {x : Except ε α} :
    (x >>= f) = .ok b ↔ ∃ a, x = .ok a ∧ f a = .ok b := by
  cases x with
  | error e => simp [bind, Except.bind]
  | ok a => simp [bind, Except.bind]

theorem pure_eq_ok {a b : α} : (pure a : Except ε α) = .ok b ↔ a = b :=
  ⟨Except.ok.inj, congrArg Except.ok⟩

variable {e : ε}

@[simp] theorem throw_ne_ok : (throw e : Except ε β) ≠ .ok b :=
  fun h => nomatch h

theorem not_throw_bind_eq_ok :
    ¬ ((throw e : Except ε α) >>= f) = .ok b :=
  fun h => nomatch h

/-- A check that throws where its condition holds was passed. -/
theorem not_of_ite_throw_eq_ok {c : Prop} [Decidable c]
    {y : Except ε β} (h : (if c then (throw e : Except ε α) >>= f else y) = .ok b) :
    ¬ c ∧ y = .ok b := by
  by_cases hc : c
  · rw [if_pos hc] at h
    exact absurd h not_throw_bind_eq_ok
  · rw [if_neg hc] at h
    exact ⟨hc, h⟩

/-- A run that succeeded, without its value. -/
def isOk : Except ε α → Bool
  | .ok _ => true
  | .error _ => false

theorem isOk_seq (x : Except ε Unit) (y : Except ε α) :
    isOk (do x; y) = (isOk x && isOk y) := by
  cases x <;> rfl

theorem isOk_iff (x : Except ε α) : isOk x = true ↔ ∃ a, x = .ok a := by
  cases x <;> simp [isOk]

/-- How a run ends: its value meets `P`, or its error meets `E`. -/
def Ends (P : α → Prop) (E : ε → Prop) : Except ε α → Prop
  | .ok a => P a
  | .error e => E e

namespace Ends

variable {P P' : α → Prop} {Q : β → Prop} {E : ε → Prop} {x : Except ε α}

end Ends

end RustyPhoton.Lib.Fallible
