import Mathlib.Data.Nat.Basic

/-!
# Instants and saturating counters

Instants and durations are counted in nanoseconds. An instant's seconds are a signed 64-bit
integer, so that adding a duration to one can fail.
-/

namespace RustyPhoton.Lib

/-- The latest instant. -/
def instantMax : Nat := 9223372036854775807999999999

/-- The longest duration, whose seconds are an unsigned 64-bit integer. -/
def durationMax : Nat := 18446744073709551615999999999

def checkedAdd (now duration : Nat) : Option Nat :=
  if now + duration ≤ instantMax then some (now + duration) else none

def u32Max : Nat := 4294967295

def u64Max : Nat := 18446744073709551615

/-- One more, or the bound. -/
def saturatingSucc (bound count : Nat) : Nat := min (count + 1) bound

theorem checkedAdd_eq {now duration : Nat} (h : now + duration ≤ instantMax) :
    checkedAdd now duration = some (now + duration) := if_pos h

theorem eq_of_checkedAdd {now duration later : Nat} (h : checkedAdd now duration = some later) :
    later = now + duration := by
  unfold checkedAdd at h
  split at h
  · exact (Option.some.inj h).symm
  · cases h

theorem saturatingSucc_eq {bound count : Nat} (h : count < bound) :
    saturatingSucc bound count = count + 1 := Nat.min_eq_left h

end RustyPhoton.Lib
