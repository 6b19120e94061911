import RustyPhoton.Lib.Traced

/-!
# What a computation leaves

A property of how a run ended and of the trace it left, whatever state it started from. It is proved
along a sequence: what the first step left is at hand when the rest is looked at.
-/

namespace RustyPhoton.Lib.Traced

variable {S H N α β : Type}

/-- One call: it answers or fails, and leaves a mark of how it went. -/
def call (f : S → Except H α × N × S) : Traced S H N α := fun s =>
  ⟨(f s).1, [(f s).2.1], (f s).2.2⟩

/-- Every run ends, and leaves a trace, as `Q` says. -/
def Leaves (Q : Except H α → List N → Prop) (m : Traced S H N α) : Prop :=
  ∀ s, Q (m s).out (m s).log

namespace Leaves

variable {Q : Except H α → List N → Prop} {R : Except H β → List N → Prop} {m : Traced S H N α}

theorem mono {Q' : Except H α → List N → Prop} (h : Leaves Q m)
    (himp : ∀ out l, Q out l → Q' out l) : Leaves Q' m :=
  fun s => himp _ _ (h s)

/-- Nothing is said. -/
theorem any : Leaves (fun _ _ => True) m := fun _ => trivial

theorem pure {a : α} (h : Q (.ok a) []) : Leaves Q (Pure.pure a : Traced S H N α) :=
  fun _ => h

theorem halt {e : H} (h : Q (.error e) []) : Leaves Q (Traced.halt e : Traced S H N α) :=
  fun _ => h

theorem ofExcept {e : Except H α} (h : Q e []) : Leaves Q (Traced.ofExcept e : Traced S H N α) :=
  fun _ => h

theorem call {f : S → Except H α × N × S} (h : ∀ s, Q (f s).1 [(f s).2.1]) :
    Leaves Q (Traced.call f) :=
  h

/-- A halt ends the sequence; a value is handed on. -/
theorem bind {f : α → Traced S H N β} (hm : Leaves Q m)
    (herror : ∀ h l, Q (.error h) l → R (.error h) l)
    (hok : ∀ a l, Q (.ok a) l → Leaves (fun out l' => R out (l ++ l')) (f a)) :
    Leaves R (m >>= f) := by
  intro s
  show R (Traced.bind m f s).out (Traced.bind m f s).log
  have hms : Q (m s).out (m s).log := hm s
  unfold Traced.bind
  cases hout : (m s).out with
  | ok a =>
    rw [hout] at hms
    exact hok a _ hms (m s).st
  | error h =>
    rw [hout] at hms
    exact herror h _ hms

/-- Either outcome is handed on. -/
theorem attempt {f : Except H α → Traced S H N β} (hm : Leaves Q m)
    (hnext : ∀ out l, Q out l → Leaves (fun out' l' => R out' (l ++ l')) (f out)) :
    Leaves R (Traced.attempt m >>= f) :=
  fun s => hnext _ _ (hm s) (m s).st

end Leaves

end RustyPhoton.Lib.Traced
