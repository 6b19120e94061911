import Mathlib.Logic.Basic

/-!
# Computations with a trace

A computation over a state that returns a value or halts, and leaves a trace of what it did either
way. A relation between the states around a run, its trace and its halt is proved of a computation
step by step: it has to compose along sequencing, and every primitive step has to meet it.
-/

namespace RustyPhoton.Lib

/-- How a run ended: its value or halt, its trace and the state it left. -/
structure Run (S H N α : Type) where
  out : Except H α
  log : List N
  st : S

/-- Why a run did not return, if it did not. -/
def Run.halt {S H N α : Type} (r : Run S H N α) : Option H :=
  match r.out with
  | .ok _ => none
  | .error h => some h

/-- A computation over `S` that may halt with an `H` and traces `N`s. -/
def Traced (S H N α : Type) := S → Run S H N α

namespace Traced

variable {S H N α β : Type}

def pure (a : α) : Traced S H N α := fun s => ⟨.ok a, [], s⟩

def bind (m : Traced S H N α) (f : α → Traced S H N β) : Traced S H N β := fun s =>
  match (m s).out with
  | .ok a =>
      let r := f a (m s).st
      ⟨r.out, (m s).log ++ r.log, r.st⟩
  | .error h => ⟨.error h, (m s).log, (m s).st⟩

instance : Monad (Traced S H N) where
  pure := pure
  bind := bind

/-- Read the state. -/
def read : Traced S H N S := fun s => ⟨.ok s, [], s⟩

/-- Change the state. -/
def update (f : S → S) : Traced S H N Unit := fun s => ⟨.ok (), [], f s⟩

/-- Stop here. -/
def halt (h : H) : Traced S H N α := fun s => ⟨.error h, [], s⟩

/-- Leave a mark. -/
def emit (n : N) : Traced S H N Unit := fun s => ⟨.ok (), [n], s⟩

/-- A step given by a function of the state. -/
def step (f : S → α × List N × S) : Traced S H N α := fun s =>
  ⟨.ok (f s).1, (f s).2.1, (f s).2.2⟩

/-- Run a computation and hand its outcome on, without halting. -/
def attempt (m : Traced S H N α) : Traced S H N (Except H α) := fun s =>
  ⟨.ok (m s).out, (m s).log, (m s).st⟩

/-- Continue with an outcome. -/
def ofExcept (e : Except H α) : Traced S H N α := fun s => ⟨e, [], s⟩

/-- Gather the trace of a computation under one node. -/
def span (node : List N → Option H → N) (m : Traced S H N α) : Traced S H N α := fun s =>
  ⟨(m s).out, [node (m s).log (m s).halt], (m s).st⟩

/-! ## Evaluation -/

theorem read_bind_run (f : S → Traced S H N β) (s : S) :
    ((read : Traced S H N S) >>= f) s = f s s := rfl

theorem update_bind_run (g : S → S) (f : Unit → Traced S H N β) (s : S) :
    ((update g : Traced S H N Unit) >>= f) s = f () (g s) := rfl

theorem attempt_bind_run (m : Traced S H N α) (f : Except H α → Traced S H N β) (s : S) :
    (attempt m >>= f) s =
      ⟨(f (m s).out (m s).st).out, (m s).log ++ (f (m s).out (m s).st).log,
        (f (m s).out (m s).st).st⟩ := rfl

variable {m : Traced S H N α} {s : S} {l : List N}

theorem bind_run_of_ok {t : S} {a : α} (h : m s = ⟨.ok a, l, t⟩) (f : α → Traced S H N β) :
    (m >>= f) s = ⟨(f a t).out, l ++ (f a t).log, (f a t).st⟩ := by
  show Traced.bind m f s = _
  simp only [Traced.bind, h]

theorem bind_run_of_error {t : S} {h : H}
    (hm : m s = ⟨.error h, l, t⟩) (f : α → Traced S H N β) : (m >>= f) s = ⟨.error h, l, t⟩ := by
  show Traced.bind m f s = _
  simp only [Traced.bind, hm]

variable {f : α → Traced S H N β}

/-- A sequence returns exactly when both of its steps do. -/
theorem bind_out_eq_ok {b : β} :
    ((m >>= f) s).out = .ok b ↔
      ∃ a, (m s).out = .ok a ∧ (f a (m s).st).out = .ok b := by
  show (Traced.bind m f s).out = .ok b ↔ _
  unfold Traced.bind
  cases (m s).out with
  | ok a => simp
  | error h => simp

/-- A relation between the state before, the trace, the halt and the state after. -/
abbrev Rel (S H N : Type) := S → List N → Option H → S → Prop

/-- Every run of the computation is in the relation. -/
def Sat (R : Rel S H N) (m : Traced S H N α) : Prop :=
  ∀ s, R s (m s).log (m s).halt (m s).st

/-- The run of the computation from this state is in the relation. -/
def SatAt (R : Rel S H N) (m : Traced S H N α) (s : S) : Prop :=
  R s (m s).log (m s).halt (m s).st

/-- A relation that holds of doing nothing and composes along sequencing. -/
structure Composes (R : Rel S H N) : Prop where
  refl : ∀ s, R s [] none s
  trans : ∀ {s l t l' h u}, R s l none t → R t l' h u → R s (l ++ l') h u

/-- Sequencing from a state, where the continuation may use that the first step returned. -/
theorem SatAt.bind {R : Rel S H N} (hR : Composes R)
    (hm : SatAt R m s) (hf : ∀ a, (m s).out = .ok a → SatAt R (f a) (m s).st) :
    SatAt R (m >>= f) s := by
  show R s (Traced.bind m f s).log (Traced.bind m f s).halt (Traced.bind m f s).st
  have hms : R s (m s).log (m s).halt (m s).st := hm
  unfold Traced.bind
  cases ho : (m s).out with
  | ok a =>
    have hhalt : (m s).halt = none := by simp [Run.halt, ho]
    rw [hhalt] at hms
    exact hR.trans hms (hf a ho)
  | error h =>
    have hhalt : (m s).halt = some h := by simp [Run.halt, ho]
    rw [hhalt] at hms
    exact hms

namespace Sat

variable {R R' : Rel S H N} {m : Traced S H N α} {f : α → Traced S H N β}

theorem mono (h : Sat R m) (himp : ∀ s l o t, R s l o t → R' s l o t) : Sat R' m :=
  fun s => himp _ _ _ _ (h s)

theorem pure (hR : Composes R) (a : α) : Sat R (Pure.pure a : Traced S H N α) :=
  fun s => hR.refl s

theorem read (hR : Composes R) : Sat R (Traced.read : Traced S H N S) :=
  fun s => hR.refl s

/-- Sequencing, where the continuation may use that the first step returned its value. -/
theorem bind' (hR : Composes R) (hm : Sat R m)
    (hf : ∀ s a, (m s).out = .ok a → SatAt R (f a) (m s).st) : Sat R (m >>= f) :=
  fun s => SatAt.bind hR (hm s) fun a ho => hf s a ho

theorem bind (hR : Composes R) (hm : Sat R m) (hf : ∀ a, Sat R (f a)) : Sat R (m >>= f) :=
  bind' hR hm fun s a _ => hf a (m s).st

end Sat

end Traced

end RustyPhoton.Lib
