import RustyPhoton.SessionRunner.Engine.Pump

/-!
# Reading a trace

The steps of a trace in the order they happened, the nodes at any depth of it, and the shape that
the trace of a block has: its instructions in order, each followed by a safe point, up to the first
one that raised.
-/

namespace RustyPhoton.SessionRunner.Engine

open Lib Traced

/-- A step of a trace: a span begins, a leaf, a span ends. -/
inductive Step where
  | enter (label : Label)
  | mark (m : Mark)
  | leave (label : Label) (halt : Option Halt)

mutual
/-- The steps of a node, in order. -/
def Node.steps : Node → List Step
  | .mark m => [.mark m]
  | .span label trace halt => .enter label :: (steps trace ++ [.leave label halt])

/-- The steps of a trace, in order. -/
def steps : Trace → List Step
  | [] => []
  | n :: rest => n.steps ++ steps rest
end

@[simp] theorem steps_nil : steps [] = [] := rfl

@[simp] theorem steps_cons (n : Node) (rest : Trace) :
    steps (n :: rest) = n.steps ++ steps rest := rfl

@[simp] theorem steps_mark (m : Mark) : (Node.mark m).steps = [.mark m] := rfl

@[simp] theorem steps_span (label : Label) (trace : Trace) (halt : Option Halt) :
    (Node.span label trace halt).steps = .enter label :: (steps trace ++ [.leave label halt]) :=
  rfl

@[simp] theorem steps_append (t t' : Trace) : steps (t ++ t') = steps t ++ steps t' := by
  induction t with
  | nil => rfl
  | cons n rest ih => simp [ih]

def Step.asMark : Step → Option Mark
  | .mark m => some m
  | _ => none

/-- The marks of a trace, in order. -/
def marks (t : Trace) : List Mark := (steps t).filterMap Step.asMark

@[simp] theorem marks_nil : marks [] = [] := rfl

@[simp] theorem marks_append (t t' : Trace) : marks (t ++ t') = marks t ++ marks t' := by
  simp [marks]

@[simp] theorem marks_span (label : Label) (t : Trace) (halt : Option Halt) :
    marks [.span label t halt] = marks t := by
  simp [marks, Step.asMark, List.filterMap_cons]

@[simp] theorem marks_mark (m : Mark) : marks [.mark m] = [m] := rfl

theorem mem_marks {m : Mark} {t : Trace} : m ∈ marks t ↔ .mark m ∈ steps t := by
  constructor
  · intro h
    obtain ⟨st, hst, heq⟩ := List.mem_filterMap.mp h
    cases st with
    | mark m' =>
      obtain rfl : m' = m := Option.some.inj heq
      exact hst
    | _ => cases heq
  · exact fun h => List.mem_filterMap.mpr ⟨_, h, rfl⟩

/-- Where only one step has a property, there is one way to split the steps at it. -/
theorem split_unique {p : Step → Prop} {before before' after after' : List Step} {st st' : Step}
    (h : before ++ st :: after = before' ++ st' :: after') (hst : p st)
    (hbefore : ∀ b ∈ before', ¬ p b) (hafter : ∀ a ∈ after', ¬ p a) :
    st = st' ∧ after = after' := by
  rcases List.append_eq_append_iff.mp h with ⟨mid, rfl, hmid⟩ | ⟨mid, rfl, hmid⟩
  · cases mid with
    | nil => exact List.cons.inj hmid
    | cons m mid =>
      obtain ⟨rfl, -⟩ := List.cons.inj hmid
      exact absurd hst (hbefore st (by simp))
  · cases mid with
    | nil => exact ⟨(List.cons.inj hmid).1.symm, (List.cons.inj hmid).2.symm⟩
    | cons m mid =>
      obtain ⟨rfl, rfl⟩ := List.cons.inj hmid
      exact absurd hst (hafter st (by simp))

/-- A node at any depth of a trace. -/
inductive Occurs (n : Node) : Trace → Prop where
  | here {t} (h : n ∈ t) : Occurs n t
  | inside {t label trace halt} (h : .span label trace halt ∈ t) (inner : Occurs n trace) :
      Occurs n t

theorem Occurs.mono {n : Node} {t t' : Trace} (h : Occurs n t) (hsub : t ⊆ t') : Occurs n t' := by
  cases h with
  | here hn => exact .here (hsub hn)
  | inside hs inner => exact .inside (hsub hs) inner

/-- A node inside a node of a trace is in the trace. -/
theorem Occurs.trans {n : Node} {label : Label} {sub t : Trace} {halt : Option Halt}
    (h : Occurs (.span label sub halt) t) (hn : Occurs n sub) : Occurs n t := by
  induction h with
  | here hs => exact .inside hs hn
  | inside hs _ ih => exact .inside hs ih

theorem occurs_append {n : Node} {t t' : Trace} :
    Occurs n (t ++ t') ↔ Occurs n t ∨ Occurs n t' := by
  constructor
  · intro h
    cases h with
    | here hn =>
      rcases List.mem_append.mp hn with hn | hn
      · exact .inl (.here hn)
      · exact .inr (.here hn)
    | inside hs inner =>
      rcases List.mem_append.mp hs with hs | hs
      · exact .inl (.inside hs inner)
      · exact .inr (.inside hs inner)
  · rintro (h | h)
    · exact h.mono (List.subset_append_left t t')
    · exact h.mono (List.subset_append_right t t')

@[simp] theorem not_occurs_nil {n : Node} : ¬ Occurs n [] := by
  intro h
  cases h with
  | here hn => simp at hn
  | inside hs _ => simp at hs

/-- The nodes of a one-span trace: the span itself and those inside. -/
theorem occurs_span {n : Node} {label : Label} {trace : Trace} {halt : Option Halt} :
    Occurs n [.span label trace halt] ↔ n = .span label trace halt ∨ Occurs n trace := by
  constructor
  · intro h
    cases h with
    | here hn => exact .inl (List.mem_singleton.mp hn)
    | inside hs inner =>
      obtain ⟨rfl, rfl, rfl⟩ := Node.span.inj (List.mem_singleton.mp hs)
      exact .inr inner
  · rintro (rfl | h)
    · exact .here (List.mem_singleton_self _)
    · exact .inside (List.mem_singleton_self _) h

theorem occurs_mark {n : Node} {m : Mark} : Occurs n [.mark m] ↔ n = .mark m := by
  constructor
  · intro h
    cases h with
    | here hn => exact List.mem_singleton.mp hn
    | inside hs _ => exact absurd (List.mem_singleton.mp hs) (by simp)
  · rintro rfl
    exact .here (List.mem_singleton_self _)

theorem occurs_cons_cons {n m m' : Node} {t : Trace} :
    Occurs n (m :: m' :: t) ↔ Occurs n [m] ∨ Occurs n (m' :: t) :=
  occurs_append (t := [m])

/-- The end of a span is among the steps. -/
theorem Occurs.leave {label : Label} {sub t : Trace} {halt : Option Halt}
    (h : Occurs (.span label sub halt) t) : .leave label halt ∈ steps t := by
  have hnode : ∀ {n : Node} {t : Trace}, n ∈ t → ∀ st ∈ n.steps, st ∈ steps t := by
    intro n t hn st hst
    induction t with
    | nil => cases hn
    | cons m rest ih =>
      rcases List.mem_cons.mp hn with rfl | hn
      · exact List.mem_append_left _ hst
      · exact List.mem_append_right _ (ih hn)
  induction h with
  | here hs => exact hnode hs _ (by simp)
  | inside hs _ ih => exact hnode hs _ (by simp [ih])

/-- The trace of a block: its instructions in order, each followed by a safe point, to the end or
to the first that raised. -/
inductive Ran : List Instruction → Trace → Option Halt → Prop where
  | done : Ran [] [] none
  | cut {block} : Ran block [] (some .fuel)
  | raised {ins rest trace h} :
      Ran (ins :: rest) [.span (.instruction ins) trace (some h)] (some h)
  | raisedAtSafePoint {ins rest trace safe h} :
      Ran (ins :: rest)
        [.span (.instruction ins) trace none, .span .safePoint safe (some h)] (some h)
  | next {ins rest trace safe t h} (tail : Ran rest t h) :
      Ran (ins :: rest)
        (.span (.instruction ins) trace none :: .span .safePoint safe none :: t) h

/-- Every block's trace has its shape. -/
def Shaped {σ : Type} (run : RunBlock σ) : Prop :=
  ∀ block s, Ran block (run block s).log (run block s).halt

section Blocks

variable {σ : Type}

theorem halt_bind {α β : Type} (m : M σ α) (f : α → M σ β) (s : State σ) :
    ((m s).halt ≠ none ∧ ((m >>= f) s).log = (m s).log ∧ ((m >>= f) s).halt = (m s).halt ∧
      ((m >>= f) s).st = (m s).st) ∨
    ∃ a, (m s).out = .ok a ∧ (m s).halt = none ∧
      ((m >>= f) s).log = (m s).log ++ (f a (m s).st).log ∧
      ((m >>= f) s).halt = (f a (m s).st).halt ∧ ((m >>= f) s).st = (f a (m s).st).st := by
  have heq : (m >>= f) s = Traced.bind m f s := rfl
  rw [heq]
  unfold Traced.bind
  cases ho : (m s).out with
  | ok a => exact .inr ⟨a, rfl, by simp [Run.halt, ho], rfl, rfl, rfl⟩
  | error h => exact .inl ⟨by simp [Run.halt, ho], rfl, by simp [Run.halt, ho], rfl⟩

theorem execEach_ran {one : Instruction → M σ Unit} {safe : M σ Unit}
    (hone : ∀ ins s, ∃ trace, (one ins s).log = [.span (.instruction ins) trace (one ins s).halt])
    (hsafe : ∀ s, ∃ trace, (safe s).log = [.span .safePoint trace (safe s).halt])
    (block : List Instruction) (s : State σ) :
    Ran block (execEach one safe block s).log (execEach one safe block s).halt := by
  induction block generalizing s with
  | nil => exact .done
  | cons ins rest ih =>
    obtain ⟨trace, htrace⟩ := hone ins s
    rw [execEach]
    rcases halt_bind (one ins) (fun _ => do safe; execEach one safe rest) s with
      ⟨hhalt, hlog, heq, -⟩ | ⟨⟨⟩, -, hhalt, hlog, heq, -⟩
    · rw [hlog, heq, htrace]
      obtain ⟨h, hh⟩ := Option.ne_none_iff_exists'.mp hhalt
      rw [hh]
      exact .raised
    · rw [hlog, heq, htrace, hhalt]
      obtain ⟨sp, hsp⟩ := hsafe (one ins s).st
      rcases halt_bind safe (fun _ => execEach one safe rest) (one ins s).st with
        ⟨hhalt', hlog', heq', -⟩ | ⟨⟨⟩, -, hhalt', hlog', heq', -⟩
      · rw [hlog', heq', hsp]
        obtain ⟨h, hh⟩ := Option.ne_none_iff_exists'.mp hhalt'
        rw [hh]
        exact .raisedAtSafePoint
      · rw [hlog', heq', hsp, hhalt']
        exact .next (ih _)

theorem execBlock_shaped [Crates] (x : Exec σ) (fuel : Nat) : Shaped (execBlock x fuel) := by
  intro block s
  cases fuel with
  | zero => exact .cut
  | succ fuel => exact execEach_ran (fun _ _ => ⟨_, rfl⟩) (fun _ => ⟨_, rfl⟩) block s

end Blocks

end RustyPhoton.SessionRunner.Engine
