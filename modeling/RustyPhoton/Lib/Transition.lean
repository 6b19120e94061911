import Mathlib.Data.List.Basic

/-!
# Step systems with a log

A system takes an input in a state or refuses it; a step that is taken leaves events in a log. A
history is a sequence of steps, each of them allowed where it was taken, and an invariant of the
log and the state is proved of every history step by step.
-/

namespace RustyPhoton.Lib

universe u v w

variable {S : Type u} {I : Type v} {E : Type w}

/-- The state and the log that some allowed inputs lead to, from a start on. -/
inductive History (step : S → I → Option (S × List E)) (allowed : List E → S → I → Prop)
    (start : S) : List I → List E → S → Prop where
  | nil : History step allowed start [] [] start
  | snoc {inputs : List I} {log : List E} {s : S} {i : I} {s' : S} {events : List E}
      (before : History step allowed start inputs log s) (ok : allowed log s i)
      (taken : step s i = some (s', events)) :
      History step allowed start (inputs ++ [i]) (log ++ events) s'

namespace History

variable {step : S → I → Option (S × List E)} {allowed allowed' : List E → S → I → Prop}
  {start s : S} {inputs : List I} {log : List E}

/-- What holds at the start and along every allowed step holds in every history. -/
theorem invariant (h : History step allowed start inputs log s) (inv : List E → S → Prop)
    (hstart : inv [] start)
    (hstep : ∀ {log s i s' events}, inv log s → allowed log s i →
      step s i = some (s', events) → inv (log ++ events) s') : inv log s := by
  induction h with
  | nil => exact hstart
  | snoc _ ok taken ih => exact hstep ih ok taken

/-- A history is one of a system that allows more. -/
theorem mono (h : History step allowed start inputs log s)
    (himp : ∀ log s i, allowed log s i → allowed' log s i) :
    History step allowed' start inputs log s := by
  induction h with
  | nil => exact .nil
  | snoc _ ok taken ih => exact .snoc ih (himp _ _ _ ok) taken

/-- Take inputs one after the other, as long as each is allowed and can happen. -/
def play (step : S → I → Option (S × List E)) (allowed : List E → S → I → Prop)
    [∀ log s i, Decidable (allowed log s i)] : List E → S → List I → Option (List E × S)
  | log, s, [] => some (log, s)
  | log, s, i :: rest =>
      if allowed log s i then
        match step s i with
        | some (s', events) => play step allowed (log ++ events) s' rest
        | none => none
      else none

/-- Inputs that play out make a history longer. -/
theorem append_play [∀ log s i, Decidable (allowed log s i)] {more : List I} {log' : List E} {t : S}
    (h : History step allowed start inputs log s)
    (hplay : play step allowed log s more = some (log', t)) :
    History step allowed start (inputs ++ more) log' t := by
  induction more generalizing inputs log s with
  | nil =>
    obtain ⟨rfl, rfl⟩ := Prod.mk.inj (Option.some.inj hplay)
    rwa [List.append_nil]
  | cons i rest ih =>
    rw [play] at hplay
    split at hplay
    · next ok =>
        split at hplay
        · next s' events taken =>
            have := ih (h.snoc ok taken) hplay
            rwa [List.append_assoc, List.singleton_append] at this
        · cases hplay
    · cases hplay

/-- Inputs that play out are a history. -/
theorem of_play [∀ log s i, Decidable (allowed log s i)]
    (hplay : play step allowed [] start inputs = some (log, s)) :
    History step allowed start inputs log s :=
  append_play .nil hplay

end History

/-! ## Logs whose entries are justified by what came before -/

/-- An entry of a log is the last one, or stands in the log before it. -/
theorem mem_split_snoc {log a b : List E} {last entry : E}
    (h : log ++ [last] = a ++ entry :: b) :
    (b = [] ∧ a = log ∧ entry = last) ∨ ∃ b', b = b' ++ [last] ∧ log = a ++ entry :: b' := by
  rcases List.eq_nil_or_concat b with rfl | ⟨b', final, rfl⟩
  · obtain ⟨hlog, hlast⟩ := List.append_inj' h rfl
    exact .inl ⟨rfl, hlog.symm, (List.cons.inj hlast).1.symm⟩
  · rw [List.concat_eq_append, ← List.cons_append, ← List.append_assoc] at h
    obtain ⟨hlog, hlast⟩ := List.append_inj' h rfl
    rw [(List.cons.inj hlast).1]
    exact .inr ⟨b', List.concat_eq_append, hlog⟩

/-- Every entry of the log is justified by the entries before it. -/
def Justified (reason : List E → E → Prop) (log : List E) : Prop :=
  ∀ before entry after, log = before ++ entry :: after → reason before entry

namespace Justified

variable {reason : List E → E → Prop} {log more : List E} {entry : E}

theorem nil : Justified reason [] := by
  intro before entry after h
  simp at h

/-- One more entry is justified by the whole log. -/
theorem snoc (h : Justified reason log) (hentry : reason log entry) : Justified reason (log ++ [entry]) := by
  intro before e after heq
  rcases List.append_eq_append_iff.mp heq with ⟨rest, hbefore, hafter⟩ | ⟨rest, hlog, hrest⟩
  · cases rest with
    | nil =>
      cases hafter
      rw [hbefore, List.append_nil]
      exact hentry
    | cons _ _ => simp at hafter
  · cases rest with
    | nil =>
      cases hrest
      rw [List.append_nil] at hlog
      rwa [← hlog]
    | cons first rest =>
      cases hrest
      exact h before e rest hlog

/-- Entries that each have a reason where they come. -/
theorem extend (h : Justified reason log)
    (hmore : ∀ front entry back, more = front ++ entry :: back → reason (log ++ front) entry) :
    Justified reason (log ++ more) := by
  induction more generalizing log with
  | nil => rwa [List.append_nil]
  | cons first rest ih =>
    have hfirst := hmore [] first rest rfl
    rw [List.append_nil] at hfirst
    rw [← List.singleton_append, ← List.append_assoc]
    refine ih (h.snoc hfirst) ?_
    intro front entry back hsplit
    have hentry := hmore (first :: front) entry back (by rw [hsplit, List.cons_append])
    rwa [← List.singleton_append, ← List.append_assoc] at hentry

/-- Entries that need no reason. -/
theorem append (h : Justified reason log) (hmore : ∀ entry ∈ more, ∀ before, reason before entry) :
    Justified reason (log ++ more) := by
  induction more generalizing log with
  | nil => rwa [List.append_nil]
  | cons first rest ih =>
    rw [← List.singleton_append, ← List.append_assoc]
    exact ih (h.snoc (hmore first List.mem_cons_self log))
      fun entry hentry => hmore entry (List.mem_cons_of_mem _ hentry)

end Justified

end RustyPhoton.Lib
