import Mathlib.Data.Option.Basic

/-!
# Stateful checks that record findings

A check runs in a state that stays `clean` only while it records no finding. What a clean final
state says of the run is derived backwards: every step before it was clean too, and each step's
relation holds between the states around it.
-/

namespace RustyPhoton.Lib

variable {σ α β : Type} {clean : σ → Prop}

/-- A clean final state had a clean initial state, and the run meets `post`. -/
def Checks (clean : σ → Prop) (w : StateM σ α) (post : σ → α → σ → Prop) : Prop :=
  ∀ s, clean (w s).2 → clean s ∧ post s (w s).1 (w s).2

namespace Checks

variable {w : StateM σ α} {f : α → StateM σ β} {P P' : σ → α → σ → Prop} {R : σ → β → σ → Prop}

theorem mono (h : Checks clean w P) (himp : ∀ s a t, clean t → P s a t → P' s a t) :
    Checks clean w P' := fun s hclean =>
  ⟨(h s hclean).1, himp s _ _ hclean (h s hclean).2⟩

theorem trivial {a : α} : Checks clean (Pure.pure a : StateM σ α) fun _ _ _ => True :=
  fun _ hclean => ⟨hclean, True.intro⟩

theorem pure {a : α} (h : ∀ s, clean s → P s a s) :
    Checks clean (Pure.pure a : StateM σ α) P := fun s hclean =>
  ⟨hclean, h s hclean⟩

/-- Sequencing: the continuation may assume what the first step established. -/
theorem bind (hw : Checks clean w P)
    (hf : ∀ a, Checks clean (f a) fun t b u => ∀ s, P s a t → R s b u) :
    Checks clean (w >>= f) R := fun s hclean =>
  have ⟨hmid, hR⟩ := hf (w s).1 (w s).2 hclean
  have ⟨hinit, hP⟩ := hw s hmid
  ⟨hinit, hR s hP⟩

/-- A step that always records a finding meets every relation. -/
theorem of_dirty (h : ∀ s, ¬ clean (w s).2) : Checks clean w P := fun s hclean =>
  absurd hclean (h s)

/-- A finding before a step makes the whole run dirty. -/
theorem dirty_bind (hw : Checks clean w fun _ _ _ => False)
    (hf : ∀ a, Checks clean (f a) fun _ _ _ => True) : Checks clean (w >>= f) R :=
  bind hw fun a => (hf a).mono fun _ _ _ _ _ _ h => h.elim

theorem get : Checks clean (MonadState.get : StateM σ σ) fun s a t => a = s ∧ t = s :=
  fun _ hclean => ⟨hclean, rfl, rfl⟩

theorem modify {g : σ → σ} (hg : ∀ s, clean (g s) → clean s) :
    Checks clean (MonadState.modifyGet fun s => (PUnit.unit, g s) : StateM σ PUnit) fun s _ t => t = g s :=
  fun s hclean => ⟨hg s hclean, rfl⟩

theorem map {g : α → β} (hw : Checks clean w fun s a t => R s (g a) t) :
    Checks clean (do Pure.pure (g (← w))) R :=
  bind hw fun _ => pure fun _ _ _ h => h

end Checks

end RustyPhoton.Lib
