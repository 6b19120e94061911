import Mathlib.Data.Set.Finite.List
import Mathlib.Order.Extension.Linear

/-!
# Precedence

What stands right before what in a family of lists, the cycles of such a relation, and the orders
that all lists of the family follow. A relation between finitely many elements is well founded at an
element unless a cycle leads to it; there is an order that all lists follow unless there is a cycle.
-/

namespace RustyPhoton.Lib

open Relation

universe u

variable {α : Type u} {r : α → α → Prop} {a b : α}

/-! ## Cycles -/

def OnCycle (r : α → α → Prop) (a : α) : Prop := TransGen r a a

/-- A cycle leads to the element. -/
def Downstream (r : α → α → Prop) (b : α) : Prop := ∃ a, OnCycle r a ∧ ReflTransGen r a b

theorem OnCycle.downstream (h : OnCycle r a) : Downstream r a := ⟨a, h, .refl⟩

theorem Downstream.step (h : Downstream r a) (hab : r a b) : Downstream r b := by
  obtain ⟨c, hcycle, hca⟩ := h
  exact ⟨c, hcycle, hca.tail hab⟩

/-- What comes before a well-founded element is not on a cycle with it. -/
theorem not_downstream_of_acc (h : Acc r b) : ¬ Downstream r b := by
  rintro ⟨a, hcycle, hab⟩
  have ha : Acc (TransGen r) a := by
    rcases reflTransGen_iff_eq_or_transGen.mp hab with rfl | hab
    · exact h.transGen
    · exact h.transGen.inv hab
  induction ha with
  | intro a _ ih => exact ih a hcycle hcycle (hcycle.to_reflTransGen.trans hab)

/-- Among finitely many elements, one that no cycle leads to is well founded. -/
theorem acc_of_not_downstream {nodes : List α} (hnodes : ∀ {a b}, r a b → a ∈ nodes)
    (h : ¬ Downstream r b) : Acc r b := by
  have : Finite {a // a ∈ nodes ∧ ¬ Downstream r a} :=
    (nodes.finite_toSet.subset fun a ha => ha.1 : {a | a ∈ nodes ∧ ¬ Downstream r a}.Finite)
  let before (x y : {a // a ∈ nodes ∧ ¬ Downstream r a}) : Prop := TransGen r x.1 y.1
  have : IsTrans _ before := ⟨fun _ _ _ hxy hyz => TransGen.trans hxy hyz⟩
  have : Std.Irrefl before := ⟨fun x hx => x.2.2 (OnCycle.downstream hx)⟩
  have hwf : WellFounded before := Finite.wellFounded_of_trans_of_irrefl before
  have hacc : ∀ x : {a // a ∈ nodes ∧ ¬ Downstream r a}, Acc r x.1 := by
    intro x
    induction x using hwf.induction with
    | _ x ih =>
      refine Acc.intro x.1 fun a ha => ?_
      exact ih ⟨a, hnodes ha, fun hdown => x.2.2 (hdown.step ha)⟩ (.single ha)
  refine Acc.intro b fun a ha => ?_
  exact hacc ⟨a, hnodes ha, fun hdown => h (hdown.step ha)⟩

theorem acc_iff_not_downstream {nodes : List α} (hnodes : ∀ {a b}, r a b → a ∈ nodes) :
    Acc r b ↔ ¬ Downstream r b :=
  ⟨not_downstream_of_acc, acc_of_not_downstream hnodes⟩

/-! ## Orders -/

/-- `b` stands right after `a` in one of the lists. -/
def Consecutive (lists : List (List α)) (a b : α) : Prop := ∃ l ∈ lists, [a, b] <:+: l

/-- An order of all elements of the lists that each of them follows. -/
structure CommonOrder (lists : List (List α)) (order : List α) : Prop where
  nodup : order.Nodup
  mem_iff : ∀ x, x ∈ order ↔ ∃ l ∈ lists, x ∈ l
  follows : ∀ l ∈ lists, l.Sublist order

variable {lists : List (List α)} {order l : List α}

theorem isChain_consecutive (hl : l ∈ lists) : l.IsChain (Consecutive lists) :=
  (List.isChain_isInfix l).imp fun _ _ hab => ⟨l, hl, hab⟩

/-- The elements of a list come one before the other. -/
theorem pairwise_transGen (hl : l ∈ lists) : l.Pairwise (TransGen (Consecutive lists)) :=
  List.isChain_iff_pairwise.mp ((isChain_consecutive hl).imp fun _ _ => .single)

/-- The places of an order without repeats go up along it. -/
theorem pairwise_idxOf [DecidableEq α] (h : order.Nodup) :
    order.Pairwise fun x y => order.idxOf x < order.idxOf y := by
  refine List.pairwise_iff_getElem.mpr fun i j hi hj hij => ?_
  rw [h.idxOf_getElem, h.idxOf_getElem]
  exact hij

/-- No element of a common order is on a cycle. -/
theorem CommonOrder.not_onCycle (h : CommonOrder lists order) :
    ¬ OnCycle (Consecutive lists) a := by
  classical
  have hstep : ∀ {x y}, Consecutive lists x y → order.idxOf x < order.idxOf y := by
    intro x y hxy
    obtain ⟨l, hl, hxy⟩ := hxy
    have hpair := (pairwise_idxOf h.nodup).sublist (hxy.sublist.trans (h.follows l hl))
    exact List.rel_of_pairwise_cons hpair List.mem_cons_self
  have hlt : ∀ {x y}, TransGen (Consecutive lists) x y → order.idxOf x < order.idxOf y := by
    intro x y hxy
    induction hxy with
    | single hxy => exact hstep hxy
    | tail _ hyz ih => exact Nat.lt_trans ih (hstep hyz)
  exact fun hcycle => Nat.lt_irrefl _ (hlt hcycle)

/-- Where no element is on a cycle, a linear order extends the relation, and the elements sorted by
it are a common order. -/
theorem exists_commonOrder (h : ∀ a, ¬ OnCycle (Consecutive lists) a) :
    ∃ order, CommonOrder lists order := by
  classical
  have : IsPartialOrder α (ReflTransGen (Consecutive lists)) :=
    { refl := fun _ => .refl
      trans := fun _ _ _ => .trans
      antisymm := fun x y hxy hyx => by
        rcases reflTransGen_iff_eq_or_transGen.mp hxy with heq | hxy
        · exact heq.symm
        · exact absurd (hxy.trans_left hyx) (h x) }
  obtain ⟨le, hle, hext⟩ := extend_partialOrder (ReflTransGen (Consecutive lists))
  refine ⟨lists.flatten.dedup.insertionSort le, ?_, ?_, ?_⟩
  · exact (List.perm_insertionSort le _).nodup_iff.mpr (List.nodup_dedup _)
  · intro x
    rw [List.mem_insertionSort, List.mem_dedup, List.mem_flatten]
  · intro l hl
    have hnodup : l.Nodup := by
      refine (pairwise_transGen hl).imp ?_
      rintro x y hxy rfl
      exact h x hxy
    have hsub : l ⊆ lists.flatten.dedup := fun x hx =>
      List.mem_dedup.mpr (List.mem_flatten.mpr ⟨l, hl, hx⟩)
    refine List.sublist_of_subperm_of_pairwise (r := le) ?_ ?_ (List.pairwise_insertionSort le _)
    · exact (List.subperm_of_subset hnodup hsub).trans
        (List.perm_insertionSort le _).symm.subperm
    · exact (pairwise_transGen hl).imp fun hxy => hext _ _ hxy.to_reflTransGen

/-- There is an order that every list follows exactly where there is no cycle. -/
theorem exists_commonOrder_iff :
    (∃ order, CommonOrder lists order) ↔ ∀ a, ¬ OnCycle (Consecutive lists) a :=
  ⟨fun ⟨_, h⟩ _ => h.not_onCycle, exists_commonOrder⟩

end RustyPhoton.Lib
