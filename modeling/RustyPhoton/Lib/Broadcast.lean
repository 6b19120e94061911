import Mathlib.Data.List.Basic

/-!
# Broadcast channels

A channel with a bounded buffer and any number of receivers. A receiver gets every value sent after
it subscribed, in order; one that falls behind by more than the buffer holds is told how many values
it missed and goes on with the oldest one held.

The channel itself is a parameter: `Lawful` says what the values a receiver has still to get become
under each operation, and `buffered` is one channel that behaves so.
-/

namespace RustyPhoton.Lib

/-- What a receiver is given. -/
inductive Received (α : Type) where
  | value (a : α)
  | lagged (missed : Nat)
  | empty
  deriving DecidableEq

/-- The operations of a channel. A receiver is a position of its own: receiving moves it and leaves
the channel as it is. -/
structure Broadcast (α : Type) where
  Channel : Type
  Receiver : Type
  new : Channel
  send : α → Channel → Channel
  subscribe : Channel → Receiver
  recv : Channel → Receiver → Received α × Receiver

namespace Broadcast

variable {α : Type}

/-- A channel that holds this many values. -/
structure Lawful (b : Broadcast α) (capacity : Nat) where
  /-- The receiver was subscribed to the channel at some time. -/
  Of : b.Channel → b.Receiver → Prop
  /-- The values the receiver has still to get. -/
  unread : b.Channel → b.Receiver → List α
  subscribed : ∀ c, Of c (b.subscribe c) ∧ unread c (b.subscribe c) = []
  sent : ∀ {c r} a, Of c r → Of (b.send a c) r ∧ unread (b.send a c) r = unread c r ++ [a]
  waiting : ∀ {c r}, Of c r → unread c r = [] → b.recv c r = (.empty, r)
  taken : ∀ {c r a rest}, Of c r → unread c r = a :: rest → (unread c r).length ≤ capacity →
    (b.recv c r).1 = .value a ∧ Of c (b.recv c r).2 ∧ unread c (b.recv c r).2 = rest
  overrun : ∀ {c r}, Of c r → capacity < (unread c r).length →
    (b.recv c r).1 = .lagged ((unread c r).length - capacity) ∧ Of c (b.recv c r).2 ∧
      unread c (b.recv c r).2 = (unread c r).drop ((unread c r).length - capacity)

/-- What receiving does, by the values there are. -/
theorem Lawful.recv {b : Broadcast α} {capacity : Nat} (h : b.Lawful capacity) {c : b.Channel}
    {r : b.Receiver} (hr : h.Of c r) :
    h.Of c (b.recv c r).2 ∧
    ((b.recv c r).1 = .empty ∧ h.unread c r = [] ∧ h.unread c (b.recv c r).2 = [] ∨
      (∃ a, (b.recv c r).1 = .value a ∧ h.unread c r = a :: h.unread c (b.recv c r).2) ∨
      ∃ missed, (b.recv c r).1 = .lagged missed ∧ 0 < missed ∧
        h.unread c (b.recv c r).2 = (h.unread c r).drop missed) := by
  by_cases hfull : capacity < (h.unread c r).length
  · obtain ⟨hlag, hof, hrest⟩ := h.overrun hr hfull
    exact ⟨hof, .inr (.inr ⟨_, hlag, by omega, hrest⟩)⟩
  · cases hun : h.unread c r with
    | nil =>
      have heq := h.waiting hr hun
      rw [heq]
      exact ⟨hr, .inl ⟨rfl, rfl, hun⟩⟩
    | cons a rest =>
      obtain ⟨hval, hof, hrest⟩ := h.taken hr hun (by omega)
      exact ⟨hof, .inr (.inl ⟨a, hval, by rw [hrest]⟩)⟩

/-! ## One such channel -/

section Buffered

variable {capacity : Nat} {held rest : List α} {a : α} {r : Nat}

/-- Receive from the list of all that was sent, after so many values. -/
def bufferedRecv (capacity : Nat) (held : List α) (r : Nat) : Received α × Nat :=
  if capacity < held.length - r then (.lagged (held.length - r - capacity), held.length - capacity)
  else match held[r]? with
    | some a => (.value a, r + 1)
    | none => (.empty, r)

/-- A channel that keeps all that was sent; a receiver is the number of values it has passed. -/
def buffered (α : Type) (capacity : Nat) : Broadcast α where
  Channel := List α
  Receiver := Nat
  new := []
  send a held := held ++ [a]
  subscribe held := held.length
  recv := bufferedRecv capacity

theorem bufferedRecv_empty (h : held.drop r = []) : bufferedRecv capacity held r = (.empty, r) := by
  have hlen : held.length ≤ r := List.drop_eq_nil_iff.mp h
  unfold bufferedRecv
  rw [if_neg (by omega), List.getElem?_eq_none hlen]

theorem bufferedRecv_value (h : held.drop r = a :: rest) (hlen : (held.drop r).length ≤ capacity) :
    bufferedRecv capacity held r = (.value a, r + 1) := by
  have hget : held[r]? = some a := by rw [← List.head?_drop, h, List.head?_cons]
  rw [List.length_drop] at hlen
  unfold bufferedRecv
  rw [if_neg (by omega), hget]

theorem bufferedRecv_lagged (hlen : capacity < (held.drop r).length) :
    bufferedRecv capacity held r = (.lagged (held.length - r - capacity), held.length - capacity) := by
  rw [List.length_drop] at hlen
  unfold bufferedRecv
  rw [if_pos hlen]

theorem drop_succ (h : held.drop r = a :: rest) : r < held.length ∧ held.drop (r + 1) = rest := by
  have hlen : (held.drop r).length = rest.length + 1 := by rw [h, List.length_cons]
  rw [List.length_drop] at hlen
  refine ⟨by omega, ?_⟩
  rw [← List.drop_drop, h, List.drop_one, List.tail_cons]

/-- It behaves as a channel does. -/
def bufferedLawful (α : Type) (capacity : Nat) : (buffered α capacity).Lawful capacity where
  Of (held : List α) (r : Nat) := r ≤ held.length
  unread (held : List α) (r : Nat) := held.drop r
  subscribed (held : List α) := ⟨Nat.le_refl held.length, List.drop_length⟩
  sent {held : List α} {r : Nat} a hr := by
    refine ⟨?_, List.drop_append_of_le_length hr⟩
    show r ≤ (held ++ [a]).length
    rw [List.length_append]
    omega
  waiting _ hun := bufferedRecv_empty hun
  taken {held : List α} {r : Nat} {a rest} hr hun hlen := by
    show (bufferedRecv capacity held r).1 = _ ∧ (bufferedRecv capacity held r).2 ≤ held.length ∧
      held.drop (bufferedRecv capacity held r).2 = rest
    rw [bufferedRecv_value hun hlen]
    exact ⟨rfl, drop_succ hun⟩
  overrun {held : List α} {r : Nat} hr hlen := by
    show (bufferedRecv capacity held r).1 = _ ∧ (bufferedRecv capacity held r).2 ≤ held.length ∧
      held.drop (bufferedRecv capacity held r).2 = _
    rw [bufferedRecv_lagged hlen, List.length_drop, List.drop_drop]
    rw [List.length_drop] at hlen
    refine ⟨rfl, Nat.sub_le _ _, ?_⟩
    congr 1
    omega

end Buffered

end Broadcast

end RustyPhoton.Lib
