import Mathlib.Data.List.Chain
import Mathlib.Tactic.Ring

/-!
# Lossy UTF-8 decoding

A decoder that reads a byte at a time and never fails: a byte that no sequence admits here, and a
sequence that breaks off, become one replacement character each. An ASCII byte always ends what
stands before it and is read as itself, so a text can be cut at its ASCII characters and decoded
piece by piece; it cannot be cut anywhere else, unless no lead byte is followed by a byte that it
admits.
-/

namespace RustyPhoton.Lib.Utf8

def replacement : Char := '\uFFFD'

/-- Every number that begins with `value`, a byte from `low` to `high` and `further` bytes is a
character outside ASCII. -/
def Completes (value further low high : Nat) : Prop :=
  ∀ n, (value * 64 + (low - 0x80)) * 64 ^ further ≤ n →
    n < (value * 64 + (high - 0x80) + 1) * 64 ^ further → n.isValidChar ∧ 0x80 ≤ n

variable {b : Nat}

theorem Completes.next {value further low high : Nat} (h : Completes value (further + 1) low high)
    (hlow : low ≤ b) (hhigh : b ≤ high) :
    Completes (value * 64 + (b - 0x80)) further 0x80 0xBF := by
  intro n hlo hhi
  refine h n ?_ ?_
  · calc (value * 64 + (low - 0x80)) * 64 ^ (further + 1)
        = ((value * 64 + (low - 0x80)) * 64) * 64 ^ further := by ring
      _ ≤ ((value * 64 + (b - 0x80)) * 64 + (0x80 - 0x80)) * 64 ^ further :=
          Nat.mul_le_mul_right _ (by omega)
      _ ≤ n := hlo
  · calc n < ((value * 64 + (b - 0x80)) * 64 + (0xBF - 0x80) + 1) * 64 ^ further := hhi
      _ ≤ ((value * 64 + (high - 0x80) + 1) * 64) * 64 ^ further :=
          Nat.mul_le_mul_right _ (by omega)
      _ = (value * 64 + (high - 0x80) + 1) * 64 ^ (further + 1) := by ring

/-- A sequence that has begun: the value so far, the number of bytes missing after the next one, and
the bytes admitted next. -/
structure Pending where
  value : Nat
  further : Nat
  low : Nat
  high : Nat
  low_ge : 0x80 ≤ low
  completes : Completes value further low high

/-- The sequence a lead byte begins. -/
def start (b : Nat) : Option Pending :=
  if h : 0xC2 ≤ b ∧ b ≤ 0xDF then
    some ⟨b - 0xC0, 0, 0x80, 0xBF, by decide, by unfold Completes Nat.isValidChar; omega⟩
  else if b = 0xE0 then
    some ⟨0x0, 1, 0xA0, 0xBF, by decide, by unfold Completes Nat.isValidChar; omega⟩
  else if b = 0xED then
    some ⟨0xD, 1, 0x80, 0x9F, by decide, by unfold Completes Nat.isValidChar; omega⟩
  else if h : 0xE1 ≤ b ∧ b ≤ 0xEC then
    some ⟨b - 0xE0, 1, 0x80, 0xBF, by decide, by unfold Completes Nat.isValidChar; omega⟩
  else if h : 0xEE ≤ b ∧ b ≤ 0xEF then
    some ⟨b - 0xE0, 1, 0x80, 0xBF, by decide, by unfold Completes Nat.isValidChar; omega⟩
  else if b = 0xF0 then
    some ⟨0x0, 2, 0x90, 0xBF, by decide, by unfold Completes Nat.isValidChar; omega⟩
  else if h : 0xF1 ≤ b ∧ b ≤ 0xF3 then
    some ⟨b - 0xF0, 2, 0x80, 0xBF, by decide, by unfold Completes Nat.isValidChar; omega⟩
  else if b = 0xF4 then
    some ⟨0x4, 2, 0x80, 0x8F, by decide, by unfold Completes Nat.isValidChar; omega⟩
  else none

/-- A byte between sequences. -/
def first (b : Nat) : List Char × Option Pending :=
  if b < 0x80 then ([Char.ofNat b], none)
  else match start b with
    | some p => ([], some p)
    | none => ([replacement], none)

def Pending.admits (p : Pending) (b : Nat) : Bool := p.low ≤ b && b ≤ p.high

variable {p : Pending}

theorem Pending.admits_iff : p.admits b ↔ p.low ≤ b ∧ b ≤ p.high := by
  simp [admits]

/-- A byte that a sequence admits. -/
def Pending.next (p : Pending) (b : Nat) (h : p.admits b) : List Char × Option Pending :=
  match hf : p.further with
  | 0 => ([Char.ofNat (p.value * 64 + (b - 0x80))], none)
  | further + 1 =>
      ([], some ⟨p.value * 64 + (b - 0x80), further, 0x80, 0xBF, by decide,
        Completes.next (by simpa [hf] using p.completes) (admits_iff.mp h).1 (admits_iff.mp h).2⟩)

def step : Option Pending → Nat → List Char × Option Pending
  | none, b => first b
  | some p, b =>
      if h : p.admits b then p.next b h
      else (replacement :: (first b).1, (first b).2)

/-- Decode the bytes that follow what is pending. -/
def decode : Option Pending → List UInt8 → List Char
  | none, [] => []
  | some _, [] => [replacement]
  | p, b :: bs => (step p b.toNat).1 ++ decode (step p b.toNat).2 bs

/-- The decoding of a whole text. -/
def fromUtf8Lossy (bytes : List UInt8) : List Char := decode none bytes

example : fromUtf8Lossy [0x61, 0xC3, 0xA9, 0xE2, 0x82] = ['a', 'é', '\uFFFD'] := by decide +kernel
example : fromUtf8Lossy [0xED, 0xA0, 0x80] = ['\uFFFD', '\uFFFD', '\uFFFD'] := by decide +kernel

/-! ## ASCII characters -/

theorem toNat_ofNat {n : Nat} (h : n.isValidChar) : (Char.ofNat n).toNat = n := by
  rw [Char.ofNat, dif_pos h]
  rfl

theorem replacement_not_ascii : ¬ replacement.toNat < 0x80 := by
  decide

/-- What the end of the bytes leaves of a pending sequence. -/
def pendingText : Option Pending → List Char
  | none => []
  | some _ => [replacement]

theorem decode_nil (p : Option Pending) : decode p [] = pendingText p := by
  cases p <;> rfl

theorem decode_cons (p : Option Pending) (b : UInt8) (bs : List UInt8) :
    decode p (b :: bs) = (step p b.toNat).1 ++ decode (step p b.toNat).2 bs := by
  cases p <;> rfl

theorem step_ascii (p : Option Pending) (hb : b < 0x80) :
    step p b = (pendingText p ++ [Char.ofNat b], none) := by
  cases p with
  | none => simp [step, first, hb, pendingText]
  | some p =>
    have hnot : p.admits b = false := by
      have hlow := p.low_ge
      simp only [Pending.admits, Bool.and_eq_false_iff, decide_eq_false_iff_not]
      omega
    simp [step, hnot, first, hb, pendingText]

/-- An ASCII byte separates the decodings of what stands before and after it. -/
theorem decode_append_ascii (p : Option Pending) (a : List UInt8) {x : UInt8} (b : List UInt8)
    (hx : x.toNat < 0x80) :
    decode p (a ++ x :: b) = decode p a ++ Char.ofNat x.toNat :: decode none b := by
  induction a generalizing p with
  | nil => simp [decode_cons, decode_nil, step_ascii p hx]
  | cons y a ih => simp [decode_cons, ih]

variable {c : Char}

theorem first_ascii (h : c ∈ (first b).1) (hc : c.toNat < 0x80) :
    b < 0x80 ∧ c = Char.ofNat b := by
  unfold first at h
  split at h
  · rename_i hb
    exact ⟨hb, by simpa using h⟩
  · split at h
    · simp at h
    · obtain rfl : c = replacement := by simpa using h
      exact absurd hc replacement_not_ascii

theorem Pending.next_not_ascii {h : p.admits b} (hc : c ∈ (p.next b h).1) : ¬ c.toNat < 0x80 := by
  unfold Pending.next at hc
  split at hc
  · rename_i hfurther
    have hchar : c = Char.ofNat (p.value * 64 + (b - 0x80)) := List.mem_singleton.mp hc
    obtain ⟨hlow, hhigh⟩ := admits_iff.mp h
    have hcompletes : Completes p.value 0 p.low p.high := hfurther ▸ p.completes
    have hvalid := hcompletes (p.value * 64 + (b - 0x80)) (by omega) (by omega)
    rw [hchar, toNat_ofNat hvalid.1]
    exact Nat.not_lt.mpr hvalid.2
  · simp at hc

variable {bytes : List UInt8}

/-- Decoding makes up no ASCII character. -/
theorem exists_of_mem_decode {p : Option Pending} (h : c ∈ decode p bytes) (hc : c.toNat < 0x80) :
    ∃ b ∈ bytes, b.toNat < 0x80 ∧ c = Char.ofNat b.toNat := by
  induction bytes generalizing p with
  | nil =>
    cases p with
    | none => simp [decode] at h
    | some p =>
      obtain rfl : c = replacement := by simpa [decode] using h
      exact absurd hc replacement_not_ascii
  | cons b bytes ih =>
    rw [decode_cons, List.mem_append] at h
    rcases h with h | h
    · have hfirst : c ∈ (first b.toNat).1 := by
        cases p with
        | none => exact h
        | some p =>
          simp only [step] at h
          split at h
          · exact absurd hc (Pending.next_not_ascii h)
          · rcases List.mem_cons.mp h with rfl | h
            · exact absurd hc replacement_not_ascii
            · exact h
      exact ⟨b, by simp, first_ascii hfirst hc⟩
    · obtain ⟨b', hb', hrest⟩ := ih h
      exact ⟨b', by simp [hb'], hrest⟩

theorem decode_some_ne_nil (p : Pending) (bytes : List UInt8) : decode (some p) bytes ≠ [] := by
  induction bytes generalizing p with
  | nil => simp [decode]
  | cons b bytes ih =>
    rw [decode_cons]
    simp only [step]
    split
    · unfold Pending.next
      split
      · simp
      · simpa using ih _
    · simp

theorem decode_ne_nil (h : bytes ≠ []) : decode none bytes ≠ [] := by
  obtain ⟨b, bytes, rfl⟩ := List.exists_cons_of_ne_nil h
  rw [decode_cons]
  simp only [step, first]
  split
  · simp
  · split
    · simpa using decode_some_ne_nil _ bytes
    · simp

/-! ## Where a text may be cut -/

/-- A byte decoded by itself. -/
def byteChar (b : UInt8) : Char := if b.toNat < 0x80 then Char.ofNat b.toNat else replacement

/-- The first byte begins a sequence that the second one continues. -/
def admits (lead next : Nat) : Bool := (start lead).any (·.admits next)

/-- No two neighbours belong to one sequence. -/
def Severable (bytes : List UInt8) : Prop :=
  bytes.IsChain fun a b => admits a.toNat b.toNat = false

theorem start_ascii (hb : b < 0x80) : start b = none := by
  unfold start
  repeat' split
  all_goals first | rfl | omega

theorem decode_cons_of_not_admits {b : UInt8}
    (h : ∀ x ∈ bytes.head?, admits b.toNat x.toNat = false) :
    decode none (b :: bytes) = byteChar b :: decode none bytes := by
  rw [decode_cons]
  by_cases hb : b.toNat < 0x80
  · simp [step, first, byteChar, hb]
  · cases hstart : start b.toNat with
    | none => simp [step, first, byteChar, hb, hstart]
    | some p =>
      simp only [step, first, hb, if_false, hstart, List.nil_append, byteChar]
      cases bytes with
      | nil => rfl
      | cons x bytes =>
        have hx : p.admits x.toNat = false := by simpa [admits, hstart] using h x rfl
        simp [decode_cons, step, hx]

theorem decode_of_severable (h : Severable bytes) :
    decode none bytes = bytes.map byteChar := by
  induction bytes with
  | nil => rfl
  | cons b bytes ih =>
    rw [List.map_cons, ← ih h.tail]
    exact decode_cons_of_not_admits (List.isChain_cons.mp h).1

theorem length_next {h : p.admits b} :
    (p.next b h).1.length + (pendingText (p.next b h).2).length = 1 := by
  unfold Pending.next
  split <;> rfl

theorem length_first (b : Nat) : (first b).1.length + (pendingText (first b).2).length = 1 := by
  unfold first
  split
  · rfl
  · split <;> rfl

/-- Every byte stands for at most one character. -/
theorem length_decode_le (p : Option Pending) (bytes : List UInt8) :
    (decode p bytes).length ≤ (pendingText p).length + bytes.length := by
  induction bytes generalizing p with
  | nil => simp [decode_nil]
  | cons b bytes ih =>
    rw [decode_cons, List.length_append, List.length_cons]
    have hrest := ih (step p b.toNat).2
    have hstep : (step p b.toNat).1.length + (pendingText (step p b.toNat).2).length ≤
        (pendingText p).length + 1 := by
      cases p with
      | none =>
        have hfirst := length_first b.toNat
        simp only [step]
        omega
      | some p =>
        have hfirst := length_first b.toNat
        simp only [step]
        split
        · rw [length_next]
          omega
        · have hpending : (pendingText (some p)).length = 1 := rfl
          simp only [List.length_cons]
          omega
    omega

/-- A text that is no longer than its bytes has all its characters from single ones. -/
theorem severable_of_decode (h : (decode none bytes).length = bytes.length) :
    Severable bytes := by
  induction bytes with
  | nil => exact .nil
  | cons b bytes ih =>
    have hnot : ∀ x ∈ bytes.head?, admits b.toNat x.toNat = false := by
      intro x hx
      obtain ⟨rest, rfl⟩ := List.head?_eq_some_iff.mp hx
      by_contra hadmits
      cases hstart : start b.toNat with
      | none => simp [admits, hstart] at hadmits
      | some p =>
        have hx : p.admits x.toNat := by simpa [admits, hstart] using hadmits
        have hb : ¬ b.toNat < 0x80 := by
          intro hb
          rw [start_ascii hb] at hstart
          cases hstart
        -- the two bytes together stand for at most one character
        have htwo : decode none (b :: x :: rest) =
            (p.next x.toNat hx).1 ++ decode (p.next x.toNat hx).2 rest := by
          simp [decode_cons, step, first, hb, hstart, hx]
        have hrest := length_decode_le (p.next x.toNat hx).2 rest
        have hnext := length_next (h := hx)
        rw [htwo] at h
        simp only [List.length_append, List.length_cons] at h
        omega
    rw [decode_cons_of_not_admits hnot] at h
    exact List.isChain_cons.mpr ⟨hnot, ih (by simpa using h)⟩

theorem decode_singleton (b : UInt8) : decode none [b] = [byteChar b] := by
  rw [decode_cons_of_not_admits (by simp)]
  rfl

/-- A text decodes byte by byte exactly when no two of its bytes belong to one sequence. -/
theorem decode_eq_map_iff :
    decode none bytes = bytes.map byteChar ↔ Severable bytes :=
  ⟨fun h => severable_of_decode (by rw [h, List.length_map]), decode_of_severable⟩

/-- Without a replacement no sequence breaks off, so the decoding goes on afresh. -/
theorem decode_append_of_clean {p : Option Pending} {a : List UInt8}
    (h : replacement ∉ decode p a) (b : List UInt8) :
    decode p (a ++ b) = decode p a ++ decode none b := by
  induction a generalizing p with
  | nil =>
    cases p with
    | none => simp [decode]
    | some p => simp [decode] at h
  | cons x a ih =>
    rw [decode_cons, List.mem_append, not_or] at h
    rw [List.cons_append, decode_cons, decode_cons, ih h.2, List.append_assoc]

instance (bytes : List UInt8) : Decidable (Severable bytes) :=
  inferInstanceAs (Decidable (List.IsChain _ _))

end RustyPhoton.Lib.Utf8
