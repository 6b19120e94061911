import Mathlib.Data.List.Basic

/-!
# Texts and their lines

A text written as UTF-8 and read back, and the lines of a text: the pieces that line feeds end, with
what is left after the last of them. A text written after one that a line feed ends adds its own
lines and no others.
-/

namespace RustyPhoton.Lib.Lines

/-- The bytes of a text. -/
def encode (text : List Char) : List UInt8 := text.flatMap String.utf8EncodeChar

/-- The text that bytes stand for, where they are well formed. -/
def decode (bytes : List UInt8) : Option (List Char) :=
  bytes.toByteArray.utf8Decode?.map Array.toList

@[simp] theorem encode_nil : encode [] = [] := rfl

@[simp] theorem encode_append (a b : List Char) : encode (a ++ b) = encode a ++ encode b :=
  List.flatMap_append

variable {text : List Char}

theorem encode_eq_nil (h : encode text = []) : text = [] := by
  cases text with
  | nil => rfl
  | cons c text => simp [encode] at h

theorem toByteArray_encode (text : List Char) : (encode text).toByteArray = text.utf8Encode := rfl

@[simp] theorem decode_encode (text : List Char) : decode (encode text) = some text := by
  rw [decode, toByteArray_encode, List.utf8Decode?_utf8Encode]
  simp

theorem toByteArray_inj {a b : List UInt8} (h : a.toByteArray = b.toByteArray) : a = b := by
  have hdata := congrArg (fun bytes => bytes.data.toList) h
  simpa using hdata

theorem encode_of_decode {bytes : List UInt8} (h : decode bytes = some text) :
    encode text = bytes := by
  unfold decode at h
  obtain ⟨chars, hchars, rfl⟩ := Option.map_eq_some_iff.mp h
  have hback : ∀ hsome, (bytes.toByteArray.utf8Decode?.get hsome).toList.utf8Encode =
      bytes.toByteArray := fun _ => ByteArray.utf8Encode_get_utf8Decode?
  simp only [hchars, Option.get_some] at hback
  exact toByteArray_inj (hback rfl)

variable {a : List Char}

/-- Well-formed bytes at the start of a text's bytes are the bytes of its start. -/
theorem prefix_of_encode_append {b : List Char} {rest : List UInt8}
    (h : encode a ++ rest = encode b) : a <+: b := by
  refine List.isPrefix_of_utf8Encode_append_eq_utf8Encode rest.toByteArray ?_
  rw [← toByteArray_encode, ← toByteArray_encode, ← h, List.toByteArray_append]

/-! ## Lines -/

/-- A text cut after every line feed. -/
def pieces : List Char → List (List Char)
  | [] => []
  | c :: rest =>
      if c = '\n' then ['\n'] :: pieces rest
      else
        match pieces rest with
        | [] => [[c]]
        | piece :: more => (c :: piece) :: more

/-- A piece without the line feed that ends it, and the carriage return before that. -/
def stripEnd (piece : List Char) : List Char :=
  if piece.getLast? = some '\n' then
    if piece.dropLast.getLast? = some '\r' then piece.dropLast.dropLast else piece.dropLast
  else piece

def lines (text : List Char) : List (List Char) := (pieces text).map stripEnd

/-- Nothing stands after the last line feed. -/
def Terminated (text : List Char) : Prop := text = [] ∨ text.getLast? = some '\n'

instance (text : List Char) : Decidable (Terminated text) :=
  inferInstanceAs (Decidable (_ ∨ _))

/-- The text of lines, each ended by a line feed. -/
def unlines (texts : List (List Char)) : List Char := texts.flatMap (· ++ ['\n'])

theorem pieces_ne_nil (h : text ≠ []) : pieces text ≠ [] := by
  cases text with
  | nil => exact absurd rfl h
  | cons c rest =>
    unfold pieces
    split
    · exact List.cons_ne_nil _ _
    · split <;> exact List.cons_ne_nil _ _

theorem Terminated.tail {c : Char} {rest : List Char} (h : Terminated (c :: rest))
    (hc : c ≠ '\n') : Terminated rest ∧ rest ≠ [] := by
  cases rest with
  | nil =>
    rcases h with h | h
    · cases h
    · exact absurd (Option.some.inj h) hc
  | cons d rest =>
    refine ⟨.inr ?_, List.cons_ne_nil _ _⟩
    rcases h with h | h
    · cases h
    · rwa [List.getLast?_cons_cons] at h

theorem pieces_append (h : Terminated a) (b : List Char) :
    pieces (a ++ b) = pieces a ++ pieces b := by
  induction a with
  | nil => rfl
  | cons c rest ih =>
    rw [List.cons_append]
    by_cases hc : c = '\n'
    · have hrest : Terminated rest := by
        cases rest with
        | nil => exact .inl rfl
        | cons d rest =>
          rcases h with h | h
          · cases h
          · exact .inr (by rwa [List.getLast?_cons_cons] at h)
      rw [pieces, pieces, if_pos hc, if_pos hc, ih hrest, List.cons_append]
    · obtain ⟨hrest, hne⟩ := h.tail hc
      rw [pieces, pieces, if_neg hc, if_neg hc, ih hrest]
      cases hp : pieces rest with
      | nil => exact absurd hp (pieces_ne_nil hne)
      | cons piece more => rfl

theorem lines_append (h : Terminated a) (b : List Char) :
    lines (a ++ b) = lines a ++ lines b := by
  unfold lines
  rw [pieces_append h, List.map_append]

variable {line : List Char}

/-- A line that no line feed ends yet. -/
theorem pieces_rest (hfeed : '\n' ∉ line) (hne : line ≠ []) :
    pieces line = [line] := by
  induction line with
  | nil => exact absurd rfl hne
  | cons c rest ih =>
    have hc : c ≠ '\n' := fun heq => hfeed (heq ▸ List.mem_cons_self)
    rw [pieces, if_neg hc]
    cases rest with
    | nil => rfl
    | cons d rest =>
      rw [ih (fun hin => hfeed (List.mem_cons_of_mem _ hin)) (List.cons_ne_nil _ _)]

theorem pieces_line (hfeed : '\n' ∉ line) :
    pieces (line ++ ['\n']) = [line ++ ['\n']] := by
  induction line with
  | nil => rfl
  | cons c rest ih =>
    have hc : c ≠ '\n' := fun heq => hfeed (heq ▸ List.mem_cons_self)
    rw [List.cons_append, pieces, if_neg hc, ih fun hin => hfeed (List.mem_cons_of_mem _ hin)]

theorem lines_rest (hfeed : '\n' ∉ line) (hne : line ≠ []) :
    lines line = [line] := by
  unfold lines
  rw [pieces_rest hfeed hne, List.map_singleton, stripEnd, if_neg]
  intro hlast
  exact hfeed (List.mem_of_getLast? hlast)

theorem lines_line (hfeed : '\n' ∉ line) (hreturn : '\r' ∉ line) :
    lines (line ++ ['\n']) = [line] := by
  unfold lines
  rw [pieces_line hfeed, List.map_singleton, stripEnd, if_pos List.getLast?_concat,
    List.dropLast_concat, if_neg]
  intro hlast
  exact hreturn (List.mem_of_getLast? hlast)

/-- Lines written one after another are read back. -/
theorem lines_unlines {texts : List (List Char)}
    (h : ∀ line ∈ texts, '\n' ∉ line ∧ '\r' ∉ line) : lines (unlines texts) = texts := by
  induction texts with
  | nil => rfl
  | cons line rest ih =>
    have hline := h line List.mem_cons_self
    have hterminated : Terminated (line ++ ['\n']) := .inr List.getLast?_concat
    show lines ((line ++ ['\n']) ++ unlines rest) = _
    rw [lines_append hterminated, lines_line hline.1 hline.2,
      ih fun other hin => h other (List.mem_cons_of_mem _ hin)]
    rfl

end RustyPhoton.Lib.Lines
