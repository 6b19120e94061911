import Mathlib.Data.List.Basic

/-!
# Streams of self-delimiting words

A code none of whose words begins another one. A stream is read word by word from its front until
what is left begins with none; a stream can be read so in one way only.
-/

namespace RustyPhoton.Lib.PrefixCode

universe u

variable {α : Type u} {Code : List α → Prop}

/-- No word begins another one. -/
def PrefixFree (Code : List α → Prop) : Prop :=
  ∀ word other, Code word → Code other → word <+: other → word = other

/-- The stream is these words, one after another, and a rest that begins with none. -/
structure Parsed (Code : List α → Prop) (stream : List α) (words : List (List α))
    (rest : List α) : Prop where
  whole : words.flatten ++ rest = stream
  codes : ∀ word ∈ words, Code word
  stops : ∀ word, Code word → ¬ word <+: rest

/-- Two words that begin one stream are the same word. -/
theorem PrefixFree.eq_of_begin (hfree : PrefixFree Code) {word other stream : List α}
    (hword : Code word) (hother : Code other) (h : word <+: stream) (h' : other <+: stream) :
    word = other := by
  rcases List.prefix_or_prefix_of_prefix h h' with hle | hle
  · exact hfree word other hword hother hle
  · exact (hfree other word hother hword hle).symm

theorem Parsed.nil {rest : List α} (hstops : ∀ word, Code word → ¬ word <+: rest) :
    Parsed Code rest [] rest :=
  ⟨rfl, by simp, hstops⟩

/-- A word in front of a stream that was read. -/
theorem Parsed.cons {word stream rest : List α} {words : List (List α)} (hword : Code word)
    (h : Parsed Code stream words rest) : Parsed Code (word ++ stream) (word :: words) rest := by
  refine ⟨?_, ?_, h.stops⟩
  · rw [List.flatten_cons, List.append_assoc, h.whole]
  · intro other hmem
    rcases List.mem_cons.mp hmem with rfl | hmem
    · exact hword
    · exact h.codes other hmem

/-- A stream is read in one way. -/
theorem Parsed.unique (hfree : PrefixFree Code) {stream rest rest' : List α}
    {words words' : List (List α)} (h : Parsed Code stream words rest)
    (h' : Parsed Code stream words' rest') : words = words' ∧ rest = rest' := by
  induction words generalizing stream words' with
  | nil =>
    have hrest : rest = stream := by simpa using h.whole
    cases words' with
    | nil => exact ⟨rfl, hrest.trans (by simpa using h'.whole.symm)⟩
    | cons word words' =>
      -- the other reading begins with a word, and this one says none begins the stream
      have hbegin : word <+: rest := by
        rw [hrest, ← h'.whole, List.flatten_cons, List.append_assoc]
        exact List.prefix_append _ _
      exact absurd hbegin (h.stops word (h'.codes word List.mem_cons_self))
  | cons word words ih =>
    have hbegin : word <+: stream := by
      rw [← h.whole, List.flatten_cons, List.append_assoc]
      exact List.prefix_append _ _
    have hword : Code word := h.codes word List.mem_cons_self
    cases words' with
    | nil =>
      have hrest : rest' = stream := by simpa using h'.whole
      exact absurd (hrest ▸ hbegin) (h'.stops word hword)
    | cons other words' =>
      have hother : other <+: stream := by
        rw [← h'.whole, List.flatten_cons, List.append_assoc]
        exact List.prefix_append _ _
      obtain rfl : word = other :=
        hfree.eq_of_begin hword (h'.codes other List.mem_cons_self) hbegin hother
      -- both readings go on with what follows the word
      have hleft : word ++ (words.flatten ++ rest) = stream := by
        simpa [List.append_assoc] using h.whole
      have hright : word ++ (words'.flatten ++ rest') = stream := by
        simpa [List.append_assoc] using h'.whole
      have hsame : words'.flatten ++ rest' = words.flatten ++ rest :=
        List.append_cancel_left (hright.trans hleft.symm)
      obtain ⟨rfl, rfl⟩ := ih
        ⟨rfl, fun w hw => h.codes w (List.mem_cons_of_mem _ hw), h.stops⟩
        ⟨hsame, fun w hw => h'.codes w (List.mem_cons_of_mem _ hw), h'.stops⟩
      exact ⟨rfl, rfl⟩

end RustyPhoton.Lib.PrefixCode
