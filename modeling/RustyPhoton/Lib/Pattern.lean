import Mathlib.Computability.RegularExpressions

/-!
# Regular patterns over characters

The combinators a textual pattern is written with, as regular expressions: character classes,
literals, alternation, one-or-more and optional parts. Each has a lemma that builds a match.
-/

namespace RustyPhoton.Lib.Pattern

open RegularExpression

/-- The characters from `lo` to `hi`. -/
def range (lo hi : Char) : List Char :=
  (List.range' lo.toNat (hi.toNat + 1 - lo.toNat)).map Char.ofNat

/-- A character class. -/
def chars (cs : List Char) : RegularExpression Char :=
  cs.foldr (fun c r => .char c + r) 0

/-- A fixed text. -/
def literal (cs : List Char) : RegularExpression Char :=
  cs.foldr (fun c r => .char c * r) 1

/-- One of several texts. -/
def oneOf (texts : List (List Char)) : RegularExpression Char :=
  texts.foldr (fun cs r => literal cs + r) 0

/-- One or more repetitions. -/
def plus (r : RegularExpression Char) : RegularExpression Char := r * r.star

/-- An optional part. -/
def opt (r : RegularExpression Char) : RegularExpression Char := 1 + r

variable {c : Char} {cs text : List Char} {r : RegularExpression Char}

theorem mem_range {lo hi : Char} (hlo : lo.toNat ≤ c.toNat) (hhi : c.toNat ≤ hi.toNat) :
    c ∈ range lo hi :=
  List.mem_map.mpr ⟨c.toNat, List.mem_range'_1.mpr (by omega), Char.ofNat_toNat c⟩

theorem char_match : [c] ∈ (char c).matches' :=
  Set.mem_singleton [c]

theorem chars_match (h : c ∈ cs) : [c] ∈ (chars cs).matches' := by
  induction cs with
  | nil => simp at h
  | cons d cs ih =>
    rw [chars, List.foldr_cons, matches'_add, Language.mem_add]
    rcases List.mem_cons.mp h with rfl | h
    · exact .inl char_match
    · exact .inr (ih h)

theorem star_chars_match (h : ∀ c ∈ text, c ∈ cs) : text ∈ (chars cs).star.matches' := by
  rw [matches'_star]
  refine Language.mem_kstar.mpr ⟨text.map fun c => [c], ?_, ?_⟩
  · induction text with
    | nil => rfl
    | cons c text ih => simp [← ih fun d hd => h d (List.mem_cons_of_mem _ hd)]
  · intro piece hp
    obtain ⟨c, hc, rfl⟩ := List.mem_map.mp hp
    exact chars_match (h c hc)

theorem literal_match : text ∈ (literal text).matches' := by
  induction text with
  | nil => simp [literal]
  | cons c text ih =>
    rw [literal, List.foldr_cons, matches'_mul]
    exact Language.mem_mul.mpr ⟨[c], char_match, text, ih, rfl⟩

theorem oneOf_match {texts : List (List Char)} (h : text ∈ texts) :
    text ∈ (oneOf texts).matches' := by
  induction texts with
  | nil => simp at h
  | cons other texts ih =>
    rw [oneOf, List.foldr_cons, matches'_add, Language.mem_add]
    rcases List.mem_cons.mp h with rfl | h
    · exact .inl literal_match
    · exact .inr (ih h)

theorem mul_match {p q : RegularExpression Char} {a b : List Char} (ha : a ∈ p.matches')
    (hb : b ∈ q.matches') : a ++ b ∈ (p * q).matches' := by
  rw [matches'_mul]
  exact Language.mem_mul.mpr ⟨a, ha, b, hb, rfl⟩

/-- A nonempty concatenation of matches. -/
theorem plus_match {pieces : List (List Char)} (hne : pieces ≠ [])
    (h : ∀ piece ∈ pieces, piece ∈ r.matches') : pieces.flatten ∈ (plus r).matches' := by
  cases pieces with
  | nil => simp at hne
  | cons piece pieces =>
    refine mul_match (h piece (by simp)) ?_
    rw [matches'_star]
    exact Language.mem_kstar.mpr
      ⟨pieces, rfl, fun y hy => h y (List.mem_cons_of_mem _ hy)⟩

theorem plus_chars_match (hne : text ≠ []) (h : ∀ c ∈ text, c ∈ cs) :
    text ∈ (plus (chars cs)).matches' := by
  cases text with
  | nil => simp at hne
  | cons c text =>
    exact mul_match (chars_match (h c (by simp)))
      (star_chars_match fun d hd => h d (List.mem_cons_of_mem _ hd))

theorem opt_match_nil : [] ∈ (opt r).matches' := by
  rw [opt, matches'_add, matches'_epsilon]
  exact .inl rfl

theorem opt_match (h : text ∈ r.matches') : text ∈ (opt r).matches' := by
  rw [opt, matches'_add]
  exact .inr h

/-! ## What a match is made of -/

theorem of_char_match {d : Char} (h : text ∈ (char d).matches') : text = [d] := h

theorem of_mul_match {p q : RegularExpression Char} (h : text ∈ (p * q).matches') :
    ∃ a b, a ∈ p.matches' ∧ b ∈ q.matches' ∧ text = a ++ b := by
  rw [matches'_mul] at h
  obtain ⟨a, ha, b, hb, heq⟩ := Language.mem_mul.mp h
  exact ⟨a, b, ha, hb, heq.symm⟩

theorem of_chars_match (h : text ∈ (chars cs).matches') : ∃ c ∈ cs, text = [c] := by
  induction cs with
  | nil => exact absurd h (Language.notMem_zero text)
  | cons d cs ih =>
    rw [chars, List.foldr_cons, matches'_add, Language.mem_add] at h
    rcases h with h | h
    · exact ⟨d, List.mem_cons_self, of_char_match h⟩
    · obtain ⟨c, hc, htext⟩ := ih h
      exact ⟨c, List.mem_cons_of_mem _ hc, htext⟩

theorem of_star_match (h : text ∈ r.star.matches') :
    ∃ pieces : List (List Char), text = pieces.flatten ∧ ∀ piece ∈ pieces, piece ∈ r.matches' := by
  rw [matches'_star] at h
  exact Language.mem_kstar.mp h

theorem of_star_chars_match (h : text ∈ (chars cs).star.matches') : ∀ c ∈ text, c ∈ cs := by
  obtain ⟨pieces, rfl, hpieces⟩ := of_star_match h
  intro c hc
  obtain ⟨piece, hpiece, hin⟩ := List.mem_flatten.mp hc
  obtain ⟨d, hd, rfl⟩ := of_chars_match (hpieces piece hpiece)
  rwa [List.mem_singleton.mp hin]

theorem of_plus_chars_match (h : text ∈ (plus (chars cs)).matches') :
    text ≠ [] ∧ ∀ c ∈ text, c ∈ cs := by
  obtain ⟨a, b, ha, hb, rfl⟩ := of_mul_match h
  obtain ⟨c, hc, rfl⟩ := of_chars_match ha
  refine ⟨List.cons_ne_nil _ _, ?_⟩
  intro d hd
  rcases List.mem_cons.mp hd with rfl | hd
  · exact hc
  · exact of_star_chars_match hb d hd

theorem of_literal_match (h : text ∈ (literal cs).matches') : text = cs := by
  induction cs generalizing text with
  | nil => exact h
  | cons c cs ih =>
    rw [literal, List.foldr_cons] at h
    obtain ⟨a, b, ha, hb, rfl⟩ := of_mul_match h
    rw [of_char_match ha, ih hb, List.singleton_append]

theorem of_oneOf_match {texts : List (List Char)} (h : text ∈ (oneOf texts).matches') :
    text ∈ texts := by
  induction texts with
  | nil => exact absurd h (Language.notMem_zero text)
  | cons other texts ih =>
    rw [oneOf, List.foldr_cons, matches'_add, Language.mem_add] at h
    rcases h with h | h
    · exact List.mem_cons.mpr (.inl (of_literal_match h))
    · exact List.mem_cons_of_mem _ (ih h)

theorem of_opt_match (h : text ∈ (opt r).matches') : text = [] ∨ text ∈ r.matches' := by
  rw [opt, matches'_add, matches'_epsilon] at h
  exact h

theorem of_plus_match (h : text ∈ (plus r).matches') :
    ∃ pieces : List (List Char), pieces ≠ [] ∧ text = pieces.flatten ∧
      ∀ piece ∈ pieces, piece ∈ r.matches' := by
  obtain ⟨a, b, ha, hb, rfl⟩ := of_mul_match h
  obtain ⟨pieces, rfl, hpieces⟩ := of_star_match hb
  refine ⟨a :: pieces, List.cons_ne_nil _ _, rfl, ?_⟩
  intro piece hpiece
  rcases List.mem_cons.mp hpiece with rfl | hpiece
  · exact ha
  · exact hpieces piece hpiece

end RustyPhoton.Lib.Pattern
