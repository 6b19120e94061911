import RustyPhoton.SessionRunner.Document.FieldRules

/-!
# The duration scan is the published pattern

The scan takes the first unit that matches and never goes back. It misses no split, because what
follows a component's digits, its unit and its white space is never one more of them: `m` before an
`s` would be `ms`, and a component starts with a digit.
-/

namespace RustyPhoton.SessionRunner

open Lib WorkflowSchema Pattern

/-- Where a component may end: at the end, or before a digit. -/
def Boundary (rest : List Char) : Prop :=
  ∀ c, rest.head? = some c → c ∈ digits

variable {c : Char}

theorem isDigit_of_mem (h : c ∈ digits) : c.isDigit = true := by
  have hall : digits.all Char.isDigit = true := by rfl
  exact List.all_eq_true.mp hall c h

variable {run rest : List Char}

/-- A scan over a run of a class takes it whole where the next character is not in the class. -/
theorem dropWhile_run {p : Char → Bool} (hrun : ∀ c ∈ run, p c = true)
    (hrest : ∀ c, rest.head? = some c → p c = false) : (run ++ rest).dropWhile p = rest := by
  rw [List.dropWhile_append_of_pos hrun]
  cases rest with
  | nil => rfl
  | cons c rest => exact List.dropWhile_cons_of_neg (by simp [hrest c rfl])

/-- A unit starts with a character that is no digit and no dot. -/
theorem head?_unit {unit : List Char} (h : unit ∈ units)
    (hc : (unit ++ rest).head? = some c) : c.isDigit = false ∧ c ≠ '.' := by
  have hall : units.all (fun u => u.head?.any fun c => !c.isDigit && c != '.') = true := by rfl
  have hunit := List.all_eq_true.mp hall unit h
  cases unit with
  | nil => cases hunit
  | cons d unit =>
    obtain rfl : d = c := Option.some.inj hc
    simpa using hunit

/-- The white space and what may follow a component do not start with an `s`. -/
theorem head?_space {space : List Char} (hspace : ∀ c ∈ space, c ∈ whiteSpace)
    (hrest : Boundary rest) (hc : (space ++ rest).head? = some c) : c ≠ 's' := by
  have hdigits : digits.all (· != 's') = true := by rfl
  have hspaces : whiteSpace.all (· != 's') = true := by rfl
  cases space with
  | nil => simpa using List.all_eq_true.mp hdigits c (hrest c hc)
  | cons d space =>
    obtain rfl : d = c := Option.some.inj hc
    simpa using List.all_eq_true.mp hspaces d (hspace d List.mem_cons_self)

/-- The first unit that matches is the unit that stands there: only `m` starts another, `ms`. -/
theorem stripUnit_append {unit : List Char} (h : unit ∈ units)
    (hrest : ∀ c, rest.head? = some c → c ≠ 's') : stripUnit (unit ++ rest) = some rest := by
  have hms : ['s'].isPrefixOf? rest = none := by
    cases rest with
    | nil => rfl
    | cons c rest => simp [List.isPrefixOf?, Ne.symm (hrest c rfl)]
  simp only [units, List.mem_cons, List.not_mem_nil, or_false] at h
  rcases h with rfl | rfl | rfl | rfl | rfl | rfl | rfl | rfl | rfl | rfl
  case inr.inr.inr.inr.inr.inl =>
    show stripUnit ('m' :: rest) = some rest
    simp [stripUnit, units, List.findSome?, List.isPrefixOf?, hms]
  all_goals simp [stripUnit, units, List.findSome?, List.isPrefixOf?]

/-- Digits are taken whole before a character that is none. -/
theorem dropWhile_digits
    (hrun : run ∈ (plus (chars digits)).matches')
    (hrest : ∀ c, rest.head? = some c → c.isDigit = false) :
    (run ++ rest).dropWhile Char.isDigit = rest ∧ rest.length ≠ (run ++ rest).length := by
  obtain ⟨hne, hdigits⟩ := of_plus_chars_match hrun
  refine ⟨dropWhile_run (fun c hc => isDigit_of_mem (hdigits c hc)) hrest, ?_⟩
  have hpos := List.length_pos_iff.mpr hne
  rw [List.length_append]
  omega

/-- An optional fraction is read off before a unit. -/
theorem fraction_append {part : List Char} (hpart : part ∈
      (opt (literal ['.'] *
        plus (chars digits))).matches')
    (hrest : ∀ c, rest.head? = some c → c.isDigit = false ∧ c ≠ '.') :
    fraction (part ++ rest) = some rest := by
  rcases of_opt_match hpart with rfl | hpart
  · -- no fraction, and no dot either
    cases rest with
    | nil => rfl
    | cons c rest =>
      have hdot := (hrest c rfl).2
      show fraction (c :: rest) = some (c :: rest)
      rw [fraction]
      intro afterDot heq
      exact hdot (List.cons.inj heq).1
  · obtain ⟨dot, run, hdot, hrun, rfl⟩ := of_mul_match hpart
    obtain rfl := of_literal_match hdot
    obtain ⟨hdrop, hlen⟩ := dropWhile_digits hrun fun c hc => (hrest c hc).1
    show fraction ('.' :: (run ++ rest)) = some rest
    rw [fraction, hdrop, if_neg hlen]

/-- A fraction and a unit do not start with a digit. -/
theorem head?_fraction {part : List Char} (hpart : part ∈
      (opt (literal ['.'] *
        plus (chars digits))).matches')
    (hrest : ∀ c, rest.head? = some c → c.isDigit = false ∧ c ≠ '.')
    (hc : (part ++ rest).head? = some c) : c.isDigit = false := by
  rcases of_opt_match hpart with rfl | hpart
  · exact (hrest c hc).1
  · obtain ⟨dot, run, hdot, -, rfl⟩ := of_mul_match hpart
    obtain rfl := of_literal_match hdot
    obtain rfl : '.' = c := Option.some.inj hc
    rfl

variable {piece : List Char}

/-- A match of the component pattern is taken as one component. -/
theorem component_append
    (hpiece : piece ∈ componentPattern.matches') (hrest : Boundary rest) :
    component (piece ++ rest) = some rest := by
  obtain ⟨whole, afterWhole, hwhole, htail, rfl⟩ := of_mul_match hpiece
  obtain ⟨part, afterPart, hpart, hend, rfl⟩ := of_mul_match htail
  obtain ⟨unit, space, hunit, hspace, rfl⟩ := of_mul_match hend
  replace hunit := of_oneOf_match hunit
  replace hspace := of_star_chars_match hspace
  have hafter : ∀ c, (unit ++ (space ++ rest)).head? = some c → c.isDigit = false ∧ c ≠ '.' :=
    fun c hc => head?_unit hunit hc
  obtain ⟨hdrop, hlen⟩ := @dropWhile_digits _
    (part ++ (unit ++ (space ++ rest))) hwhole fun c hc => head?_fraction hpart hafter hc
  have hdropSpace : (space ++ rest).dropWhile isWhiteSpace = rest := by
    refine dropWhile_run ?_ ?_
    · intro c hc
      simpa [isWhiteSpace] using hspace c hc
    · intro c hc
      have hall : digits.all (!isWhiteSpace ·) = true := by rfl
      simpa using List.all_eq_true.mp hall c (hrest c hc)
  simp only [List.append_assoc]
  simp only [component, hdrop, if_neg hlen, fraction_append hpart hafter,
    stripUnit_append hunit fun c hc => head?_space hspace hrest hc, hdropSpace, Option.bind_eq_bind,
    Option.bind_some, Option.pure_def]

/-- A match of the component pattern starts with a digit. -/
theorem head?_component (hpiece : piece ∈ componentPattern.matches') :
    ∃ c rest, piece = c :: rest ∧ c ∈ digits := by
  obtain ⟨whole, more, hwhole, -, rfl⟩ := of_mul_match hpiece
  obtain ⟨hne, hdigits⟩ := of_plus_chars_match hwhole
  cases whole with
  | nil => exact absurd rfl hne
  | cons c whole => exact ⟨c, whole ++ more, rfl, hdigits c List.mem_cons_self⟩

variable {pieces : List (List Char)}

theorem boundary_flatten (h : ∀ piece ∈ pieces, piece ∈ componentPattern.matches') :
    Boundary pieces.flatten := by
  intro c hc
  cases pieces with
  | nil => cases hc
  | cons piece pieces =>
    obtain ⟨d, rest, rfl, hd⟩ := head?_component (h piece List.mem_cons_self)
    exact Option.some.inj hc ▸ hd

/-- Any split into components is found, whatever rounds are left over. -/
theorem components_flatten
    (h : ∀ piece ∈ pieces, piece ∈ componentPattern.matches') {fuel : Nat}
    (hfuel : pieces.length ≤ fuel) : components fuel pieces.flatten = true := by
  induction pieces generalizing fuel with
  | nil => cases fuel <;> rfl
  | cons piece pieces ih =>
    have hrest : ∀ p ∈ pieces, p ∈ componentPattern.matches' :=
      fun p hp => h p (List.mem_cons_of_mem _ hp)
    have hcomponent := component_append (h piece List.mem_cons_self) (boundary_flatten hrest)
    obtain ⟨c, tail, rfl, -⟩ := head?_component (h piece List.mem_cons_self)
    cases fuel with
    | zero => simp at hfuel
    | succ fuel =>
      rw [List.length_cons, Nat.add_le_add_iff_right] at hfuel
      rw [List.flatten_cons] at *
      show components (fuel + 1) (c :: (tail ++ pieces.flatten)) = true
      rw [components]
      rw [List.cons_append] at hcomponent
      simp only [hcomponent]
      exact ih hrest hfuel

/-- There are no more components than characters. -/
theorem length_le_flatten (h : ∀ piece ∈ pieces, piece ∈ componentPattern.matches') :
    pieces.length ≤ pieces.flatten.length := by
  induction pieces with
  | nil => exact Nat.le_refl _
  | cons piece pieces ih =>
    have hrest := ih fun p hp => h p (List.mem_cons_of_mem _ hp)
    obtain ⟨c, tail, rfl, -⟩ := head?_component (h piece List.mem_cons_self)
    simp only [List.length_cons, List.flatten_cons, List.length_append]
    omega

/-- The scan accepts exactly the strings that the published pattern matches. -/
theorem surfaceOk_iff (s : String) :
    surfaceOk s = true ↔ s.toList ∈ (plus componentPattern).matches' := by
  refine ⟨surfaceOk_match, ?_⟩
  intro h
  obtain ⟨pieces, hne, heq, hpieces⟩ := of_plus_match h
  have hnonempty : s.toList ≠ [] := by
    intro hnil
    have hlen := length_le_flatten hpieces
    rw [← heq, hnil] at hlen
    exact hne (List.length_eq_zero_iff.mp (Nat.le_zero.mp hlen))
  rw [surfaceOk, heq, components_flatten hpieces (length_le_flatten hpieces), ← heq]
  simpa using hnonempty

end RustyPhoton.SessionRunner
