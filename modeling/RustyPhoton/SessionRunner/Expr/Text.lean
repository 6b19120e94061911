import RustyPhoton.SessionRunner.Expr.Sound

/-!
# What a text lexes to

`Lexes cs ts after` says that the lexer reads the characters `cs` as the tokens `ts`, wherever they
stand, as long as the next character meets `after`. Texts are put together piece by piece: where
one ends, the next has to start with a character that the last token of the first does not take.
-/

namespace RustyPhoton.SessionRunner.Expr

open Lib Fallible

section

-- the equations every proof below unfolds, computed once
attribute [local simp] lexLoop lexToken skipBlanks eatDigits isBlank isIdentChar eqOp

end

def Lexes (cs : List Char) (ts : List Tok) (after : Option Char → Prop) : Prop :=
  ∀ (src : List Char) (srcLen pos fuel : Nat) (rest : List Char) (acc : List Token),
    after rest.head? → (cs ++ rest).length < fuel →
    ∃ (pos' fuel' : Nat) (toks : List Token), rest.length < fuel' ∧ toks.map (·.tok) = ts ∧
      lexLoop src srcLen fuel ⟨pos, cs ++ rest⟩ acc =
        lexLoop src srcLen fuel' ⟨pos', rest⟩ (toks.reverse ++ acc)

section lexes

variable {c : Char} {cs cs' : List Char} {ts ts' : List Tok} {tok : Tok}
  {after after' : Option Char → Prop}

theorem Lexes.append (h : Lexes cs ts after) (h' : Lexes cs' ts' after')
    (hsep : ∀ rest : List Char, after' rest.head? → after (cs' ++ rest).head?) :
    Lexes (cs ++ cs') (ts ++ ts') after' := by
  intro src srcLen pos fuel rest acc hafter hfuel
  rw [List.append_assoc] at hfuel ⊢
  obtain ⟨pos₁, fuel₁, toks₁, hfuel₁, hts, heq₁⟩ :=
    h src srcLen pos fuel (cs' ++ rest) acc (hsep rest hafter) hfuel
  obtain ⟨pos₂, fuel₂, toks₂, hfuel₂, hts', heq₂⟩ :=
    h' src srcLen pos₁ fuel₁ rest (toks₁.reverse ++ acc) hafter hfuel₁
  refine ⟨pos₂, fuel₂, toks₁ ++ toks₂, hfuel₂, by simp [hts, hts'], ?_⟩
  rw [heq₁, heq₂]
  simp

/-- A next piece that starts with a character of its own. -/
theorem Lexes.append_cons (h : Lexes cs ts after) (h' : Lexes (c :: cs') ts' after')
    (hsep : after (some c)) : Lexes (cs ++ c :: cs') (ts ++ ts') after' :=
  h.append h' fun _ _ => hsep

theorem Lexes.mono (h : Lexes cs ts after) (hafter : ∀ c, after' c → after c) :
    Lexes cs ts after' := fun src srcLen pos fuel rest acc hrest =>
  h src srcLen pos fuel rest acc (hafter _ hrest)

theorem skipBlanks_of_not {pos : Nat} (hc : isBlank c = false) :
    skipBlanks ⟨pos, c :: cs⟩ = ⟨pos, c :: cs⟩ := by
  simp [skipBlanks, hc]

/-- One token, whose first character is no blank. -/
theorem lexes_token (hc : isBlank c = false)
    (h : ∀ (src : List Char) (srcLen pos : Nat) (rest : List Char), after rest.head? →
      ∃ pos', lexToken src srcLen ⟨pos, c :: (cs ++ rest)⟩ c = .ok (tok, ⟨pos', rest⟩)) :
    Lexes (c :: cs) [tok] after := by
  intro src srcLen pos fuel rest acc hafter hfuel
  obtain ⟨pos', htok⟩ := h src srcLen pos rest hafter
  cases fuel with
  | zero => omega
  | succ fuel =>
    refine ⟨pos', fuel, [⟨tok, ⟨pos, pos'⟩⟩], by simp at hfuel; omega, rfl, ?_⟩
    rw [lexLoop, List.cons_append, skipBlanks_of_not hc]
    simp [Cursor.peek, htok, bind, Except.bind]

theorem lexes_blank : Lexes [' '] [] fun _ => True := by
  intro src srcLen pos fuel rest acc _ hfuel
  have hskip : skipBlanks ⟨pos, ' ' :: rest⟩ = skipBlanks ⟨pos + 1, rest⟩ := by
    simp [skipBlanks, isBlank]
    omega
  cases fuel with
  | zero => omega
  | succ fuel =>
    refine ⟨pos + 1, fuel + 1, [], by simp at hfuel; omega, rfl, ?_⟩
    rw [lexLoop, lexLoop, List.singleton_append, hskip]
    rfl

/-- A text that is read to its end. -/
theorem Lexes.lex {src : String} (h : Lexes src.toList ts after) (hend : after none) :
    ∃ (w : List Token) (z : Token), Expr.lex src = .ok (w ++ [z]) ∧ w.map (·.tok) = ts ∧
      z.tok = .eof := by
  obtain ⟨pos, fuel, toks, hfuel, hts, heq⟩ :=
    h src.toList src.utf8ByteSize 0 (src.toList.length + 1) [] [] hend (by simp)
  refine ⟨toks, ⟨.eof, ⟨pos, pos⟩⟩, ?_, hts, rfl⟩
  rw [List.append_nil] at heq
  rw [Expr.lex]
  show lexLoop src.toList src.utf8ByteSize (src.toList.length + 1) ⟨0, src.toList⟩ [] = _
  rw [heq]
  cases fuel with
  | zero => simp [lexLoop]
  | succ fuel => simp [lexLoop, skipBlanks, Cursor.peek]

end lexes

/-- The lexer ends every token list with the end marker. -/
theorem lexLoop_ended {src : List Char} {srcLen fuel : Nat} {lx : Cursor} {acc ts : List Token}
    (h : lexLoop src srcLen fuel lx acc = .ok ts) : ∃ (w : List Token) (z : Token),
      ts = w ++ [z] ∧ z.tok = .eof := by
  induction fuel generalizing lx acc with
  | zero =>
    obtain rfl := Except.ok.inj h
    exact ⟨acc.reverse, _, List.reverse_cons, rfl⟩
  | succ fuel ih =>
    rw [lexLoop] at h
    split at h
    · obtain rfl := Except.ok.inj h
      exact ⟨acc.reverse, _, List.reverse_cons, rfl⟩
    · obtain ⟨⟨tok, after⟩, -, hnext⟩ := bind_eq_ok.mp h
      exact ih hnext

theorem lex_ended {src : String} {ts : List Token} (h : lex src = .ok ts) : Ended ts := by
  obtain ⟨w, z, rfl, hz⟩ := lexLoop_ended h
  exact ⟨z, by simp, hz⟩

/-! ## Words -/

/-- What may follow a word: no further character of it, and no quote, which would make a short word
the start of a raw string. -/
def endsWord (c : Option Char) : Prop :=
  ¬ c.any isIdentChar ∧ c ≠ some '\'' ∧ c ≠ some '"'

def wordTok (name : List Char) : Tok :=
  let name := String.ofList name
  if name = "null" then .null
  else if name = "true" then .true_
  else if name = "false" then .false_
  else .ident name

theorem wordStart_facts {c : Char} (hc : c.isAlpha || c = '_') :
    c.isDigit = false ∧ isIdentChar c = true ∧ isBlank c = false ∧ c ≠ '\'' ∧ c ≠ '"' := by
  by_cases hu : c = '_'
  · subst hu
    decide
  · have halpha : c.isAlpha = true := by simpa [hu] using hc
    have hrange : 65 ≤ c.toNat := by
      delta Char.isAlpha Char.isUpper Char.isLower at halpha
      simp [UInt32.le_iff_toNat_le] at halpha
      omega
    have hne : ∀ d : Char, d.toNat < 65 → c ≠ d := by
      rintro d hd rfl
      omega
    refine ⟨?_, by simp [isIdentChar, Char.isAlphanum, halpha], ?_, hne _ (by decide),
      hne _ (by decide)⟩
    · simp [Char.isDigit, UInt32.le_iff_toNat_le]
      omega
    · simp [isBlank, hne ' ' (by decide), hne '\t' (by decide), hne '\r' (by decide),
        hne '\n' (by decide)]

theorem lexes_word {c : Char} {cs : List Char} (hc : c.isAlpha || c = '_')
    (hcs : ∀ x ∈ cs, isIdentChar x) : Lexes (c :: cs) [wordTok (c :: cs)] endsWord := by
  obtain ⟨hdigit, hident, hblank, hquote, hquote'⟩ := wordStart_facts hc
  refine lexes_token hblank fun src srcLen pos rest ⟨hrest, hq, hq'⟩ => ?_
  have hall : ∀ x ∈ c :: cs, isIdentChar x := by simpa [hident] using hcs
  have hstop : rest.takeWhile isIdentChar = [] := by
    cases rest with
    | nil => rfl
    | cons x rest => exact List.takeWhile_cons_of_neg (by simpa using hrest)
  have htake : (c :: (cs ++ rest)).takeWhile isIdentChar = c :: cs := by
    rw [← List.cons_append, List.takeWhile_append_of_pos hall, hstop, List.append_nil]
  have hdrop : (c :: (cs ++ rest)).dropWhile isIdentChar = rest := by
    rw [← List.cons_append, List.dropWhile_append_of_pos hall]
    cases rest with
    | nil => rfl
    | cons x rest => exact List.dropWhile_cons_of_neg (by simpa using hrest)
  refine ⟨pos + (c :: cs).length, ?_⟩
  simp only [lexToken, hdigit, hquote, hquote', hc, lexIdent, htake, hdrop, Cursor.peek, hq, hq',
    wordTok]
  simp

/-! ## Operators and punctuation -/

theorem lexes_dot : Lexes ['.'] [.dot] fun c => ¬ c.any Char.isDigit := by
  refine lexes_token (by decide) fun src srcLen pos rest hrest => ⟨pos + '.'.utf8Size, ?_⟩
  simp only [lexToken, dotOp, Cursor.peek, Cursor.bump]
  delta Char.isAlpha Char.isUpper Char.isLower
  simp [Char.isDigit, hrest]

/-- A character that is a token whatever follows. -/
theorem lexes_char {c : Char} {tok : Tok} (hc : isBlank c = false)
    (h : ∀ (src : List Char) (srcLen : Nat) (lx : Cursor), lexToken src srcLen lx c =
      .ok (tok, lx.bump)) : Lexes [c] [tok] fun _ => True :=
  lexes_token hc fun src srcLen pos rest _ => ⟨pos + c.utf8Size, h src srcLen ⟨pos, c :: rest⟩⟩

theorem lexes_lParen : Lexes ['('] [.lParen] fun _ => True :=
  lexes_char (by decide) fun _ _ _ => rfl

theorem lexes_rParen : Lexes [')'] [.rParen] fun _ => True :=
  lexes_char (by decide) fun _ _ _ => rfl

theorem lexes_lBracket : Lexes ['['] [.lBracket] fun _ => True :=
  lexes_char (by decide) fun _ _ _ => rfl

theorem lexes_rBracket : Lexes [']'] [.rBracket] fun _ => True :=
  lexes_char (by decide) fun _ _ _ => rfl

theorem lexes_comma : Lexes [','] [.comma] fun _ => True :=
  lexes_char (by decide) fun _ _ _ => rfl

theorem lexes_colon : Lexes [':'] [.colon] fun _ => True :=
  lexes_char (by decide) fun _ _ _ => rfl

theorem lexes_minus : Lexes ['-'] [.minus] fun c => c ≠ some '-' := by
  refine lexes_token (by decide) fun src srcLen pos rest hrest => ⟨pos + '-'.utf8Size, ?_⟩
  exact if_neg hrest

theorem lexes_bang : Lexes ['!'] [.bang] fun c => c ≠ some '=' := by
  refine lexes_token (by decide) fun src srcLen pos rest hrest => ⟨pos + '!'.utf8Size, ?_⟩
  exact if_neg hrest

theorem lexes_question : Lexes ['?'] [.question] fun c => c = some ' ' := by
  refine lexes_token (by decide) fun src srcLen pos rest hrest => ⟨pos + '?'.utf8Size, ?_⟩
  have hop : questionOp src ⟨pos + '?'.utf8Size, rest⟩ pos =
      .ok (.question, ⟨pos + '?'.utf8Size, rest⟩) := by
    simp [questionOp, Cursor.peek, hrest]
  exact hop

/-- The token of a binary operator. -/
def opTok : BinOp → Tok
  | .or => .orOr | .and => .andAnd
  | .eq => .eqEq | .ne => .bangEq | .lt => .lt | .le => .le | .gt => .gt | .ge => .ge
  | .add => .plus | .sub => .minus | .mul => .star | .div => .slash | .rem => .percent

theorem infixOp_opTok (op : BinOp) : ∃ l r, infixOp (opTok op) = some (op, l, r) := by
  cases op <;> exact ⟨_, _, rfl⟩

def symChars : BinOp → List Char
  | .or => ['|', '|'] | .and => ['&', '&']
  | .eq => ['=', '='] | .ne => ['!', '='] | .lt => ['<'] | .le => ['<', '=']
  | .gt => ['>'] | .ge => ['>', '=']
  | .add => ['+'] | .sub => ['-'] | .mul => ['*'] | .div => ['/'] | .rem => ['%']

theorem sym_toList (op : BinOp) : op.sym.toList = symChars op := by
  cases op <;> rfl

theorem lexes_one {c : Char} {tok : Tok} (hc : isBlank c = false)
    (h : ∀ (src : List Char) (srcLen pos : Nat) (rest : List Char), rest.head? = some ' ' →
      lexToken src srcLen ⟨pos, c :: rest⟩ c = .ok (tok, ⟨pos + c.utf8Size, rest⟩)) :
    Lexes [c] [tok] fun c => c = some ' ' :=
  lexes_token hc fun src srcLen pos rest hrest => ⟨_, h src srcLen pos rest hrest⟩

theorem lexes_two {c x : Char} {tok : Tok} (hc : isBlank c = false)
    (h : ∀ (src : List Char) (srcLen pos : Nat) (rest : List Char), rest.head? = some ' ' →
      lexToken src srcLen ⟨pos, c :: x :: rest⟩ c =
        .ok (tok, ⟨pos + c.utf8Size + x.utf8Size, rest⟩)) :
    Lexes [c, x] [tok] fun c => c = some ' ' :=
  lexes_token hc fun src srcLen pos rest hrest => ⟨_, h src srcLen pos rest hrest⟩

/-- An operator's symbol before a blank. -/
theorem lexes_sym (op : BinOp) : Lexes op.sym.toList [opTok op] fun c => c = some ' ' := by
  rw [sym_toList]
  cases op with
  | or | and | le | ge => exact lexes_two (by decide) fun src srcLen pos rest h => rfl
  | eq =>
    refine lexes_two (by decide) fun src srcLen pos rest h => ?_
    have hop : eqOp src ⟨pos + '='.utf8Size, '=' :: rest⟩ '=' pos =
        .ok (.eqEq, ⟨pos + '='.utf8Size + '='.utf8Size, rest⟩) := by
      simp [eqOp, Cursor.peek, Cursor.peek2, Cursor.bump, h]
    exact hop
  | ne =>
    refine lexes_two (by decide) fun src srcLen pos rest h => ?_
    have hop : eqOp src ⟨pos + '!'.utf8Size, '=' :: rest⟩ '!' pos =
        .ok (.bangEq, ⟨pos + '!'.utf8Size + '='.utf8Size, rest⟩) := by
      simp [eqOp, Cursor.peek, Cursor.peek2, Cursor.bump, h]
    exact hop
  | lt | gt =>
    refine lexes_one (by decide) fun src srcLen pos rest h => ?_
    refine (if_neg ?_).trans (if_neg ?_) <;> simp [Cursor.peek, Cursor.bump, h]
  | add | sub | mul =>
    refine lexes_one (by decide) fun src srcLen pos rest h => ?_
    exact if_neg (by simp [Cursor.peek, Cursor.bump, h])
  | div =>
    refine lexes_one (by decide) fun src srcLen pos rest h => ?_
    have hop : slashOp src ⟨pos + '/'.utf8Size, rest⟩ pos =
        .ok (.slash, ⟨pos + '/'.utf8Size, rest⟩) := by
      simp [slashOp, Cursor.peek, h]
    exact hop
  | rem => exact lexes_one (by decide) fun src srcLen pos rest h => rfl

/-! ## Numbers -/

def Digits (cs : List Char) : Prop := cs ≠ [] ∧ ∀ c ∈ cs, c.isDigit

/-- What may follow a number. -/
def endsNumber (c : Option Char) : Prop := ¬ c.any isIdentChar

theorem endsNumber.ne {c : Option Char} (h : endsNumber c) {x : Char} (hx : isIdentChar x = true) :
    c ≠ some x := by
  rintro rfl
  exact h (by simpa using hx)

theorem endsNumber.not_digit {c : Option Char} (h : endsNumber c) : c.any Char.isDigit = false := by
  cases c with
  | none => rfl
  | some x => simp [endsNumber, isIdentChar, Char.isAlphanum] at h ⊢; exact h.1.2

theorem eatDigits_run (src : List Char) (start : Nat) {ds rest : List Char}
    (hds : ∀ c ∈ ds, c.isDigit) (hrest : rest.head?.any Char.isDigit = false)
    (hsep : rest.head? ≠ some '_') (pos : Nat) (any : Bool) :
    ∃ pos', eatDigits src start (ds ++ rest) pos any = .ok (any || !ds.isEmpty, ⟨pos', rest⟩) := by
  induction ds generalizing pos any with
  | nil =>
    refine ⟨pos, ?_⟩
    cases rest with
    | nil => simp [eatDigits]
    | cons c rest =>
      simp at hrest hsep
      simp [eatDigits, hrest, hsep]
  | cons c ds ih =>
    obtain ⟨pos', h⟩ := ih (fun x hx => hds x (by simp [hx])) (pos + c.utf8Size) true
    refine ⟨pos', ?_⟩
    simp [eatDigits, hds c (by simp), h]

/-- The steps of a number literal: its digits, its fraction and its exponent, if there. -/
theorem lexNumber_run {src from_ text : List Char} {lx lx₁ lx₂ lx₃ : Cursor} {first : Char}
    {start : Nat} {any : Bool} (hzero : first = '0' → lx.peek = some '.' ∨ lx.peek = some 'e')
    (hwhole : eatDigits src start lx.rest lx.pos false = .ok (any, lx₁))
    (hfrac : lx₁.peek ≠ some '.' ∧ lx₂ = lx₁ ∨
      lx₁.peek = some '.' ∧ eatDigits src start lx₁.bump.rest lx₁.bump.pos false = .ok (true, lx₂))
    (hexp : lx₂.peek ≠ some 'e' ∧ lx₂.peek ≠ some 'E' ∧ lx₃ = lx₂ ∨
      ∃ lx', lx₂.peek = some 'e' ∧
        lx' = (if lx₂.bump.peek = some '+' || lx₂.bump.peek = some '-' then lx₂.bump.bump
          else lx₂.bump) ∧
        eatDigits src start lx'.rest lx'.pos false = .ok (true, lx₃))
    (hend : endsNumber lx₃.peek) (htext : from_.take (from_.length - lx₃.rest.length) = text)
    (hfin : (parseF64 text).isFinite) :
    lexNumber src from_ lx first start = .ok (.num (parseF64 text), lx₃) := by
  have hzero : first = '0' → lx.peek.any Char.isDigit = false ∧ lx.peek ≠ some 'x' ∧
      lx.peek ≠ some 'X' ∧ lx.peek ≠ some 'b' ∧ lx.peek ≠ some 'B' ∧ lx.peek ≠ some 'o' ∧
      lx.peek ≠ some 'O' := by
    intro h
    rcases hzero h with hpeek | hpeek <;> rw [hpeek] <;> decide
  have hlast : ∀ c, lx₃.peek = some c → c.isAlphanum = false ∧ c ≠ '_' := by
    intro c hc
    simpa [endsNumber, hc, isIdentChar] using hend
  rw [lexNumber]
  rcases hfrac with ⟨hdot, rfl⟩ | ⟨hdot, hfrac⟩ <;>
    rcases hexp with ⟨he, hE, rfl⟩ | ⟨lx', he, rfl, hexp⟩ <;>
    by_cases hc : first = '0' <;> cases hp : lx₃.peek <;>
    simp_all [bind, Except.bind, pure, Except.pure]
/-- A number literal in the form the standard library gives floats: a fraction or an exponent, or
both. -/
def NumberText (cs : List Char) : Prop :=
  ∃ (c : Char) (ds frac exp : List Char), cs = c :: (ds ++ (frac ++ exp)) ∧ c.isDigit ∧
    (∀ x ∈ ds, x.isDigit) ∧ (c = '0' → ds = []) ∧
    (frac = [] ∨ ∃ fs, frac = '.' :: fs ∧ Digits fs) ∧
    (exp = [] ∨ ∃ sign es, exp = 'e' :: (sign ++ es) ∧ (sign = [] ∨ sign = ['-']) ∧ Digits es) ∧
    (frac ≠ [] ∨ exp ≠ [])

section number

variable {rest : List Char}

theorem fraction_run (src : List Char) (start p : Nat) {frac : List Char}
    (h : frac = [] ∨ ∃ fs, frac = '.' :: fs ∧ Digits fs)
    (hdot : frac = [] → rest.head? ≠ some '.') (hdigit : rest.head?.any Char.isDigit = false)
    (hsep : rest.head? ≠ some '_') :
    ∃ q, (Cursor.peek ⟨p, frac ++ rest⟩ ≠ some '.' ∧ (⟨q, rest⟩ : Cursor) = ⟨p, frac ++ rest⟩ ∨
      Cursor.peek ⟨p, frac ++ rest⟩ = some '.' ∧
        eatDigits src start (Cursor.bump ⟨p, frac ++ rest⟩).rest (Cursor.bump ⟨p, frac ++ rest⟩).pos
          false = .ok (true, ⟨q, rest⟩)) := by
  rcases h with rfl | ⟨fs, rfl, hne, hfs⟩
  · exact ⟨p, .inl ⟨hdot rfl, rfl⟩⟩
  · obtain ⟨q, hq⟩ := eatDigits_run src start hfs hdigit hsep (p + '.'.utf8Size) false
    have hany : (false || !fs.isEmpty) = true := by simpa using hne
    rw [hany] at hq
    exact ⟨q, .inr ⟨rfl, hq⟩⟩

theorem exponent_run (src : List Char) (start p : Nat) {exp : List Char}
    (h : exp = [] ∨ ∃ sign es, exp = 'e' :: (sign ++ es) ∧ (sign = [] ∨ sign = ['-']) ∧ Digits es)
    (hrest : endsNumber rest.head?) :
    ∃ q, (Cursor.peek ⟨p, exp ++ rest⟩ ≠ some 'e' ∧ Cursor.peek ⟨p, exp ++ rest⟩ ≠ some 'E' ∧
        (⟨q, rest⟩ : Cursor) = ⟨p, exp ++ rest⟩ ∨
      ∃ lx' : Cursor, Cursor.peek ⟨p, exp ++ rest⟩ = some 'e' ∧
        lx' = (if (Cursor.bump ⟨p, exp ++ rest⟩).peek = some '+' ||
            (Cursor.bump ⟨p, exp ++ rest⟩).peek = some '-' then
          (Cursor.bump ⟨p, exp ++ rest⟩).bump else Cursor.bump ⟨p, exp ++ rest⟩) ∧
        eatDigits src start lx'.rest lx'.pos false = .ok (true, ⟨q, rest⟩)) := by
  rcases h with rfl | ⟨sign, es, rfl, hsign, hne, hes⟩
  · exact ⟨p, .inl ⟨hrest.ne (by decide), hrest.ne (by decide), rfl⟩⟩
  · have hsep := hrest.ne (show isIdentChar '_' = true by decide)
    rcases hsign with rfl | rfl
    · -- the first digit is no sign
      obtain ⟨e, es, rfl⟩ := List.exists_cons_of_ne_nil hne
      have hdigit := hes e (by simp)
      have hsign : e ≠ '+' ∧ e ≠ '-' := by
        constructor <;> rintro rfl <;> exact absurd hdigit (by decide)
      obtain ⟨q, hq⟩ := eatDigits_run src start hes hrest.not_digit hsep (p + 'e'.utf8Size) false
      refine ⟨q, .inr ⟨_, rfl, rfl, ?_⟩⟩
      simpa [Cursor.bump, Cursor.peek, hsign] using hq
    · obtain ⟨q, hq⟩ := eatDigits_run src start hes hrest.not_digit hsep
        (p + 'e'.utf8Size + '-'.utf8Size) false
      have hany : (false || !es.isEmpty) = true := by simpa using hne
      rw [hany] at hq
      exact ⟨q, .inr ⟨_, rfl, rfl, by simpa [Cursor.bump, Cursor.peek] using hq⟩⟩

end number

theorem lexes_number {cs : List Char} (h : NumberText cs) (hfin : (parseF64 cs).isFinite) :
    Lexes cs [.num (parseF64 cs)] endsNumber := by
  obtain ⟨c, ds, frac, exp, rfl, hc, hds, hzero, hfrac, hexp, hsome⟩ := h
  have hblank : isBlank c = false := by
    simp [Char.isDigit, UInt32.le_iff_toNat_le] at hc
    have hne : ∀ d : Char, d.toNat < 48 → c ≠ d := by
      rintro d hd rfl
      omega
    simp [isBlank, hne ' ' (by decide), hne '\t' (by decide), hne '\r' (by decide),
      hne '\n' (by decide)]
  refine lexes_token hblank fun src srcLen pos rest hrest => ?_
  -- what stands after the digits: a fraction, or else an exponent
  have htail : (frac ++ (exp ++ rest)).head? = some '.' ∨
      (frac ++ (exp ++ rest)).head? = some 'e' := by
    rcases hfrac with rfl | ⟨fs, rfl, -⟩
    · obtain ⟨sign, es, rfl, -⟩ := hexp.resolve_left (by simpa using hsome)
      exact .inr rfl
    · exact .inl rfl
  obtain ⟨p₁, hwhole⟩ := eatDigits_run src pos hds
    (by rcases htail with h | h <;> rw [h] <;> rfl)
    (by rcases htail with h | h <;> rw [h] <;> decide) (pos + c.utf8Size) false
  have hnext : (frac = [] → (exp ++ rest).head? ≠ some '.') ∧
      (exp ++ rest).head?.any Char.isDigit = false ∧ (exp ++ rest).head? ≠ some '_' := by
    rcases hexp with rfl | ⟨sign, es, rfl, -⟩
    · have hne : frac ≠ [] := by simpa using hsome
      exact ⟨fun h => absurd h hne, hrest.not_digit, hrest.ne (by decide)⟩
    · exact ⟨fun _ => by simp, by simp, by simp⟩
  obtain ⟨p₂, hfraction⟩ := fraction_run src pos p₁ hfrac hnext.1 hnext.2.1 hnext.2.2
  obtain ⟨p₃, hexponent⟩ := exponent_run src pos p₂ hexp hrest
  have htext : (c :: (ds ++ (frac ++ (exp ++ rest)))).take
      ((c :: (ds ++ (frac ++ (exp ++ rest)))).length - rest.length) =
      c :: (ds ++ (frac ++ exp)) := by
    have hassoc : c :: (ds ++ (frac ++ (exp ++ rest))) = (c :: (ds ++ (frac ++ exp))) ++ rest := by
      simp
    rw [hassoc, List.length_append, Nat.add_sub_cancel, List.take_left]
  have hfirst : c = '0' → Cursor.peek ⟨pos + c.utf8Size, ds ++ (frac ++ (exp ++ rest))⟩ = some '.' ∨
      Cursor.peek ⟨pos + c.utf8Size, ds ++ (frac ++ (exp ++ rest))⟩ = some 'e' := by
    intro h
    obtain rfl := hzero h
    exact htail
  refine ⟨p₃, ?_⟩
  have hrun := lexNumber_run hfirst hwhole hfraction hexponent hrest htext hfin
  simpa [lexToken, hc, Cursor.bump] using hrun

end RustyPhoton.SessionRunner.Expr
