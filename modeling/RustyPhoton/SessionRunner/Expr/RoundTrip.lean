import Mathlib
import RustyPhoton.SessionRunner.Expr.Height
import RustyPhoton.SessionRunner.Expr.Print

/-!
# Printing and parsing back

The printer decides on parentheses from its own precedence table, the parser from binding powers.
By induction on the tree, the printed text lexes to tokens that the grammar derives, at a level
that the printer's table promises, with a tree that folds to the one printed; so the parser reads
the text back.
-/

namespace RustyPhoton.SessionRunner.Expr

open Lib Fallible

/-! ## String literals -/

section strings

variable {srcLen start fuel pos : Nat} {out rest : List Char}

/-- A character that stands for itself. -/
theorem lexString_plain {c : Char} (hn : c ≠ '\n') (hq : c ≠ '\'') (hb : c ≠ '\\') :
    lexString srcLen '\'' start (fuel + 1) ⟨pos, c :: rest⟩ out =
      lexString srcLen '\'' start fuel ⟨pos + c.utf8Size, rest⟩ (c :: out) := by
  rw [lexString]
  dsimp only [Cursor.peek, List.head?_cons]
  split
  · contradiction
  · cases ‹some c = some '\n'›
    contradiction
  · cases ‹some c = _›
    rw [if_neg hq, if_neg hb]
    rfl

theorem hexDigit_digitChar {n : Nat} (hn : n < 16) : hexDigit (Nat.digitChar n) = some n := by
  revert n
  decide

theorem hexEscape_hex4 {at_ n : Nat} (hn : n < 65536) :
    ∃ pos', hexEscape at_ 4 ⟨pos, hex4 n ++ rest⟩ 0 = .ok (n, ⟨pos', rest⟩) := by
  refine ⟨pos + (Nat.digitChar (n / 4096 % 16)).utf8Size + (Nat.digitChar (n / 256 % 16)).utf8Size +
    (Nat.digitChar (n / 16 % 16)).utf8Size + (Nat.digitChar (n % 16)).utf8Size, ?_⟩
  have hsum : ((n / 4096 % 16 * 16 + n / 256 % 16) * 16 + n / 16 % 16) * 16 + n % 16 = n := by
    omega
  simp [hexEscape, hex4, Cursor.peek, Cursor.bump, hexDigit_digitChar, Nat.mod_lt, hsum]

/-- A printed character is read back, whatever it is. -/
theorem lexString_quoteChar (srcLen start fuel pos : Nat) (out rest : List Char) (c : Char) :
    ∃ pos', lexString srcLen '\'' start (fuel + 1) ⟨pos, quoteChar c ++ rest⟩ out =
      lexString srcLen '\'' start fuel ⟨pos', rest⟩ (c :: out) := by
  unfold quoteChar
  split
  · exact ⟨_, rfl⟩
  · exact ⟨_, rfl⟩
  · exact ⟨_, rfl⟩
  · exact ⟨_, rfl⟩
  · exact ⟨_, rfl⟩
  · rename_i hb hq hn _ _
    split
    · rename_i hsmall
      obtain ⟨pos', hhex⟩ : ∃ pos', hexEscape pos 4
          ⟨pos + '\\'.utf8Size + 'u'.utf8Size, hex4 c.toNat ++ rest⟩ 0 = .ok (c.toNat, ⟨pos', rest⟩) :=
        hexEscape_hex4 (by omega)
      refine ⟨pos', ?_⟩
      have hvalid : c.toNat.isValidChar := c.valid
      have hchar : Char.ofNatAux c.toNat hvalid = c := Char.ext (UInt32.toNat_inj.mp rfl)
      rw [lexString]
      dsimp [Cursor.peek, Cursor.bump]
      rw [hhex]
      dsimp
      rw [dif_pos hvalid, hchar]
      rfl
    · exact ⟨_, lexString_plain hn hq hb⟩

theorem lexString_quoted (srcLen start : Nat) {fuel : Nat} (pos : Nat) (out rest s : List Char)
    (hfuel : s.length < fuel) :
    ∃ pos', lexString srcLen '\'' start fuel ⟨pos, s.flatMap quoteChar ++ '\'' :: rest⟩ out =
      .ok (.str (String.ofList (out.reverse ++ s)), ⟨pos', rest⟩) := by
  induction s generalizing fuel pos out with
  | nil =>
    obtain ⟨fuel, rfl⟩ : ∃ k, fuel = k + 1 := ⟨fuel - 1, by simp at hfuel; omega⟩
    exact ⟨pos + '\''.utf8Size, by rw [List.append_nil]; rfl⟩
  | cons c s ih =>
    obtain ⟨fuel, rfl⟩ : ∃ k, fuel = k + 1 := ⟨fuel - 1, by simp at hfuel; omega⟩
    obtain ⟨p, hc⟩ := lexString_quoteChar srcLen start fuel pos out
      (s.flatMap quoteChar ++ '\'' :: rest) c
    obtain ⟨pos', hs⟩ := ih p (c :: out) (Nat.lt_of_succ_lt_succ hfuel)
    refine ⟨pos', ?_⟩
    rw [List.flatMap_cons, List.append_assoc, hc, hs]
    simp

end strings

theorem length_le_flatMap_quoteChar (s : List Char) : s.length ≤ (s.flatMap quoteChar).length := by
  induction s with
  | nil => simp
  | cons c s ih =>
    have hc : 1 ≤ (quoteChar c).length := by
      unfold quoteChar
      repeat' split
      all_goals simp
    simp only [List.flatMap_cons, List.length_append, List.length_cons]
    omega

theorem lexes_quote (s : String) : Lexes (quote s) [.str s] fun _ => True := by
  refine lexes_token (by decide) fun src srcLen pos rest _ => ?_
  have hfuel : s.toList.length <
      ('\'' :: ((s.toList.flatMap quoteChar ++ ['\'']) ++ rest)).length + 1 := by
    have hle := length_le_flatMap_quoteChar s.toList
    simp only [List.length_cons, List.length_append]
    omega
  obtain ⟨pos', hrun⟩ :=
    lexString_quoted srcLen pos (pos + '\''.utf8Size) [] rest s.toList hfuel
  refine ⟨pos', ?_⟩
  simpa [lexToken, Cursor.bump] using hrun

/-! ## Names -/

/-- An identifier: an ASCII letter or `_`, then letters, digits and `_`; no reserved word. -/
def validName (name : String) : Bool :=
  (match name.toList with
    | [] => false
    | c :: cs => (c.isAlpha || c = '_') && cs.all isIdentChar) &&
  name ≠ "null" && name ≠ "true" && name ≠ "false"

theorem lexes_name {name : String} (h : validName name) :
    Lexes name.toList [.ident name] endsWord ∧
      ∃ c cs, name.toList = c :: cs ∧ (c.isAlpha || c = '_') := by
  unfold validName at h
  cases hname : name.toList with
  | nil => simp [hname] at h
  | cons c cs =>
    simp only [hname, Bool.and_eq_true, decide_eq_true_eq, List.all_eq_true] at h
    obtain ⟨⟨⟨⟨hc, hcs⟩, hnull⟩, htrue⟩, hfalse⟩ := h
    have hword := lexes_word hc hcs
    have htok : wordTok (c :: cs) = .ident name := by
      rw [wordTok, ← hname, String.ofList_toList]
      simp [hnull, htrue, hfalse]
    exact ⟨htok ▸ hword, c, cs, rfl, hc⟩

/-- What stands after a printed expression. -/
def ends (c : Option Char) : Prop :=
  c = none ∨ c = some ' ' ∨ c = some ')' ∨ c = some ']' ∨ c = some ',' ∨ c = some '.' ∨
    c = some '['

variable {c : Option Char}

theorem ends.word (h : ends c) : endsWord c := by
  rcases h with rfl | rfl | rfl | rfl | rfl | rfl | rfl <;> exact ⟨by decide, by decide, by decide⟩

theorem ends.number (h : ends c) : endsNumber c := h.word.1

/-! ## Printed expressions -/

/-- The text `s` is read as the expression `e` at the level `l`, within `n` nesting levels. -/
def Reads (s : List Char) (l : Level) (n : Nat) (e : Ast) : Prop :=
  ∃ (ts : List Tok) (t : Ast), Lexes s ts ends ∧ t.fold = e.strip ∧
    (∀ d, n ≤ d → Derives false d l ts t) ∧ ∃ c cs, s = c :: cs ∧ c ≠ '='

namespace Reads

variable {s s' : List Char} {l l' : Level} {n m : Nat} {e x : Ast}

theorem mono (h : Reads s l n e) (hn : n ≤ m) (hl : l'.power ≤ l.power) : Reads s l' m e := by
  obtain ⟨ts, t, hlex, hfold, hder, hfirst⟩ := h
  exact ⟨ts, t, hlex, hfold, fun d hd => .tighter hl (hder d (hn.trans hd)), hfirst⟩

theorem whole (h : Reads s l n e) : Reads s .ternary n e :=
  h.mono (Nat.le_refl n) (by cases l <;> decide)

theorem token {tok : Tok} {t : Ast} (hlex : Lexes s [tok] ends) (hfold : t.fold = e.strip)
    (hder : ∀ d, Derives false d .primary [tok] t) (hfirst : ∃ c cs, s = c :: cs ∧ c ≠ '=') :
    Reads s .primary n e :=
  ⟨[tok], t, hlex, hfold, fun d _ => hder d, hfirst⟩

theorem group (h : Reads s .ternary n e) : Reads ('(' :: (s ++ [')'])) .primary (n + 1) e := by
  obtain ⟨ts, t, hlex, hfold, hder, -⟩ := h
  refine ⟨.lParen :: (ts ++ [.rParen]), t, ?_, hfold, fun d hd => ?_, '(', _, rfl, by decide⟩
  · have hinner : Lexes (s ++ [')']) (ts ++ [.rParen]) fun _ => True :=
      hlex.append_cons lexes_rParen (by simp [ends])
    exact (lexes_lParen.append hinner fun _ _ => trivial).mono fun _ _ => trivial
  · obtain ⟨k, rfl⟩ := Nat.exists_eq_add_one_of_ne_zero (Nat.ne_zero_of_lt hd)
    exact .group (hder k (by omega))

/-- Parentheses where the printer puts them; elsewhere the operand is tight enough. -/
theorem wrap {b : Bool} (h : Reads s l n e) (hb : b = false → l'.power ≤ l.power) :
    Reads (wrapIf b s) l' (n + 1) e := by
  cases b with
  | true => exact h.whole.group.mono (Nat.le_refl _) (by cases l' <;> decide)
  | false => exact h.mono (Nat.le_succ n) (hb rfl)

variable {span : Span}

theorem member {field : String} (h : Reads s .suffix n e) (hfield : validName field) :
    Reads (s ++ '.' :: field.toList) .suffix n (.member e field span) := by
  obtain ⟨ts, t, hlex, hfold, hder, c, cs, rfl, hc⟩ := h
  obtain ⟨hname, f, fs, hf, halpha⟩ := lexes_name hfield
  refine ⟨ts ++ [.dot, .ident field], .member t field noSpan, ?_, by simp [Ast.fold, Ast.strip, hfold],
    fun d hd => .member (hder d hd), c, _, rfl, hc⟩
  have hdot : Lexes ('.' :: field.toList) [.dot, .ident field] endsWord := by
    rw [hf] at hname ⊢
    exact lexes_dot.append_cons hname (by simp [(wordStart_facts halpha).1])
  exact (hlex.append_cons hdot (by simp [ends])).mono fun _ h => h.word

theorem index (h : Reads s .suffix n e) (hx : Reads s' .ternary m x) :
    Reads (s ++ '[' :: (s' ++ [']'])) .suffix (max n (m + 1)) (.index e x span) := by
  obtain ⟨ts, t, hlex, hfold, hder, c, cs, rfl, hc⟩ := h
  obtain ⟨ts', t', hlex', hfold', hder', -⟩ := hx
  refine ⟨ts ++ .lBracket :: (ts' ++ [.rBracket]), .index t t' noSpan, ?_,
    by simp [Ast.fold, Ast.strip, hfold, hfold'], fun d hd => ?_, c, _, rfl, hc⟩
  · have hinner : Lexes (s' ++ [']']) (ts' ++ [.rBracket]) fun _ => True :=
      hlex'.append_cons lexes_rBracket (by simp [ends])
    have hopen : Lexes ('[' :: (s' ++ [']'])) (.lBracket :: (ts' ++ [.rBracket])) fun _ => True :=
      lexes_lBracket.append hinner fun _ _ => trivial
    exact (hlex.append_cons hopen (by simp [ends])).mono fun _ _ => trivial
  · obtain ⟨k, rfl⟩ := Nat.exists_eq_add_one_of_ne_zero (Nat.ne_zero_of_lt (by omega : m < d))
    exact .index (hder _ (by omega)) (hder' k (by omega))

theorem not (h : Reads s .unary n e) :
    Reads ('!' :: s) .unary (n + 1) (.unary .not e span) := by
  obtain ⟨ts, t, hlex, hfold, hder, c, cs, rfl, hc⟩ := h
  refine ⟨.bang :: ts, .unary .not t noSpan, ?_, ?_, fun d hd => ?_, '!', _, rfl, by decide⟩
  · exact lexes_bang.append_cons hlex (by simpa using hc)
  · simp [Ast.fold, Ast.mkUnary, Ast.strip, hfold]
  · obtain ⟨k, rfl⟩ := Nat.exists_eq_add_one_of_ne_zero (Nat.ne_zero_of_lt hd)
    exact .not (hder k (by omega))

theorem neg {e' : Ast} (h : Reads s .unary n e) (hminus : startsWithMinus s = false)
    (hfold' : Ast.mkUnary .neg e.strip noSpan = e'.strip) :
    Reads ('-' :: s) .unary (n + 1) e' := by
  obtain ⟨ts, t, hlex, hfold, hder, c, cs, rfl, hc⟩ := h
  refine ⟨.minus :: ts, .unary .neg t noSpan, ?_, ?_, fun d hd => ?_, '-', _, rfl, by decide⟩
  · exact lexes_minus.append_cons hlex (by simpa [startsWithMinus] using hminus)
  · rw [Ast.fold, hfold, hfold']
  · obtain ⟨k, rfl⟩ := Nat.exists_eq_add_one_of_ne_zero (Nat.ne_zero_of_lt hd)
    exact .neg (hder k (by omega))

theorem binary {op : BinOp} (h : Reads s op.left n e) (hx : Reads s' op.right m x) :
    Reads (s ++ ' ' :: (op.sym.toList ++ ' ' :: s')) op.level (max n (m + 1))
      (.binary op e x span) := by
  obtain ⟨ts, t, hlex, hfold, hder, c, cs, rfl, hc⟩ := h
  obtain ⟨ts', t', hlex', hfold', hder', -⟩ := hx
  obtain ⟨i, j, hop⟩ := infixOp_opTok op
  refine ⟨ts ++ opTok op :: ts', .binary op t t' noSpan, ?_,
    by simp [Ast.fold, Ast.strip, hfold, hfold'], fun d hd => ?_, c, _, rfl, hc⟩
  · have hright : Lexes (' ' :: s') ts' ends := lexes_blank.append hlex' fun _ _ => trivial
    have hsym : Lexes (op.sym.toList ++ ' ' :: s') ([opTok op] ++ ts') ends :=
      (lexes_sym op).append_cons hright rfl
    have hblank : Lexes (' ' :: (op.sym.toList ++ ' ' :: s')) (opTok op :: ts') ends :=
      lexes_blank.append hsym fun _ _ => trivial
    exact hlex.append_cons hblank (by simp [ends])
  · obtain ⟨k, rfl⟩ := Nat.exists_eq_add_one_of_ne_zero (Nat.ne_zero_of_lt (by omega : m < d))
    exact .binary hop (hder _ (by omega)) (hder' k (by omega))

theorem cond {s'' : List Char} {y : Ast} {k : Nat} (h : Reads s .or n e)
    (hx : Reads s' .ternary m x) (hy : Reads s'' .ternary k y) :
    Reads (s ++ " ? ".toList ++ s' ++ " : ".toList ++ s'') .ternary (max n (max m k + 1))
      (.cond e x y span) := by
  obtain ⟨ts, t, hlex, hfold, hder, c, cs, rfl, hc⟩ := h
  obtain ⟨ts', t', hlex', hfold', hder', -⟩ := hx
  obtain ⟨ts'', t'', hlex'', hfold'', hder'', -⟩ := hy
  refine ⟨ts ++ .question :: (ts' ++ .colon :: ts''), .cond t t' t'' noSpan, ?_,
    by simp [Ast.fold, Ast.strip, hfold, hfold', hfold''], fun d hd => ?_, c, _, rfl, hc⟩
  · have hels : Lexes (' ' :: s'') ts'' ends := lexes_blank.append hlex'' fun _ _ => trivial
    have hcolon : Lexes (':' :: ' ' :: s'') (.colon :: ts'') ends :=
      lexes_colon.append hels fun _ _ => trivial
    have hsep : Lexes (' ' :: ':' :: ' ' :: s'') (.colon :: ts'') ends :=
      lexes_blank.append hcolon fun _ _ => trivial
    have hthen : Lexes (s' ++ ' ' :: ':' :: ' ' :: s'') (ts' ++ .colon :: ts'') ends :=
      hlex'.append_cons hsep (by simp [ends])
    have hspace : Lexes (' ' :: (s' ++ ' ' :: ':' :: ' ' :: s'')) (ts' ++ .colon :: ts'') ends :=
      lexes_blank.append hthen fun _ _ => trivial
    have hquestion : Lexes ('?' :: ' ' :: (s' ++ ' ' :: ':' :: ' ' :: s''))
        (.question :: (ts' ++ .colon :: ts'')) ends := lexes_question.append_cons hspace rfl
    have hblank : Lexes (' ' :: '?' :: ' ' :: (s' ++ ' ' :: ':' :: ' ' :: s''))
        (.question :: (ts' ++ .colon :: ts'')) ends :=
      lexes_blank.append hquestion fun _ _ => trivial
    have hall := hlex.append_cons hblank (by simp [ends])
    simpa using hall
  · obtain ⟨j, rfl⟩ := Nat.exists_eq_add_one_of_ne_zero (Nat.ne_zero_of_lt (by omega : m < d))
    exact .cond (hder _ (by omega)) (hder' j (by omega)) (hder'' j (by omega))

end Reads

/-- The arguments of a call, with a comma and a blank between them. -/
theorem lexes_args {args : List (List Char × List Tok × Ast)} (hne : args ≠ [])
    (h : ∀ arg ∈ args, Lexes arg.1 arg.2.1 ends) :
    Lexes ([',', ' '].intercalate (args.map (·.1))) ([Tok.comma].intercalate (args.map (·.2.1)))
      ends := by
  induction args with
  | nil => exact absurd rfl hne
  | cons arg args ih =>
    by_cases hargs : args = []
    · subst hargs
      simpa using h arg (by simp)
    · rw [List.map_cons, List.map_cons, List.intercalate_cons_of_ne_nil (by simpa using hargs),
        List.intercalate_cons_of_ne_nil (by simpa using hargs), List.append_assoc,
        List.append_assoc]
      have hrest := ih hargs fun x hx => h x (by simp [hx])
      have hblank := lexes_blank.append hrest fun _ _ => trivial
      have hcomma := lexes_comma.append hblank fun _ _ => trivial
      exact (h arg (by simp)).append_cons hcomma (by simp [ends])

variable {args : List Ast} {printed : List (List Char)} {n : Nat}

/-- Pieces that are all read, as one list of them. -/
theorem reads_pieces (h : List.Forall₂ (fun s arg => Reads s .ternary n arg) printed args) :
    ∃ pieces : List (List Char × List Tok × Ast), pieces.map (·.1) = printed ∧
      pieces.map (·.2.2.fold) = args.map Ast.strip ∧
      ∀ x ∈ pieces, Lexes x.1 x.2.1 ends ∧ ∀ d, n ≤ d → Derives false d .ternary x.2.1 x.2.2 := by
  induction h with
  | nil => exact ⟨[], rfl, rfl, by simp⟩
  | @cons s arg printed args hread _ ih =>
    obtain ⟨ts, t, hlex, hfold, hder, -⟩ := hread
    obtain ⟨pieces, hprinted, hstrip, hall⟩ := ih
    refine ⟨(s, ts, t) :: pieces, by simp [hprinted], by simp [hfold, hstrip], fun x hx => ?_⟩
    rcases List.mem_cons.mp hx with rfl | hx
    · exact ⟨hlex, hder⟩
    · exact hall x hx

variable {func : String} {span : Span}

theorem Reads.call {funcSpan : Span} (hfunc : validName func)
    (h : List.Forall₂ (fun s arg => Reads s .ternary n arg) printed args) :
    Reads (func.toList ++ '(' :: ([',', ' '].intercalate printed ++ [')'])) .suffix (n + 1)
      (.call func funcSpan args span) := by
  obtain ⟨hname, f, fs, hf, halpha⟩ := lexes_name hfunc
  have hfirst : f ≠ '=' := by
    rintro rfl
    exact absurd halpha (by decide)
  obtain ⟨pieces, rfl, hstrip, hall⟩ := reads_pieces h
  by_cases hne : pieces = []
  · subst hne
    have hargs : args = [] := by simpa using hstrip.symm
    subst hargs
    refine ⟨[.ident func] ++ [.lParen, .rParen], .call func noSpan [] noSpan, ?_,
      by simp [Ast.fold, Ast.strip, Ast.foldArgs, Ast.stripArgs],
      fun d _ => .callEmpty .ident fun _ => rfl, f, _, by rw [hf]; rfl, hfirst⟩
    have hparens : Lexes ['(', ')'] [.lParen, .rParen] fun _ => True :=
      lexes_lParen.append_cons lexes_rParen trivial
    exact (hname.append_cons hparens ⟨by decide, by decide, by decide⟩).mono fun _ _ => trivial
  · refine ⟨[.ident func] ++ .lParen :: ([Tok.comma].intercalate (pieces.map (·.2.1)) ++ [.rParen]),
      .call func noSpan (pieces.map (·.2.2)) noSpan, ?_, ?_, fun d hd => ?_, f, _, by rw [hf]; rfl,
      hfirst⟩
    · have hargs := lexes_args hne fun x hx => (hall x hx).1
      have hclose := hargs.append_cons lexes_rParen (by simp [ends])
      have hopen := lexes_lParen.append hclose fun _ _ => trivial
      exact (hname.append_cons hopen ⟨by decide, by decide, by decide⟩).mono fun _ _ => trivial
    · simp [Ast.fold, Ast.strip, Ast.foldArgs_eq_map, Ast.stripArgs_eq_map, ← hstrip,
        Function.comp_def]
    · obtain ⟨k, rfl⟩ := Nat.exists_eq_add_one_of_ne_zero (Nat.ne_zero_of_lt hd)
      have hcall : Derives false (k + 1) .suffix
          ([.ident func] ++ .lParen ::
            ([Tok.comma].intercalate ((pieces.map (·.2)).map (·.1)) ++ [.rParen]))
          (.call func noSpan ((pieces.map (·.2)).map (·.2)) noSpan) := by
        refine .call .ident (fun _ => rfl) (by simpa using hne) fun arg harg => ?_
        obtain ⟨x, hx, rfl⟩ := List.mem_map.mp harg
        exact (hall x hx).2 k (by omega)
      simpa [Function.comp_def] using hcall

/-! ## Expressions that print -/

/-- The text of a number: a minus for a set sign, and a literal that reads back as its magnitude. -/
def Renders (text : List Char) (n : Binary64) : Prop :=
  ∃ digits, NumberText digits ∧ text = (if n.sign then '-' :: digits else digits) ∧
    parseF64 digits = n.abs

/-- A known function with as many arguments as it takes, and a path for `has`. -/
def KnownCall (func : String) (args : List Ast) : Prop :=
  ∃ sig ∈ functions, sig.name = func ∧ sig.minArgs ≤ args.length ∧
    (∀ most ∈ sig.maxArgs, args.length ≤ most) ∧ (func = "has" → ∀ arg ∈ args, isPath arg)

def isNum : Ast → Bool
  | .num _ _ => true
  | _ => false

mutual
/-- A tree as the parser's constructors build it: finite numbers, valid names, known calls, and no
minus directly over a number. -/
def Valid : Ast → Prop
  | .null _ | .bool _ _ | .str _ _ => True
  | .num n _ => n.isFinite
  | .ident name _ => validName name
  | .member obj field _ => Valid obj ∧ validName field
  | .index obj idx _ => Valid obj ∧ Valid idx
  | .call func _ args _ => KnownCall func args ∧ ValidArgs args
  | .unary op rhs _ => Valid rhs ∧ ¬ (op = .neg ∧ isNum rhs)
  | .binary _ lhs rhs _ => Valid lhs ∧ Valid rhs
  | .cond c t e _ => Valid c ∧ Valid t ∧ Valid e

def ValidArgs : List Ast → Prop
  | [] => True
  | arg :: args => Valid arg ∧ ValidArgs args
end

mutual
/-- The numbers of a tree. -/
def numbers : Ast → List Binary64
  | .null _ | .bool _ _ | .str _ _ | .ident _ _ => []
  | .num n _ => [n]
  | .member obj _ _ => numbers obj
  | .index obj idx _ => numbers obj ++ numbers idx
  | .call _ _ args _ => numbersArgs args
  | .unary _ rhs _ => numbers rhs
  | .binary _ lhs rhs _ => numbers lhs ++ numbers rhs
  | .cond c t e _ => numbers c ++ numbers t ++ numbers e

def numbersArgs : List Ast → List Binary64
  | [] => []
  | arg :: args => numbers arg ++ numbersArgs args
end

mutual
/-- The bare identifiers of a tree. -/
def bareNames : Ast → List String
  | .null _ | .bool _ _ | .str _ _ | .num _ _ => []
  | .ident name _ => [name]
  | .member obj _ _ => bareNames obj
  | .index obj idx _ => bareNames obj ++ bareNames idx
  | .call _ _ args _ => bareNamesArgs args
  | .unary _ rhs _ => bareNames rhs
  | .binary _ lhs rhs _ => bareNames lhs ++ bareNames rhs
  | .cond c t e _ => bareNames c ++ bareNames t ++ bareNames e

def bareNamesArgs : List Ast → List String
  | [] => []
  | arg :: args => bareNames arg ++ bareNamesArgs args
end

/-- The level of an expression's text. A negative literal starts with the unary minus. -/
def printLevel : Ast → Level
  | .cond _ _ _ _ => .ternary
  | .binary op _ _ _ => op.level
  | .unary _ _ _ => .unary
  | .num n _ => if n.sign then .unary else .primary
  | .member _ _ _ | .index _ _ _ | .call _ _ _ _ => .suffix
  | _ => .primary

/-! ### The printer's table and the levels -/

/-- The printer's numbers are the levels' powers on another scale, but for a negative literal, which
the printer takes for a primary. -/
theorem power_of_prec (e : Ast) : min 13 (2 * prec e - 1) ≤ (printLevel e).power := by
  cases e with
  | num n => by_cases hn : n.sign <;> simp [printLevel, prec, hn, Level.power]
  | binary op => cases op <;> simp [printLevel, prec, BinOp.level, Level.power]
  | _ => simp [printLevel, prec, Level.power]

theorem operand_powers (op : BinOp) (lhs rhs : Ast) (span : Span) :
    prec (.binary op lhs rhs span) ≤ 6 ∧
      op.right.power = 2 * prec (.binary op lhs rhs span) + 1 ∧
      op.left.power + 1 =
        2 * prec (.binary op lhs rhs span) + (if op.isComparison then 2 else 0) := by
  cases op <;> simp [prec, BinOp.right, BinOp.left, BinOp.level, BinOp.isComparison, Level.power]

variable {e : Ast}

theorem unary_power_of_prec (h : decide (prec e < 7) = false) :
    Level.unary.power ≤ (printLevel e).power := by
  have hprec : ¬ prec e < 7 := of_decide_eq_false h
  have hpower := power_of_prec e
  change 13 ≤ _
  omega

variable {op : BinOp}

theorem left_power_of_prec {lhs rhs : Ast}
    (h : (if op.isComparison then decide (prec lhs ≤ prec (.binary op lhs rhs span))
      else decide (prec lhs < prec (.binary op lhs rhs span))) = false) :
    op.left.power ≤ (printLevel lhs).power := by
  obtain ⟨hle, -, hleft⟩ := operand_powers op lhs rhs span
  have hpower := power_of_prec lhs
  by_cases hop : op.isComparison
  · simp only [hop, if_true] at h hleft
    have hprec : ¬ _ := of_decide_eq_false h
    omega
  · simp only [hop, if_false, Bool.false_eq_true] at h hleft
    have hprec : ¬ _ := of_decide_eq_false h
    omega

theorem right_power_of_prec {lhs rhs : Ast}
    (h : decide (prec rhs ≤ prec (.binary op lhs rhs span)) = false) :
    op.right.power ≤ (printLevel rhs).power := by
  obtain ⟨hle, hright, -⟩ := operand_powers op lhs rhs span
  have hpower := power_of_prec rhs
  have hprec : ¬ _ := of_decide_eq_false h
  omega

theorem cond_power {c : Ast} (h : (match c with | .cond _ _ _ _ => true | _ => false) = false) :
    Level.or.power ≤ (printLevel c).power := by
  have hprec : 2 ≤ prec c := by
    cases c with
    | cond => simp at h
    | binary op => cases op <;> simp [prec]
    | _ => simp [prec]
  have hpower := power_of_prec c
  change 3 ≤ _
  omega

/-- A suffix is put directly after a tight operand; the only tight operand whose text is not one is
a negative literal, which starts with its minus. -/
theorem suffix_power {s : List Char} (hnum : ∀ n span, e = .num n span → Renders s n)
    (h : (decide (prec e < 8) || startsWithMinus s) = false) :
    Level.suffix.power ≤ (printLevel e).power := by
  simp only [Bool.or_eq_false_iff, decide_eq_false_iff_not] at h
  cases e with
  | num n span =>
    obtain ⟨digits, -, rfl, -⟩ := hnum n span rfl
    cases hn : n.sign with
    | true => simp [hn, startsWithMinus] at h
    | false => simp [printLevel, hn, Level.power]
  | binary op => cases op <;> simp [prec] at h
  | unary => simp [prec] at h
  | cond => simp [prec] at h
  | _ => simp [printLevel, Level.power]

/-! ## Every printed expression is read back -/

section

variable {render : Binary64 → List Char}

theorem digits_first {digits : List Char} (h : NumberText digits) :
    ∃ c cs, digits = c :: cs ∧ c ≠ '=' ∧ c ≠ '-' := by
  obtain ⟨c, whole, frac, exp, rfl, hc, -⟩ := h
  refine ⟨c, _, rfl, ?_, ?_⟩
  · rintro rfl
    exact absurd hc (by decide)
  · rintro rfl
    exact absurd hc (by decide)

variable {span : Span}

theorem reads_num {n : Binary64} {text : List Char} (hfin : n.isFinite)
    (h : Renders text n) : Reads text (printLevel (.num n span)) 1 (.num n span) := by
  obtain ⟨digits, hdigits, rfl, hparse⟩ := h
  obtain ⟨c, cs, hcs, heq, hminus⟩ := digits_first hdigits
  have hfin' : (parseF64 digits).isFinite := by
    rw [hparse]
    exact Binary64.isFinite_abs hfin
  have hlex : Lexes digits [.num n.abs] ends := by
    rw [← hparse]
    exact (lexes_number hdigits hfin').mono fun _ h => h.number
  have habs {k : Nat} : Reads digits .primary k (.num n.abs span) :=
    Reads.token (t := .num n.abs noSpan) hlex rfl (fun _ => .num) ⟨c, cs, hcs, heq⟩
  cases hn : n.sign with
  | true =>
    simp only [printLevel, hn, if_true]
    refine (habs.mono (Nat.le_refl 0) (by decide)).neg (by simpa [startsWithMinus, hcs] using hminus) ?_
    simp [Ast.strip, Ast.mkUnary, Binary64.neg_abs_of_sign hn]
  | false =>
    simp only [printLevel, hn, Bool.false_eq_true, if_false]
    rw [Binary64.abs_of_sign hn] at habs
    exact habs

theorem renders_num {e : Ast} (h : ∀ n ∈ numbers e, Renders (render n) n) (n : Binary64)
    (span : Span) (he : e = .num n span) : Renders (print render e) n := by
  subst he
  exact h n (by simp [numbers])

theorem functions_validName : ∀ sig ∈ functions, validName sig.name := by
  decide

variable {n : Nat} {s : List Char}

/-- The operand of a suffix, in parentheses where the printer puts them. -/
theorem reads_postfixObj {obj : Ast} (h : Reads s (printLevel obj) n obj)
    (hnum : ∀ n span, obj = .num n span → Renders s n) :
    Reads (postfixObj obj s) .suffix (n + 1) obj :=
  h.wrap (suffix_power hnum)

theorem reads_neg {rhs : Ast} (h : Reads s (printLevel rhs) n rhs) (hnum : ¬ isNum rhs) :
    Reads
      (if startsWithMinus (wrapIf (prec rhs < 7) s) then
        '-' :: '(' :: (wrapIf (prec rhs < 7) s ++ [')'])
      else '-' :: wrapIf (prec rhs < 7) s)
      .unary (n + 2) (.unary .neg rhs span) := by
  have hfold : Ast.mkUnary .neg rhs.strip noSpan = (Ast.unary .neg rhs span).strip := by
    cases rhs with
    | num => exact absurd rfl hnum
    | _ => rfl
  split
  · rename_i hminus
    -- the operand is not in parentheses yet, or it would not start with a minus
    cases hprec : decide (prec rhs < 7) with
    | true => simp [wrapIf, hprec, startsWithMinus] at hminus
    | false =>
      simp only [wrapIf, Bool.false_eq_true, if_false]
      exact (h.whole.group.mono (Nat.le_refl _) (by decide)).neg (by simp [startsWithMinus]) hfold
  · rename_i hminus
    exact (h.wrap unary_power_of_prec).neg (by simpa using hminus) hfold

mutual
/-- A valid expression's text is read as the expression. Every node costs at most two nesting
levels: its own, and one for the parentheses around it. -/
theorem print_reads : ∀ e : Ast, Valid e → (∀ n ∈ numbers e, Renders (render n) n) →
    Reads (print render e) (printLevel e) (2 * e.height - 1) e
  | .null _, _, _ => by
    refine Reads.token (t := .null noSpan) ?_ rfl (fun _ => .null) ⟨'n', _, rfl, by decide⟩
    exact (lexes_word (c := 'n') (by decide) (List.all_eq_true.mp (by decide))).mono fun _ h => h.word
  | .bool true _, _, _ => by
    refine Reads.token (t := .bool true noSpan) ?_ rfl (fun _ => .true_)
      ⟨'t', _, rfl, by decide⟩
    exact (lexes_word (c := 't') (by decide) (List.all_eq_true.mp (by decide))).mono fun _ h => h.word
  | .bool false _, _, _ => by
    refine Reads.token (t := .bool false noSpan) ?_ rfl (fun _ => .false_)
      ⟨'f', _, rfl, by decide⟩
    exact (lexes_word (c := 'f') (by decide) (List.all_eq_true.mp (by decide))).mono fun _ h => h.word
  | .num n _, hvalid, hnums => reads_num hvalid (hnums n (by simp [numbers]))
  | .str s _, _, _ => by
    refine Reads.token (t := .str s noSpan) ?_ rfl (fun _ => .str)
      ⟨'\'', _, rfl, by decide⟩
    exact (lexes_quote s).mono fun _ _ => trivial
  | .ident name _, hvalid, _ => by
    obtain ⟨hname, c, cs, hc, halpha⟩ := lexes_name hvalid
    refine Reads.token (t := .ident name noSpan) ?_ rfl (fun _ => .ident)
      ⟨c, cs, hc, ?_⟩
    · exact hname.mono fun _ h => h.word
    · rintro rfl
      exact absurd halpha (by decide)
  | .member obj field _, hvalid, hnums => by
    have hobj := reads_postfixObj (print_reads obj hvalid.1 hnums) (renders_num hnums)
    have hpos := obj.height_pos
    exact (hobj.member hvalid.2).mono (by simp only [Ast.height]; omega) (Nat.le_refl _)
  | .index obj idx _, hvalid, hnums => by
    simp only [numbers, List.mem_append] at hnums
    have hobjNums := fun n hn => hnums n (.inl hn)
    have hobj := reads_postfixObj (print_reads obj hvalid.1 hobjNums) (renders_num hobjNums)
    have hidx := print_reads idx hvalid.2 fun n hn => hnums n (.inr hn)
    have hpos := obj.height_pos
    exact (hobj.index hidx.whole).mono (by simp only [Ast.height]; omega) (Nat.le_refl _)
  | .call func _ args _, hvalid, hnums => by
    obtain ⟨⟨sig, hsig, rfl, -⟩, hargs⟩ := hvalid
    exact (Reads.call (functions_validName sig hsig) (printArgs_reads args hargs hnums)).mono
      (by simp only [Ast.height]; omega) (Nat.le_refl _)
  | .unary .not rhs _, hvalid, hnums => by
    have hrhs := print_reads rhs hvalid.1 hnums
    have hpos := rhs.height_pos
    exact (hrhs.wrap unary_power_of_prec).not.mono (by simp only [Ast.height]; omega) (Nat.le_refl _)
  | .unary .neg rhs _, hvalid, hnums => by
    have hrhs := print_reads rhs hvalid.1 hnums
    have hpos := rhs.height_pos
    have hnum : ¬ isNum rhs := fun h => hvalid.2 ⟨rfl, h⟩
    exact (reads_neg hrhs hnum).mono (by simp only [Ast.height]; omega) (Nat.le_refl _)
  | .binary op lhs rhs _, hvalid, hnums => by
    simp only [numbers, List.mem_append] at hnums
    have hlhs := print_reads lhs hvalid.1 fun n hn => hnums n (.inl hn)
    have hrhs := print_reads rhs hvalid.2 fun n hn => hnums n (.inr hn)
    have hpos := lhs.height_pos
    have hpos' := rhs.height_pos
    exact ((hlhs.wrap left_power_of_prec).binary (hrhs.wrap right_power_of_prec)).mono
      (by simp only [Ast.height]; omega) (Nat.le_refl _)
  | .cond c t e _, hvalid, hnums => by
    simp only [numbers, List.mem_append] at hnums
    have hc := print_reads c hvalid.1 fun n hn => hnums n (.inl (.inl hn))
    have ht := print_reads t hvalid.2.1 fun n hn => hnums n (.inl (.inr hn))
    have he := print_reads e hvalid.2.2 fun n hn => hnums n (.inr hn)
    have hpos := c.height_pos
    have hpos' := t.height_pos
    have hpos'' := e.height_pos
    exact ((hc.wrap cond_power).cond ht.whole he.whole).mono
      (by simp only [Ast.height]; omega) (Nat.le_refl _)

theorem printArgs_reads : ∀ args : List Ast, ValidArgs args →
    (∀ n ∈ numbersArgs args, Renders (render n) n) →
    List.Forall₂ (fun s arg => Reads s .ternary (2 * Ast.heightArgs args) arg)
      (printArgs render args) args
  | [], _, _ => .nil
  | arg :: args, hvalid, hnums => by
    simp only [numbersArgs, List.mem_append] at hnums
    have harg := print_reads arg hvalid.1 fun n hn => hnums n (.inl hn)
    have hargs := printArgs_reads args hvalid.2 fun n hn => hnums n (.inr hn)
    have hmax : Ast.heightArgs (arg :: args) = max arg.height (Ast.heightArgs args) := rfl
    refine .cons (harg.whole.mono (by omega) (Nat.le_refl _)) ?_
    exact hargs.imp fun _ _ h => h.mono (by omega) (Nat.le_refl _)
end

end

/-! ## The static checks -/

theorem isPath_strip (e : Ast) : isPath e.strip = isPath e := by
  induction e using isPath.induct with
  | case1 => rfl
  | case2 obj _ _ ih => simpa [Ast.strip, isPath] using ih
  | case3 obj _ _ ih => simpa [Ast.strip, isPath] using ih
  | case4 e => cases e <;> simp_all [Ast.strip, isPath]

variable {sig : FuncSig}

theorem find_function :
    functions.find? (·.name = func) = some sig ↔ sig ∈ functions ∧ sig.name = func := by
  constructor
  · intro h
    exact ⟨List.mem_of_find?_eq_some h, by simpa using List.find?_some h⟩
  · rintro ⟨hsig, rfl⟩
    simp only [functions, List.mem_cons, List.not_mem_nil, or_false] at hsig
    rcases hsig with rfl | rfl | rfl | rfl | rfl | rfl | rfl | rfl | rfl | rfl | rfl <;> rfl

/-- The function `has` takes one argument, so its first is all of them. -/
theorem has_head (hsig : sig ∈ functions) (hname : sig.name = "has")
    (hmin : sig.minArgs ≤ args.length) (hmax : ∀ most ∈ sig.maxArgs, args.length ≤ most) :
    ∃ arg, args = [arg] := by
  have hfind := find_function.mpr ⟨hsig, hname⟩
  obtain rfl : (⟨"has", 1, some 1⟩ : FuncSig) = sig := Option.some.inj hfind
  exact List.length_eq_one_iff.mp (Nat.le_antisymm (hmax 1 rfl) hmin)

theorem knownCall_iff (hsig : sig ∈ functions) (hname : sig.name = func) :
    KnownCall func args ↔ sig.minArgs ≤ args.length ∧ (∀ most ∈ sig.maxArgs, args.length ≤ most) ∧
      (func = "has" → ∀ arg ∈ args, isPath arg) := by
  constructor
  · rintro ⟨sig', hsig', hname', hcall⟩
    obtain rfl : sig' = sig := by
      have hfind := find_function.mpr ⟨hsig', hname'⟩
      rw [find_function.mpr ⟨hsig, hname⟩] at hfind
      exact (Option.some.inj hfind).symm
    exact hcall
  · intro hcall
    exact ⟨sig, hsig, hname, hcall⟩

theorem knownCall_stripArgs :
    KnownCall func (Ast.stripArgs args) ↔ KnownCall func args := by
  simp [KnownCall, Ast.stripArgs_eq_map, isPath_strip]

theorem checkCall_isOk {funcSpan : Span} :
    isOk (checkCall func funcSpan args span) ↔ KnownCall func args := by
  unfold checkCall
  cases hfind : functions.find? (·.name = func) with
  | none =>
    constructor
    · intro h
      exact nomatch h
    · rintro ⟨sig, hsig, hname, -⟩
      rw [find_function.mpr ⟨hsig, hname⟩] at hfind
      cases hfind
  | some sig =>
    obtain ⟨hsig, hname⟩ := find_function.mp hfind
    rw [knownCall_iff hsig hname]
    have hcount : (decide (args.length < sig.minArgs) || sig.maxArgs.any (· < args.length)) = false ↔
        sig.minArgs ≤ args.length ∧ ∀ most ∈ sig.maxArgs, args.length ≤ most := by
      cases sig.maxArgs <;> simp
    cases harity : decide (args.length < sig.minArgs) || sig.maxArgs.any (· < args.length) with
    | true =>
      constructor
      · intro h
        simp only [harity, if_true] at h
        exact nomatch h
      · intro h
        rw [hcount.mpr ⟨h.1, h.2.1⟩] at harity
        cases harity
    | false =>
      obtain ⟨hmin, hmax⟩ := hcount.mp harity
      simp only [harity, Bool.false_eq_true, if_false]
      by_cases hhas : func = "has"
      · obtain ⟨arg, rfl⟩ := has_head hsig (hname.trans hhas) hmin hmax
        cases harg : isPath arg with
        | true => simpa [hhas, harg, isOk, pure, Except.pure] using ⟨hmin, hmax⟩
        | false => simp [hhas, harg, isOk, throw, throwThe, MonadExceptOf.throw]
      · simpa [hhas, isOk, pure, Except.pure] using ⟨hmin, hmax⟩

mutual
/-- The checks read no spans. -/
theorem check_strip : ∀ e : Ast, isOk (check e.strip) = isOk (check e)
  | .null _ | .bool _ _ | .num _ _ | .str _ _ => rfl
  | .ident name _ => by
    simp only [Ast.strip, check]
    split
    · rfl
    · split <;> rfl
  | .member obj _ _ => by simpa only [Ast.strip, check] using check_strip obj
  | .index obj idx _ => by
    simp only [Ast.strip, check, isOk_seq, check_strip obj, check_strip idx]
  | .call func funcSpan args span => by
    have hcall : isOk (checkCall func noSpan (Ast.stripArgs args) noSpan) =
        isOk (checkCall func funcSpan args span) := by
      rw [Bool.eq_iff_iff, checkCall_isOk, checkCall_isOk, knownCall_stripArgs]
    simp only [Ast.strip, check, isOk_seq, hcall, checkArgs_strip args]
  | .unary _ rhs _ => by simpa only [Ast.strip, check] using check_strip rhs
  | .binary _ lhs rhs _ => by
    simp only [Ast.strip, check, isOk_seq, check_strip lhs, check_strip rhs]
  | .cond c t e _ => by
    simp only [Ast.strip, check, isOk_seq, check_strip c, check_strip t, check_strip e]

theorem checkArgs_strip : ∀ args : List Ast, isOk (checkArgs (Ast.stripArgs args)) = isOk (checkArgs args)
  | [] => rfl
  | arg :: args => by
    simp only [Ast.stripArgs, checkArgs, isOk_seq, check_strip arg, checkArgs_strip args]
end

mutual
theorem check_of_valid : ∀ e : Ast, Valid e → (∀ name ∈ bareNames e, name ∈ namespaces) →
    isOk (check e)
  | .null _, _, _ | .bool _ _, _, _ | .num _ _, _, _ | .str _ _, _, _ => rfl
  | .ident name _, _, hnames => by
    have hname : namespaces.contains name := by simpa using hnames name (by simp [bareNames])
    simp only [check, hname, if_true, isOk]
  | .member obj _ _, hvalid, hnames => check_of_valid obj hvalid.1 hnames
  | .index obj idx _, hvalid, hnames => by
    simp only [bareNames, List.mem_append] at hnames
    rw [check, isOk_seq, check_of_valid obj hvalid.1 fun n h => hnames n (.inl h),
      check_of_valid idx hvalid.2 fun n h => hnames n (.inr h), Bool.and_self]
  | .call func funcSpan args span, hvalid, hnames => by
    rw [check, isOk_seq, checkCall_isOk.mpr hvalid.1, checkArgs_of_valid args hvalid.2 hnames,
      Bool.and_self]
  | .unary _ rhs _, hvalid, hnames => check_of_valid rhs hvalid.1 hnames
  | .binary _ lhs rhs _, hvalid, hnames => by
    simp only [bareNames, List.mem_append] at hnames
    rw [check, isOk_seq, check_of_valid lhs hvalid.1 fun n h => hnames n (.inl h),
      check_of_valid rhs hvalid.2 fun n h => hnames n (.inr h), Bool.and_self]
  | .cond c t e _, hvalid, hnames => by
    simp only [bareNames, List.mem_append] at hnames
    rw [check, isOk_seq, isOk_seq, check_of_valid c hvalid.1 fun n h => hnames n (.inl (.inl h)),
      check_of_valid t hvalid.2.1 fun n h => hnames n (.inl (.inr h)),
      check_of_valid e hvalid.2.2 fun n h => hnames n (.inr h), Bool.and_self, Bool.and_self]

theorem checkArgs_of_valid : ∀ args : List Ast, ValidArgs args →
    (∀ name ∈ bareNamesArgs args, name ∈ namespaces) → isOk (checkArgs args)
  | [], _, _ => rfl
  | arg :: args, hvalid, hnames => by
    simp only [bareNamesArgs, List.mem_append] at hnames
    rw [checkArgs, isOk_seq, check_of_valid arg hvalid.1 fun n h => hnames n (.inl h),
      checkArgs_of_valid args hvalid.2 fun n h => hnames n (.inr h), Bool.and_self]
end

/-- Printing and parsing back is the identity up to spans, on every valid tree of at most 30 levels
whose bare identifiers are namespaces. -/
theorem print_parse_roundTrip (render : Binary64 → List Char) (e : Ast) (hvalid : Valid e)
    (hroots : ∀ name ∈ bareNames e, name ∈ namespaces)
    (hrender : ∀ n ∈ numbers e, Renders (render n) n) (hheight : e.height ≤ 30) :
    ∃ parsed, Expression.parse (String.ofList (print render e)) = .ok parsed ∧
      parsed.ast.strip = e.strip := by
  obtain ⟨ts, t, hlex, hfold, hder, -⟩ := (print_reads e hvalid hrender).whole
  rw [← hfold]
  rw [← String.toList_ofList (l := print render e)] at hlex
  refine Expression.parse_of_lexes hlex (.inl rfl) (hder maxDepth ?_) fun ast hast => ?_
  · simp only [maxDepth]
    omega
  · have hok : isOk (check ast) := by
      rw [← check_strip, hast, hfold, check_strip]
      exact check_of_valid e hvalid hroots
    obtain ⟨_, hunit⟩ := (isOk_iff _).mp hok
    exact hunit

/-- A literal whose text starts with a minus, below a member step and a minus of its own. -/
def negatedMember : Ast :=
  .unary .neg (.member (.num (.ofInt (-2)) noSpan) "x" noSpan) noSpan

def negatedMemberText : List Char := "-(-2.0).x".toList

theorem negatedMember_roundTrip :
    print (fun _ => "-2.0".toList) negatedMember = negatedMemberText ∧
      ∃ parsed, Expression.parse (String.ofList (print (fun _ => "-2.0".toList) negatedMember)) =
          .ok parsed ∧ parsed.ast.strip = negatedMember.strip := by
  have hfinite : (Binary64.ofInt (-2)).isFinite := by decide +kernel
  have hfield : validName "x" := by decide
  have hvalid : Valid negatedMember := ⟨⟨hfinite, hfield⟩, by simp [isNum]⟩
  have hrender : ∀ n ∈ numbers negatedMember, Renders "-2.0".toList n := by
    intro n hn
    obtain rfl : n = .ofInt (-2) := by simpa [negatedMember, numbers] using hn
    refine ⟨"2.0".toList, ?_, by decide +kernel, by decide +kernel⟩
    exact ⟨'2', [], ['.', '0'], [], rfl, by decide, by simp, by simp,
      .inr ⟨['0'], rfl, by simp, by simp⟩, .inl rfl, .inl (by simp)⟩
  have hroots : ∀ name ∈ bareNames negatedMember, name ∈ namespaces := by
    simp [negatedMember, bareNames]
  exact ⟨by decide +kernel, print_parse_roundTrip _ negatedMember hvalid hroots hrender (by decide)⟩

/-- A name that is no namespace is a valid identifier and prints as itself, but it is refused. -/
theorem bareName_is_refused :
    Valid (.ident "foo" noSpan) ∧ (Ast.ident "foo" noSpan).height ≤ 30 ∧
      ∀ render parsed, Expression.parse (String.ofList (print render (.ident "foo" noSpan))) ≠
        .ok parsed := by
  have hname : validName "foo" := by decide
  refine ⟨hname, by decide, fun render parsed h => ?_⟩
  have hok : isOk (Expression.parse "foo") := (isOk_iff _).mpr ⟨parsed, h⟩
  exact absurd hok (by decide +kernel)

end RustyPhoton.SessionRunner.Expr
