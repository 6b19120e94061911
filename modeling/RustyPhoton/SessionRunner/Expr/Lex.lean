import RustyPhoton.SessionRunner.Expr.Ast

/-!
# The lexer

After `expr/lex.rs`. The cursor is the characters still to read together with the byte offset of
the next one; every helper returns the token and the cursor after it. The main loop consumes at
least one character a round, so the number of characters left bounds its rounds.
-/

namespace RustyPhoton.SessionRunner.Expr

open Lib

inductive Tok where
  | num (n : Binary64) | str (s : String) | ident (s : String)
  | null | true_ | false_
  | plus | minus | star | slash | percent
  | eqEq | bangEq | lt | le | gt | ge
  | andAnd | orOr | bang | question | colon
  | lParen | rParen | lBracket | rBracket | dot | comma | eof
  deriving DecidableEq

namespace Tok

/-- How diagnostics name a token. -/
def describe : Tok → String
  | num n => "number `" ++ n.toText ++ "`"
  | str _ => "string literal"
  | ident s => "identifier `" ++ s ++ "`"
  | null => "`null`"
  | true_ => "`true`"
  | false_ => "`false`"
  | eof => "end of expression"
  | plus => "`+`" | minus => "`-`" | star => "`*`" | slash => "`/`" | percent => "`%`"
  | eqEq => "`==`" | bangEq => "`!=`" | lt => "`<`" | le => "`<=`" | gt => "`>`" | ge => "`>=`"
  | andAnd => "`&&`" | orOr => "`||`" | bang => "`!`" | question => "`?`" | colon => "`:`"
  | lParen => "`(`" | rParen => "`)`" | lBracket => "`[`" | rBracket => "`]`"
  | dot => "`.`" | comma => "`,`"

end Tok

structure Token where
  tok : Tok
  span : Span
  deriving DecidableEq

/-- The lexer's cursor: the byte offset of the next character and the characters from there. -/
structure Cursor where
  pos : Nat
  rest : List Char

namespace Cursor

def peek (lx : Cursor) : Option Char := lx.rest.head?

def peek2 (lx : Cursor) : Option Char := lx.rest.tail.head?

/-- Move past the next character, if there is one. -/
def bump (lx : Cursor) : Cursor :=
  match lx.rest with
  | [] => lx
  | c :: rest => ⟨lx.pos + c.utf8Size, rest⟩

end Cursor

/-- The character that starts at a byte offset, if one does. -/
def charAt : List Char → Nat → Option Char
  | [], _ => none
  | c :: rest, offset =>
      if offset = 0 then some c
      else if offset < c.utf8Size then none
      else charAt rest (offset - c.utf8Size)

/-- An error spanning the whole character at `start`. -/
def errAt (src : List Char) (start : Nat) (msg : String) : ExprError :=
  let stop := match charAt src start with
    | some c => start + c.utf8Size
    | none => start
  .parse msg ⟨start, stop⟩

abbrev LexResult := Except ExprError (Tok × Cursor)

/-- `+`, `-`, `*`; the doubled forms are rejected. The cursor is past the operator. -/
def arithOp (src : List Char) (lx : Cursor) (c : Char) (start : Nat) : LexResult :=
  if lx.peek = some c then
    .error (errAt src start (match c with
      | '+' => "`++` is not allowed — expressions cannot mutate values"
      | '-' => "`--` is not allowed — for double negation write `-(-x)`, with parentheses"
      | _ => "`**` is not supported — there is no exponentiation operator"))
  else
    .ok (match c with
      | '+' => .plus
      | '-' => .minus
      | _ => .star, lx)

/-- `/` alone is division; `//` and `/*` would open comments. -/
def slashOp (src : List Char) (lx : Cursor) (start : Nat) : LexResult :=
  match lx.peek with
  | some '/' | some '*' =>
      .error (errAt src start "comments are not allowed in workflow expressions")
  | _ => .ok (.slash, lx)

/-- `==`, `!=` and `!`; `===`, `!==`, `=>` and a bare `=` are rejected. -/
def eqOp (src : List Char) (lx : Cursor) (c : Char) (start : Nat) : LexResult :=
  if lx.peek = some '=' then
    if lx.peek2 = some '=' then
      .error (errAt src start (if c = '=' then
        "`===` is not an operator here — use `==` (all equality is strict)"
      else
        "`!==` is not an operator here — use `!=` (all equality is strict)"))
    else .ok (if c = '=' then .eqEq else .bangEq, lx.bump)
  else if c = '!' then .ok (.bang, lx)
  else if lx.peek = some '>' then
    .error (errAt src start
      "arrow functions are not supported — expressions cannot define functions")
  else
    .error (errAt src start ("`=` is not an operator — did you mean `==`? " ++
      "(expressions cannot assign; use a `set` instruction)"))

/-- `<` and `>`, bare or with `=`; the shift forms are rejected. -/
def cmpOp (src : List Char) (lx : Cursor) (c : Char) (start : Nat) : LexResult :=
  if lx.peek = some '=' then .ok (if c = '<' then .le else .ge, lx.bump)
  else if lx.peek = some c then .error (errAt src start "bitwise shifts are not supported")
  else .ok (if c = '<' then .lt else .gt, lx)

/-- `&&` and `||`; the lone forms are rejected. -/
def logicOp (src : List Char) (lx : Cursor) (c : Char) (start : Nat) : LexResult :=
  if lx.peek = some c then .ok (if c = '&' then .andAnd else .orOr, lx.bump)
  else
    .error (errAt src start (if c = '&' then
      "single `&` is not an operator — use `&&` for logical and"
    else
      "single `|` is not an operator — use `||` for logical or"))

/-- `?` opens a ternary; `??` and `?.` are rejected. -/
def questionOp (src : List Char) (lx : Cursor) (start : Nat) : LexResult :=
  match lx.peek with
  | some '?' => .error (errAt src start
      "`??` is not supported — test missing values explicitly with has(...) or != null")
  | some '.' => .error (errAt src start "`?.` is not supported — guard with has(...) instead")
  | _ => .ok (.question, lx)

/-- `.` is member access; a number literal needs a leading digit. -/
def dotOp (src : List Char) (lx : Cursor) (start : Nat) : LexResult :=
  if lx.peek.any Char.isDigit then
    .error (errAt src start "number literals need a leading digit — write 0.5, not .5")
  else .ok (.dot, lx)

/-- The rejection of a character that starts no token. -/
def rejectedChar (src : List Char) (c : Char) (start : Nat) : ExprError :=
  errAt src start (match c with
    | '`' => "template strings are not supported — use ' or \" quotes " ++
        "(and string interpolation is not available)"
    | ';' => "`;` is not allowed — a workflow expression is a single expression"
    | '\x7b' | '\x7d' =>
        "object literals are not supported — objects only come from tool results"
    | '~' | '^' => "`" ++ String.singleton c ++ "` (bitwise) is not supported"
    | other => "unexpected character `" ++ String.singleton other ++
        "` — identifiers are ASCII letters, digits and `_`")

/-- Consume a digit run: whether there was a digit, and the cursor after it. -/
def eatDigits (src : List Char) (start : Nat) :
    List Char → Nat → Bool → Except ExprError (Bool × Cursor)
  | [], pos, any => .ok (any, ⟨pos, []⟩)
  | c :: rest, pos, any =>
      if c.isDigit then eatDigits src start rest (pos + c.utf8Size) true
      else if c = '_' then
        .error (errAt src start "digit separators (`_`) are not supported in number literals")
      else .ok (any, ⟨pos, c :: rest⟩)

def digitsValue (digits : List Char) : Nat :=
  digits.foldl (fun n c => n * 10 + (c.toNat - '0'.toNat)) 0

/-- `str::parse::<f64>` on the text of a number literal: digits, an optional fraction and an
optional exponent, rounded once. -/
def parseF64 (text : List Char) : Binary64 :=
  let whole := text.takeWhile Char.isDigit
  let afterWhole := text.dropWhile Char.isDigit
  let frac := match afterWhole with
    | '.' :: rest => rest.takeWhile Char.isDigit
    | _ => []
  let expText := (text.dropWhile fun c => c ≠ 'e' && c ≠ 'E').tail
  let exponent : Int := match expText with
    | '-' :: digits => -(digitsValue digits : Int)
    | '+' :: digits => digitsValue digits
    | digits => digitsValue digits
  Binary64.ofRat false
    ((digitsValue (whole ++ frac) : Rat) * (10 : Rat) ^ (exponent - (frac.length : Int)))

/-- A number literal. `from_` are the characters from its first digit on, and the cursor is past
that digit. -/
def lexNumber (src from_ : List Char) (lx : Cursor) (first : Char) (start : Nat) :
    LexResult := do
  if first = '0' then
    if lx.peek.any Char.isDigit then
      throw (errAt src start "number literals cannot have leading zeros")
    if lx.peek = some 'x' || lx.peek = some 'X' then
      throw (errAt src start "hexadecimal literals are not supported — use decimal")
    if lx.peek = some 'b' || lx.peek = some 'B' then
      throw (errAt src start "binary literals are not supported — use decimal")
    if lx.peek = some 'o' || lx.peek = some 'O' then
      throw (errAt src start "octal literals are not supported — use decimal")
  let (_, lx) ← eatDigits src start lx.rest lx.pos false
  let lx ← if lx.peek = some '.' then do
      let (any, lx) ← eatDigits src start lx.bump.rest lx.bump.pos false
      if !any then
        throw (errAt src start
          "number literals need digits after the decimal point — write 5.0, not 5.")
      pure lx
    else pure lx
  let lx ← if lx.peek = some 'e' || lx.peek = some 'E' then do
      let lx := lx.bump
      let lx := if lx.peek = some '+' || lx.peek = some '-' then lx.bump else lx
      let (any, lx) ← eatDigits src start lx.rest lx.pos false
      if !any then throw (errAt src start "exponent needs digits (e.g. 1e3)")
      pure lx
    else pure lx
  if let some c := lx.peek then
    if c.isAlphanum || c = '_' then
      throw (errAt src lx.pos
        ("unexpected character `" ++ String.singleton c ++ "` after number literal"))
  let text := from_.take (from_.length - lx.rest.length)
  let value := parseF64 text
  if !value.isFinite then
    throw (.parse ("number literal `" ++ String.ofList text ++ "` overflows the f64 range")
      ⟨start, lx.pos⟩)
  pure (.num value, lx)

def hexDigit (c : Char) : Option Nat :=
  if c.isDigit then some (c.toNat - '0'.toNat)
  else if 'a' ≤ c && c ≤ 'f' then some (c.toNat - 'a'.toNat + 10)
  else if 'A' ≤ c && c ≤ 'F' then some (c.toNat - 'A'.toNat + 10)
  else none

/-- The four hex digits of a `\u` escape that opened at offset `at_`. -/
def hexEscape (at_ : Nat) : Nat → Cursor → Nat → Except ExprError (Nat × Cursor)
  | 0, lx, code => .ok (code, lx)
  | n + 1, lx, code =>
      match lx.peek.bind hexDigit with
      | some h => hexEscape at_ n lx.bump (code * 16 + h)
      | none => .error (.parse "invalid \\u escape — expected exactly 4 hex digits (\\u00e9)"
          ⟨at_, lx.bump.pos⟩)

/-- The rest of a string literal opened by `quote` at offset `start`. Each round consumes a
character, so the characters left bound the rounds. -/
def lexString (srcLen : Nat) (quote : Char) (start : Nat) :
    Nat → Cursor → List Char → LexResult
  | 0, _, _ => .error (unterminated srcLen start)
  | fuel + 1, lx, out =>
      let at_ := lx.pos
      match lx.peek with
      | none => .error (unterminated srcLen start)
      | some '\n' =>
          .error (.parse "strings cannot contain raw newlines — use \\n" ⟨at_, at_ + 1⟩)
      | some c =>
          let lx := lx.bump
          if c = quote then .ok (.str (String.ofList out.reverse), lx)
          else if c = '\\' then
            match lx.peek with
            | some '\\' => lexString srcLen quote start fuel lx.bump ('\\' :: out)
            | some '\'' => lexString srcLen quote start fuel lx.bump ('\'' :: out)
            | some '"' => lexString srcLen quote start fuel lx.bump ('"' :: out)
            | some 'n' => lexString srcLen quote start fuel lx.bump ('\n' :: out)
            | some 'r' => lexString srcLen quote start fuel lx.bump ('\r' :: out)
            | some 't' => lexString srcLen quote start fuel lx.bump ('\t' :: out)
            | some 'u' =>
                match hexEscape at_ 4 lx.bump 0 with
                | .error e => .error e
                | .ok (code, lx) =>
                    if h : code.isValidChar then
                      lexString srcLen quote start fuel lx (Char.ofNatAux code h :: out)
                    else
                      .error (.parse ("invalid \\u escape — surrogate code points are not " ++
                        "valid characters") ⟨at_, lx.pos⟩)
            | some other =>
                .error (.parse ("unknown escape `\\" ++ String.singleton other ++
                  "` (supported: \\\\ \\' \\\" \\n \\r \\t \\uXXXX)") ⟨at_, lx.bump.pos⟩)
            | none => .error (unterminated srcLen start)
          else lexString srcLen quote start fuel lx (c :: out)
where
  unterminated (srcLen start : Nat) : ExprError :=
    .parse s!"unterminated string literal (opened at offset {start})" ⟨start, srcLen⟩

def isIdentChar (c : Char) : Bool :=
  c.isAlphanum || c = '_'

/-- An identifier or keyword starting at the cursor. -/
def lexIdent (src : List Char) (lx : Cursor) (start : Nat) : LexResult :=
  let name := lx.rest.takeWhile isIdentChar
  -- identifier characters are ASCII: one byte each
  let lx : Cursor := ⟨lx.pos + name.length, lx.rest.dropWhile isIdentChar⟩
  let quoted := lx.peek = some '\'' || lx.peek = some '"'
  if quoted && name.all (fun c => c = 'b' || c = 'r' || c = 'B' || c = 'R') then
    .error (errAt src start ("`" ++ String.ofList name ++
      "'…'` byte/raw string literals are not supported — plain ' or \" strings only"))
  else
    let name := String.ofList name
    .ok (if name = "null" then .null
      else if name = "true" then .true_
      else if name = "false" then .false_
      else .ident name, lx)

/-- The token that starts at the cursor, whose next character is `c`. -/
def lexToken (src : List Char) (srcLen : Nat) (lx : Cursor) (c : Char) : LexResult :=
  let start := lx.pos
  if c.isDigit then lexNumber src lx.rest lx.bump c start
  else if c = '\'' || c = '"' then
    lexString srcLen c start (lx.rest.length + 1) lx.bump []
  else if c.isAlpha || c = '_' then lexIdent src lx start
  else match c with
    | '+' | '-' | '*' => arithOp src lx.bump c start
    | '/' => slashOp src lx.bump start
    | '=' | '!' => eqOp src lx.bump c start
    | '<' | '>' => cmpOp src lx.bump c start
    | '&' | '|' => logicOp src lx.bump c start
    | '?' => questionOp src lx.bump start
    | '.' => dotOp src lx.bump start
    | '%' => .ok (.percent, lx.bump)
    | ':' => .ok (.colon, lx.bump)
    | '(' => .ok (.lParen, lx.bump)
    | ')' => .ok (.rParen, lx.bump)
    | '[' => .ok (.lBracket, lx.bump)
    | ']' => .ok (.rBracket, lx.bump)
    | ',' => .ok (.comma, lx.bump)
    | other => .error (rejectedChar src other start)

def isBlank (c : Char) : Bool :=
  c = ' ' || c = '\t' || c = '\r' || c = '\n'

/-- Skip blanks; they are ASCII, one byte each. -/
def skipBlanks (lx : Cursor) : Cursor :=
  ⟨lx.pos + (lx.rest.takeWhile isBlank).length, lx.rest.dropWhile isBlank⟩

/-- The main loop, with the tokens so far in reverse. -/
def lexLoop (src : List Char) (srcLen : Nat) :
    Nat → Cursor → List Token → Except ExprError (List Token)
  | 0, lx, toks => .ok (⟨.eof, ⟨lx.pos, lx.pos⟩⟩ :: toks).reverse
  | fuel + 1, lx, toks =>
      let lx := skipBlanks lx
      match lx.peek with
      | none => .ok (⟨.eof, ⟨lx.pos, lx.pos⟩⟩ :: toks).reverse
      | some c => do
          let (tok, after) ← lexToken src srcLen lx c
          lexLoop src srcLen fuel after (⟨tok, ⟨lx.pos, after.pos⟩⟩ :: toks)

/-- Tokenize a source string. The result ends with an `eof` token at the end of the input. -/
def lex (src : String) : Except ExprError (List Token) :=
  let chars := src.toList
  lexLoop chars src.utf8ByteSize (chars.length + 1) ⟨0, chars⟩ []

end RustyPhoton.SessionRunner.Expr
