import RustyPhoton.SessionRunner.Expr.Lex

/-!
# The Pratt parser and the static checks

After `expr/parse.rs`, `expr/check.rs` and `Expression::parse` of `expr/mod.rs`. The parser state
is the tokens still to read; the last token is never consumed. `exprBp` recurses on the nesting
levels left under the cap, and its callees take the parser of the next level as an argument. The
loops consume a token a round, so the tokens left bound their rounds.
-/

namespace RustyPhoton.SessionRunner.Expr

open Lib

/-- The built-in functions with their least and greatest number of arguments; no upper bound is
`none`. -/
structure FuncSig where
  name : String
  minArgs : Nat
  maxArgs : Option Nat

def functions : List FuncSig :=
  [⟨"abs", 1, some 1⟩, ⟨"min", 2, none⟩, ⟨"max", 2, none⟩, ⟨"clamp", 3, some 3⟩,
   ⟨"floor", 1, some 1⟩, ⟨"ceil", 1, some 1⟩, ⟨"round", 1, some 1⟩, ⟨"seconds", 1, some 1⟩,
   ⟨"humantime", 1, some 1⟩, ⟨"has", 1, some 1⟩, ⟨"seconds_until", 1, some 1⟩]

def functionNames : String :=
  ", ".intercalate (functions.map (·.name))

def namespaces : List String := ["params", "session", "result", "event", "error"]

/-! ## The parser -/

/-- The tokens still to read. -/
abbrev Parser := List Token

namespace Parser

/-- The current token; the last one is returned forever once reached. -/
def peek (p : Parser) : Token :=
  p.headD ⟨.eof, ⟨0, 0⟩⟩

/-- Move past the current token, unless it is the last. -/
def bump (p : Parser) : Parser :=
  match p with
  | _ :: next :: rest => next :: rest
  | p => p

end Parser

abbrev ParseResult := Except ExprError (Ast × Parser)

/-- The parser of the next nesting level: a minimum binding power and the tokens. -/
abbrev SubParser := Nat → Parser → ParseResult

def maxDepth : Nat := 64

/-- Left and right binding powers, from the loosest to the tightest. -/
def bpTernary : Nat × Nat := (2, 1)
def bpOr : Nat × Nat := (3, 4)
def bpAnd : Nat × Nat := (5, 6)
def bpCmp : Nat × Nat := (7, 8)
def bpAdd : Nat × Nat := (9, 10)
def bpMul : Nat × Nat := (11, 12)
def bpUnary : Nat := 13
def bpPostfix : Nat := 15

def infixOp : Tok → Option (BinOp × Nat × Nat)
  | .orOr => some (.or, bpOr)
  | .andAnd => some (.and, bpAnd)
  | .eqEq => some (.eq, bpCmp)
  | .bangEq => some (.ne, bpCmp)
  | .lt => some (.lt, bpCmp)
  | .le => some (.le, bpCmp)
  | .gt => some (.gt, bpCmp)
  | .ge => some (.ge, bpCmp)
  | .plus => some (.add, bpAdd)
  | .minus => some (.sub, bpAdd)
  | .star => some (.mul, bpMul)
  | .slash => some (.div, bpMul)
  | .percent => some (.rem, bpMul)
  | _ => none

/-- `.field` member access. -/
def memberPostfix (lhs : Ast) (p : Parser) : ParseResult :=
  let p := p.bump
  let f := p.peek
  match f.tok with
  | .ident name => .ok (.member lhs name ⟨lhs.span.start, f.span.stop⟩, p.bump)
  | .null | .true_ | .false_ =>
      .error (.parse (f.tok.describe ++
        " is a reserved word and cannot be a field name — use ['…'] indexing") f.span)
  | other =>
      .error (.parse ("expected a field name after `.`, found " ++ other.describe) f.span)

/-- `[idx]` indexing. -/
def indexPostfix (sub : SubParser) (lhs : Ast) (openAt : Nat) (p : Parser) : ParseResult := do
  let (idx, p) ← sub 0 p.bump
  let close := p.peek
  if close.tok ≠ .rBracket then
    throw (.parse (s!"expected `]` to close the index opened at offset {openAt}, found " ++
      close.tok.describe) close.span)
  pure (.index lhs idx ⟨lhs.span.start, close.span.stop⟩, p.bump)

/-- The arguments of a call after its `(`, and the end of the closing `)`. -/
def callArgsLoop (sub : SubParser) (openAt : Nat) :
    Nat → Parser → List Ast → Except ExprError ((List Ast × Nat) × Parser)
  | 0, p, _ => .error (.parse "" p.peek.span)
  | fuel + 1, p, args => do
      let (arg, p) ← sub 0 p
      let t := p.peek
      let p := p.bump
      match t.tok with
      | .comma =>
          if p.peek.tok = .rParen then
            throw (.parse "trailing comma in argument list" t.span)
          callArgsLoop sub openAt fuel p (arg :: args)
      | .rParen => pure (((arg :: args).reverse, t.span.stop), p)
      | other =>
          throw (.parse (s!"expected `,` or `)` in the argument list opened at offset {openAt}" ++
            ", found " ++ other.describe) t.span)

def callArgs (sub : SubParser) (openAt : Nat) (p : Parser) :
    Except ExprError ((List Ast × Nat) × Parser) :=
  if p.peek.tok = .rParen then .ok (([], p.peek.span.stop), p.bump)
  else callArgsLoop sub openAt (p.length + 1) p []

/-- `(args)` calls: only a bare function name is callable. -/
def callPostfix (sub : SubParser) (lhs : Ast) (openSpan : Span) (p : Parser) : ParseResult :=
  match lhs with
  | .ident func funcSpan => do
      let ((args, stop), p) ← callArgs sub openSpan.start p.bump
      pure (.call func funcSpan args ⟨funcSpan.start, stop⟩, p)
  | .member _ _ _ =>
      .error (.parse ("method calls are not supported — only the built-in functions can be " ++
        "called (" ++ functionNames ++ ")") openSpan)
  | _ =>
      .error (.parse "this cannot be called — only the built-in functions can be called" openSpan)

/-- `cond ? then : else`. -/
def ternary (sub : SubParser) (lhs : Ast) (p : Parser) : ParseResult := do
  let (then_, p) ← sub 0 p.bump
  let colon := p.peek
  if colon.tok ≠ .colon then
    throw (.parse ("`?` needs a matching `:` (condition ? then : else) — found " ++
      colon.tok.describe) colon.span)
  let (els, p) ← sub bpTernary.2 p.bump
  pure (.cond lhs then_ els ⟨lhs.span.start, els.span.stop⟩, p)

/-- The right side of a consumed infix operator. Comparison operators do not chain. -/
def binaryTail (sub : SubParser) (lhs : Ast) (op : BinOp) (rBp : Nat) (p : Parser) :
    ParseResult := do
  let (rhs, p) ← sub rBp p
  if op.isComparison then
    if let some (nextOp, _) := infixOp p.peek.tok then
      if nextOp.isComparison then
        throw (.parse ("comparison operators cannot be chained — write (a " ++ op.sym ++
          " b) && (b " ++ nextOp.sym ++ " c), or parenthesize explicitly") p.peek.span)
  pure (.binary op lhs rhs ⟨lhs.span.start, rhs.span.stop⟩, p)

def primary (sub : SubParser) (p : Parser) : ParseResult :=
  let t := p.peek
  let p := p.bump
  match t.tok with
  | .num n => .ok (.num n t.span, p)
  | .str s => .ok (.str s t.span, p)
  | .null => .ok (.null t.span, p)
  | .true_ => .ok (.bool true t.span, p)
  | .false_ => .ok (.bool false t.span, p)
  | .ident name => .ok (.ident name t.span, p)
  | .lParen => do
      let (inner, p) ← sub 0 p
      let close := p.peek
      if close.tok ≠ .rParen then
        throw (.parse (s!"expected `)` to close the group opened at offset {t.span.start}" ++
          ", found " ++ close.tok.describe) close.span)
      pure (inner, p.bump)
  | .minus => do
      let (rhs, p) ← sub bpUnary p
      pure (Ast.mkUnary .neg rhs ⟨t.span.start, rhs.span.stop⟩, p)
  | .bang => do
      let (rhs, p) ← sub bpUnary p
      pure (Ast.mkUnary .not rhs ⟨t.span.start, rhs.span.stop⟩, p)
  | .plus => .error (.parse "unary `+` is not supported — remove it" t.span)
  | .lBracket =>
      .error (.parse "array literals are not supported — arrays only come from tool results"
        t.span)
  | other => .error (.parse ("expected an expression, found " ++ other.describe) t.span)

/-- The loop over postfix and infix operators that bind at least as tightly as `minBp`. -/
def operatorLoop (sub : SubParser) (minBp : Nat) : Nat → Ast → Parser → ParseResult
  | 0, lhs, p => .ok (lhs, p)
  | fuel + 1, lhs, p =>
      let t := p.peek
      match t.tok with
      | .dot =>
          if minBp ≤ bpPostfix then do
            let (lhs, p) ← memberPostfix lhs p
            operatorLoop sub minBp fuel lhs p
          else .ok (lhs, p)
      | .lBracket =>
          if minBp ≤ bpPostfix then do
            let (lhs, p) ← indexPostfix sub lhs t.span.start p
            operatorLoop sub minBp fuel lhs p
          else .ok (lhs, p)
      | .lParen =>
          if minBp ≤ bpPostfix then do
            let (lhs, p) ← callPostfix sub lhs t.span p
            operatorLoop sub minBp fuel lhs p
          else .ok (lhs, p)
      | .question =>
          if minBp ≤ bpTernary.1 then do
            let (lhs, p) ← ternary sub lhs p
            operatorLoop sub minBp fuel lhs p
          else .ok (lhs, p)
      | other =>
          match infixOp other with
          | none => .ok (lhs, p)
          | some (op, lBp, rBp) =>
              if lBp < minBp then .ok (lhs, p)
              else do
                let (lhs, p) ← binaryTail sub lhs op rBp p.bump
                operatorLoop sub minBp fuel lhs p

/-- Parse an expression whose operators bind at least as tightly as `minBp`, with this many
nesting levels left. -/
def exprBp : Nat → SubParser
  | 0, _, p =>
      .error (.parse s!"expression is nested too deeply (limit: {maxDepth} levels)" p.peek.span)
  | levels + 1, minBp, p => do
      let (lhs, p) ← primary (exprBp levels) p
      operatorLoop (exprBp levels) minBp (p.length + 1) lhs p

/-- Parse a token list, which must be consumed up to its end marker. -/
def parse (toks : List Token) : Except ExprError Ast := do
  let (expr, p) ← exprBp (maxDepth + 1) 0 toks
  let t := p.peek
  if t.tok ≠ .eof then
    throw (.parse ("expected end of expression, found " ++ t.tok.describe) t.span)
  pure expr

/-! ## Static checks -/

/-- A namespace path: an identifier followed by member and index steps. -/
def isPath : Ast → Bool
  | .ident _ _ => true
  | .member obj _ _ => isPath obj
  | .index obj _ _ => isPath obj
  | _ => false

/-- The checks on one call node before its arguments are checked. -/
def checkCall (func : String) (funcSpan : Span) (args : List Ast) (span : Span) :
    Except ExprError Unit := do
  match functions.find? (·.name = func) with
  | none =>
      throw (.parse ("unknown function `" ++ func ++ "` — available: " ++ functionNames) funcSpan)
  | some sig =>
      if args.length < sig.minArgs || sig.maxArgs.any (· < args.length) then
        let expected := match sig.maxArgs with
          | none => s!"at least {sig.minArgs}"
          | some maxArgs =>
              if sig.minArgs = maxArgs then s!"{sig.minArgs}" else s!"{sig.minArgs}..{maxArgs}"
        throw (.parse ("`" ++ func ++ s!"` takes {expected} argument(s), got {args.length}") span)
      if func = "has" then
        match args.head? with
        | some arg =>
            if !isPath arg then
              throw (.parse "`has()` takes a namespace path like has(session.x)" arg.span)
        | none => throw (.parse "`has()` takes a namespace path like has(session.x)" span)

mutual
/-- Namespace roots, known functions and arities, `has()` path arguments. -/
def check : Ast → Except ExprError Unit
  | .null _ | .bool _ _ | .num _ _ | .str _ _ => .ok ()
  | .ident name span =>
      if namespaces.contains name then .ok ()
      else if functions.any (·.name = name) then
        .error (.parse ("`" ++ name ++ "` is a function — call it: " ++ name ++ "(…)") span)
      else
        .error (.parse ("unknown name `" ++ name ++ "` — expressions read the namespaces " ++
          ", ".intercalate namespaces) span)
  | .member obj _ _ => check obj
  | .index obj idx _ => do check obj; check idx
  | .call func funcSpan args span => do
      checkCall func funcSpan args span
      checkArgs args
  | .unary _ rhs _ => check rhs
  | .binary _ lhs rhs _ => do check lhs; check rhs
  | .cond c t e _ => do check c; check t; check e

def checkArgs : List Ast → Except ExprError Unit
  | [] => .ok ()
  | arg :: args => do check arg; checkArgs args
end

/-- A parsed, statically checked expression with its source. -/
structure Expression where
  src : String
  ast : Ast

namespace Expression

/-- Lex, parse and statically check a source string. -/
def parse (src : String) : Except ExprError Expression := do
  let toks ← lex src
  let ast ← Expr.parse toks
  check ast
  pure ⟨src, ast⟩

def source (e : Expression) : String := e.src

/-- The namespace roots the expression reads, each with the span of its first occurrence. -/
def roots (e : Expression) : List (String × Span) := e.ast.collectIdents []

/-- The empty string is no expression. -/
theorem parse_empty : ∃ e, parse "" = .error e :=
  ⟨_, rfl⟩

end Expression

end RustyPhoton.SessionRunner.Expr
