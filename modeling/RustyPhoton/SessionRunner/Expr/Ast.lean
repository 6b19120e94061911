import RustyPhoton.SessionRunner.Crates

/-!
# The expression syntax tree

After `expr/ast.rs` and the error type of `expr/mod.rs`. Every node carries the byte span of the
source text it came from.
-/

namespace RustyPhoton.SessionRunner.Expr

open Lib

/-- A byte range into the expression source string. -/
structure Span where
  start : Nat
  stop : Nat
  deriving DecidableEq, Repr

/-- Which phase produced an error: document load time or evaluation time. -/
inductive ErrorKind where
  | parse
  | eval
  deriving DecidableEq, Repr

/-- An expression error: a message and the byte span it points at. -/
structure ExprError where
  kind : ErrorKind
  message : String
  span : Span
  deriving DecidableEq, Repr

namespace ExprError

def parse (message : String) (span : Span) : ExprError := ⟨.parse, message, span⟩

def eval (message : String) (span : Span) : ExprError := ⟨.eval, message, span⟩

/-- The `Display` text. -/
def toText (e : ExprError) : String :=
  s!"{e.message} (at {e.span.start}..{e.span.stop})"

end ExprError

inductive UnOp where
  | not
  | neg
  deriving DecidableEq, Repr

inductive BinOp where
  | add | sub | mul | div | rem
  | eq | ne | lt | le | gt | ge
  | and | or
  deriving DecidableEq, Repr

namespace BinOp

/-- The operator's surface symbol. -/
def sym : BinOp → String
  | add => "+" | sub => "-" | mul => "*" | div => "/" | rem => "%"
  | eq => "==" | ne => "!=" | lt => "<" | le => "<=" | gt => ">" | ge => ">="
  | and => "&&" | or => "||"

def isComparison : BinOp → Bool
  | eq | ne | lt | le | gt | ge => true
  | _ => false

end BinOp

/-- The syntax tree. An `ident` is a bare identifier in value position. -/
inductive Ast where
  | null (span : Span)
  | bool (b : Bool) (span : Span)
  | num (n : Binary64) (span : Span)
  | str (s : String) (span : Span)
  | ident (name : String) (span : Span)
  | member (obj : Ast) (field : String) (span : Span)
  | index (obj idx : Ast) (span : Span)
  | call (func : String) (funcSpan : Span) (args : List Ast) (span : Span)
  | unary (op : UnOp) (rhs : Ast) (span : Span)
  | binary (op : BinOp) (lhs rhs : Ast) (span : Span)
  | cond (cond then_ els : Ast) (span : Span)

namespace Ast

def span : Ast → Span
  | null s | bool _ s | num _ s | str _ s | ident _ s => s
  | member _ _ s | index _ _ s | call _ _ _ s | unary _ _ s | binary _ _ _ s | cond _ _ _ s => s

/-- Record a name with the span of its first occurrence. -/
def addRoot (roots : List (String × Span)) (name : String) (span : Span) :
    List (String × Span) :=
  if Assoc.contains name roots then roots else Assoc.insertSorted name span roots

mutual
/-- Collect every bare identifier of the tree, in tree order. Function names live in `call`, not
in `ident` nodes. -/
def collectIdents : Ast → List (String × Span) → List (String × Span)
  | null _, roots | bool _ _, roots | num _ _, roots | str _ _, roots => roots
  | ident name span, roots => addRoot roots name span
  | member obj _ _, roots => obj.collectIdents roots
  | index obj idx _, roots => idx.collectIdents (obj.collectIdents roots)
  | call _ _ args _, roots => collectArgs args roots
  | unary _ rhs _, roots => rhs.collectIdents roots
  | binary _ lhs rhs _, roots => rhs.collectIdents (lhs.collectIdents roots)
  | cond c t e _, roots => e.collectIdents (t.collectIdents (c.collectIdents roots))

def collectArgs : List Ast → List (String × Span) → List (String × Span)
  | [], roots => roots
  | arg :: args, roots => collectArgs args (arg.collectIdents roots)
end

/-- The smart constructor for unary expressions: `-` over a number literal folds, so that `-3` is
a literal node. -/
def mkUnary (op : UnOp) (rhs : Ast) (span : Span) : Ast :=
  match op, rhs with
  | .neg, num n _ => num n.neg span
  | _, _ => unary op rhs span

end Ast

end RustyPhoton.SessionRunner.Expr
