import RustyPhoton.SessionRunner.Expr.Parse

/-!
# The pretty-printer

After `expr/print.rs`: an expression back to source text, with as few parentheses as its own
precedence table asks for. Texts are lists of characters. The text of a number is the standard
library's (`{n:?}`), and is a parameter.
-/

namespace RustyPhoton.SessionRunner.Expr

open Lib

/-- The precedence for parentheses; the loosest is 1. -/
def prec : Ast → Nat
  | .cond _ _ _ _ => 1
  | .binary op _ _ _ =>
      match op with
      | .or => 2
      | .and => 3
      | .eq | .ne | .lt | .le | .gt | .ge => 4
      | .add | .sub => 5
      | .mul | .div | .rem => 6
  | .unary _ _ _ => 7
  | _ => 8

def wrapIf (wrap : Bool) (s : List Char) : List Char :=
  if wrap then '(' :: (s ++ [')']) else s

def startsWithMinus (s : List Char) : Bool := s.head? = some '-'

/-- A postfix operand has to be tight: parentheses around operators, and around a negative literal,
whose minus would else be read outside the postfix. -/
def postfixObj (obj : Ast) (s : List Char) : List Char :=
  wrapIf (prec obj < 8 || startsWithMinus s) s

/-- The four hex digits of `{:04x}`. -/
def hex4 (n : Nat) : List Char :=
  [Nat.digitChar (n / 4096 % 16), Nat.digitChar (n / 256 % 16), Nat.digitChar (n / 16 % 16),
    Nat.digitChar (n % 16)]

def quoteChar (c : Char) : List Char :=
  match c with
  | '\\' => ['\\', '\\']
  | '\'' => ['\\', '\'']
  | '\n' => ['\\', 'n']
  | '\r' => ['\\', 'r']
  | '\t' => ['\\', 't']
  | c => if c.toNat < 0x20 then '\\' :: 'u' :: hex4 c.toNat else [c]

/-- A single-quoted string literal with exactly the pinned escapes. -/
def quote (s : String) : List Char :=
  '\'' :: (s.toList.flatMap quoteChar ++ ['\''])

section

variable (render : Binary64 → List Char)

mutual
/-- The source text of an expression. -/
def print : Ast → List Char
  | .null _ => "null".toList
  | .bool b _ => (toString b).toList
  | .num n _ => render n
  | .str s _ => quote s
  | .ident name _ => name.toList
  | .member obj field _ => postfixObj obj (print obj) ++ '.' :: field.toList
  | .index obj idx _ => postfixObj obj (print obj) ++ '[' :: (print idx ++ [']'])
  | .call func _ args _ => func.toList ++ '(' :: ([',', ' '].intercalate (printArgs args) ++ [')'])
  | .unary op rhs _ =>
      let inner := wrapIf (prec rhs < 7) (print rhs)
      match op with
      | .not => '!' :: inner
      | .neg =>
          -- `--x` is a lexical error, so an operand that starts with `-` needs parentheses
          if startsWithMinus inner then '-' :: '(' :: (inner ++ [')']) else '-' :: inner
  | .binary op lhs rhs span =>
      let p := prec (.binary op lhs rhs span)
      -- left-associative: the right operand needs parentheses at equal precedence; comparisons
      -- do not chain, so a comparison operand of one needs them on both sides
      let lWraps := if op.isComparison then decide (prec lhs ≤ p) else decide (prec lhs < p)
      let rWraps := decide (prec rhs ≤ p)
      wrapIf lWraps (print lhs) ++ ' ' :: (op.sym.toList ++ ' ' :: wrapIf rWraps (print rhs))
  | .cond c t e _ =>
      let isCond := match c with
        | .cond _ _ _ _ => true
        | _ => false
      wrapIf isCond (print c) ++ " ? ".toList ++ print t ++ " : ".toList ++ print e

def printArgs : List Ast → List (List Char)
  | [] => []
  | arg :: args => print arg :: printArgs args
end

end

end RustyPhoton.SessionRunner.Expr
