import RustyPhoton.SessionRunner.Expr.Parse

/-!
# The evaluator

After `expr/eval.rs` and `expr/num.rs`. Path traversal is total, operators take values of one
type only, and every arithmetic result outside the finite range raises at the operation that
produced it. Evaluation is pure, so a call's arguments are evaluated once, up front; each builtin
then inspects them in the order the source does, and an argument's own error surfaces there.
-/

namespace RustyPhoton.SessionRunner.Expr

open Lib

variable [Crates]

/-- Everything an evaluation reads: the five namespaces and the clock. An absent namespace
resolves to `null`. -/
structure EvalContext where
  params : Option Value
  session : Option Value
  result : Option Value
  event : Option Value
  error : Option Value
  now : DateTime

/-- The value of a namespace root, if it is present. -/
def EvalContext.namespace_ (ctx : EvalContext) (name : String) : Option Value :=
  if name = "params" then ctx.params
  else if name = "session" then ctx.session
  else if name = "result" then ctx.result
  else if name = "event" then ctx.event
  else if name = "error" then ctx.error
  else none

/-- `ExactInt::try_from_f64`: an exact integer of magnitude at most `2 ^ 53`. -/
def exactInt (x : Binary64) : Option Int :=
  if x.isInteger && |x.toRat| ≤ 2 ^ 53 then some x.toRat.num else none

/-- `ExactInt::to_u64`; the magnitude bound makes it `to_usize` on 64-bit targets too. -/
def exactNat (x : Binary64) : Option Nat :=
  (exactInt x).bind fun n => if 0 ≤ n then some n.toNat else none

/-- Index into a value; any miss or shape mismatch is `null`. -/
def indexValue : Value → Value → Value
  | .object m, .string k => (m.lookup k).getD .null
  | .array a, .number n =>
      match exactNat n.asF64 with
      | some i => a.getD i .null
      | none => .null
  | _, _ => .null

mutual
/-- Deep structural equality. Numbers compare by numeric value, and two values of different types
are different. -/
def valueEq : Value → Value → Bool
  | .number l, .number r => Binary64.eq l.asF64 r.asF64
  | .array l, .array r => valueEqItems l r
  | .object l, .object r => l.length = r.length && valueEqMembers l r
  | .null, .null => true
  | .bool l, .bool r => l = r
  | .string l, .string r => l = r
  | _, _ => false

def valueEqItems : List Value → List Value → Bool
  | [], [] => true
  | l :: ls, r :: rs => valueEq l r && valueEqItems ls rs
  | _, _ => false

/-- Every member of the left object has an equal member on the right. -/
def valueEqMembers : List (String × Value) → List (String × Value) → Bool
  | [], _ => true
  | (k, l) :: ls, r =>
      (match r.lookup k with
        | some v => valueEq l v
        | none => false) && valueEqMembers ls r
end

def typeName : Value → String
  | .null => "null"
  | .bool _ => "boolean"
  | .number _ => "number"
  | .string _ => "string"
  | .array _ => "array"
  | .object _ => "object"

abbrev EvalResult := Except ExprError

/-- Wrap a float as a JSON number; a non-finite one is an overflow. -/
def numValue (n : Binary64) (span : Span) : EvalResult Value :=
  match Number.fromF64 n with
  | some n => .ok (.number n)
  | none =>
      .error (.eval "arithmetic overflow — the result is outside the finite f64 range" span)

def wantNum (v : Value) (span : Span) (what : String) : EvalResult Binary64 :=
  match v with
  | .number n => .ok n.asF64
  | .null =>
      .error (.eval (what ++ " needs a number, got null — guard with has(...) or != null") span)
  | other => .error (.eval (what ++ " needs a number, got " ++ typeName other) span)

def wantCmpNum (v : Value) (span : Span) (op : BinOp) : EvalResult Binary64 :=
  match v with
  | .string _ =>
      .error (.eval ("`" ++ op.sym ++ "` compares numbers only — string ordering is not " ++
        "defined (use == or != for strings)") span)
  | v => wantNum v span ("`" ++ op.sym ++ "`")

def wantBool (v : Value) (span : Span) (what : String) : EvalResult Bool :=
  match v with
  | .bool b => .ok b
  | .null =>
      .error (.eval (what ++ " needs a boolean, got null — guard with has(...) or != null") span)
  | other =>
      .error (.eval (what ++ " needs a boolean, got " ++ typeName other ++
        " — there is no truthiness; compare explicitly") span)

/-- An evaluated argument: its span and its outcome. -/
abbrev Arg := Span × EvalResult Value

def wantArgNum (arg : Arg) (func : String) : EvalResult Binary64 := do
  wantNum (← arg.2) arg.1 (func ++ "()")

def wantArgStr (arg : Arg) (func expected : String) : EvalResult String := do
  match ← arg.2 with
  | .string s => pure s
  | other => throw (.eval (func ++ "() needs " ++ expected ++ ", got " ++ typeName other) arg.1)

/-- Fold a binary float function over the arguments. -/
def foldArgs (f : Binary64 → Binary64 → Binary64) (func : String) :
    Binary64 → List Arg → EvalResult Binary64
  | out, [] => .ok out
  | out, arg :: args => do foldArgs f func (f out (← wantArgNum arg func)) args

/-- The builtin functions. -/
def evalCall (func : String) (args : List Arg) (span funcSpan : Span) (now : DateTime) :
    EvalResult Value :=
  match func, args with
  | "abs", [x] => do numValue (← wantArgNum x "abs").abs span
  | "floor", [x] => do numValue (← wantArgNum x "floor").floor span
  | "ceil", [x] => do numValue (← wantArgNum x "ceil").ceil span
  | "round", [x] => do numValue (← wantArgNum x "round").round span
  | "min", a :: b :: rest => do
      numValue (← foldArgs Binary64.min "min" Binary64.posInf (a :: b :: rest)) span
  | "max", a :: b :: rest => do
      numValue (← foldArgs Binary64.max "max" Binary64.negInf (a :: b :: rest)) span
  | "clamp", [x, lo, hi] => do
      let x ← wantArgNum x "clamp"
      let lo ← wantArgNum lo "clamp"
      let hi ← wantArgNum hi "clamp"
      if Binary64.lt hi lo then
        throw (.eval ("clamp() needs lo <= hi, got lo=" ++ lo.toText ++ " > hi=" ++ hi.toText)
          span)
      numValue (x.clamp lo hi) span
  | "seconds", [s] => do
      let s ← wantArgStr s "seconds" "a humantime string like '1m30s'"
      match Crates.parseDuration s with
      | .ok d => numValue (Duration.asSecsF64 d) span
      | .error e =>
          throw (.eval ("seconds() could not parse `" ++ s ++ "` as a duration: " ++ e) span)
  | "humantime", [n] => do
      let n ← wantArgNum n "humantime"
      match Duration.tryFromSecsF64 n with
      | some d => pure (.string (Crates.formatDuration d))
      | none =>
          throw (.eval ("humantime() needs a non-negative number of seconds in range, got " ++
            n.toText) span)
  | "has", [path] => do pure (.bool !(← path.2).isNull)
  | "seconds_until", [s] => do
      let s ← wantArgStr s "seconds_until" "an RFC 3339 timestamp string"
      match Crates.parseRfc3339 s with
      | .ok t => numValue (Crates.asSecondsF64 (t - now)) span
      | .error e =>
          throw (.eval ("seconds_until() could not parse `" ++ s ++
            "` as an RFC 3339 timestamp: " ++ e) span)
  | func, args =>
      .error (.eval ("unknown function or arity: `" ++ func ++ "` with " ++
        toString args.length ++ " argument(s)") funcSpan)

/-- The operators that evaluate both sides, on the evaluated sides. -/
def evalStrict (op : BinOp) (l r : Arg) (span : Span) : EvalResult Value := do
  match op with
  | .eq => pure (.bool (valueEq (← l.2) (← r.2)))
  | .ne => pure (.bool !(valueEq (← l.2) (← r.2)))
  | .lt | .le | .gt | .ge =>
      let lv ← wantCmpNum (← l.2) l.1 op
      let rv ← wantCmpNum (← r.2) r.1 op
      pure (.bool (match op with
        | .lt => Binary64.lt lv rv
        | .le => Binary64.le lv rv
        | .gt => Binary64.lt rv lv
        | _ => Binary64.le rv lv))
  | op =>
      let what := "`" ++ op.sym ++ "`"
      let lv ← wantNum (← l.2) l.1 what
      let rv ← wantNum (← r.2) r.1 what
      match op with
      | .add => numValue (lv.add rv) span
      | .sub => numValue (lv.sub rv) span
      | .mul => numValue (lv.mul rv) span
      | .div =>
          if rv.isZero then throw (.eval "division by zero" span)
          numValue (lv.div rv) span
      | _ =>
          if rv.isZero then throw (.eval "remainder (`%`) by zero" span)
          numValue (lv.rem rv) span

mutual
/-- Evaluate a syntax tree against a context. -/
def eval (ctx : EvalContext) : Ast → EvalResult Value
  | .null _ => .ok .null
  | .bool b _ => .ok (.bool b)
  | .num n span => numValue n span
  | .str s _ => .ok (.string s)
  | .ident name _ => .ok ((ctx.namespace_ name).getD .null)
  | .member obj field _ => do
      match ← eval ctx obj with
      | .object m => pure ((m.lookup field).getD .null)
      | _ => pure .null
  | .index obj idx _ => do
      let o ← eval ctx obj
      let i ← eval ctx idx
      pure (indexValue o i)
  | .unary .neg rhs span => do
      let n ← wantNum (← eval ctx rhs) rhs.span "unary `-`"
      numValue n.neg span
  | .unary .not rhs _ => do
      let b ← wantBool (← eval ctx rhs) rhs.span "`!`"
      pure (.bool !b)
  | .binary .and lhs rhs _ => do
      let l ← wantBool (← eval ctx lhs) lhs.span "`&&`"
      if l then pure (.bool (← wantBool (← eval ctx rhs) rhs.span "`&&`"))
      else pure (.bool false)
  | .binary .or lhs rhs _ => do
      let l ← wantBool (← eval ctx lhs) lhs.span "`||`"
      if l then pure (.bool true)
      else pure (.bool (← wantBool (← eval ctx rhs) rhs.span "`||`"))
  | .binary op lhs rhs span =>
      evalStrict op (lhs.span, eval ctx lhs) (rhs.span, eval ctx rhs) span
  | .cond c t e _ => do
      if ← wantBool (← eval ctx c) c.span "the `?:` condition" then eval ctx t else eval ctx e
  | .call func funcSpan args span => evalCall func (evalArgs ctx args) span funcSpan ctx.now

/-- The arguments of a call with their outcomes. -/
def evalArgs (ctx : EvalContext) : List Ast → List Arg
  | [] => []
  | arg :: args => (arg.span, eval ctx arg) :: evalArgs ctx args
end

/-- Evaluate an expression. -/
def Expression.eval (e : Expression) (ctx : EvalContext) : EvalResult Value :=
  Expr.eval ctx e.ast

end RustyPhoton.SessionRunner.Expr
