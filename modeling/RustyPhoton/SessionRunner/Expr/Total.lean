import RustyPhoton.SessionRunner.Expr.Eval
import RustyPhoton.SessionRunner.Expr.RoundTrip

/-!
# What the static checks promise the evaluator

A call that passed the checks is of a builtin with as many arguments as it takes, so its evaluation
does not come to the last case of `evalCall`; every other error starts with another text. A path
only evaluates its index expressions, and reads `null` where there is nothing. An evaluation reads
no more of its context than the roots and the time.
-/

namespace RustyPhoton.SessionRunner.Expr

open Lib Lib.Fallible

/-- The error of the last case of `eval_call`. -/
def unknownCall (func : String) (count : Nat) (funcSpan : Span) : ExprError :=
  .eval ("unknown function or arity: `" ++ func ++ "` with " ++ toString count ++
    " argument(s)") funcSpan

/-! ## Errors of another kind -/

/-- A text that does not start as the error of an unknown call does. -/
def Other (text : String) : Prop :=
  ∃ a b c rest, text.toList = a :: b :: c :: rest ∧ [a, b, c] ≠ ['u', 'n', 'k']

theorem Other.append {text : String} (h : Other text) (more : String) : Other (text ++ more) := by
  obtain ⟨a, b, c, rest, htext, hne⟩ := h
  exact ⟨a, b, c, rest ++ more.toList, by rw [String.toList_append, htext]; rfl, hne⟩

theorem not_other_unknownCall (func : String) (count : Nat) (funcSpan : Span) :
    ¬ Other (unknownCall func count funcSpan).message := by
  rintro ⟨a, b, c, rest, htext, hne⟩
  have hhead : "unknown function or arity: `".toList =
      'u' :: 'n' :: 'k' :: "nown function or arity: `".toList := by
    rw [String.toList_ofList, String.toList_ofList]
  simp only [unknownCall, ExprError.eval, String.toList_append, List.append_assoc, hhead,
    List.cons_append, List.cons.injEq] at htext
  obtain ⟨rfl, rfl, rfl, -⟩ := htext
  exact hne rfl

/-- An evaluation that fails, if at all, with an error of another kind. -/
def Known {α : Type} (r : EvalResult α) : Prop := ∀ e, r = .error e → Other e.message

namespace Known

variable {α β : Type}

theorem ok (a : α) : Known (.ok a : EvalResult α) := by
  intro e h
  cases h

theorem error {message : String} (h : Other message) (span : Span) :
    Known (.error (.eval message span) : EvalResult α) := by
  intro e he
  cases he
  exact h

theorem bind {r : EvalResult α} {f : α → EvalResult β} (hr : Known r) (hf : ∀ a, Known (f a)) :
    Known (r >>= f) := by
  cases r with
  | ok a => exact hf a
  | error e =>
    intro e' he
    cases he
    exact hr e rfl

end Known

theorem known_numValue (n : Binary64) (span : Span) : Known (numValue n span) := by
  unfold numValue
  split
  · exact .ok _
  · exact .error ⟨_, _, _, _, String.toList_ofList, by decide⟩ span

variable {what : String}

theorem known_wantNum (v : Value) (span : Span) (h : Other what) :
    Known (wantNum v span what) := by
  unfold wantNum
  split
  · exact .ok _
  · exact .error (h.append _) span
  · exact .error ((h.append _).append _) span

theorem known_wantBool (v : Value) (span : Span) (h : Other what) :
    Known (wantBool v span what) := by
  unfold wantBool
  split
  · exact .ok _
  · exact .error (h.append _) span
  · exact .error (((h.append _).append _).append _) span

/-- A text that starts with an operator after a backquote. -/
theorem other_ticked (op : BinOp) {more : String} {c : Char} {rest : List Char}
    (hmore : more.toList = c :: rest) : Other ("`" ++ op.sym ++ more) := by
  have hsym : ∃ s tail, op.sym.toList = s :: tail := by
    cases op <;> exact ⟨_, _, String.toList_ofList⟩
  obtain ⟨s, tail, hsym⟩ := hsym
  have htick : "`".toList = ['`'] := String.toList_ofList
  have htext : ("`" ++ op.sym ++ more).toList = '`' :: s :: (tail ++ c :: rest) := by
    rw [String.toList_append, String.toList_append, hsym, hmore, htick]
    rfl
  cases tail with
  | nil => exact ⟨_, _, _, _, htext, fun h => by cases h⟩
  | cons t tail => exact ⟨_, _, _, _, htext, fun h => by cases h⟩

/-- An operator between backquotes. -/
theorem other_sym (op : BinOp) : Other ("`" ++ op.sym ++ "`") :=
  other_ticked op String.toList_ofList

theorem known_wantCmpNum (v : Value) (span : Span) (op : BinOp) :
    Known (wantCmpNum v span op) := by
  unfold wantCmpNum
  split
  · have hother : Other ("`" ++ op.sym ++ "` compares numbers only — string ordering is not ") :=
      other_ticked op String.toList_ofList
    exact .error (hother.append _) span
  · exact known_wantNum _ span (other_sym op)

variable {arg : Arg} {func : String}

theorem known_wantArgNum (h : Known arg.2) (hfunc : Other func) :
    Known (wantArgNum arg func) :=
  h.bind fun v => known_wantNum v arg.1 (hfunc.append _)

theorem known_wantArgStr (h : Known arg.2) (hfunc : Other func)
    (expected : String) : Known (wantArgStr arg func expected) := by
  refine h.bind ?_
  intro v
  split
  · exact .ok _
  · exact .error ((((hfunc.append _).append _).append _).append _) arg.1

variable {args : List Arg}

theorem known_foldArgs (f : Binary64 → Binary64 → Binary64) (hfunc : Other func)
    (out : Binary64) (h : ∀ arg ∈ args, Known arg.2) :
    Known (foldArgs f func out args) := by
  induction args generalizing out with
  | nil => exact .ok _
  | cons arg args ih =>
    rw [foldArgs]
    exact (known_wantArgNum (h arg List.mem_cons_self) hfunc).bind fun n =>
      ih (f out n) fun other hother => h other (List.mem_cons_of_mem _ hother)

theorem known_evalStrict (op : BinOp) {l r : Arg} (hl : Known l.2) (hr : Known r.2) (span : Span) :
    Known (evalStrict op l r span) := by
  have hnum : ∀ f : Binary64 → Binary64 → EvalResult Value, (∀ x y, Known (f x y)) → Known (do
      let lv ← wantNum (← l.2) l.1 ("`" ++ op.sym ++ "`")
      let rv ← wantNum (← r.2) r.1 ("`" ++ op.sym ++ "`")
      f lv rv) := by
    intro f hf
    refine hl.bind fun v => (known_wantNum v l.1 (other_sym op)).bind fun x => ?_
    exact hr.bind fun w => (known_wantNum w r.1 (other_sym op)).bind fun y => hf x y
  have hcmp : ∀ f : Binary64 → Binary64 → EvalResult Value, (∀ x y, Known (f x y)) → Known (do
      let lv ← wantCmpNum (← l.2) l.1 op
      let rv ← wantCmpNum (← r.2) r.1 op
      f lv rv) := by
    intro f hf
    refine hl.bind fun v => (known_wantCmpNum v l.1 op).bind fun x => ?_
    exact hr.bind fun w => (known_wantCmpNum w r.1 op).bind fun y => hf x y
  cases op with
  | eq => exact hl.bind fun _ => hr.bind fun _ => .ok _
  | ne => exact hl.bind fun _ => hr.bind fun _ => .ok _
  | lt => exact hcmp _ fun _ _ => .ok _
  | le => exact hcmp _ fun _ _ => .ok _
  | gt => exact hcmp _ fun _ _ => .ok _
  | ge => exact hcmp _ fun _ _ => .ok _
  | add => exact hnum _ fun _ _ => known_numValue _ span
  | sub => exact hnum _ fun _ _ => known_numValue _ span
  | mul => exact hnum _ fun _ _ => known_numValue _ span
  | div =>
    unfold evalStrict
    refine hnum _ fun x y => ?_
    by_cases hzero : y.isZero = true
    · simp only [hzero, if_true]
      exact .error ⟨_, _, _, _, String.toList_ofList, by decide⟩ span
    · simp only [hzero]
      exact known_numValue _ span
  | rem | and | or =>
    unfold evalStrict
    refine hnum _ fun x y => ?_
    by_cases hzero : y.isZero = true
    · simp only [hzero, if_true]
      exact .error ⟨_, _, _, _, String.toList_ofList, by decide⟩ span
    · simp only [hzero]
      exact known_numValue _ span

/-! ## Evaluation after the checks -/

/-- A builtin takes this many arguments. -/
def Takes (func : String) (count : Nat) : Prop :=
  ∃ sig ∈ functions, sig.name = func ∧ sig.minArgs ≤ count ∧ ∀ most ∈ sig.maxArgs, count ≤ most

variable [Crates]

omit [Crates] in
theorem exists_single (hmin : 1 ≤ args.length)
    (hmax : ∀ most ∈ some 1, args.length ≤ most) : ∃ x, args = [x] :=
  List.length_eq_one_iff.mp (Nat.le_antisymm (hmax 1 rfl) hmin)

/-- A call with as many arguments as its builtin takes is evaluated as that builtin. -/
theorem known_evalCall (htakes : Takes func args.length)
    (hargs : ∀ arg ∈ args, Known arg.2) (span funcSpan : Span) (now : DateTime) :
    Known (evalCall func args span funcSpan now) := by
  have hround : ∀ {func : String} (f : Binary64 → Binary64) {x : Arg}, Known x.2 → Other func →
      Known (do numValue (f (← wantArgNum x func)) span) := fun f x hx hfunc =>
    (known_wantArgNum hx hfunc).bind fun n => known_numValue (f n) span
  obtain ⟨sig, hsig, rfl, hmin, hmax⟩ := htakes
  simp only [functions, List.mem_cons, List.not_mem_nil, or_false] at hsig
  rcases hsig with rfl | rfl | rfl | rfl | rfl | rfl | rfl | rfl | rfl | rfl | rfl
  · obtain ⟨x, rfl⟩ := exists_single hmin hmax
    exact hround _ (hargs x (by simp)) ⟨_, _, _, _, String.toList_ofList, by decide⟩
  · obtain ⟨a, rest, rfl⟩ := List.exists_cons_of_length_pos (Nat.lt_of_succ_lt hmin)
    obtain ⟨b, rest, rfl⟩ := List.exists_cons_of_length_pos (Nat.lt_of_succ_lt_succ hmin)
    have hfunc : Other "min" := ⟨_, _, _, _, String.toList_ofList, by decide⟩
    exact (known_foldArgs _ hfunc _ hargs).bind fun n => known_numValue n span
  · obtain ⟨a, rest, rfl⟩ := List.exists_cons_of_length_pos (Nat.lt_of_succ_lt hmin)
    obtain ⟨b, rest, rfl⟩ := List.exists_cons_of_length_pos (Nat.lt_of_succ_lt_succ hmin)
    have hfunc : Other "max" := ⟨_, _, _, _, String.toList_ofList, by decide⟩
    exact (known_foldArgs _ hfunc _ hargs).bind fun n => known_numValue n span
  · obtain ⟨x, lo, hi, rfl⟩ := List.length_eq_three.mp (Nat.le_antisymm (hmax 3 rfl) hmin)
    have hfunc : Other "clamp" := ⟨_, _, _, _, String.toList_ofList, by decide⟩
    refine (known_wantArgNum (hargs x (by simp)) hfunc).bind fun x' => ?_
    refine (known_wantArgNum (hargs lo (by simp)) hfunc).bind fun lo' => ?_
    refine (known_wantArgNum (hargs hi (by simp)) hfunc).bind fun hi' => ?_
    by_cases hlt : Binary64.lt hi' lo' = true
    · simp only [hlt, if_true]
      have hclamp : Other "clamp() needs lo <= hi, got lo=" :=
        ⟨_, _, _, _, String.toList_ofList, by decide⟩
      exact .error (((hclamp.append _).append _).append _) span
    · simp only [hlt]
      exact known_numValue _ span
  · obtain ⟨x, rfl⟩ := exists_single hmin hmax
    exact hround _ (hargs x (by simp)) ⟨_, _, _, _, String.toList_ofList, by decide⟩
  · obtain ⟨x, rfl⟩ := exists_single hmin hmax
    exact hround _ (hargs x (by simp)) ⟨_, _, _, _, String.toList_ofList, by decide⟩
  · obtain ⟨x, rfl⟩ := exists_single hmin hmax
    exact hround _ (hargs x (by simp)) ⟨_, _, _, _, String.toList_ofList, by decide⟩
  · obtain ⟨x, rfl⟩ := exists_single hmin hmax
    have hfunc : Other "seconds" := ⟨_, _, _, _, String.toList_ofList, by decide⟩
    refine (known_wantArgStr (hargs x (by simp)) hfunc _).bind fun s => ?_
    split
    · exact known_numValue _ span
    · have hparse : Other "seconds() could not parse `" :=
        ⟨_, _, _, _, String.toList_ofList, by decide⟩
      exact .error (((hparse.append _).append _).append _) span
  · obtain ⟨x, rfl⟩ := exists_single hmin hmax
    have hfunc : Other "humantime" := ⟨_, _, _, _, String.toList_ofList, by decide⟩
    refine (known_wantArgNum (hargs x (by simp)) hfunc).bind fun n => ?_
    split
    · exact .ok _
    · exact .error (Other.append ⟨_, _, _, _, String.toList_ofList, by decide⟩ _) span
  · obtain ⟨x, rfl⟩ := exists_single hmin hmax
    exact (hargs x (by simp)).bind fun v => .ok _
  · obtain ⟨x, rfl⟩ := exists_single hmin hmax
    have hfunc : Other "seconds_until" := ⟨_, _, _, _, String.toList_ofList, by decide⟩
    refine (known_wantArgStr (hargs x (by simp)) hfunc _).bind fun s => ?_
    split
    · exact known_numValue _ span
    · have hparse : Other "seconds_until() could not parse `" :=
        ⟨_, _, _, _, String.toList_ofList, by decide⟩
      exact .error (((hparse.append _).append _).append _) span

theorem length_evalArgs (ctx : EvalContext) (args : List Ast) :
    (evalArgs ctx args).length = args.length := by
  induction args with
  | nil => rfl
  | cons arg args ih => rw [evalArgs, List.length_cons, List.length_cons, ih]

omit [Crates] in
theorem takes_of_checkCall {funcSpan span : Span} {args : List Ast}
    (h : checkCall func funcSpan args span = .ok ()) : Takes func args.length := by
  have hok : isOk (checkCall func funcSpan args span) := by rw [h]; rfl
  obtain ⟨sig, hsig, hname, hmin, hmax, -⟩ := checkCall_isOk.mp hok
  exact ⟨sig, hsig, hname, hmin, hmax⟩

mutual
/-- What passed the checks evaluates without an unknown call. -/
theorem known_eval (ctx : EvalContext) : ∀ e : Ast, check e = .ok () → Known (eval ctx e)
  | .null _, _ | .bool _ _, _ | .str _ _, _ | .ident _ _, _ => .ok _
  | .num n span, _ => known_numValue n span
  | .member obj field _, h => by
    refine (known_eval ctx obj h).bind fun v => ?_
    cases v <;> exact .ok _
  | .index obj idx _, h => by
    obtain ⟨⟨⟩, hobj, hidx⟩ := bind_eq_ok.mp h
    exact (known_eval ctx obj hobj).bind fun _ => (known_eval ctx idx hidx).bind fun _ => .ok _
  | .unary .neg rhs span, h =>
    (known_eval ctx rhs h).bind fun v =>
      (known_wantNum v rhs.span ⟨_, _, _, _, String.toList_ofList, by decide⟩).bind fun n =>
        known_numValue _ span
  | .unary .not rhs span, h =>
    (known_eval ctx rhs h).bind fun v =>
      (known_wantBool v rhs.span ⟨_, _, _, _, String.toList_ofList, by decide⟩).bind fun n => .ok _
  | .binary op lhs rhs span, h => by
    obtain ⟨⟨⟩, hlhs, hrhs⟩ := bind_eq_ok.mp h
    have hl := known_eval ctx lhs hlhs
    have hr := known_eval ctx rhs hrhs
    cases op with
    | and =>
      refine hl.bind fun v =>
        (known_wantBool v lhs.span ⟨_, _, _, _, String.toList_ofList, by decide⟩).bind fun b => ?_
      cases b with
      | true => exact hr.bind fun w =>
        (known_wantBool w rhs.span ⟨_, _, _, _, String.toList_ofList, by decide⟩).bind fun _ => .ok _
      | false => exact .ok _
    | or =>
      refine hl.bind fun v =>
        (known_wantBool v lhs.span ⟨_, _, _, _, String.toList_ofList, by decide⟩).bind fun b => ?_
      cases b with
      | true => exact .ok _
      | false => exact hr.bind fun w =>
        (known_wantBool w rhs.span ⟨_, _, _, _, String.toList_ofList, by decide⟩).bind fun _ => .ok _
    | _ => exact known_evalStrict _ hl hr span
  | .cond c t e _, h => by
    obtain ⟨⟨⟩, hc, h⟩ := bind_eq_ok.mp h
    obtain ⟨⟨⟩, ht, he⟩ := bind_eq_ok.mp h
    refine (known_eval ctx c hc).bind fun v =>
      (known_wantBool v c.span ⟨_, _, _, _, String.toList_ofList, by decide⟩).bind fun b => ?_
    cases b with
    | true => exact known_eval ctx t ht
    | false => exact known_eval ctx e he
  | .call func funcSpan args span, h => by
    obtain ⟨⟨⟩, hcall, hargs⟩ := bind_eq_ok.mp h
    refine known_evalCall ?_ (known_evalArgs ctx args hargs) span funcSpan ctx.now
    rw [length_evalArgs]
    exact takes_of_checkCall hcall

theorem known_evalArgs (ctx : EvalContext) :
    ∀ args : List Ast, checkArgs args = .ok () → ∀ arg ∈ evalArgs ctx args, Known arg.2
  | [], _, _, h => nomatch h
  | arg :: args, h, other, hother => by
    obtain ⟨⟨⟩, harg, hargs⟩ := bind_eq_ok.mp h
    rcases List.mem_cons.mp hother with rfl | hother
    · exact known_eval ctx arg harg
    · exact known_evalArgs ctx args hargs other hother
end

/-! ## Parts of an expression -/

/-- A part of an expression, at any depth, evaluated or not. -/
inductive Within : Ast → Ast → Prop where
  | self (e : Ast) : Within e e
  | member {e obj : Ast} {field : String} {span : Span} (h : Within e obj) :
      Within e (.member obj field span)
  | indexed {e obj idx : Ast} {span : Span} (h : Within e obj) : Within e (.index obj idx span)
  | index {e obj idx : Ast} {span : Span} (h : Within e idx) : Within e (.index obj idx span)
  | arg {e arg : Ast} {func : String} {funcSpan span : Span} {args : List Ast} (hin : arg ∈ args)
      (h : Within e arg) : Within e (.call func funcSpan args span)
  | operand {e rhs : Ast} {op : UnOp} {span : Span} (h : Within e rhs) :
      Within e (.unary op rhs span)
  | left {e lhs rhs : Ast} {op : BinOp} {span : Span} (h : Within e lhs) :
      Within e (.binary op lhs rhs span)
  | right {e lhs rhs : Ast} {op : BinOp} {span : Span} (h : Within e rhs) :
      Within e (.binary op lhs rhs span)
  | cond {e c t f : Ast} {span : Span} (h : Within e c) : Within e (.cond c t f span)
  | then_ {e c t f : Ast} {span : Span} (h : Within e t) : Within e (.cond c t f span)
  | else_ {e c t f : Ast} {span : Span} (h : Within e f) : Within e (.cond c t f span)

omit [Crates] in
theorem check_of_mem {arg : Ast} {args : List Ast} (hin : arg ∈ args)
    (h : checkArgs args = .ok ()) : check arg = .ok () := by
  induction args with
  | nil => cases hin
  | cons first args ih =>
    obtain ⟨⟨⟩, hfirst, hrest⟩ := bind_eq_ok.mp h
    rcases List.mem_cons.mp hin with rfl | hin
    · exact hfirst
    · exact ih hin hrest

omit [Crates] in
/-- The checks see every part. -/
theorem check_within {sub e : Ast} (hsub : Within sub e) (h : check e = .ok ()) :
    check sub = .ok () := by
  induction hsub with
  | self => exact h
  | member _ ih => exact ih h
  | operand _ ih => exact ih h
  | indexed _ ih | left _ ih | cond _ ih =>
    obtain ⟨⟨⟩, hfirst, -⟩ := bind_eq_ok.mp h
    exact ih hfirst
  | index _ ih | right _ ih =>
    obtain ⟨⟨⟩, -, hsecond⟩ := bind_eq_ok.mp h
    exact ih hsecond
  | arg hin _ ih =>
    obtain ⟨⟨⟩, -, hargs⟩ := bind_eq_ok.mp h
    exact ih (check_of_mem hin hargs)
  | then_ _ ih =>
    obtain ⟨⟨⟩, -, hrest⟩ := bind_eq_ok.mp h
    obtain ⟨⟨⟩, hsecond, -⟩ := bind_eq_ok.mp hrest
    exact ih hsecond
  | else_ _ ih =>
    obtain ⟨⟨⟩, -, hrest⟩ := bind_eq_ok.mp h
    obtain ⟨⟨⟩, -, hthird⟩ := bind_eq_ok.mp hrest
    exact ih hthird

/-- The index expressions of a path. -/
def pathIndexes : Ast → List Ast
  | .member obj _ _ => pathIndexes obj
  | .index obj idx _ => idx :: pathIndexes obj
  | _ => []

variable {path : Ast}

/-- A path evaluates as soon as its index expressions do. -/
theorem eval_path (ctx : EvalContext) (hpath : isPath path = true)
    (hindexes : ∀ idx ∈ pathIndexes path, ∃ v, eval ctx idx = .ok v) :
    ∃ v, eval ctx path = .ok v := by
  induction path using isPath.induct with
  | case1 name span => exact ⟨_, rfl⟩
  | case2 obj field span ih =>
    obtain ⟨v, hv⟩ := ih hpath hindexes
    rw [eval, hv]
    cases v <;> exact ⟨_, rfl⟩
  | case3 obj idx span ih =>
    obtain ⟨i, hi⟩ := hindexes idx List.mem_cons_self
    obtain ⟨v, hv⟩ := ih hpath fun other hother => hindexes other (List.mem_cons_of_mem _ hother)
    rw [eval, hv, hi]
    exact ⟨_, rfl⟩
  | case4 e =>
    cases e <;> simp_all [isPath]

theorem eval_has (ctx : EvalContext) {v : Value} (h : eval ctx path = .ok v)
    (funcSpan span : Span) :
    eval ctx (.call "has" funcSpan [path] span) = .ok (.bool !v.isNull) := by
  rw [eval, evalArgs, evalArgs, h]
  rfl

/-- Nothing in an expression that was accepted evaluates to the error of an unknown call, in any
context; and a path evaluates as soon as its index expressions do, with `has` telling whether its
value is not `null`. -/
theorem eval_after_checks :
    (∀ src e, Expression.parse src = .ok e → ∀ ctx sub, Within sub e.ast →
      ∀ func count span, eval ctx sub ≠ .error (unknownCall func count span)) ∧
    ∀ ctx path, isPath path = true → (∀ idx ∈ pathIndexes path, ∃ v, eval ctx idx = .ok v) →
      ∃ v, eval ctx path = .ok v ∧
        ∀ funcSpan span, eval ctx (.call "has" funcSpan [path] span) = .ok (.bool !v.isNull) := by
  refine ⟨?_, ?_⟩
  · intro src e hparse ctx sub hsub func count span herror
    obtain ⟨_, -, -, hcheck, -⟩ := Expression.parse_inv hparse
    exact not_other_unknownCall func count span
      (known_eval ctx sub (check_within hsub hcheck) _ herror)
  · intro ctx path hpath hindexes
    obtain ⟨v, hv⟩ := eval_path ctx hpath hindexes
    exact ⟨v, hv, fun funcSpan span => eval_has ctx hv funcSpan span⟩

/-- The first item of the session's `x`. -/
def firstItem : Ast :=
  .index (.member (.ident "session" ⟨0, 7⟩) "x" ⟨0, 9⟩) (.num (Binary64.ofInt 0) ⟨10, 11⟩) ⟨0, 12⟩

omit [Crates] in
theorem eval_after_checks_firstItem :
    (∀ ctx func count span, @eval Crates.wholeSeconds ctx (.null ⟨0, 4⟩) ≠
      .error (unknownCall func count span)) ∧
    ∃ v, @eval Crates.wholeSeconds ⟨none, none, none, none, none, 0⟩ firstItem = .ok v := by
  have hparse : Expression.parse "null" = .ok ⟨"null", .null ⟨0, 4⟩⟩ := rfl
  obtain ⟨hknown, htotal⟩ := @eval_after_checks Crates.wholeSeconds
  refine ⟨fun ctx => hknown _ _ hparse ctx _ (.self _), ?_⟩
  have hindexes : ∀ idx ∈ pathIndexes firstItem,
      ∃ v, @eval Crates.wholeSeconds ⟨none, none, none, none, none, 0⟩ idx = .ok v := by
    intro idx hidx
    obtain rfl := List.mem_singleton.mp hidx
    have hfinite : (Binary64.ofInt 0).isFinite = true := by decide +kernel
    exact ⟨.number (.float (Binary64.ofInt 0) hfinite), by
      simp [eval, numValue, Number.fromF64, hfinite]⟩
  obtain ⟨v, hv, -⟩ := htotal _ firstItem rfl hindexes
  exact ⟨v, hv⟩

/-! ## What an evaluation reads -/

/-- Both contexts give these roots the same values. -/
def Agree (ctx ctx' : EvalContext) (roots : List (String × Span)) : Prop :=
  ∀ name, Assoc.contains name roots = true → ctx.namespace_ name = ctx'.namespace_ name

variable {ctx ctx' : EvalContext}

mutual
theorem eval_agree (hnow : ctx.now = ctx'.now) : ∀ (e : Ast) roots,
    Agree ctx ctx' (e.collectIdents roots) → Agree ctx ctx' roots ∧ eval ctx e = eval ctx' e
  | .null _, _, h | .bool _ _, _, h | .num _ _, _, h | .str _ _, _, h => ⟨h, rfl⟩
  | .ident name span, roots, h => by
    rw [Ast.collectIdents, Ast.addRoot] at h
    split at h
    · next hin => exact ⟨h, by rw [eval, eval, h name hin]⟩
    · refine ⟨fun other hother => h other ?_, ?_⟩
      · rw [Assoc.contains, Assoc.lookup_insertSorted]
        split
        · rfl
        · exact hother
      · rw [eval, eval, h name (by simp [Assoc.contains, Assoc.lookup_insertSorted])]
  | .member obj _ _, roots, h => by
    obtain ⟨hroots, hobj⟩ := eval_agree hnow obj roots h
    exact ⟨hroots, by rw [eval, eval, hobj]⟩
  | .call _ _ args _, roots, h => by
    obtain ⟨hroots, hargs⟩ := evalArgs_agree hnow args roots h
    exact ⟨hroots, by rw [eval, eval, hargs, hnow]⟩
  | .unary op rhs _, roots, h => by
    obtain ⟨hroots, hrhs⟩ := eval_agree hnow rhs roots h
    exact ⟨hroots, by cases op <;> rw [eval, eval, hrhs]⟩
  | .index obj idx _, roots, h => by
    obtain ⟨hobjs, hidx⟩ := eval_agree hnow idx _ h
    obtain ⟨hroots, hobj⟩ := eval_agree hnow obj roots hobjs
    exact ⟨hroots, by rw [eval, eval, hobj, hidx]⟩
  | .binary op lhs rhs _, roots, h => by
    obtain ⟨hleft, hrhs⟩ := eval_agree hnow rhs _ h
    obtain ⟨hroots, hlhs⟩ := eval_agree hnow lhs roots hleft
    exact ⟨hroots, by cases op <;> simp only [eval, hlhs, hrhs]⟩
  | .cond c t e _, roots, h => by
    obtain ⟨hthen, he⟩ := eval_agree hnow e _ h
    obtain ⟨hcond, ht⟩ := eval_agree hnow t _ hthen
    obtain ⟨hroots, hc⟩ := eval_agree hnow c roots hcond
    exact ⟨hroots, by rw [eval, eval, hc, ht, he]⟩

theorem evalArgs_agree (hnow : ctx.now = ctx'.now) : ∀ (args : List Ast) roots,
    Agree ctx ctx' (Ast.collectArgs args roots) →
      Agree ctx ctx' roots ∧ evalArgs ctx args = evalArgs ctx' args
  | [], _, h => ⟨h, rfl⟩
  | arg :: args, roots, h => by
    obtain ⟨hargs, hrest⟩ := evalArgs_agree hnow args _ h
    obtain ⟨hroots, harg⟩ := eval_agree hnow arg roots hargs
    exact ⟨hroots, by rw [evalArgs, evalArgs, harg, hrest]⟩
end

/-- The roots an expression reports are all that its evaluation reads. -/
theorem reads_roots (e : Expression) (hnow : ctx.now = ctx'.now) (h : Agree ctx ctx' e.roots) :
    e.eval ctx = e.eval ctx' :=
  (eval_agree hnow e.ast [] h).2

omit [Crates] in
theorem reads_roots_firstItem :
    @eval Crates.wholeSeconds ⟨none, none, none, none, none, 0⟩ firstItem =
      @eval Crates.wholeSeconds ⟨some .null, none, none, none, none, 0⟩ firstItem := by
  refine @reads_roots Crates.wholeSeconds _ _ ⟨"session.x[0]", firstItem⟩ rfl fun name hname => ?_
  obtain rfl : name = "session" := by
    simpa [Expression.roots, firstItem, Ast.collectIdents, Ast.addRoot, Assoc.contains,
      Assoc.insertSorted, List.lookup] using hname
  rfl

end RustyPhoton.SessionRunner.Expr
