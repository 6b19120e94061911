import RustyPhoton.SessionRunner.Expr.Grammar

/-!
# The parser accepts what the grammar derives

By induction on the derivation: the parser call reads the tokens of an operand and goes on with
its loop at the token after it, whatever that is, as long as it cannot belong to the operand. The
binding powers of the parser's tables are first shown to be those of the levels.
-/

namespace RustyPhoton.SessionRunner.Expr

open Lib

section

-- the equations every proof below unfolds, computed once
attribute [local simp] operatorLoop exprBp primary binaryTail infixOp leftPower

end

/-! ## The tables agree -/

section tables

variable {tok : Tok} {op : BinOp} {l r : Nat}

theorem leftPower_infixOp (h : infixOp tok = some (op, l, r)) :
    leftPower tok = l ∧ l = op.level.power := by
  cases tok <;> simp [infixOp] at h <;> obtain ⟨rfl, h⟩ := h <;> cases h <;> decide

theorem right_power (h : infixOp tok = some (op, l, r)) :
    l ≤ op.left.cap ∧ r ≤ op.right.power ∧ op.level.cap < r ∧ op.level.cap ≤ op.right.cap := by
  cases tok <;> simp [infixOp] at h <;> obtain ⟨rfl, h⟩ := h <;> cases h <;> decide

/-- What stops the right operand may follow the whole, unless it would chain comparisons. -/
theorem le_cap_of_lt_right (h : infixOp tok = some (op, l, r)) {b : Nat} (hb : b < r)
    (hchain : op.isComparison → b ≠ bpCmp.1) : b ≤ op.level.cap := by
  cases tok <;> simp [infixOp] at h <;> obtain ⟨rfl, h⟩ := h <;> cases h <;>
    simp [BinOp.isComparison, BinOp.level, Level.cap, bpCmp] at hchain ⊢ <;> omega

theorem left_power (op : BinOp) : op.level.power ≤ op.left.power := by
  cases op <;> decide

theorem right_le_unary (h : infixOp tok = some (op, l, r)) : r ≤ bpUnary := by
  cases tok <;> simp [infixOp] at h <;> obtain ⟨rfl, h⟩ := h <;> cases h <;> decide

variable {l' : Level}

/-- Levels between two binding powers of the right column are the right operand's. -/
theorem right_power_le (h : infixOp tok = some (op, l, r)) (hl : r ≤ l'.power) :
    op.right.power ≤ l'.power := by
  cases tok <;> simp [infixOp] at h <;> obtain ⟨rfl, h⟩ := h <;> cases h <;> cases l' <;>
    first | decide | exact absurd hl (by decide)

/-- An expression an operator may follow is a left operand of it. -/
theorem left_power_le (h : infixOp tok = some (op, l, r))
    (hl : leftPower tok ≤ l'.cap) : op.left.power ≤ l'.power := by
  cases tok <;> simp [infixOp] at h <;> obtain ⟨rfl, h⟩ := h <;> cases h <;> cases l' <;>
    first | decide | exact absurd hl (by decide)

theorem isComparison_iff_leftPower (h : infixOp tok = some (op, l, r)) :
    op.isComparison ↔ leftPower tok = bpCmp.1 := by
  cases tok <;> simp [infixOp] at h <;> obtain ⟨rfl, h⟩ := h <;> cases h <;> decide

theorem leftPower_cases (tok : Tok) :
    tok = .dot ∨ tok = .lBracket ∨ tok = .lParen ∨ tok = .question ∨
      (∃ op l r, infixOp tok = some (op, l, r)) ∨ leftPower tok = 0 := by
  cases tok <;> simp [infixOp, leftPower, bpOr, bpAnd, bpCmp, bpAdd, bpMul]

theorem suffix_power_le (h : leftPower tok = bpPostfix)
    (hl : leftPower tok ≤ l'.cap) : Level.suffix.power ≤ l'.power := by
  rw [h] at hl
  cases l' <;> first | decide | exact absurd hl (by decide)

theorem or_power_le (h : leftPower tok = bpTernary.1)
    (hl : leftPower tok ≤ l'.cap) : Level.or.power ≤ l'.power := by
  rw [h] at hl
  cases l' <;> first | decide | exact absurd hl (by decide)

theorem comparison_of_leftPower (h : leftPower tok = bpCmp.1) :
    ∃ op l r, infixOp tok = some (op, l, r) ∧ op.isComparison := by
  cases tok <;> first | exact ⟨_, _, _, rfl, rfl⟩ | exact absurd h (by
    simp [leftPower, infixOp, bpPostfix, bpTernary, bpOr, bpAnd, bpCmp, bpAdd, bpMul])

end tables

/-! ## The loop -/

@[simp] theorem Parser.peek_cons (t : Token) (p : Parser) : Parser.peek (t :: p) = t := rfl

variable {t : Token}

theorem Parser.bump_cons {p : Parser} (h : p ≠ []) : Parser.bump (t :: p) = p := by
  cases p with
  | nil => exact absurd rfl h
  | cons next rest => rfl

/-- The operators the loop leaves alone: too weak, or none at all. -/
def Stops (minBp : Nat) (p : Parser) : Prop :=
  leftPower p.peek.tok < minBp ∨ leftPower p.peek.tok = 0

theorem Stops.le_cap_unary {p : Parser} (h : Stops bpUnary p) :
    leftPower p.peek.tok ≤ Level.unary.cap := by
  rcases h with h | h
  · exact Nat.le_of_lt_succ h
  · exact h ▸ Nat.zero_le _

variable {sub : SubParser} {minBp fuel : Nat} {lhs : Ast}

theorem operatorLoop_of_stops {p : Parser}
    (h : Stops minBp p) : operatorLoop sub minBp fuel lhs p = .ok (lhs, p) := by
  cases fuel with
  | zero => rfl
  | succ fuel =>
    simp only [Stops] at h
    unfold operatorLoop
    generalize p.peek = t at h ⊢
    obtain ⟨tok, span⟩ := t
    cases tok with
    | dot | lBracket | lParen =>
      have hmin : bpPostfix < minBp := h.resolve_right (by simp [leftPower, bpPostfix])
      exact if_neg (Nat.not_le.mpr hmin)
    | question =>
      have hmin : bpTernary.1 < minBp := h.resolve_right (by simp [leftPower, bpTernary])
      exact if_neg (Nat.not_le.mpr hmin)
    | orOr | andAnd | eqEq | bangEq | lt | le | gt | ge | plus | minus | star | slash | percent =>
      have hmin := h.resolve_right (by simp [leftPower, infixOp, bpOr, bpAnd, bpCmp, bpAdd, bpMul])
      exact if_pos hmin
    | _ => rfl

section rounds

variable {sub : SubParser} {minBp fuel : Nat} {lhs : Ast} {p : Parser}

theorem operatorLoop_dot (h : p.peek.tok = .dot) (hmin : minBp ≤ bpPostfix) :
    operatorLoop sub minBp (fuel + 1) lhs p = (do
      let (lhs, p) ← memberPostfix lhs p
      operatorLoop sub minBp fuel lhs p) := by
  simp only [operatorLoop, h, if_pos hmin]

theorem operatorLoop_lBracket (h : p.peek.tok = .lBracket) (hmin : minBp ≤ bpPostfix) :
    operatorLoop sub minBp (fuel + 1) lhs p = (do
      let (lhs, p) ← indexPostfix sub lhs p.peek.span.start p
      operatorLoop sub minBp fuel lhs p) := by
  simp only [operatorLoop, h, if_pos hmin]

theorem operatorLoop_lParen (h : p.peek.tok = .lParen) (hmin : minBp ≤ bpPostfix) :
    operatorLoop sub minBp (fuel + 1) lhs p = (do
      let (lhs, p) ← callPostfix sub lhs p.peek.span p
      operatorLoop sub minBp fuel lhs p) := by
  simp only [operatorLoop, h, if_pos hmin]

theorem operatorLoop_question (h : p.peek.tok = .question) (hmin : minBp ≤ bpTernary.1) :
    operatorLoop sub minBp (fuel + 1) lhs p = (do
      let (lhs, p) ← ternary sub lhs p
      operatorLoop sub minBp fuel lhs p) := by
  simp only [operatorLoop, h, if_pos hmin]

end rounds

variable {op : BinOp}

/-- A round of the loop on an operator that binds tightly enough. -/
theorem operatorLoop_infixOp {p : Parser}
    {l r : Nat} (h : infixOp p.peek.tok = some (op, l, r)) (hmin : ¬ l < minBp) :
    operatorLoop sub minBp (fuel + 1) lhs p =
      (binaryTail sub lhs op r p.bump).bind fun (lhs, p) => operatorLoop sub minBp fuel lhs p := by
  rw [operatorLoop]
  generalize p.peek = t at h ⊢
  obtain ⟨tok, span⟩ := t
  cases tok <;> simp [infixOp] at h <;> obtain ⟨rfl, h⟩ := h <;> cases h <;> exact if_neg hmin

variable {rest : Parser}

/-- The tail of an operator, given its right operand. -/
theorem binaryTail_of_operand {rhs : Ast} {r : Nat} {p : Parser} (h : sub r p = .ok (rhs, rest))
    (hchain : op.isComparison → leftPower rest.peek.tok ≠ bpCmp.1) :
    binaryTail sub lhs op r p = .ok (.binary op lhs rhs ⟨lhs.span.start, rhs.span.stop⟩, rest) := by
  simp only [binaryTail, h, bind, Except.bind, pure, Except.pure]
  split
  · rename_i hcmp
    split
    · rename_i _ next _ hnext
      have : ¬ next.isComparison := fun hn =>
        hchain hcmp ((isComparison_iff_leftPower hnext).mp hn)
      simp [this]
    · rfl
  · rfl

/-- The parser call with `d` levels below it reads the tokens `p` as the operand `e` of the level
`l` and goes on with its loop, whatever follows them that cannot belong to the operand. -/
def Accepts (d : Nat) (l : Level) (p : List Token) (e : Ast) : Prop :=
  ∀ (minBp : Nat) (rest : Parser), minBp ≤ l.power → rest ≠ [] →
    leftPower rest.peek.tok ≤ l.cap →
    ∃ fuel, rest.length < fuel ∧
      exprBp (d + 1) minBp (p ++ rest) = operatorLoop (exprBp d) minBp fuel e rest

variable {p : List Token} {l : Level} {d : Nat} {e : Ast}

theorem Accepts.ends (h : Accepts d l p e) (hpow : minBp ≤ l.power) (hrest : rest ≠ [])
    (hcap : leftPower rest.peek.tok ≤ l.cap) (hstop : Stops minBp rest) :
    exprBp (d + 1) minBp (p ++ rest) = .ok (e, rest) := by
  obtain ⟨fuel, -, heq⟩ := h minBp rest hpow hrest hcap
  rw [heq, operatorLoop_of_stops hstop]

/-- A whole expression before a token that no operand goes on with. -/
theorem Accepts.whole (h : Accepts d .ternary p e) (hpow : minBp ≤ 2) (hrest : rest ≠ [])
    (hend : leftPower rest.peek.tok = 0) : exprBp (d + 1) minBp (p ++ rest) = .ok (e, rest) :=
  h.ends hpow hrest (by omega) (.inr hend)

/-- One token that is an operand by itself. -/
theorem accepts_token (h : ∀ rest, rest ≠ [] → primary (exprBp d) (t :: rest) = .ok (e, rest)) :
    Accepts d .primary [t] e := by
  intro minBp rest _ hrest _
  refine ⟨rest.length + 1, Nat.lt_succ_self _, ?_⟩
  simp [exprBp, h rest hrest]; rfl

variable {w : List Tok}

/-- The tokens of a list, cut where the list of their kinds is an append. -/
theorem map_tok_eq_append {v : List Tok} (h : p.map (·.tok) = v ++ w) :
    ∃ q r, p = q ++ r ∧ q.map (·.tok) = v ∧ r.map (·.tok) = w := by
  obtain ⟨q, r, rfl, hq, hr⟩ := List.map_eq_append_iff.mp h
  exact ⟨q, r, rfl, hq, hr⟩

variable {tok : Tok}

theorem map_tok_eq_cons (h : p.map (·.tok) = tok :: w) :
    ∃ t r, p = t :: r ∧ t.tok = tok ∧ r.map (·.tok) = w := by
  obtain ⟨t, r, rfl, ht, hr⟩ := List.map_eq_cons_iff.mp h
  exact ⟨t, r, rfl, ht, hr⟩

theorem map_tok_eq_singleton (h : p.map (·.tok) = [tok]) :
    ∃ t, p = [t] ∧ t.tok = tok := by
  obtain ⟨t, rfl, ht⟩ := List.map_eq_singleton_iff.mp h
  exact ⟨t, rfl, ht⟩

section accepts

variable {d : Nat} {p q : List Token} {e x : Ast} {t u : Token}

theorem Accepts.group (h : Accepts d .ternary p e) (ht : t.tok = .lParen) (hu : u.tok = .rParen) :
    Accepts (d + 1) .primary (t :: (p ++ [u])) e := by
  intro minBp rest _ hrest _
  refine ⟨rest.length + 1, Nat.lt_succ_self _, ?_⟩
  have hinner : exprBp (d + 1) 0 (p ++ u :: rest) = .ok (e, u :: rest) :=
    h.whole (by omega) (by simp) (by simp [hu, leftPower, infixOp])
  have hprim : primary (exprBp (d + 1)) (t :: (p ++ u :: rest)) = .ok (e, rest) := by
    simp [primary, ht, hu, hinner, Parser.bump_cons hrest, Parser.bump_cons, bind, Except.bind,
      pure, Except.pure]
  rw [exprBp]
  simp [hprim, bind, Except.bind]

theorem Accepts.unary {op : UnOp} (h : Accepts d .unary p e)
    (ht : t.tok = .minus ∧ op = .neg ∨ t.tok = .bang ∧ op = .not) :
    ∃ span, Accepts (d + 1) .unary (t :: p) (Ast.mkUnary op e span) := by
  refine ⟨⟨t.span.start, e.span.stop⟩, ?_⟩
  intro minBp rest _ hrest hcap
  refine ⟨rest.length + 1, Nat.lt_succ_self _, ?_⟩
  have hinner : exprBp (d + 1) bpUnary (p ++ rest) = .ok (e, rest) :=
    h.ends (Nat.le_refl _) hrest hcap (.inl (Nat.lt_of_le_of_lt hcap (by decide)))
  have hne : p ++ rest ≠ [] := by simp [hrest]
  rw [exprBp]
  obtain ⟨ht, rfl⟩ | ⟨ht, rfl⟩ := ht <;>
    simp [primary, ht, hinner, Parser.bump_cons hne, bind, Except.bind, pure, Except.pure]

theorem Accepts.member {field : String} (h : Accepts d .suffix p e) (ht : t.tok = .dot)
    (hu : u.tok = .ident field) :
    ∃ span, Accepts d .suffix (p ++ [t, u]) (.member e field span) := by
  refine ⟨⟨e.span.start, u.span.stop⟩, ?_⟩
  intro minBp rest hpow hrest _
  obtain ⟨fuel, hfuel, heq⟩ := h minBp (t :: u :: rest) hpow (by simp)
    (by simp [ht, leftPower, bpPostfix, Level.cap])
  cases fuel with
  | zero => omega
  | succ fuel =>
    refine ⟨fuel, by simp at hfuel; omega, ?_⟩
    rw [List.append_assoc, List.cons_append, List.cons_append, List.nil_append, heq, operatorLoop]
    have hpow' : minBp ≤ bpPostfix := hpow
    simp [ht, hu, hpow', memberPostfix, Parser.bump_cons hrest, Parser.bump_cons, bind,
      Except.bind]

theorem Accepts.index (h : Accepts (d + 1) .suffix p e) (hx : Accepts d .ternary q x)
    (ht : t.tok = .lBracket) (hu : u.tok = .rBracket) :
    ∃ span, Accepts (d + 1) .suffix (p ++ t :: (q ++ [u])) (.index e x span) := by
  refine ⟨⟨e.span.start, u.span.stop⟩, ?_⟩
  intro minBp rest hpow hrest _
  obtain ⟨fuel, hfuel, heq⟩ := h minBp (t :: (q ++ u :: rest)) hpow (by simp)
    (by simp [ht, leftPower, bpPostfix, Level.cap])
  have hinner : exprBp (d + 1) 0 (q ++ u :: rest) = .ok (x, u :: rest) :=
    hx.whole (by omega) (by simp) (by simp [hu, leftPower, infixOp])
  cases fuel with
  | zero => omega
  | succ fuel =>
    refine ⟨fuel, by simp at hfuel; omega, ?_⟩
    have hpow' : minBp ≤ bpPostfix := hpow
    have hassoc : p ++ t :: (q ++ [u]) ++ rest = p ++ t :: (q ++ u :: rest) := by simp
    rw [hassoc, heq, operatorLoop]
    simp [ht, hu, hpow', indexPostfix, hinner, Parser.bump_cons hrest, Parser.bump_cons, bind,
      Except.bind, pure, Except.pure]

theorem Accepts.cond {y : Ast} {r : List Token} (h : Accepts (d + 1) .or p e)
    (hx : Accepts d .ternary q x) (hy : Accepts d .ternary r y) (ht : t.tok = .question)
    (hu : u.tok = .colon) :
    ∃ span, Accepts (d + 1) .ternary (p ++ t :: (q ++ u :: r)) (.cond e x y span) := by
  refine ⟨⟨e.span.start, y.span.stop⟩, ?_⟩
  intro minBp rest hpow hrest hcap
  have hend : leftPower rest.peek.tok = 0 := by
    generalize rest.peek.tok = tok at hcap ⊢
    cases tok <;> first | rfl | exact absurd hcap (by decide)
  obtain ⟨fuel, hfuel, heq⟩ := h minBp (t :: (q ++ u :: (r ++ rest)))
    (Nat.le_trans hpow (by decide)) (by simp) (by simp [ht, leftPower, bpTernary, Level.cap])
  have hthen : exprBp (d + 1) 0 (q ++ u :: (r ++ rest)) = .ok (x, u :: (r ++ rest)) :=
    hx.whole (by omega) (by simp) (by simp [hu, leftPower, infixOp])
  have hels : exprBp (d + 1) bpTernary.2 (r ++ rest) = .ok (y, rest) :=
    hy.whole (by decide) hrest hend
  cases fuel with
  | zero => omega
  | succ fuel =>
    refine ⟨fuel, by simp at hfuel; omega, ?_⟩
    have hpow' : minBp ≤ bpTernary.1 := hpow
    have hne : r ++ rest ≠ [] := by simp [hrest]
    have hassoc : p ++ t :: (q ++ u :: r) ++ rest = p ++ t :: (q ++ u :: (r ++ rest)) := by simp
    rw [hassoc, heq, operatorLoop]
    simp [ht, hu, hpow', ternary, hthen, hels, Parser.bump_cons hne, Parser.bump_cons, bind,
      Except.bind, pure, Except.pure]

theorem Accepts.binary {op : BinOp} {l r : Nat} (hop : infixOp t.tok = some (op, l, r))
    (h : Accepts (d + 1) op.left p e) (hx : Accepts d op.right q x) :
    ∃ span, Accepts (d + 1) op.level (p ++ t :: q) (.binary op e x span) := by
  refine ⟨⟨e.span.start, x.span.stop⟩, ?_⟩
  intro minBp rest hpow hrest hcap
  obtain ⟨hleft, hlevel⟩ := leftPower_infixOp hop
  obtain ⟨hl, hr, hlt, hle⟩ := right_power hop
  obtain ⟨fuel, hfuel, heq⟩ := h minBp (t :: (q ++ rest))
    (Nat.le_trans hpow (left_power op)) (by simp) (by simpa [hleft] using hl)
  have hrhs : exprBp (d + 1) r (q ++ rest) = .ok (x, rest) :=
    hx.ends hr hrest (Nat.le_trans hcap hle) (.inl (Nat.lt_of_le_of_lt hcap hlt))
  cases fuel with
  | zero => omega
  | succ fuel =>
    refine ⟨fuel, by simp at hfuel; omega, ?_⟩
    have hne : q ++ rest ≠ [] := by simp [hrest]
    have hassoc : p ++ t :: q ++ rest = p ++ t :: (q ++ rest) := by simp
    have hmin : ¬ l < minBp := by omega
    rw [hassoc, heq, operatorLoop_infixOp (by simpa using hop) hmin]
    rw [Parser.bump_cons hne, binaryTail_of_operand hrhs]
    · rfl
    · intro hcmp hnext
      have hcap' : leftPower rest.peek.tok ≤ op.level.cap := hcap
      rw [hnext] at hcap'
      exact absurd hcap' (by cases op <;> first | decide | exact absurd hcmp (by decide))

end accepts

/-- No expression starts with a closing parenthesis. -/
theorem exprBp_rParen {levels : Nat} {p : Parser} {r : Ast × Parser}
    (h : exprBp levels minBp p = .ok r) : p.peek.tok ≠ .rParen := by
  intro hp
  cases levels with
  | zero => simp [exprBp] at h
  | succ levels => simp [exprBp, primary, hp, bind, Except.bind] at h

theorem callArgsLoop_rParen {openAt : Nat} {p : Parser} {acc : List Ast}
    {r : (List Ast × Nat) × Parser} (h : callArgsLoop (exprBp d) openAt fuel p acc = .ok r) :
    p.peek.tok ≠ .rParen := by
  cases fuel with
  | zero => simp [callArgsLoop] at h
  | succ fuel =>
    rw [callArgsLoop] at h
    cases hsub : exprBp d 0 p with
    | error e => simp [hsub, bind, Except.bind] at h
    | ok r => exact exprBp_rParen hsub

/-- `Piece d w t`: however the tokens `w` are placed, the call with `d` levels below it reads them
as an expression with the tree `t`. -/
def Piece (d : Nat) (l : Level) (w : List Tok) (t : Ast) : Prop :=
  ∀ p : List Token, p.map (·.tok) = w → ∃ e : Ast, e.strip = t.fold ∧ Accepts d l p e

variable {args : List (List Tok × Ast)} {u : Token}

theorem callArgsLoop_of_pieces
    (hargs : ∀ arg ∈ args, Piece d .ternary arg.1 arg.2) (hne : args ≠ [])
    (hp : p.map (·.tok) = [Tok.comma].intercalate (args.map (·.1)))
    (hu : u.tok = .rParen) :
    ∃ es : List Ast, es.map Ast.strip = args.map (·.2.fold) ∧
      ∀ openAt rest fuel acc, rest ≠ [] → args.length ≤ fuel →
        callArgsLoop (exprBp (d + 1)) openAt fuel (p ++ u :: rest) acc =
          .ok ((acc.reverse ++ es, u.span.stop), rest) := by
  induction args generalizing p with
  | nil => exact absurd rfl hne
  | cons arg args ih =>
    cases args with
    | nil =>
      obtain ⟨e, he, hacc⟩ := hargs arg (by simp) p (by simpa [List.intercalate] using hp)
      refine ⟨[e], by simp [he], fun openAt rest fuel acc hrest hfuel => ?_⟩
      obtain ⟨fuel, rfl⟩ : ∃ k, fuel = k + 1 := ⟨fuel - 1, by simp at hfuel; omega⟩
      have hone : exprBp (d + 1) 0 (p ++ u :: rest) = .ok (e, u :: rest) :=
        hacc.whole (by omega) (by simp) (by simp [hu, leftPower, infixOp])
      simp [callArgsLoop, hone, hu, Parser.bump_cons hrest, bind, Except.bind, pure, Except.pure]
    | cons next args =>
      have hsplit : p.map (·.tok) =
          arg.1 ++ .comma :: [Tok.comma].intercalate ((next :: args).map (·.1)) := by
        simpa [List.intercalate] using hp
      obtain ⟨q, r, rfl, hq, hr⟩ := map_tok_eq_append hsplit
      obtain ⟨c, r, rfl, hc, hr⟩ := map_tok_eq_cons hr
      obtain ⟨e, he, hacc⟩ := hargs arg (by simp) q hq
      obtain ⟨es, hes, hloop⟩ := ih (fun x hx => hargs x (by simp at hx ⊢; tauto)) (by simp) hr
      refine ⟨e :: es, by simp [he, hes], fun openAt rest fuel acc hrest hfuel => ?_⟩
      obtain ⟨fuel, rfl⟩ : ∃ k, fuel = k + 1 := ⟨fuel - 1, by simp at hfuel; omega⟩
      have hone : exprBp (d + 1) 0 (q ++ c :: (r ++ u :: rest)) = .ok (e, c :: (r ++ u :: rest)) :=
        hacc.whole (by omega) (by simp) (by simp [hc, leftPower, infixOp])
      have hnext := hloop openAt rest fuel (e :: acc) hrest (by simp at hfuel ⊢; omega)
      -- the next argument is an expression, so the comma is not a trailing one
      have hfirst := callArgsLoop_rParen hnext
      have hassoc : q ++ c :: r ++ u :: rest = q ++ c :: (r ++ u :: rest) := by simp
      rw [hassoc, callArgsLoop]
      simp [hone, hc, hfirst, hnext, Parser.bump_cons, bind, Except.bind]

/-- There is a comma between any two arguments. -/
theorem length_le_intercalate (ws : List (List Tok)) :
    ws.length ≤ ([Tok.comma].intercalate ws).length + 1 := by
  induction ws with
  | nil => simp
  | cons w ws ih =>
    cases ws with
    | nil => simp
    | cons v ws =>
      rw [List.intercalate_cons_cons]
      simp only [List.length_append, List.length_cons, List.length_nil] at ih ⊢
      omega

theorem callArgs_of_pieces (hne : args ≠ []) (hargs : ∀ arg ∈ args, Piece d .ternary arg.1 arg.2)
    (hp : p.map (·.tok) = [Tok.comma].intercalate (args.map (·.1)))
    (hu : u.tok = .rParen) :
    ∃ es : List Ast, es.map Ast.strip = args.map (·.2.fold) ∧
      ∀ openAt rest, rest ≠ [] →
        callArgs (exprBp (d + 1)) openAt (p ++ u :: rest) = .ok ((es, u.span.stop), rest) := by
  obtain ⟨es, hes, hloop⟩ := callArgsLoop_of_pieces hargs hne hp hu
  refine ⟨es, hes, fun openAt rest hrest => ?_⟩
  have hlen : args.length ≤ (p ++ u :: rest).length + 1 := by
    have hcount := length_le_intercalate (args.map (·.1))
    have hlen := congrArg List.length hp
    simp only [List.length_map] at hcount hlen
    simp only [List.length_append, List.length_cons]
    omega
  have hrun := hloop openAt rest _ [] hrest hlen
  rw [callArgs, if_neg (callArgsLoop_rParen hrun), hrun]
  rfl

variable {func : String}

theorem Accepts.call {q : List Token} {span : Span} {es : List Ast}
    (h : Accepts d .primary p (.ident func span)) (ht : t.tok = .lParen)
    (hargs : ∀ openAt rest, rest ≠ [] →
      callArgs (exprBp d) openAt (q ++ u :: rest) = .ok ((es, u.span.stop), rest)) :
    Accepts d .suffix (p ++ t :: (q ++ [u])) (.call func span es ⟨span.start, u.span.stop⟩) := by
  intro minBp rest hpow hrest _
  obtain ⟨fuel, hfuel, heq⟩ := h minBp (t :: (q ++ u :: rest))
    (Nat.le_trans hpow (by decide)) (by simp) (by simp [ht, leftPower, bpPostfix, Level.cap])
  cases fuel with
  | zero => omega
  | succ fuel =>
    refine ⟨fuel, by simp at hfuel; omega, ?_⟩
    have hpow' : minBp ≤ bpPostfix := hpow
    have hassoc : p ++ t :: (q ++ [u]) ++ rest = p ++ t :: (q ++ u :: rest) := by simp
    rw [hassoc, heq, operatorLoop]
    simp [ht, hpow', callPostfix, hargs _ _ hrest, Parser.bump_cons, bind, Except.bind, pure,
      Except.pure]

/-- The callee of a call reads as the name it is. -/
theorem Piece.callee (h : Piece d .primary w (.ident func noSpan)) (hp : p.map (·.tok) = w) :
    ∃ span, Accepts d .primary p (.ident func span) := by
  obtain ⟨callee, hcallee, hacc⟩ := h p hp
  have hident : callee.strip = .ident func noSpan := by rw [hcallee, Ast.fold]
  obtain ⟨span, rfl⟩ := Ast.strip_eq_ident hident
  exact ⟨span, hacc⟩

theorem Piece.callEmpty (hw : Piece d .primary w (.ident func noSpan)) :
    Piece d .suffix (w ++ [.lParen, .rParen]) (.call func noSpan [] noSpan) := by
  intro p hp
  obtain ⟨q, p₁, rfl, hq, hp₁⟩ := map_tok_eq_append hp
  obtain ⟨t, p₂, rfl, ht, hp₂⟩ := map_tok_eq_cons hp₁
  obtain ⟨u, rfl, hu⟩ := map_tok_eq_singleton hp₂
  obtain ⟨span, hacc⟩ := hw.callee hq
  have hargs : ∀ openAt (rest : Parser), rest ≠ [] →
      callArgs (exprBp d) openAt ([] ++ u :: rest) = .ok (([], u.span.stop), rest) := by
    intro openAt rest hrest
    simp [callArgs, hu, Parser.bump_cons hrest]
  exact ⟨_, by simp [Ast.strip, Ast.fold, Ast.stripArgs, Ast.foldArgs], hacc.call ht hargs⟩

theorem Piece.call (hw : Piece (d + 1) .primary w (.ident func noSpan)) (hne : args ≠ [])
    (hargs : ∀ arg ∈ args, Piece d .ternary arg.1 arg.2) :
    Piece (d + 1) .suffix
      (w ++ .lParen :: ([Tok.comma].intercalate (args.map (·.1)) ++ [.rParen]))
      (.call func noSpan (args.map (·.2)) noSpan) := by
  intro p hp
  obtain ⟨q, p₁, rfl, hq, hp₁⟩ := map_tok_eq_append hp
  obtain ⟨t, p₂, rfl, ht, hp₂⟩ := map_tok_eq_cons hp₁
  obtain ⟨r, p₃, rfl, hr, hp₃⟩ := map_tok_eq_append hp₂
  obtain ⟨u, rfl, hu⟩ := map_tok_eq_singleton hp₃
  obtain ⟨span, hacc⟩ := hw.callee hq
  obtain ⟨es, hes, hcall⟩ := callArgs_of_pieces hne hargs hr hu
  refine ⟨_, ?_, hacc.call ht hcall⟩
  simp [Ast.strip, Ast.fold, Ast.stripArgs_eq_map, Ast.foldArgs_eq_map, hes, Function.comp_def]

theorem piece_token {t : Ast} (leaf : Span → Ast)
    (hread : ∀ (sub : SubParser) (u : Token) (rest : Parser), u.tok = tok →
      primary sub (u :: rest) = .ok (leaf u.span, Parser.bump (u :: rest)))
    (htree : ∀ span, (leaf span).strip = t.fold) : Piece d .primary [tok] t := by
  intro p hp
  obtain ⟨u, rfl, hu⟩ := map_tok_eq_singleton hp
  refine ⟨leaf u.span, htree _, accepts_token fun rest hrest => ?_⟩
  rw [hread _ u rest hu, Parser.bump_cons hrest]

/-- Whatever the grammar derives, the parser reads, with the derived tree folded. -/
theorem Derives.piece {grouped : Bool} {t : Ast} (h : Derives grouped d l w t) : Piece d l w t := by
  induction h with
  | null => exact piece_token .null (fun _ _ _ hu => by simp [primary, hu]) fun _ => rfl
  | true_ => exact piece_token (.bool true) (fun _ _ _ hu => by simp [primary, hu]) fun _ => rfl
  | false_ => exact piece_token (.bool false) (fun _ _ _ hu => by simp [primary, hu]) fun _ => rfl
  | @num _ n => exact piece_token (.num n) (fun _ _ _ hu => by simp [primary, hu]) fun _ => rfl
  | @str _ s => exact piece_token (.str s) (fun _ _ _ hu => by simp [primary, hu]) fun _ => rfl
  | @ident _ name =>
    exact piece_token (.ident name) (fun _ _ _ hu => by simp [primary, hu]) fun _ => rfl
  | group _ ih =>
    intro p hp
    obtain ⟨t, p₁, rfl, ht, hp₁⟩ := map_tok_eq_cons hp
    obtain ⟨q, p₂, rfl, hq, hp₂⟩ := map_tok_eq_append hp₁
    obtain ⟨u, rfl, hu⟩ := map_tok_eq_singleton hp₂
    obtain ⟨e, he, hacc⟩ := ih q hq
    exact ⟨e, he, hacc.group ht hu⟩
  | member _ ih =>
    intro p hp
    obtain ⟨q, p₁, rfl, hq, hp₁⟩ := map_tok_eq_append hp
    obtain ⟨t, p₂, rfl, ht, hp₂⟩ := map_tok_eq_cons hp₁
    obtain ⟨u, rfl, hu⟩ := map_tok_eq_singleton hp₂
    obtain ⟨e, he, hacc⟩ := ih q hq
    obtain ⟨span, hmember⟩ := hacc.member ht hu
    exact ⟨_, by simp [Ast.strip, Ast.fold, he], hmember⟩
  | index _ _ ih ihx =>
    intro p hp
    obtain ⟨q, p₁, rfl, hq, hp₁⟩ := map_tok_eq_append hp
    obtain ⟨t, p₂, rfl, ht, hp₂⟩ := map_tok_eq_cons hp₁
    obtain ⟨r, p₃, rfl, hr, hp₃⟩ := map_tok_eq_append hp₂
    obtain ⟨u, rfl, hu⟩ := map_tok_eq_singleton hp₃
    obtain ⟨e, he, hacc⟩ := ih q hq
    obtain ⟨x, hx, haccx⟩ := ihx r hr
    obtain ⟨span, hindex⟩ := hacc.index haccx ht hu
    exact ⟨_, by simp [Ast.strip, Ast.fold, he, hx], hindex⟩
  | callEmpty _ _ ih => exact ih.callEmpty
  | call _ _ hne _ ih ihargs => exact ih.call hne ihargs
  | neg _ ih =>
    intro p hp
    obtain ⟨t, q, rfl, ht, hq⟩ := map_tok_eq_cons hp
    obtain ⟨e, he, hacc⟩ := ih q hq
    obtain ⟨span, hneg⟩ := hacc.unary (.inl ⟨ht, rfl⟩)
    exact ⟨_, by rw [Ast.strip_mkUnary, he, Ast.fold], hneg⟩
  | not _ ih =>
    intro p hp
    obtain ⟨t, q, rfl, ht, hq⟩ := map_tok_eq_cons hp
    obtain ⟨e, he, hacc⟩ := ih q hq
    obtain ⟨span, hnot⟩ := hacc.unary (.inr ⟨ht, rfl⟩)
    exact ⟨_, by rw [Ast.strip_mkUnary, he, Ast.fold], hnot⟩
  | binary hop _ _ ih ihx =>
    intro p hp
    obtain ⟨q, p₁, rfl, hq, hp₁⟩ := map_tok_eq_append hp
    obtain ⟨t, r, rfl, ht, hr⟩ := map_tok_eq_cons hp₁
    obtain ⟨e, he, hacc⟩ := ih q hq
    obtain ⟨x, hx, haccx⟩ := ihx r hr
    obtain ⟨span, hbin⟩ := Accepts.binary (ht ▸ hop) hacc haccx
    exact ⟨_, by simp [Ast.strip, Ast.fold, he, hx], hbin⟩
  | cond _ _ _ ih ihx ihy =>
    intro p hp
    obtain ⟨q, p₁, rfl, hq, hp₁⟩ := map_tok_eq_append hp
    obtain ⟨t, p₂, rfl, ht, hp₂⟩ := map_tok_eq_cons hp₁
    obtain ⟨r, p₃, rfl, hr, hp₃⟩ := map_tok_eq_append hp₂
    obtain ⟨u, s, rfl, hu, hs⟩ := map_tok_eq_cons hp₃
    obtain ⟨e, he, hacc⟩ := ih q hq
    obtain ⟨x, hx, haccx⟩ := ihx r hr
    obtain ⟨y, hy, haccy⟩ := ihy s hs
    obtain ⟨span, hcond⟩ := hacc.cond haccx haccy ht hu
    exact ⟨_, by simp [Ast.strip, Ast.fold, he, hx, hy], hcond⟩
  | tighter hle _ ih =>
    intro p hp
    obtain ⟨e, he, hacc⟩ := ih p hp
    refine ⟨e, he, fun minBp rest hpow hrest hcap => hacc minBp rest (hpow.trans hle) hrest ?_⟩
    exact hcap.trans (Level.cap_mono hle)

end RustyPhoton.SessionRunner.Expr
