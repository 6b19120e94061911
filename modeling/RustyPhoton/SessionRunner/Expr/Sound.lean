import RustyPhoton.Lib.Fallible
import RustyPhoton.SessionRunner.Expr.Complete

/-!
# The grammar derives what the parser accepts

By induction on the nesting levels left, and in each call on the rounds of its loop. What the loop
has read so far is an operand of some level, and the next token is one that may follow it; so an
operator that binds tightly enough finds a left operand of the level it asks for.
-/

namespace RustyPhoton.SessionRunner.Expr

open Lib Fallible

/-! ## Operands found -/

/-- The end marker is still ahead. -/
def Ended (p : Parser) : Prop := ∃ t ∈ p, t.tok = .eof

/-- Before the end marker the parser moves on by a token. -/
theorem Ended.next {p : Parser} (h : Ended p) (hp : p.peek.tok ≠ .eof) :
    ∃ (t : Token) (q : Parser), p = t :: q ∧ p.bump = q ∧ Ended q := by
  obtain ⟨t, ht, heof⟩ := h
  cases p with
  | nil => simp at ht
  | cons u q =>
    have hq : t ∈ q := by
      rcases List.mem_cons.mp ht with rfl | hq
      · exact absurd heof hp
      · exact hq
    exact ⟨u, q, rfl, Parser.bump_cons (List.ne_nil_of_mem hq), t, hq, heof⟩

/-- `Found d l p e q`: between `p` and `q` stand tokens that derive the tree `e`, up to folding. -/
def Found (d : Nat) (l : Level) (p : Parser) (e : Ast) (q : Parser) : Prop :=
  ∃ (w : List Token) (t : Ast), p = w ++ q ∧ Derives true d l (w.map (·.tok)) t ∧
    e.strip = t.fold ∧ Ended q

/-- Every success of a parser is a derivation with one nesting level spent. -/
def Sound (d : Nat) (sub : SubParser) : Prop :=
  ∀ (minBp : Nat) (p q : Parser) (e : Ast), minBp ≤ bpUnary → Ended p →
    sub minBp p = .ok (e, q) →
    ∃ k l, d = k + 1 ∧ minBp ≤ l.power ∧ Found k l p e q ∧ Stops minBp q

section found

variable {d : Nat} {l l' : Level} {p q r : Parser} {e x : Ast} {t u : Token}

theorem Found.ended (h : Found d l p e q) : Ended q := by
  obtain ⟨_, _, _, _, _, hq⟩ := h
  exact hq

theorem Found.length_le (h : Found d l p e q) : q.length ≤ p.length := by
  obtain ⟨w, _, rfl, _⟩ := h
  simp

theorem Found.looser (h : Found d l p e q) (hl : l'.power ≤ l.power) : Found d l' p e q := by
  obtain ⟨w, t, hp, hder, he, hq⟩ := h
  exact ⟨w, t, hp, .tighter hl hder, he, hq⟩

theorem Found.whole (h : Found d l p e q) : Found d .ternary p e q :=
  h.looser (by cases l <;> decide)

theorem Found.group (h : Found d .ternary p e (u :: q)) (ht : t.tok = .lParen)
    (hu : u.tok = .rParen) (hq : Ended q) : Found (d + 1) .primary (t :: p) e q := by
  obtain ⟨w, x, rfl, hder, he, -⟩ := h
  refine ⟨t :: (w ++ [u]), x, by simp, ?_, he, hq⟩
  have hgroup := Derives.group hder
  simpa [ht, hu] using hgroup

variable {span : Span}

theorem Found.unary {op : UnOp} (h : Found d .unary p e q)
    (ht : t.tok = .minus ∧ op = .neg ∨ t.tok = .bang ∧ op = .not) :
    Found (d + 1) .unary (t :: p) (Ast.mkUnary op e span) q := by
  obtain ⟨w, x, rfl, hder, he, hq⟩ := h
  refine ⟨t :: w, .unary op x noSpan, by simp, ?_, ?_, hq⟩
  · obtain ⟨ht, rfl⟩ | ⟨ht, rfl⟩ := ht
    · simpa [ht] using Derives.neg hder
    · simpa [ht] using Derives.not hder
  · rw [Ast.strip_mkUnary, he, Ast.fold]

theorem Found.member {field : String} (h : Found d .suffix p e (t :: u :: q))
    (ht : t.tok = .dot) (hu : u.tok = .ident field) (hq : Ended q) :
    Found d .suffix p (.member e field span) q := by
  obtain ⟨w, x, rfl, hder, he, -⟩ := h
  refine ⟨w ++ [t, u], .member x field noSpan, by simp, ?_, by simp [Ast.strip, Ast.fold, he], hq⟩
  simpa [ht, hu] using Derives.member hder

theorem Found.index (h : Found (d + 1) .suffix p e (t :: q))
    (hx : Found d .ternary q x (u :: r)) (ht : t.tok = .lBracket) (hu : u.tok = .rBracket)
    (hr : Ended r) : Found (d + 1) .suffix p (.index e x span) r := by
  obtain ⟨w, a, rfl, hder, he, -⟩ := h
  obtain ⟨v, b, rfl, hderx, hx, -⟩ := hx
  refine ⟨w ++ t :: (v ++ [u]), .index a b noSpan, by simp, ?_,
    by simp [Ast.strip, Ast.fold, he, hx], hr⟩
  simpa [ht, hu] using Derives.index hder hderx

theorem Found.binary {op : BinOp} {i j : Nat}
    (hop : infixOp t.tok = some (op, i, j)) (h : Found (d + 1) op.left p e (t :: q))
    (hx : Found d op.right q x r) : Found (d + 1) op.level p (.binary op e x span) r := by
  obtain ⟨w, a, rfl, hder, he, -⟩ := h
  obtain ⟨v, b, rfl, hderx, hx, hr⟩ := hx
  refine ⟨w ++ t :: v, .binary op a b noSpan, by simp, ?_,
    by simp [Ast.strip, Ast.fold, he, hx], hr⟩
  simpa using Derives.binary hop hder hderx

theorem Found.cond {y : Ast} {s : Parser} (h : Found (d + 1) .or p e (t :: q))
    (hx : Found d .ternary q x (u :: r)) (hy : Found d .ternary r y s) (ht : t.tok = .question)
    (hu : u.tok = .colon) : Found (d + 1) .ternary p (.cond e x y span) s := by
  obtain ⟨w, a, rfl, hder, he, -⟩ := h
  obtain ⟨v, b, rfl, hderx, hx, -⟩ := hx
  obtain ⟨z, c, rfl, hdery, hy, hs⟩ := hy
  refine ⟨w ++ t :: (v ++ u :: z), .cond a b c noSpan, by simp, ?_,
    by simp [Ast.strip, Ast.fold, he, hx, hy], hs⟩
  simpa [ht, hu] using Derives.cond hder hderx hdery

end found

section sound

variable {d : Nat} {sub : SubParser}

theorem leftPower_le (tok : Tok) : leftPower tok ≤ bpPostfix := by
  cases tok <;> simp [leftPower, infixOp, bpPostfix, bpTernary, bpOr, bpAnd, bpCmp, bpAdd, bpMul]

variable {p : Parser}

theorem primary_ne_eof {r : Ast × Parser} (h : primary sub p = .ok r) :
    p.peek.tok ≠ .eof := by
  intro heof
  simp [primary, heof] at h

variable {q : Parser} {e : Ast}

/-- A token that is an operand by itself. -/
theorem found_token {e' t : Ast} {tok : Tok} (hp : Ended p)
    (hne : p.peek.tok ≠ .eof) (ht : p.peek.tok = tok)
    (h : (.ok (e', p.bump) : ParseResult) = .ok (e, q))
    (hder : Derives true d .primary [tok] t) (he : e'.strip = t.fold) :
    ∃ l, Level.unary.power ≤ l.power ∧ leftPower q.peek.tok ≤ l.cap ∧ Found d l p e q := by
  obtain ⟨rfl, rfl⟩ := Prod.mk.inj (Except.ok.inj h)
  obtain ⟨u, r, rfl, hbump, hr⟩ := hp.next hne
  refine ⟨.primary, by decide, leftPower_le _, [u], t, ?_, by simpa [← ht] using hder, he, ?_⟩
  · simp [hbump]
  · rwa [hbump]

theorem unary_sound (hsub : Sound d sub) {op : UnOp} (hp : Ended p) (hne : p.peek.tok ≠ .eof)
    (ht : p.peek.tok = .minus ∧ op = .neg ∨ p.peek.tok = .bang ∧ op = .not)
    (h : (do
      let (rhs, p') ← sub bpUnary p.bump
      pure (Ast.mkUnary op rhs ⟨p.peek.span.start, rhs.span.stop⟩, p') : ParseResult) =
      .ok (e, q)) :
    ∃ l, Level.unary.power ≤ l.power ∧ leftPower q.peek.tok ≤ l.cap ∧ Found d l p e q := by
  obtain ⟨⟨rhs, s⟩, hin, h⟩ := bind_eq_ok.mp h
  obtain ⟨rfl, rfl⟩ := Prod.mk.inj (pure_eq_ok.mp h)
  obtain ⟨t, r, rfl, hbump, hr⟩ := hp.next hne
  rw [hbump] at hin
  obtain ⟨k, l, rfl, hmin, hfound, hstop⟩ := hsub bpUnary r _ rhs (by decide) hr hin
  have hrhs : Found k .unary r rhs s := hfound.looser hmin
  exact ⟨.unary, by decide, hstop.le_cap_unary, hrhs.unary ht⟩

/-- An operand by itself: a primary, or a prefix operator with its operand. -/
theorem primary_sound (hsub : Sound d sub) (hp : Ended p) (h : primary sub p = .ok (e, q)) :
    ∃ l, Level.unary.power ≤ l.power ∧ leftPower q.peek.tok ≤ l.cap ∧ Found d l p e q := by
  have hne := primary_ne_eof h
  cases ht : p.peek.tok with
  | num n =>
    simp only [primary, ht] at h
    exact found_token hp hne ht h .num rfl
  | str s =>
    simp only [primary, ht] at h
    exact found_token hp hne ht h .str rfl
  | null =>
    simp only [primary, ht] at h
    exact found_token hp hne ht h .null rfl
  | true_ =>
    simp only [primary, ht] at h
    exact found_token hp hne ht h .true_ rfl
  | false_ =>
    simp only [primary, ht] at h
    exact found_token hp hne ht h .false_ rfl
  | ident name =>
    simp only [primary, ht] at h
    exact found_token hp hne ht h .ident rfl
  | lParen =>
    simp only [primary, ht] at h
    obtain ⟨⟨inner, s⟩, hin, h⟩ := bind_eq_ok.mp h
    obtain ⟨hclose, h⟩ := not_of_ite_throw_eq_ok h
    obtain ⟨rfl, rfl⟩ := Prod.mk.inj (pure_eq_ok.mp h)
    obtain ⟨t, r, rfl, hbump, hr⟩ := hp.next hne
    rw [hbump] at hin
    obtain ⟨k, l, rfl, -, hfound, -⟩ := hsub 0 r s inner (by decide) hr hin
    have hclose : s.peek.tok = .rParen := not_not.mp hclose
    obtain ⟨u, s', rfl, hbump', hs'⟩ := hfound.ended.next (by simp [hclose])
    refine ⟨.primary, by decide, leftPower_le _, ?_⟩
    show Found (k + 1) .primary (t :: r) inner (Parser.bump (u :: s'))
    rw [hbump']
    exact hfound.whole.group ht hclose hs'
  | minus =>
    simp only [primary, ht] at h
    exact unary_sound hsub hp hne (.inl ⟨ht, rfl⟩) h
  | bang =>
    simp only [primary, ht] at h
    exact unary_sound hsub hp hne (.inr ⟨ht, rfl⟩) h
  | plus | star | slash | percent | eqEq | bangEq | lt | le | gt | ge | andAnd | orOr | question
  | colon | rParen | lBracket | rBracket | dot | comma | eof =>
    simp [primary, ht] at h

/-! ### Calls -/

variable {l : Level} {name : String} {span : Span}

theorem Derives.primary_of_ident {w : List Tok}
    (h : Derives true d l w (.ident name span)) : Derives true d .primary w (.ident name span) := by
  generalize ht : Ast.ident name span = t at h
  induction h with
  | ident => exact .ident
  | group hw => exact .group hw
  | tighter _ _ ih => exact ih ht
  | _ => exact absurd ht (by simp)

theorem Ast.fold_eq_ident {t : Ast} (h : t.fold = .ident name span) :
    t = .ident name span := by
  cases t with
  | ident => simpa [Ast.fold] using h
  | unary op rhs =>
    rw [Ast.fold] at h
    cases op <;> cases hrhs : rhs.fold <;> simp [Ast.mkUnary, hrhs] at h
  | _ => simp [Ast.fold] at h

/-- A callee is a name, perhaps in parentheses. -/
theorem Found.callee (h : Found d l p (.ident name span) q) :
    ∃ w, p = w ++ q ∧ Derives true d .primary (w.map (·.tok)) (.ident name noSpan) := by
  obtain ⟨w, t, hp, hder, he, -⟩ := h
  rw [Ast.strip] at he
  obtain rfl := Ast.fold_eq_ident he.symm
  exact ⟨w, hp, hder.primary_of_ident⟩

/-- The arguments `es` stand between `p` and the token `q` starts after. -/
def FoundArgs (k : Nat) (p : Parser) (es : List Ast) (q : Parser) : Prop :=
  ∃ (w : List Token) (u : Token) (args : List (List Tok × Ast)),
    args ≠ [] ∧ p = w ++ u :: q ∧ u.tok = .rParen ∧ Ended q ∧
    w.map (·.tok) = [Tok.comma].intercalate (args.map (·.1)) ∧
    es.map Ast.strip = args.map (·.2.fold) ∧
    ∀ arg ∈ args, Derives true k .ternary arg.1 arg.2

variable {openAt : Nat}

theorem callArgsLoop_sound (hsub : Sound d sub) {fuel stop : Nat}
    {acc args : List Ast} (hp : Ended p)
    (h : callArgsLoop sub openAt fuel p acc = .ok ((args, stop), q)) :
    ∃ k es, d = k + 1 ∧ args = acc.reverse ++ es ∧ FoundArgs k p es q := by
  induction fuel generalizing p acc with
  | zero => simp [callArgsLoop] at h
  | succ fuel ih =>
    rw [callArgsLoop] at h
    obtain ⟨⟨arg, s⟩, hin, hnext⟩ := bind_eq_ok.mp h
    clear h
    obtain ⟨k, l, rfl, -, hfound, -⟩ := hsub 0 p s arg (by decide) hp hin
    obtain ⟨w, t, rfl, hder, he, hs⟩ := hfound.whole
    cases hu : s.peek.tok with
    | comma =>
      simp only [hu] at hnext
      obtain ⟨-, hloop⟩ := not_of_ite_throw_eq_ok hnext
      obtain ⟨c, r, rfl, hbump, hr⟩ := hs.next (by simp [hu])
      simp only [hbump] at hloop
      obtain ⟨_, es, heq, rfl, v, u, args, hne, rfl, hu', hq, hv, hes, hall⟩ := ih hr hloop
      obtain rfl := Nat.succ.inj heq
      refine ⟨k, arg :: es, rfl, by simp, w ++ c :: v, u, (w.map (·.tok), t) :: args, by simp,
        by simp, hu', hq, ?_, by simp [he, hes], ?_⟩
      · have hc : c.tok = .comma := hu
        rw [List.map_cons, List.intercalate_cons_of_ne_nil (by simpa using hne), ← hv]
        simp [hc]
      · intro a ha
        rcases List.mem_cons.mp ha with rfl | ha
        · exact hder
        · exact hall a ha
    | rParen =>
      simp only [hu] at hnext
      obtain ⟨u, r, rfl, hbump, hr⟩ := hs.next (by simp [hu])
      simp only [hbump] at hnext
      obtain ⟨hargs, rfl⟩ := Prod.mk.inj (pure_eq_ok.mp hnext)
      obtain ⟨rfl, -⟩ := Prod.mk.inj hargs
      refine ⟨k, [arg], rfl, by simp, w, u, [(w.map (·.tok), t)], by simp, rfl, hu, hr, ?_,
        by simp [he], ?_⟩
      · simp
      · simpa using hder
    | _ => simp [hu] at hnext

theorem callArgs_sound (hsub : Sound d sub) {stop : Nat} {es : List Ast}
    (hp : Ended p) (h : callArgs sub openAt p = .ok ((es, stop), q)) :
    (∃ k, d = k + 1 ∧ FoundArgs k p es q) ∨ ∃ u, es = [] ∧ u.tok = .rParen ∧ p = u :: q ∧ Ended q := by
  rw [callArgs] at h
  split at h
  · rename_i hclose
    obtain ⟨hargs, hq⟩ := Prod.mk.inj (Except.ok.inj h)
    obtain ⟨rfl, -⟩ := Prod.mk.inj hargs
    obtain ⟨u, r, rfl, hbump, hr⟩ := hp.next (by simp [hclose])
    obtain rfl : r = q := hbump.symm.trans hq
    exact .inr ⟨u, rfl, hclose, rfl, hr⟩
  · obtain ⟨k, es, hd, hes, hfound⟩ := callArgsLoop_sound hsub hp h
    obtain rfl : _ = es := by simpa using hes
    exact .inl ⟨k, hd, hfound⟩

/-! ### The loop -/

/-- What the loop has read so far: an operand of a level whose operators bind tightly enough, which
the next token does not belong to. -/
def Operand (d minBp : Nat) (p : Parser) (e : Ast) (q : Parser) : Prop :=
  ∃ l : Level, minBp ≤ l.power ∧ leftPower q.peek.tok ≤ l.cap ∧ Found d l p e q

variable {r : Parser} {minBp : Nat} {lhs : Ast}

theorem memberPostfix_sound
    (h : Found d .suffix p lhs q) (ht : q.peek.tok = .dot) (hmin : minBp ≤ bpPostfix)
    (hrun : memberPostfix lhs q = .ok (e, r)) : Operand d minBp p e r ∧ r.length < q.length := by
  obtain ⟨t, q₁, rfl, hbump, hq₁⟩ := h.ended.next (by simp [ht])
  cases hu : q₁.peek.tok with
  | ident name =>
    simp only [memberPostfix, hbump, hu] at hrun
    obtain ⟨rfl, rfl⟩ := Prod.mk.inj (Except.ok.inj hrun)
    obtain ⟨u, q₂, rfl, hbump', hq₂⟩ := hq₁.next (by simp [hu])
    rw [hbump']
    exact ⟨⟨.suffix, hmin, leftPower_le _, h.member ht hu hq₂⟩, by
      simp only [List.length_cons]; omega⟩
  | _ => simp [memberPostfix, hbump, hu] at hrun

theorem indexPostfix_sound (hsub : Sound d sub)
    (h : Found d .suffix p lhs q) (ht : q.peek.tok = .lBracket) (hmin : minBp ≤ bpPostfix)
    (hrun : indexPostfix sub lhs openAt q = .ok (e, r)) :
    Operand d minBp p e r ∧ r.length < q.length := by
  obtain ⟨t, q₁, rfl, hbump, hq₁⟩ := h.ended.next (by simp [ht])
  simp only [indexPostfix, hbump] at hrun
  obtain ⟨⟨idx, s⟩, hin, hrun⟩ := bind_eq_ok.mp hrun
  obtain ⟨hclose, hrun⟩ := not_of_ite_throw_eq_ok hrun
  obtain ⟨rfl, rfl⟩ := Prod.mk.inj (pure_eq_ok.mp hrun)
  obtain ⟨k, l, rfl, -, hfound, -⟩ := hsub 0 q₁ s idx (by decide) hq₁ hin
  have hclose : s.peek.tok = .rBracket := not_not.mp hclose
  obtain ⟨u, s', rfl, hbump', hs'⟩ := hfound.ended.next (by simp [hclose])
  have hlen := hfound.length_le
  refine ⟨⟨.suffix, hmin, leftPower_le _, ?_⟩, ?_⟩
  · simpa [hbump'] using h.index hfound.whole ht hclose hs'
  · simp [hbump'] at hlen ⊢
    omega

theorem callPostfix_sound (hsub : Sound d sub)
    {openSpan : Span} (h : Found d .suffix p lhs q) (ht : q.peek.tok = .lParen)
    (hmin : minBp ≤ bpPostfix) (hrun : callPostfix sub lhs openSpan q = .ok (e, r)) :
    Operand d minBp p e r ∧ r.length < q.length := by
  obtain ⟨t, q₁, rfl, hbump, hq₁⟩ := h.ended.next (by simp [ht])
  cases lhs with
  | ident func span =>
    simp only [callPostfix, hbump] at hrun
    obtain ⟨⟨⟨es, stop⟩, s⟩, hin, hrun⟩ := bind_eq_ok.mp hrun
    obtain ⟨rfl, rfl⟩ := Prod.mk.inj (pure_eq_ok.mp hrun)
    obtain ⟨w, hp, hcallee⟩ := h.callee
    rcases callArgs_sound hsub hq₁ hin with ⟨k, rfl, v, u, args, hne, rfl, hu, hs, hv, hes, hall⟩ |
      ⟨u, rfl, hu, rfl, hs⟩
    · refine ⟨⟨.suffix, hmin, leftPower_le _, w ++ t :: (v ++ [u]),
        .call func noSpan (args.map (·.2)) noSpan, by simp [hp], ?_, ?_, hs⟩, by simp; omega⟩
      · have hcall := Derives.call hcallee (by simp) hne hall
        have ht : t.tok = .lParen := ht
        simpa [ht, hu, hv] using hcall
      · simp [Ast.strip, Ast.fold, Ast.stripArgs_eq_map, Ast.foldArgs_eq_map, hes,
          Function.comp_def]
    · refine ⟨⟨.suffix, hmin, leftPower_le _, w ++ [t, u], .call func noSpan [] noSpan,
        by simp [hp], ?_, ?_, hs⟩, by simp only [List.length_cons]; omega⟩
      · have ht : t.tok = .lParen := ht
        simpa [ht, hu] using Derives.callEmpty hcallee (by simp)
      · simp [Ast.strip, Ast.fold, Ast.stripArgs, Ast.foldArgs]
  | _ => simp [callPostfix] at hrun

theorem ternary_sound (hsub : Sound d sub)
    (h : Found d .or p lhs q) (ht : q.peek.tok = .question) (hmin : minBp ≤ bpTernary.1)
    (hrun : ternary sub lhs q = .ok (e, r)) : Operand d minBp p e r ∧ r.length < q.length := by
  obtain ⟨t, q₁, rfl, hbump, hq₁⟩ := h.ended.next (by simp [ht])
  simp only [ternary, hbump] at hrun
  obtain ⟨⟨then_, s⟩, hin, hrun⟩ := bind_eq_ok.mp hrun
  obtain ⟨hcolon, hrun⟩ := not_of_ite_throw_eq_ok hrun
  obtain ⟨⟨els, r⟩, hin', hrun⟩ := bind_eq_ok.mp hrun
  obtain ⟨rfl, rfl⟩ := Prod.mk.inj (pure_eq_ok.mp hrun)
  obtain ⟨k, l, rfl, -, hfound, -⟩ := hsub 0 q₁ s then_ (by decide) hq₁ hin
  have hcolon : s.peek.tok = .colon := not_not.mp hcolon
  obtain ⟨u, s', rfl, hbump', hs'⟩ := hfound.ended.next (by simp [hcolon])
  simp only [hbump'] at hin'
  obtain ⟨k', l', heq, -, hels, hstop⟩ := hsub bpTernary.2 s' r els (by decide) hs' hin'
  obtain rfl := Nat.succ.inj heq
  have hlen := hfound.length_le
  have hlen' := hels.length_le
  refine ⟨⟨.ternary, hmin, ?_, h.cond hfound.whole hels.whole ht hcolon⟩, ?_⟩
  · rcases hstop with hstop | hstop
    · exact Nat.le_of_lt hstop
    · exact hstop ▸ Nat.zero_le _
  · simp at hlen ⊢
    omega

variable {op : BinOp}

/-- The right operand of an operator, and that no comparison is chained. -/
theorem binaryTail_inv {j : Nat} (h : binaryTail sub lhs op j p = .ok (e, q)) :
    ∃ rhs, sub j p = .ok (rhs, q) ∧ e = .binary op lhs rhs ⟨lhs.span.start, rhs.span.stop⟩ ∧
      (op.isComparison → leftPower q.peek.tok ≠ bpCmp.1) := by
  rw [binaryTail] at h
  obtain ⟨⟨rhs, s⟩, hin, hnext⟩ := bind_eq_ok.mp h
  have hchain : op.isComparison → leftPower s.peek.tok ≠ bpCmp.1 := by
    intro hcmp hpow
    obtain ⟨next, i, k, hnextOp, hnextCmp⟩ := comparison_of_leftPower hpow
    simp only [hcmp, hnextOp, hnextCmp, if_true] at hnext
    exact not_throw_bind_eq_ok hnext
  rw [← binaryTail, binaryTail_of_operand hin hchain] at h
  obtain ⟨rfl, rfl⟩ := Prod.mk.inj (Except.ok.inj h)
  exact ⟨rhs, hin, rfl, hchain⟩

theorem binaryTail_sound (hsub : Sound d sub) {i j : Nat}
    (h : Found d op.left p lhs q) (hop : infixOp q.peek.tok = some (op, i, j))
    (hmin : ¬ i < minBp) (hrun : binaryTail sub lhs op j q.bump = .ok (e, r)) :
    Operand d minBp p e r ∧ r.length < q.length := by
  have hne : q.peek.tok ≠ .eof := by
    intro heof
    simp [heof, infixOp] at hop
  obtain ⟨t, q₁, rfl, hbump, hq₁⟩ := h.ended.next hne
  rw [hbump] at hrun
  obtain ⟨rhs, hin, rfl, hchain⟩ := binaryTail_inv hrun
  obtain ⟨k, l, rfl, hpow, hfound, hstop⟩ := hsub j q₁ r rhs (right_le_unary hop) hq₁ hin
  have hrhs : Found k op.right q₁ rhs r := hfound.looser (right_power_le hop hpow)
  have hlen := hfound.length_le
  refine ⟨⟨op.level, ?_, ?_, Found.binary hop h hrhs⟩, ?_⟩
  · have := (leftPower_infixOp hop).2
    omega
  · rcases hstop with hstop | hstop
    · exact le_cap_of_lt_right hop hstop hchain
    · exact hstop ▸ Nat.zero_le _
  · simp at hlen ⊢
    omega

theorem Operand.operand (h : Operand d minBp p e q)
    (hl : ∀ l' : Level, leftPower q.peek.tok ≤ l'.cap → l.power ≤ l'.power) :
    Found d l p e q := by
  obtain ⟨l', -, hcap, hfound⟩ := h
  exact hfound.looser (hl l' hcap)

theorem operatorLoop_sound (hsub : Sound d sub) {fuel : Nat}
    (h : Operand d minBp p lhs q) (hfuel : q.length < fuel)
    (hrun : operatorLoop sub minBp fuel lhs q = .ok (e, r)) :
    ∃ l : Level, minBp ≤ l.power ∧ Found d l p e r ∧ Stops minBp r := by
  induction fuel generalizing lhs q with
  | zero => omega
  | succ fuel ih =>
    by_cases hstop : Stops minBp q
    · rw [operatorLoop_of_stops hstop] at hrun
      obtain ⟨rfl, rfl⟩ := Prod.mk.inj (Except.ok.inj hrun)
      obtain ⟨l, hmin, -, hfound⟩ := h
      exact ⟨l, hmin, hfound, hstop⟩
    · have hpow : minBp ≤ leftPower q.peek.tok := Nat.not_lt.mp fun hlt => hstop (.inl hlt)
      rcases leftPower_cases q.peek.tok with ht | ht | ht | ht | ⟨op, i, j, ht⟩ | ht
      · have hpost : leftPower q.peek.tok = bpPostfix := by rw [ht]; rfl
        rw [hpost] at hpow
        rw [operatorLoop_dot ht hpow] at hrun
        obtain ⟨⟨lhs', q'⟩, hstep, hrun⟩ := bind_eq_ok.mp hrun
        have hlhs : Found d .suffix p lhs q := h.operand fun _ => suffix_power_le hpost
        obtain ⟨hop, hlen⟩ := memberPostfix_sound hlhs ht hpow hstep
        exact ih hop (by omega) hrun
      · have hpost : leftPower q.peek.tok = bpPostfix := by rw [ht]; rfl
        rw [hpost] at hpow
        rw [operatorLoop_lBracket ht hpow] at hrun
        obtain ⟨⟨lhs', q'⟩, hstep, hrun⟩ := bind_eq_ok.mp hrun
        have hlhs : Found d .suffix p lhs q := h.operand fun _ => suffix_power_le hpost
        obtain ⟨hop, hlen⟩ := indexPostfix_sound hsub hlhs ht hpow hstep
        exact ih hop (by omega) hrun
      · have hpost : leftPower q.peek.tok = bpPostfix := by rw [ht]; rfl
        rw [hpost] at hpow
        rw [operatorLoop_lParen ht hpow] at hrun
        obtain ⟨⟨lhs', q'⟩, hstep, hrun⟩ := bind_eq_ok.mp hrun
        have hlhs : Found d .suffix p lhs q := h.operand fun _ => suffix_power_le hpost
        obtain ⟨hop, hlen⟩ := callPostfix_sound hsub hlhs ht hpow hstep
        exact ih hop (by omega) hrun
      · have htern : leftPower q.peek.tok = bpTernary.1 := by rw [ht]; rfl
        rw [htern] at hpow
        rw [operatorLoop_question ht hpow] at hrun
        obtain ⟨⟨lhs', q'⟩, hstep, hrun⟩ := bind_eq_ok.mp hrun
        have hlhs : Found d .or p lhs q := h.operand fun _ => or_power_le htern
        obtain ⟨hop, hlen⟩ := ternary_sound hsub hlhs ht hpow hstep
        exact ih hop (by omega) hrun
      · have hmin : ¬ i < minBp := by
          rw [(leftPower_infixOp ht).1] at hpow
          omega
        rw [operatorLoop_infixOp ht hmin] at hrun
        obtain ⟨⟨lhs', q'⟩, hstep, hrun⟩ := bind_eq_ok.mp hrun
        have hlhs : Found d op.left p lhs q := h.operand fun _ => left_power_le ht
        obtain ⟨hop, hlen⟩ := binaryTail_sound hsub hlhs ht hmin hstep
        exact ih hop (by omega) hrun
      · exact absurd (.inr ht) hstop

end sound

/-- Every success of the parser is a derivation. -/
theorem exprBp_sound (d : Nat) : Sound d (exprBp d) := by
  induction d with
  | zero =>
    intro minBp p q e _ _ h
    simp [exprBp] at h
  | succ d ih =>
    intro minBp p q e hmin hp h
    rw [exprBp] at h
    obtain ⟨⟨lhs, s⟩, hprim, hloop⟩ := bind_eq_ok.mp h
    obtain ⟨l, hl, hcap, hfound⟩ := primary_sound ih hp hprim
    have hoperand : Operand d minBp p lhs s := ⟨l, hmin.trans hl, hcap, hfound⟩
    obtain ⟨l', hl', hfound', hstop⟩ := operatorLoop_sound ih hoperand (Nat.lt_succ_self _) hloop
    exact ⟨d, l', rfl, hl', hfound', hstop⟩

/-! ## The parser and the design's grammar -/

/-- The kinds of the tokens before the first end marker. -/
def body (ts : List Token) : List Tok :=
  (ts.takeWhile fun t => t.tok ≠ .eof).map (·.tok)

/-- The token list is an expression of the design's grammar with the tree `t`, and an end marker. -/
def Derivation (ts : List Token) (t : Ast) : Prop :=
  ∃ (w : List Token) (z : Token), ts = w ++ [z] ∧ z.tok = .eof ∧
    Derives false maxDepth .ternary (w.map (·.tok)) t

/-- On this token list the parser does what the design's grammar says. -/
structure Implements (ts : List Token) : Prop where
  sound : ∀ e, parse ts = .ok e → ∃ t, Derivation ts t ∧ e.strip = t.fold
  complete : ∀ t, Derivation ts t → ∃ e, parse ts = .ok e ∧ e.strip = t.fold
  unique : ∀ t t', Derivation ts t → Derivation ts t' → t.fold = t'.fold
  unchained : chained false [] (ts.map (·.tok)) → ∀ e, parse ts ≠ .ok e

variable {z : Token}

theorem body_append {w rest : List Token} (hw : .eof ∉ w.map (·.tok))
    (hz : z.tok = .eof) : body (w ++ z :: rest) = w.map (·.tok) := by
  have htake : (w ++ z :: rest).takeWhile (fun t => t.tok ≠ .eof) = w := by
    rw [List.takeWhile_append_of_pos]
    · simp [hz]
    · intro t ht
      simpa using fun heof => hw (List.mem_map.mpr ⟨t, ht, heof⟩)
  rw [body, htake]

variable {t : Ast}

theorem parse_of_derives {grouped : Bool} {w rest : List Token}
    (h : Derives grouped maxDepth .ternary (w.map (·.tok)) t) (hz : z.tok = .eof) :
    ∃ e, parse (w ++ z :: rest) = .ok e ∧ e.strip = t.fold := by
  obtain ⟨e, he, hacc⟩ := h.piece w rfl
  have hrun : exprBp (maxDepth + 1) 0 (w ++ z :: rest) = .ok (e, z :: rest) :=
    hacc.whole (by omega) (by simp) (by simp [hz, leftPower, infixOp])
  exact ⟨e, by simp [parse, hrun, hz, bind, Except.bind, pure, Except.pure], he⟩

variable {ts : List Token} {e : Ast}

theorem derives_of_parse (hts : Ended ts) (h : parse ts = .ok e) :
    ∃ (w rest : List Token) (z : Token) (t : Ast), ts = w ++ z :: rest ∧ z.tok = .eof ∧
      Derives true maxDepth .ternary (w.map (·.tok)) t ∧ e.strip = t.fold := by
  rw [parse] at h
  obtain ⟨⟨e', p⟩, hrun, hend⟩ := bind_eq_ok.mp h
  obtain ⟨heof, hok⟩ := not_of_ite_throw_eq_ok hend
  obtain rfl := pure_eq_ok.mp hok
  obtain ⟨k, l, hk, -, hfound, -⟩ := exprBp_sound _ 0 ts p e' (by decide) hts hrun
  obtain rfl := Nat.succ.inj hk
  obtain ⟨w, t, rfl, hder, he, z, hz, -⟩ := hfound.whole
  cases p with
  | nil => simp at hz
  | cons z rest => exact ⟨w, rest, z, t, rfl, not_not.mp heof, hder, he⟩

/-- The tokens up to the first end marker, which stands after them. -/
theorem Ended.split (h : Ended ts) :
    ∃ (w rest : List Token) (z : Token), ts = w ++ z :: rest ∧ z.tok = .eof ∧
      body ts = w.map (·.tok) := by
  induction ts with
  | nil => obtain ⟨t, ht, -⟩ := h; simp at ht
  | cons t ts ih =>
    by_cases ht : t.tok = .eof
    · exact ⟨[], ts, t, rfl, ht, by simp [body, ht]⟩
    · obtain ⟨_, _, heq, _, hts⟩ := Ended.next (p := t :: ts) h ht
      obtain ⟨-, rfl⟩ := List.cons.inj heq
      obtain ⟨w, rest, z, hsplit, hz, hbody⟩ := ih hts
      refine ⟨t :: w, rest, z, by rw [hsplit]; rfl, hz, ?_⟩
      simpa [body, ht] using hbody

/-- The parser accepts a list with an end marker exactly when the tokens before the first one form
an expression, with calls on parenthesised names allowed. -/
theorem parse_isOk_iff (hts : Ended ts) :
    (∃ e, parse ts = .ok e) ↔ ∃ t, Derives true maxDepth .ternary (body ts) t := by
  constructor
  · rintro ⟨e, h⟩
    obtain ⟨w, rest, z, t, rfl, hz, hder, -⟩ := derives_of_parse hts h
    exact ⟨t, by rwa [body_append hder.ne_eof hz]⟩
  · rintro ⟨t, hder⟩
    obtain ⟨w, rest, z, rfl, hz, hbody⟩ := hts.split
    obtain ⟨e, he, -⟩ := parse_of_derives (hbody ▸ hder) hz
    exact ⟨e, he⟩

theorem Derivation.body (h : Derivation ts t) :
    Derives false maxDepth .ternary (body ts) t ∧ ts.length = (Expr.body ts).length + 1 := by
  obtain ⟨w, z, rfl, hz, hder⟩ := h
  rw [body_append hder.ne_eof hz]
  exact ⟨hder, by simp⟩

theorem parse_of_derivation (h : Derivation ts t) :
    ∃ e, parse ts = .ok e ∧ e.strip = t.fold := by
  obtain ⟨w, z, rfl, hz, hder⟩ := h
  exact parse_of_derives hder hz

/-- A list the parser accepts, with the end marker last and no call on a parenthesised name, is one
of the design's grammar. -/
theorem derivation_of_parse (hts : Ended ts) (h : parse ts = .ok e)
    (hgroup : NoGroupCall (body ts)) (hlen : ts.length = (body ts).length + 1) :
    ∃ t, Derivation ts t ∧ e.strip = t.fold := by
  obtain ⟨w, rest, z, t, rfl, hz, hder, he⟩ := derives_of_parse hts h
  rw [body_append hder.ne_eof hz] at hgroup hlen
  obtain rfl : rest = [] := by simpa using hlen
  exact ⟨t, ⟨w, z, rfl, hz, hder.ungrouped hgroup⟩, he⟩

theorem Derivation.not_chained (h : Derivation ts t) :
    chained false [] (ts.map (·.tok)) = false := by
  obtain ⟨w, z, rfl, hz, hder⟩ := h
  obtain ⟨seen, heq⟩ := hder.unchained.fresh [] [z.tok]
  simpa [hz, chained] using heq

theorem ended_of_last (h : ts.getLast?.map (·.tok) = some .eof) : Ended ts := by
  obtain ⟨z, hz, heof⟩ := Option.map_eq_some_iff.mp h
  exact ⟨z, List.mem_of_getLast? hz, heof⟩

/-- The parser implements the design's grammar on every token list that ends in the end marker,
but for the lists it accepts only because of a call on a name in parentheses, or up to an end
marker before the last. -/
theorem precedence_grammar_iff (ts : List Token) (hts : ts.getLast?.map (·.tok) = some .eof) :
    Implements ts ↔
      ((∃ t, Derives true maxDepth .ternary (body ts) t) →
        NoGroupCall (body ts) ∧ ts.length = (body ts).length + 1) := by
  have hended := ended_of_last hts
  constructor
  · intro himpl hder
    obtain ⟨e, he⟩ := (parse_isOk_iff hended).mpr hder
    obtain ⟨t, ht, -⟩ := himpl.sound e he
    exact ⟨ht.body.1.noGroupCall, ht.body.2⟩
  · intro hcond
    have hderivation : ∀ e, parse ts = .ok e → ∃ t, Derivation ts t ∧ e.strip = t.fold := by
      intro e he
      obtain ⟨hgroup, hlen⟩ := hcond ((parse_isOk_iff hended).mp ⟨e, he⟩)
      exact derivation_of_parse hended he hgroup hlen
    refine ⟨hderivation, fun t ht => parse_of_derivation ht, fun t t' ht ht' => ?_, ?_⟩
    · obtain ⟨e, he, hfold⟩ := parse_of_derivation ht
      obtain ⟨e', he', hfold'⟩ := parse_of_derivation ht'
      obtain rfl := Except.ok.inj (he.symm.trans he')
      exact hfold.symm.trans hfold'
    · intro hchained e he
      obtain ⟨t, ht, -⟩ := hderivation e he
      rw [ht.not_chained] at hchained
      exact absurd hchained (by decide)

/-- The tokens of a source; none where the lexer refuses it. -/
def tokens (src : String) : List Token :=
  match lex src with
  | .ok ts => ts
  | .error _ => []

/-- A guard of the design's kind. -/
theorem guard_implements :
    lex "session.x < 3 && !has(params.y)" = .ok (tokens "session.x < 3 && !has(params.y)") ∧
      Implements (tokens "session.x < 3 && !has(params.y)") :=
  ⟨by decide +kernel,
    (precedence_grammar_iff _ (by decide +kernel)).mpr
      fun _ => ⟨by decide +kernel, by decide +kernel⟩⟩

/-- A name in parentheses is called, which the design's grammar does not derive. -/
theorem groupedName_is_called :
    lex "(abs)(session.gain)" = .ok (tokens "(abs)(session.gain)") ∧
      ¬ Implements (tokens "(abs)(session.gain)") := by
  refine ⟨by decide +kernel, fun himpl => ?_⟩
  have haccepts : ∃ e, parse (tokens "(abs)(session.gain)") = .ok e := by
    refine (isOk_iff _).mp ?_
    decide +kernel
  obtain ⟨e, he⟩ := haccepts
  obtain ⟨t, ht, -⟩ := himpl.sound e he
  exact absurd ht.body.1.noGroupCall (by decide +kernel)

end RustyPhoton.SessionRunner.Expr
