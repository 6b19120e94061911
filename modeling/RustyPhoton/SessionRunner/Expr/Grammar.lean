import Mathlib.Data.List.Chain
import RustyPhoton.SessionRunner.Expr.Parse

/-!
# The expression grammar

The precedence ladder of the design's grammar pins, as a derivation relation over tokens.
`Derives grouped d l w t` says the tokens `w` form an expression of the level `l` with the tree
`t`, within `d` further nesting levels: the left operand of an operator stays on the level of its
parser call, everything else is one call deeper.

The design lets only a bare name be called. `callPostfix` looks at the tree of the callee, which
does not show parentheses, so it also takes a name in parentheses: the parser decides the relation
with `grouped` set, and the design's grammar is the one without.
-/

namespace RustyPhoton.SessionRunner.Expr

open Lib

/-! ## Levels -/

/-- The precedence levels, from the loosest to the tightest. -/
inductive Level where
  | ternary | or | and | comparison | additive | multiplicative | unary | suffix | primary
  deriving DecidableEq

namespace Level

/-- The weakest binding power among the operators of a level and all tighter ones. -/
def power : Level → Nat
  | ternary => 2 | or => 3 | and => 5 | comparison => 7 | additive => 9 | multiplicative => 11
  | unary => 13 | suffix => 15 | primary => 16

/-- The strongest binding power of a token that may follow an expression of a level without
belonging to its last operand. -/
def cap : Level → Nat
  | ternary => 1 | or => 3 | and => 5 | comparison => 6 | additive => 9 | multiplicative => 11
  | unary => 12 | suffix => 15 | primary => 15

theorem cap_mono {l l' : Level} (h : l.power ≤ l'.power) : l.cap ≤ l'.cap := by
  cases l <;> cases l' <;> first | decide | exact absurd h (by decide)

end Level

namespace BinOp

/-- The level of the expressions an operator forms. -/
def level : BinOp → Level
  | or => .or
  | and => .and
  | eq | ne | lt | le | gt | ge => .comparison
  | add | sub => .additive
  | mul | div | rem => .multiplicative

/-- The level of an operator's left operand: its own, but comparisons do not chain. -/
def left (op : BinOp) : Level :=
  if op.isComparison then .additive else op.level

/-- The level of an operator's right operand. -/
def right : BinOp → Level
  | or => .and
  | and => .comparison
  | eq | ne | lt | le | gt | ge => .additive
  | add | sub => .multiplicative
  | mul | div | rem => .unary

end BinOp

/-- The left binding power of a token after an operand; zero where it ends the expression. -/
def leftPower (tok : Tok) : Nat :=
  match tok with
  | .dot | .lBracket | .lParen => bpPostfix
  | .question => bpTernary.1
  | other => ((infixOp other).map (·.2.1)).getD 0

/-! ## Trees -/

/-- The span of a tree that has none. -/
def noSpan : Span := ⟨0, 0⟩

namespace Ast

mutual
/-- The tree without its spans. -/
def strip : Ast → Ast
  | null _ => null noSpan
  | bool b _ => bool b noSpan
  | num n _ => num n noSpan
  | str s _ => str s noSpan
  | ident name _ => ident name noSpan
  | member obj field _ => member obj.strip field noSpan
  | index obj idx _ => index obj.strip idx.strip noSpan
  | call func _ args _ => call func noSpan (stripArgs args) noSpan
  | unary op rhs _ => unary op rhs.strip noSpan
  | binary op lhs rhs _ => binary op lhs.strip rhs.strip noSpan
  | cond c t e _ => cond c.strip t.strip e.strip noSpan

def stripArgs : List Ast → List Ast
  | [] => []
  | arg :: args => arg.strip :: stripArgs args
end

mutual
/-- The tree with unary minus folded into the number literals below it. -/
def fold : Ast → Ast
  | null span => null span
  | bool b span => bool b span
  | num n span => num n span
  | str s span => str s span
  | ident name span => ident name span
  | member obj field span => member obj.fold field span
  | index obj idx span => index obj.fold idx.fold span
  | call func funcSpan args span => call func funcSpan (foldArgs args) span
  | unary op rhs span => mkUnary op rhs.fold span
  | binary op lhs rhs span => binary op lhs.fold rhs.fold span
  | cond c t e span => cond c.fold t.fold e.fold span

def foldArgs : List Ast → List Ast
  | [] => []
  | arg :: args => arg.fold :: foldArgs args
end

theorem stripArgs_eq_map (args : List Ast) : stripArgs args = args.map strip := by
  induction args with
  | nil => simp [stripArgs]
  | cons arg args ih => simp [stripArgs, ih]

theorem foldArgs_eq_map (args : List Ast) : foldArgs args = args.map fold := by
  induction args with
  | nil => simp [foldArgs]
  | cons arg args ih => simp [foldArgs, ih]

theorem strip_eq_ident {e : Ast} {name : String} {span : Span} (h : e.strip = ident name span) :
    ∃ span', e = ident name span' := by
  cases e <;> simp [strip] at h
  obtain ⟨rfl, -⟩ := h
  exact ⟨_, rfl⟩

theorem strip_mkUnary (op : UnOp) (rhs : Ast) (span : Span) :
    (mkUnary op rhs span).strip = mkUnary op rhs.strip noSpan := by
  cases op <;> cases rhs <;> simp [mkUnary, strip]

end Ast

/-! ## Derivations -/

/-- `Derives grouped d l w t`: the tokens `w` derive the tree `t` at the level `l`, with `d`
nesting levels below the current one. -/
inductive Derives (grouped : Bool) : Nat → Level → List Tok → Ast → Prop where
  | null {d} : Derives grouped d .primary [.null] (.null noSpan)
  | true_ {d} : Derives grouped d .primary [.true_] (.bool true noSpan)
  | false_ {d} : Derives grouped d .primary [.false_] (.bool false noSpan)
  | num {d n} : Derives grouped d .primary [.num n] (.num n noSpan)
  | str {d s} : Derives grouped d .primary [.str s] (.str s noSpan)
  | ident {d name} : Derives grouped d .primary [.ident name] (.ident name noSpan)
  | group {d w t} :
      Derives grouped d .ternary w t →
      Derives grouped (d + 1) .primary (.lParen :: (w ++ [.rParen])) t
  | member {d w t field} :
      Derives grouped d .suffix w t →
      Derives grouped d .suffix (w ++ [.dot, .ident field]) (.member t field noSpan)
  | index {d w t v i} :
      Derives grouped (d + 1) .suffix w t →
      Derives grouped d .ternary v i →
      Derives grouped (d + 1) .suffix (w ++ .lBracket :: (v ++ [.rBracket])) (.index t i noSpan)
  | callEmpty {d w func} :
      Derives grouped d .primary w (.ident func noSpan) →
      (grouped = false → w = [.ident func]) →
      Derives grouped d .suffix (w ++ [.lParen, .rParen]) (.call func noSpan [] noSpan)
  | call {d w func} {args : List (List Tok × Ast)} :
      Derives grouped (d + 1) .primary w (.ident func noSpan) →
      (grouped = false → w = [.ident func]) →
      args ≠ [] →
      (∀ arg ∈ args, Derives grouped d .ternary arg.1 arg.2) →
      Derives grouped (d + 1) .suffix
        (w ++ .lParen :: ([Tok.comma].intercalate (args.map (·.1)) ++ [.rParen]))
        (.call func noSpan (args.map (·.2)) noSpan)
  | neg {d w t} :
      Derives grouped d .unary w t →
      Derives grouped (d + 1) .unary (.minus :: w) (.unary .neg t noSpan)
  | not {d w t} :
      Derives grouped d .unary w t →
      Derives grouped (d + 1) .unary (.bang :: w) (.unary .not t noSpan)
  | binary {d tok op l r v a w b} :
      infixOp tok = some (op, l, r) →
      Derives grouped (d + 1) op.left v a →
      Derives grouped d op.right w b →
      Derives grouped (d + 1) op.level (v ++ tok :: w) (.binary op a b noSpan)
  | cond {d u c v a w b} :
      Derives grouped (d + 1) .or u c →
      Derives grouped d .ternary v a →
      Derives grouped d .ternary w b →
      Derives grouped (d + 1) .ternary (u ++ .question :: (v ++ .colon :: w))
        (.cond c a b noSpan)
  | tighter {d l l' w t} :
      l.power ≤ l'.power → Derives grouped d l' w t → Derives grouped d l w t

/-! ## Calls on a name in parentheses -/

/-- No opening parenthesis stands directly after a closing one. -/
def NoGroupCall (w : List Tok) : Prop :=
  w.IsChain fun a b => a = .rParen → b ≠ .lParen

instance (w : List Tok) : Decidable (NoGroupCall w) := by
  unfold NoGroupCall
  infer_instance

namespace NoGroupCall

variable {v w : List Tok} {tok : Tok}

theorem append (hv : NoGroupCall v) (hw : NoGroupCall w)
    (h : v.getLast? ≠ some .rParen ∨ w.head? ≠ some .lParen) : NoGroupCall (v ++ w) := by
  refine List.isChain_append.mpr ⟨hv, hw, ?_⟩
  rintro x hx y hy rfl rfl
  rcases h with h | h
  · exact h hx
  · exact h hy

/-- A token other than the two parentheses stands anywhere. -/
theorem middle (hv : NoGroupCall v) (hw : NoGroupCall w) (hl : tok ≠ .lParen)
    (hr : tok ≠ .rParen) : NoGroupCall (v ++ tok :: w) := by
  have htok : NoGroupCall (tok :: w) :=
    append (v := [tok]) (List.isChain_singleton _) hw (.inl (by simpa using hr))
  exact hv.append htok (.inr (by simpa using hl))

/-- A closing parenthesis at the end. -/
theorem close (hv : NoGroupCall v) : NoGroupCall (v ++ [.rParen]) :=
  hv.append (List.isChain_singleton _) (.inr (by simp))

/-- An opening parenthesis at the front. -/
theorem cons_lParen (hv : NoGroupCall v) : NoGroupCall (.lParen :: v) :=
  append (v := [.lParen]) (List.isChain_singleton _) hv (.inl (by simp))

theorem intercalate {ws : List (List Tok)} (h : ∀ w ∈ ws, NoGroupCall w) :
    NoGroupCall ([Tok.comma].intercalate ws) := by
  induction ws with
  | nil => exact List.isChain_nil
  | cons w ws ih =>
    by_cases hws : ws = []
    · simpa [hws] using h w (by simp)
    · rw [List.intercalate_cons_of_ne_nil hws, List.append_assoc]
      have hrest := ih fun x hx => h x (by simp [hx])
      exact middle (h w (by simp)) hrest (by simp) (by simp)

theorem left (h : NoGroupCall (v ++ w)) : NoGroupCall v := (List.isChain_append.mp h).1

theorem right (h : NoGroupCall (v ++ w)) : NoGroupCall w := (List.isChain_append.mp h).2.1

theorem tail (h : NoGroupCall (tok :: v)) : NoGroupCall v := right (v := [tok]) h

theorem of_intercalate {ws : List (List Tok)} (h : NoGroupCall ([Tok.comma].intercalate ws))
    (hw : w ∈ ws) : NoGroupCall w := by
  induction ws with
  | nil => simp at hw
  | cons v ws ih =>
    by_cases hws : ws = []
    · subst hws
      simp_all
    · rw [List.intercalate_cons_of_ne_nil hws] at h
      rcases List.mem_cons.mp hw with rfl | hw
      · exact h.left.left
      · exact ih h.right hw

end NoGroupCall

/-- What stands in no argument stands in no argument list, the commas apart. -/
theorem not_mem_intercalate {tok : Tok} {ws : List (List Tok)} (h : ∀ w ∈ ws, tok ∉ w)
    (htok : tok ≠ .comma) : tok ∉ [Tok.comma].intercalate ws := by
  induction ws with
  | nil => simp
  | cons w ws ih =>
    by_cases hws : ws = []
    · simpa [hws] using h w (by simp)
    · rw [List.intercalate_cons_of_ne_nil hws]
      simp [h w (by simp), htok, ih fun x hx => h x (by simp [hx])]

section groupCalls

variable {d : Nat} {l : Level} {w : List Tok} {t : Ast}

/-- In the design's grammar no parenthesised name is called. -/
theorem Derives.noGroupCall (h : Derives false d l w t) : NoGroupCall w := by
  induction h with
  | null | true_ | false_ | num | str | ident => exact List.isChain_singleton _
  | group _ ih => exact ih.close.cons_lParen
  | member _ ih =>
    exact NoGroupCall.middle ih (List.isChain_singleton _) (by simp) (by simp)
  | index _ _ ih ihx =>
    have hclose : NoGroupCall (_ ++ [.rBracket]) :=
      ihx.middle List.isChain_nil (by simp) (by simp)
    exact ih.middle hclose (by simp) (by simp)
  | callEmpty _ hw _ =>
    rw [hw rfl]
    exact NoGroupCall.append (List.isChain_singleton _) (by decide) (.inl (by simp))
  | call _ hw _ _ _ ihargs =>
    rw [hw rfl]
    have hargs := NoGroupCall.intercalate fun v hv => by
      obtain ⟨arg, harg, rfl⟩ := List.mem_map.mp hv
      exact ihargs arg harg
    exact NoGroupCall.append (List.isChain_singleton _) hargs.close.cons_lParen (.inl (by simp))
  | neg _ ih | not _ ih => exact NoGroupCall.middle List.isChain_nil ih (by simp) (by simp)
  | @binary _ tok _ _ _ _ _ _ _ hop _ _ ih ihx =>
    refine ih.middle ihx ?_ ?_ <;> rintro rfl <;> simp [infixOp] at hop
  | cond _ _ _ ih ihx ihy =>
    exact ih.middle (ihx.middle ihy (by simp) (by simp)) (by simp) (by simp)
  | tighter _ _ ih => exact ih

/-- A callee in parentheses ends with one. -/
theorem Derives.callee_cases {grouped : Bool} {name : String} {span : Span}
    (h : Derives grouped d l w (.ident name span)) : w = [.ident name] ∨ ∃ v, w = v ++ [.rParen] := by
  generalize ht : Ast.ident name span = t at h
  induction h with
  | ident =>
    obtain ⟨rfl, -⟩ := Ast.ident.inj ht
    exact .inl rfl
  | @group _ w _ _ => exact .inr ⟨.lParen :: w, by simp⟩
  | tighter _ _ ih => exact ih ht
  | _ => exact absurd ht (by simp)

/-- Without calls on parenthesised names the two grammars are one. -/
theorem Derives.ungrouped (h : Derives true d l w t) (hw : NoGroupCall w) :
    Derives false d l w t := by
  have hcallee : ∀ {w v : List Tok} {name : String} {d : Nat},
      Derives true d .primary w (.ident name noSpan) → NoGroupCall (w ++ .lParen :: v) →
      w = [.ident name] := by
    intro w v name d hder hw
    rcases hder.callee_cases with rfl | ⟨u, rfl⟩
    · rfl
    · have := (List.isChain_append.mp hw).2.2 .rParen (by simp) .lParen (by simp)
      exact absurd rfl (this rfl)
  induction h with
  | null => exact .null
  | true_ => exact .true_
  | false_ => exact .false_
  | num => exact .num
  | str => exact .str
  | ident => exact .ident
  | group _ ih => exact .group (ih hw.tail.left)
  | member _ ih => exact .member (ih hw.left)
  | index _ _ ih ihx => exact .index (ih hw.left) (ihx hw.right.tail.left)
  | callEmpty hder _ ih => exact .callEmpty (ih hw.left) fun _ => hcallee hder hw
  | call hder _ hne _ ih ihargs =>
    refine .call (ih hw.left) (fun _ => hcallee hder hw) hne fun arg harg => ihargs arg harg ?_
    exact hw.right.tail.left.of_intercalate (List.mem_map.mpr ⟨arg, harg, rfl⟩)
  | neg _ ih => exact .neg (ih hw.tail)
  | not _ ih => exact .not (ih hw.tail)
  | binary hop _ _ ih ihx => exact .binary hop (ih hw.left) (ihx hw.right.tail)
  | cond _ _ _ ih ihx ihy =>
    exact .cond (ih hw.left) (ihx hw.right.tail.left) (ihy hw.right.tail.right.tail)
  | tighter hle _ ih => exact .tighter hle (ih hw)

/-- The end marker is no part of an expression. -/
theorem Derives.ne_eof {grouped : Bool} (h : Derives grouped d l w t) : .eof ∉ w := by
  induction h with
  | null | true_ | false_ | num | str | ident => simp
  | group _ ih => simpa using ih
  | member _ ih => simpa using ih
  | index _ _ ih ihx => simp [ih, ihx]
  | callEmpty _ _ ih => simpa using ih
  | call _ _ _ _ ih ihargs =>
    have hargs : .eof ∉ [Tok.comma].intercalate _ :=
      not_mem_intercalate (fun v hv => by
        obtain ⟨arg, harg, rfl⟩ := List.mem_map.mp hv
        exact ihargs arg harg) (by simp)
    simp [ih, hargs]
  | neg _ ih | not _ ih => simpa using ih
  | @binary _ tok _ _ _ _ _ _ _ hop _ _ ih ihx =>
    have htok : .eof ≠ tok := by
      rintro rfl
      simp [infixOp] at hop
    simp [ih, ihx, htok]
  | cond _ _ _ ih ihx ihy => simp [ih, ihx, ihy]
  | tighter _ _ ih => exact ih

end groupCalls

/-! ## Comparisons at one level -/

/-- Whether two comparison operators stand at one level: in the same brackets, with no looser
operator and no comma between them. `seen` says that the current level has one, `outer` the same
of the levels around it. -/
def chained : Bool → List Bool → List Tok → Bool
  | _, _, [] => false
  | seen, outer, tok :: rest =>
      match tok with
      | .lParen | .lBracket => chained false (seen :: outer) rest
      | .rParen | .rBracket => chained (outer.headD false) outer.tail rest
      | .andAnd | .orOr | .question | .colon | .comma => chained false outer rest
      | .eqEq | .bangEq | .lt | .le | .gt | .ge => seen || chained true outer rest
      | _ => chained seen outer rest

/-- Reading an expression of the level `l` keeps what the scan knows of the level around it, where
`l` is tighter than the comparisons; elsewhere the scan starts it afresh. -/
def Unchained (l : Level) (w : List Tok) : Prop :=
  ∀ (seen : Bool) (outer : List Bool) (rest : List Tok), (l.power ≤ bpCmp.1 → seen = false) →
    ∃ seen', (bpCmp.1 < l.power → seen' = seen) ∧
      chained seen outer (w ++ rest) = chained seen' outer rest

namespace Unchained

variable {l : Level} {v w : List Tok} {tok : Tok}

theorem of_plain (h : ∀ seen outer rest, chained seen outer (w ++ rest) = chained seen outer rest) :
    Unchained l w := fun seen outer rest _ => ⟨seen, fun _ => rfl, h seen outer rest⟩

theorem tight (h : Unchained l w) (hl : bpCmp.1 < l.power) (seen : Bool) (outer : List Bool)
    (rest : List Tok) : chained seen outer (w ++ rest) = chained seen outer rest := by
  obtain ⟨seen', hsame, heq⟩ := h seen outer rest fun hle => absurd hl (Nat.not_lt.mpr hle)
  rw [heq, hsame hl]

theorem fresh (h : Unchained l w) (outer : List Bool) (rest : List Tok) :
    ∃ seen, chained false outer (w ++ rest) = chained seen outer rest := by
  obtain ⟨seen, -, heq⟩ := h false outer rest fun _ => rfl
  exact ⟨seen, heq⟩

/-- A bracketed expression is read on a level of its own. -/
theorem bracketed (h : Unchained .ternary w) {seen : Bool} {outer : List Bool} {rest : List Tok}
    {close : Tok} (hclose : close = .rParen ∨ close = .rBracket) :
    chained false (seen :: outer) (w ++ close :: rest) = chained seen outer rest := by
  obtain ⟨seen', heq⟩ := h.fresh (seen :: outer) (close :: rest)
  rw [heq]
  rcases hclose with rfl | rfl <;> rfl

theorem args {args : List (List Tok)} (h : ∀ w ∈ args, Unchained .ternary w) (seen : Bool)
    (outer : List Bool) (rest : List Tok) :
    chained false (seen :: outer) ([Tok.comma].intercalate args ++ .rParen :: rest) =
      chained seen outer rest := by
  induction args with
  | nil => rfl
  | cons w args ih =>
    by_cases hargs : args = []
    · simpa [hargs] using (h w (by simp)).bracketed (.inl rfl)
    · rw [List.intercalate_cons_of_ne_nil hargs, List.append_assoc, List.append_assoc]
      obtain ⟨seen', heq⟩ := (h w (by simp)).fresh (seen :: outer)
        ([Tok.comma] ++ ([Tok.comma].intercalate args ++ .rParen :: rest))
      rw [heq]
      exact ih fun v hv => h v (by simp [hv])

theorem binary {op : BinOp} {i j : Nat} (hop : infixOp tok = some (op, i, j))
    (hv : Unchained op.left v) (hw : Unchained op.right w) :
    Unchained op.level (v ++ tok :: w) := by
  intro seen outer rest hseen
  rw [List.append_assoc, List.cons_append]
  cases tok <;> simp [infixOp] at hop <;> obtain ⟨rfl, -⟩ := hop
  case orOr | andAnd =>
    obtain rfl := hseen (by decide)
    obtain ⟨_, hleft⟩ := hv.fresh outer (_ :: (w ++ rest))
    obtain ⟨seen', hright⟩ := hw.fresh outer rest
    exact ⟨seen', fun h => absurd h (by decide), hleft.trans hright⟩
  case eqEq | bangEq | lt | le | gt | ge =>
    obtain rfl := hseen (by decide)
    refine ⟨true, fun h => absurd h (by decide), ?_⟩
    rw [hv.tight (by decide)]
    exact hw.tight (by decide) true outer rest
  case plus | minus | star | slash | percent =>
    refine ⟨seen, fun _ => rfl, ?_⟩
    rw [hv.tight (by decide)]
    exact hw.tight (by decide) seen outer rest

theorem cond {u : List Tok} (hu : Unchained .or u) (hv : Unchained .ternary v)
    (hw : Unchained .ternary w) : Unchained .ternary (u ++ .question :: (v ++ .colon :: w)) := by
  intro seen outer rest hseen
  obtain rfl := hseen (by decide)
  obtain ⟨_, hcond⟩ := hu.fresh outer (.question :: (v ++ .colon :: (w ++ rest)))
  obtain ⟨_, hthen⟩ := hv.fresh outer (.colon :: (w ++ rest))
  obtain ⟨seen', hels⟩ := hw.fresh outer rest
  refine ⟨seen', fun h => absurd h (by decide), ?_⟩
  have hassoc : u ++ .question :: (v ++ .colon :: w) ++ rest =
      u ++ .question :: (v ++ .colon :: (w ++ rest)) := by simp
  rw [hassoc]
  exact hcond.trans (hthen.trans hels)

end Unchained

theorem Derives.unchained {grouped : Bool} {d : Nat} {l : Level} {w : List Tok} {t : Ast}
    (h : Derives grouped d l w t) : Unchained l w := by
  induction h with
  | null | true_ | false_ | num | str | ident => exact .of_plain fun _ _ _ => rfl
  | group _ ih =>
    refine .of_plain fun seen outer rest => ?_
    simpa [chained] using ih.bracketed (.inl rfl)
  | member _ ih =>
    refine .of_plain fun seen outer rest => ?_
    rw [List.append_assoc, ih.tight (by decide)]
    rfl
  | index _ _ ih ihx =>
    refine .of_plain fun seen outer rest => ?_
    rw [List.append_assoc, ih.tight (by decide)]
    simpa [chained] using ihx.bracketed (.inr rfl)
  | callEmpty _ _ ih =>
    refine .of_plain fun seen outer rest => ?_
    rw [List.append_assoc, ih.tight (by decide)]
    rfl
  | call _ _ _ _ ih ihargs =>
    refine .of_plain fun seen outer rest => ?_
    rw [List.append_assoc, ih.tight (by decide)]
    have hargs := Unchained.args fun v hv => by
      obtain ⟨arg, harg, rfl⟩ := List.mem_map.mp hv
      exact ihargs arg harg
    simpa [chained] using hargs seen outer rest
  | neg _ ih | not _ ih =>
    exact .of_plain fun seen outer rest => ih.tight (by decide) seen outer rest
  | binary hop _ _ ih ihx => exact Unchained.binary hop ih ihx
  | cond _ _ _ ih ihx ihy => exact ih.cond ihx ihy
  | tighter hle _ ih =>
    intro seen outer rest hseen
    obtain ⟨seen', hsame, heq⟩ := ih seen outer rest fun h => hseen (hle.trans h)
    exact ⟨seen', fun h => hsame (h.trans_le hle), heq⟩

end RustyPhoton.SessionRunner.Expr
