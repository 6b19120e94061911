import RustyPhoton.SessionRunner.Expr.Text

/-!
# How deep an accepted expression is

The nesting cap counts the parser's own recursion. Its operator loop builds left-associative and
suffix chains without recursing, so the tree can be deeper than the cap, and the passes over the
tree recurse on the tree. What bounds the height is the longest run of operators at one bracket
level of the source.
-/

namespace RustyPhoton.SessionRunner.Expr

open Lib Fallible

namespace Ast

mutual
/-- The number of nodes on the longest path down the tree. -/
def height : Ast → Nat
  | null _ | bool _ _ | num _ _ | str _ _ | ident _ _ => 1
  | member obj _ _ => obj.height + 1
  | index obj idx _ => max obj.height idx.height + 1
  | call _ _ args _ => heightArgs args + 1
  | unary _ rhs _ => rhs.height + 1
  | binary _ lhs rhs _ => max lhs.height rhs.height + 1
  | cond c t e _ => max c.height (max t.height e.height) + 1

def heightArgs : List Ast → Nat
  | [] => 0
  | arg :: args => max arg.height (heightArgs args)
end

def isAtom : Ast → Bool
  | num _ _ | ident _ _ => true
  | _ => false

theorem height_pos (e : Ast) : 0 < e.height := by
  cases e <;> simp [height]

theorem heightArgs_le_iff {args : List Ast} {n : Nat} :
    heightArgs args ≤ n ↔ ∀ arg ∈ args, arg.height ≤ n := by
  induction args with
  | nil => simp [heightArgs]
  | cons arg args ih => simp [heightArgs, ih]

mutual
theorem height_strip : ∀ e : Ast, e.strip.height = e.height
  | null _ | bool _ _ | num _ _ | str _ _ | ident _ _ => by simp [strip, height]
  | member obj _ _ => by simp [strip, height, height_strip obj]
  | index obj idx _ => by simp [strip, height, height_strip obj, height_strip idx]
  | call _ _ args _ => by simp [strip, height, heightArgs_strip args]
  | unary _ rhs _ => by simp [strip, height, height_strip rhs]
  | binary _ lhs rhs _ => by simp [strip, height, height_strip lhs, height_strip rhs]
  | cond c t e _ => by simp [strip, height, height_strip c, height_strip t, height_strip e]

theorem heightArgs_strip : ∀ args : List Ast, heightArgs (stripArgs args) = heightArgs args
  | [] => by simp [stripArgs]
  | arg :: args => by simp [stripArgs, heightArgs, height_strip arg, heightArgs_strip args]
end

/-- Folding a minus into a literal only saves a node. -/
theorem height_mkUnary (op : UnOp) (rhs : Ast) (span : Span) :
    (mkUnary op rhs span).height = rhs.height + 1 ∨
      (mkUnary op rhs span).height = 1 ∧ ∃ n span', rhs = num n span' := by
  cases op <;> cases rhs <;> simp [mkUnary, height]

end Ast

/-! ## Runs of operators -/

/-- The most operators, brackets and member steps at one bracket level of a token list, where each
argument of a call counts by itself: `n` stand at the current level so far, `outer` at those around
it. -/
def longestRun : Nat → List Nat → List Tok → Nat
  | n, _, [] => n
  | n, outer, tok :: rest =>
      match tok with
      | .lParen | .lBracket => max (n + 1) (longestRun 0 ((n + 1) :: outer) rest)
      | .rParen | .rBracket => max n (longestRun (outer.headD 0) outer.tail rest)
      | .comma => max n (longestRun 0 outer rest)
      | .num _ | .str _ | .ident _ | .null | .true_ | .false_ | .colon | .eof =>
          longestRun n outer rest
      | _ => longestRun (n + 1) outer rest

theorem le_longestRun (n : Nat) (outer : List Nat) (ts : List Tok) : n ≤ longestRun n outer ts := by
  induction ts generalizing n outer with
  | nil => exact Nat.le_refl n
  | cons tok ts ih =>
    have hnext := ih (n + 1) outer
    have hsame := ih n outer
    cases tok <;> simp [longestRun] <;> omega

/-- Reading the tokens `w` adds `k` to the run of the level they stand on, and `m` is the longest
run within their brackets. -/
def Runs (w : List Tok) (k m : Nat) : Prop :=
  ∀ n outer rest, longestRun n outer (w ++ rest) = max m (longestRun (n + k) outer rest)

namespace Runs

variable {v w : List Tok} {k k' m m' : Nat} {tok : Tok}

theorem append (hv : Runs v k m) (hw : Runs w k' m') :
    Runs (v ++ w) (k + k') (max m m') := by
  intro n outer rest
  rw [List.append_assoc, hv, hw, Nat.add_assoc]
  exact (Nat.max_assoc ..).symm

/-- A token that is no operator. -/
theorem plain (h : ∀ n outer rest, longestRun n outer (tok :: rest) = longestRun n outer rest) :
    Runs [tok] 0 0 := by
  intro n outer rest
  simp [h]

/-- A token that is one. -/
theorem operator
    (h : ∀ n outer rest, longestRun n outer (tok :: rest) = longestRun (n + 1) outer rest) :
    Runs [tok] 1 0 := by
  intro n outer rest
  simp [h]

theorem ofInfix {op : BinOp} {i j : Nat} (h : infixOp tok = some (op, i, j)) : Runs [tok] 1 0 := by
  refine operator fun n outer rest => ?_
  cases tok <;> simp [infixOp] at h <;> rfl

variable {close : Tok}

/-- The content of a pair of brackets makes a run of its own. -/
theorem closed {x : Nat} {outer : List Nat} {rest : List Tok} (hw : Runs w k m)
    (hclose : close = .rParen ∨ close = .rBracket) :
    longestRun 0 (x :: outer) (w ++ close :: rest) =
      max (max k m) (longestRun x outer rest) := by
  rw [hw, Nat.zero_add]
  have hrun : longestRun k (x :: outer) (close :: rest) = max k (longestRun x outer rest) := by
    rcases hclose with rfl | rfl <;> rfl
  rw [hrun]
  simp only [Nat.max_def]
  grind

theorem bracketed {start : Tok} (hw : Runs w k m)
    (h : start = .lParen ∧ close = .rParen ∨ start = .lBracket ∧ close = .rBracket) :
    Runs (start :: (w ++ [close])) 1 (max k m) := by
  intro n outer rest
  have hassoc : start :: (w ++ [close]) ++ rest = start :: (w ++ close :: rest) := by simp
  have hclosed : longestRun 0 ((n + 1) :: outer) (w ++ close :: rest) =
      max (max k m) (longestRun (n + 1) outer rest) := hw.closed (h.imp And.right And.right)
  have hstart : longestRun n outer (start :: (w ++ close :: rest)) =
      max (n + 1) (longestRun 0 ((n + 1) :: outer) (w ++ close :: rest)) := by
    rcases h with ⟨rfl, rfl⟩ | ⟨rfl, rfl⟩ <;> rfl
  rw [hassoc, hstart, hclosed]
  have hle := le_longestRun (n + 1) outer rest
  simp only [Nat.max_def]
  grind

end Runs

/-! ## Runs bound the height, and the height bounds the runs -/

/-- The tokens `w` of the expression `e`, read with `d` nesting levels left, add `k` to the run of
their level and have runs up to `m` in their brackets. -/
structure Measure (d : Nat) (w : List Tok) (e : Ast) (k m : Nat) : Prop where
  runs : Runs w k m
  height_le : e.height ≤ k + 1 + (m + 1) * d
  run_le : k + 1 ≤ (d + 2) * 4 ^ e.height
  inner_le : m + 1 ≤ (d + 2) * 4 ^ e.height
  /-- Literals under folded minuses and names in parentheses are the only small trees of long
  texts, and the cap bounds those. -/
  atom : e.isAtom → k ≤ d + 1 ∧ m ≤ d + 1

variable {d : Nat}

theorem four_mul_le {d' x h h' : Nat} (hx : x + 1 ≤ (d + 2) * 4 ^ h) (hd : d ≤ d')
    (hh : h < h') : 4 * (x + 1) ≤ (d' + 2) * 4 ^ h' := by
  calc 4 * (x + 1) ≤ 4 * ((d + 2) * 4 ^ h) := Nat.mul_le_mul_left 4 hx
    _ = (d + 2) * 4 ^ (h + 1) := by ring
    _ ≤ (d' + 2) * 4 ^ h' :=
      Nat.mul_le_mul (Nat.add_le_add_right hd 2) (Nat.pow_le_pow_right (by decide) hh)

theorem levels_le {d' m m' : Nat} (hd : d ≤ d') (hm : m ≤ m') :
    (m + 1) * d ≤ (m' + 1) * d' :=
  Nat.mul_le_mul (Nat.add_le_add_right hm 1) hd

namespace Measure

variable {d k m k' m' : Nat} {v w : List Tok} {e x : Ast}

variable {tok : Tok}

theorem leaf (hruns : Runs [tok] 0 0) (he : e.height = 1) : Measure d [tok] e 0 0 where
  runs := hruns
  height_le := by omega
  run_le := by rw [he]; omega
  inner_le := by rw [he]; omega
  atom := fun _ => ⟨Nat.zero_le _, Nat.zero_le _⟩

theorem group (h : Measure d w e k m) :
    Measure (d + 1) (.lParen :: (w ++ [.rParen])) e 1 (max k m) where
  runs := h.runs.bracketed (.inl ⟨rfl, rfl⟩)
  height_le := by
    have hle := h.height_le
    have hk : k ≤ max k m := Nat.le_max_left k m
    have hlev := levels_le (Nat.le_refl d) (Nat.le_max_right k m)
    have hsucc : (max k m + 1) * (d + 1) = (max k m + 1) * d + (max k m + 1) := by ring
    omega
  run_le := by
    have hpow : 4 ^ 1 ≤ 4 ^ e.height := Nat.pow_le_pow_right (by decide) (Ast.height_pos e)
    have hle := Nat.mul_le_mul (show 1 ≤ d + 1 + 2 by omega) hpow
    omega
  inner_le := by
    have hmono : (d + 2) * 4 ^ e.height ≤ (d + 1 + 2) * 4 ^ e.height :=
      Nat.mul_le_mul_right _ (by omega)
    have hk := h.run_le
    have hm := h.inner_le
    have hmax : max k m + 1 = k + 1 ∨ max k m + 1 = m + 1 := by
      simp only [Nat.max_def]
      split <;> omega
    omega
  atom := fun he => by
    obtain ⟨hk, hm⟩ := h.atom he
    exact ⟨by omega, Nat.max_le.mpr ⟨by omega, by omega⟩⟩

variable {span : Span}

theorem unary {op : UnOp} (h : Measure d w e k m) (hop : tok = .minus ∨ tok = .bang) :
    Measure (d + 1) (tok :: w) (Ast.mkUnary op e span) (1 + k) m where
  runs := by
    have htok : Runs [tok] 1 0 := by rcases hop with rfl | rfl <;> exact .operator fun _ _ _ => rfl
    simpa using htok.append h.runs
  height_le := by
    have hle := h.height_le
    have hlev := levels_le (Nat.le_add_right d 1) (Nat.le_refl m)
    rcases Ast.height_mkUnary op e span with hh | ⟨hh, -⟩ <;> omega
  run_le := by
    rcases Ast.height_mkUnary op e span with hh | ⟨hh, n, span', rfl⟩
    · have hgrow := four_mul_le h.run_le (Nat.le_add_right d 1) (Nat.lt_add_one e.height)
      rw [hh]
      omega
    · have := (h.atom rfl).1
      rw [hh]
      omega
  inner_le := by
    rcases Ast.height_mkUnary op e span with hh | ⟨hh, n, span', rfl⟩
    · have hgrow := four_mul_le h.inner_le (Nat.le_add_right d 1) (Nat.lt_add_one e.height)
      rw [hh]
      omega
    · have := (h.atom rfl).2
      rw [hh]
      omega
  atom := fun he => by
    cases op <;> cases e <;> simp [Ast.mkUnary, Ast.isAtom] at he
    obtain ⟨hk, hm⟩ := h.atom rfl
    omega

theorem member {field : String} (h : Measure d w e k m) :
    Measure d (w ++ [.dot, .ident field]) (.member e field span) (k + 1) m where
  runs := by
    have hdot : Runs [.dot] 1 0 := .operator fun _ _ _ => rfl
    have hfield : Runs [.ident field] 0 0 := .plain fun _ _ _ => rfl
    simpa using h.runs.append (hdot.append hfield)
  height_le := by
    have hle := h.height_le
    simp only [Ast.height]
    omega
  run_le := by
    have hgrow := four_mul_le h.run_le (Nat.le_refl d) (Nat.lt_add_one e.height)
    simp only [Ast.height]
    omega
  inner_le := by
    have hgrow := four_mul_le h.inner_le (Nat.le_refl d) (Nat.lt_add_one e.height)
    simp only [Ast.height]
    omega
  atom := fun he => nomatch he

/-- Two expressions under one node, the second one call deeper. -/
theorem two {h : Nat} (hv : Measure (d + 1) v e k m) (hw : Measure d w x k' m')
    (he : e.height < h) (hx : x.height < h) :
    4 * (k + 1) ≤ (d + 1 + 2) * 4 ^ h ∧ 4 * (m + 1) ≤ (d + 1 + 2) * 4 ^ h ∧
      4 * (k' + 1) ≤ (d + 1 + 2) * 4 ^ h ∧ 4 * (m' + 1) ≤ (d + 1 + 2) * 4 ^ h :=
  ⟨four_mul_le hv.run_le (Nat.le_refl _) he, four_mul_le hv.inner_le (Nat.le_refl _) he,
    four_mul_le hw.run_le (Nat.le_add_right d 1) hx, four_mul_le hw.inner_le (Nat.le_add_right d 1) hx⟩

theorem index (hv : Measure (d + 1) v e k m) (hw : Measure d w x k' m') :
    Measure (d + 1) (v ++ .lBracket :: (w ++ [.rBracket])) (.index e x span) (k + 1)
      (max m (max k' m')) := by
  have he : e.height < max e.height x.height + 1 := Nat.lt_succ_of_le (Nat.le_max_left ..)
  have hx : x.height < max e.height x.height + 1 := Nat.lt_succ_of_le (Nat.le_max_right ..)
  obtain ⟨hk, hm, hk', hm'⟩ := hv.two hw he hx
  refine ⟨hv.runs.append (hw.runs.bracketed (.inr ⟨rfl, rfl⟩)), ?_, ?_, ?_, fun h => nomatch h⟩
  · have hle := hv.height_le
    have hle' := hw.height_le
    have hlev : (m + 1) * (d + 1) ≤ (max m (max k' m') + 1) * (d + 1) :=
      levels_le (Nat.le_refl _) (by omega)
    have hlev' : (m' + 1) * d ≤ (max m (max k' m') + 1) * d := levels_le (Nat.le_refl _) (by omega)
    have hsucc : (max m (max k' m') + 1) * (d + 1) =
        (max m (max k' m') + 1) * d + (max m (max k' m') + 1) := by ring
    simp only [Ast.height]
    omega
  · simp only [Ast.height]
    omega
  · simp only [Ast.height]
    omega

theorem binary {op : BinOp} {i j : Nat}
    (hop : infixOp tok = some (op, i, j)) (hv : Measure (d + 1) v e k m)
    (hw : Measure d w x k' m') :
    Measure (d + 1) (v ++ tok :: w) (.binary op e x span) (k + (1 + k')) (max m m') := by
  have he : e.height < max e.height x.height + 1 := Nat.lt_succ_of_le (Nat.le_max_left ..)
  have hx : x.height < max e.height x.height + 1 := Nat.lt_succ_of_le (Nat.le_max_right ..)
  obtain ⟨hk, hm, hk', hm'⟩ := hv.two hw he hx
  refine ⟨?_, ?_, ?_, ?_, fun h => nomatch h⟩
  · simpa using hv.runs.append ((Runs.ofInfix hop).append hw.runs)
  · have hle := hv.height_le
    have hle' := hw.height_le
    have hlev : (m + 1) * (d + 1) ≤ (max m m' + 1) * (d + 1) := levels_le (Nat.le_refl _) (by omega)
    have hlev' : (m' + 1) * d ≤ (max m m' + 1) * (d + 1) := levels_le (Nat.le_add_right d 1) (by omega)
    simp only [Ast.height]
    omega
  · simp only [Ast.height]
    omega
  · simp only [Ast.height]
    omega

theorem cond {u : List Tok} {c : Ast} {k'' m'' : Nat} (hu : Measure (d + 1) u c k m)
    (hv : Measure d v e k' m') (hw : Measure d w x k'' m'') :
    Measure (d + 1) (u ++ .question :: (v ++ .colon :: w)) (.cond c e x span)
      (k + (1 + (k' + k''))) (max m (max m' m'')) := by
  have hc : c.height < max c.height (max e.height x.height) + 1 := by omega
  have he : e.height < max c.height (max e.height x.height) + 1 := by omega
  have hx : x.height < max c.height (max e.height x.height) + 1 := by omega
  obtain ⟨hk, hm, hk', hm'⟩ := hu.two hv hc he
  obtain ⟨-, -, hk'', hm''⟩ := hu.two hw hc hx
  have hquestion : Runs [.question] 1 0 := .operator fun _ _ _ => rfl
  have hcolon : Runs [.colon] 0 0 := .plain fun _ _ _ => rfl
  refine ⟨?_, ?_, ?_, ?_, fun h => nomatch h⟩
  · simpa using hu.runs.append (hquestion.append (hv.runs.append (hcolon.append hw.runs)))
  · have hle := hu.height_le
    have hle' := hv.height_le
    have hle'' := hw.height_le
    have hlev : (m + 1) * (d + 1) ≤ (max m (max m' m'') + 1) * (d + 1) :=
      levels_le (Nat.le_refl _) (by omega)
    have hlev' : (m' + 1) * d ≤ (max m (max m' m'') + 1) * (d + 1) :=
      levels_le (Nat.le_add_right d 1) (by omega)
    have hlev'' : (m'' + 1) * d ≤ (max m (max m' m'') + 1) * (d + 1) :=
      levels_le (Nat.le_add_right d 1) (by omega)
    simp only [Ast.height]
    omega
  · simp only [Ast.height]
    omega
  · simp only [Ast.height]
    omega

theorem callEmpty {func : String} (h : Measure d w (.ident func span) k m) :
    Measure d (w ++ [.lParen, .rParen]) (.call func span [] span) (k + 1) m := by
  obtain ⟨hk, hm⟩ := h.atom rfl
  have hempty : Runs [] 0 0 := fun n outer rest => by simp
  refine ⟨?_, ?_, ?_, ?_, fun h => nomatch h⟩
  · simpa using h.runs.append (hempty.bracketed (.inl ⟨rfl, rfl⟩))
  all_goals
    simp only [Ast.height, Ast.heightArgs]
    omega

end Measure

variable {args : List (List Tok × Ast)}

/-- The arguments of a call: their runs, and what these say of their heights. -/
theorem measure_args (h : ∀ arg ∈ args, ∃ k m, Measure d arg.1 arg.2.fold k m) :
    ∃ m, (∀ x outer rest,
        longestRun 0 (x :: outer) ([Tok.comma].intercalate (args.map (·.1)) ++ .rParen :: rest) =
          max m (longestRun x outer rest)) ∧
      (∀ arg ∈ args, arg.2.fold.height ≤ (m + 1) * (d + 1)) ∧
      ∀ top, (∀ arg ∈ args, arg.2.fold.height ≤ top) → m + 1 ≤ (d + 2) * 4 ^ top := by
  induction args with
  | nil =>
    refine ⟨0, fun x outer rest => rfl, by simp, fun top _ => ?_⟩
    have hpow := Nat.mul_le_mul (show 1 ≤ d + 2 by omega) (Nat.one_le_pow top 4 (by decide))
    omega
  | cons arg args ih =>
    obtain ⟨m', hruns, hheight, hbound⟩ := ih fun x hx => h x (by simp [hx])
    obtain ⟨k, m, hmeas⟩ := h arg (by simp)
    refine ⟨max (max k m) m', fun x outer rest => ?_, fun x hx => ?_, fun top htop => ?_⟩
    · by_cases hargs : args = []
      · subst hargs
        obtain rfl : 0 = m' := by simpa [longestRun] using hruns 0 [] []
        simpa using hmeas.runs.closed (.inl rfl)
      · rw [List.map_cons, List.intercalate_cons_of_ne_nil (by simpa using hargs),
          List.append_assoc, List.append_assoc, hmeas.runs]
        simp only [Nat.zero_add, List.singleton_append, longestRun]
        rw [hruns]
        simp only [Nat.max_def]
        grind
    · rcases List.mem_cons.mp hx with rfl | hx
      · have hle := hmeas.height_le
        have hlev : (m + 1) * d ≤ (max (max k m) m' + 1) * d :=
          levels_le (Nat.le_refl d) (by omega)
        have hsucc : (max (max k m) m' + 1) * (d + 1) =
            (max (max k m) m' + 1) * d + (max (max k m) m' + 1) := by ring
        omega
      · exact (hheight x hx).trans (Nat.mul_le_mul_right _ (by omega))
    · have hgrow : (d + 2) * 4 ^ arg.2.fold.height ≤ (d + 2) * 4 ^ top :=
        Nat.mul_le_mul_left _ (Nat.pow_le_pow_right (by decide) (htop arg (by simp)))
      have hrun := hmeas.run_le
      have hinner := hmeas.inner_le
      have hrest := hbound top fun x hx => htop x (by simp [hx])
      omega

variable {w : List Tok}

theorem Measure.call {k m : Nat} {func : String} {span : Span}
    (h : Measure (d + 1) w (.ident func span) k m)
    (hargs : ∀ arg ∈ args, ∃ k m, Measure d arg.1 arg.2.fold k m) :
    ∃ m', Measure (d + 1) (w ++ .lParen :: ([Tok.comma].intercalate (args.map (·.1)) ++ [.rParen]))
      (.call func span (args.map (·.2.fold)) span) (k + 1) m' := by
  obtain ⟨hk, hm⟩ := h.atom rfl
  obtain ⟨mArgs, hruns, hheight, hbound⟩ := measure_args hargs
  have htop : Ast.heightArgs (args.map (·.2.fold)) ≤ (mArgs + 1) * (d + 1) :=
    Ast.heightArgs_le_iff.mpr fun e he => by
      obtain ⟨arg, harg, rfl⟩ := List.mem_map.mp he
      exact hheight arg harg
  have hinner : mArgs + 1 ≤ (d + 2) * 4 ^ Ast.heightArgs (args.map (·.2.fold)) :=
    hbound _ fun arg harg =>
      Ast.heightArgs_le_iff.mp (Nat.le_refl _) _ (List.mem_map.mpr ⟨arg, harg, rfl⟩)
  have hgrow := four_mul_le hinner (Nat.le_add_right d 1) (Nat.lt_add_one _)
  have hfour : (d + 1 + 2) * 4 ≤ (d + 1 + 2) * 4 ^ (Ast.heightArgs (args.map (·.2.fold)) + 1) :=
    Nat.mul_le_mul_left _ (Nat.le_self_pow (by omega) 4)
  refine ⟨max m mArgs, ?_, ?_, ?_, ?_, fun h => nomatch h⟩
  · have hbrackets : Runs (.lParen :: ([Tok.comma].intercalate (args.map (·.1)) ++ [.rParen])) 1
        mArgs := by
      intro n outer rest
      have hle := le_longestRun (n + 1) outer rest
      simp only [List.cons_append, List.append_assoc, List.nil_append, longestRun, hruns]
      simp only [Nat.max_def]
      grind
    exact h.runs.append hbrackets
  · have hlev : (mArgs + 1) * (d + 1) ≤ (max m mArgs + 1) * (d + 1) :=
      levels_le (Nat.le_refl _) (Nat.le_max_right ..)
    simp only [Ast.height]
    omega
  · simp only [Ast.height]
    omega
  · simp only [Ast.height]
    omega

variable {grouped : Bool} {t : Ast}

/-- Every derivation has its runs measured. -/
theorem Derives.measure {l : Level}
    (h : Derives grouped d l w t) : ∃ k m, Measure d w t.fold k m := by
  induction h with
  | null | true_ | false_ | num | str | ident =>
    exact ⟨0, 0, .leaf (.plain fun _ _ _ => rfl) (by simp [Ast.fold, Ast.height])⟩
  | group _ ih =>
    obtain ⟨k, m, hmeas⟩ := ih
    exact ⟨_, _, hmeas.group⟩
  | member _ ih =>
    obtain ⟨k, m, hmeas⟩ := ih
    exact ⟨_, _, hmeas.member⟩
  | index _ _ ih ihx =>
    obtain ⟨k, m, hmeas⟩ := ih
    obtain ⟨k', m', hmeas'⟩ := ihx
    exact ⟨_, _, hmeas.index hmeas'⟩
  | callEmpty _ _ ih =>
    obtain ⟨k, m, hmeas⟩ := ih
    exact ⟨_, _, hmeas.callEmpty⟩
  | @call _ _ func args _ _ _ _ ih ihargs =>
    obtain ⟨k, m, hmeas⟩ := ih
    obtain ⟨m', hcall⟩ := hmeas.call ihargs
    refine ⟨k + 1, m', ?_⟩
    simpa [Ast.fold, Ast.foldArgs_eq_map, Function.comp_def] using hcall
  | neg _ ih =>
    obtain ⟨k, m, hmeas⟩ := ih
    exact ⟨_, _, hmeas.unary (.inl rfl)⟩
  | not _ ih =>
    obtain ⟨k, m, hmeas⟩ := ih
    exact ⟨_, _, hmeas.unary (.inr rfl)⟩
  | binary hop _ _ ih ihx =>
    obtain ⟨k, m, hmeas⟩ := ih
    obtain ⟨k', m', hmeas'⟩ := ihx
    exact ⟨_, _, hmeas.binary hop hmeas'⟩
  | cond _ _ _ ih ihx ihy =>
    obtain ⟨k, m, hmeas⟩ := ih
    obtain ⟨k', m', hmeas'⟩ := ihx
    obtain ⟨k'', m'', hmeas''⟩ := ihy
    exact ⟨_, _, hmeas.cond hmeas' hmeas''⟩
  | tighter _ _ ih => exact ih

/-! ## Sources -/

/-- The longest run of operators at one bracket level of a source. -/
def operatorRun (src : String) : Nat := longestRun 0 [] (body (tokens src))

variable {src : String} {e : Expression}

theorem Expression.parse_inv (h : Expression.parse src = .ok e) :
    ∃ ts, lex src = .ok ts ∧ Expr.parse ts = .ok e.ast ∧ check e.ast = .ok () ∧ e.src = src := by
  rw [Expression.parse] at h
  obtain ⟨ts, hlex, h⟩ := bind_eq_ok.mp h
  obtain ⟨ast, hparse, h⟩ := bind_eq_ok.mp h
  obtain ⟨⟨⟩, hcheck, h⟩ := bind_eq_ok.mp h
  obtain rfl := pure_eq_ok.mp h
  exact ⟨ts, hlex, hparse, hcheck, rfl⟩

theorem Expression.parse_of_lexes {ts : List Tok}
    {after : Option Char → Prop} (hlexes : Lexes src.toList ts after) (hend : after none)
    (hder : Derives grouped maxDepth .ternary ts t)
    (hcheck : ∀ ast : Ast, ast.strip = t.fold → check ast = .ok ()) :
    ∃ e, Expression.parse src = .ok e ∧ e.ast.strip = t.fold := by
  obtain ⟨w, z, hlex, hw, hz⟩ := hlexes.lex hend
  have hrun : ∃ ast, Expr.parse (w ++ [z]) = .ok ast ∧ ast.strip = t.fold :=
    parse_of_derives (hw ▸ hder) hz
  obtain ⟨ast, hparse, hfold⟩ := hrun
  refine ⟨⟨src, ast⟩, ?_, hfold⟩
  simp [Expression.parse, hlex, hparse, hcheck ast hfold, bind, Except.bind, pure, Except.pure]

theorem height_run (h : Expression.parse src = .ok e) :
    e.ast.height ≤ (maxDepth + 1) * (operatorRun src + 1) ∧
      operatorRun src < (maxDepth + 2) * 4 ^ e.ast.height := by
  obtain ⟨ts, hlex, hparse, -, -⟩ := Expression.parse_inv h
  have htokens : tokens src = ts := by simp [tokens, hlex]
  obtain ⟨w, rest, z, t, rfl, hz, hder, he⟩ := derives_of_parse (lex_ended hlex) hparse
  obtain ⟨k, m, hmeas⟩ := hder.measure
  have hrun : operatorRun src = max m k := by
    rw [operatorRun, htokens, body_append hder.ne_eof hz]
    simpa [longestRun] using hmeas.runs 0 [] []
  have hheight : t.fold.height = e.ast.height := by rw [← he, Ast.height_strip]
  obtain ⟨-, hle, hrunLe, hinnerLe, -⟩ := hmeas
  rw [hheight] at hle hrunLe hinnerLe
  rw [hrun]
  constructor
  · have hlev : (m + 1) * maxDepth ≤ (max m k + 1) * maxDepth :=
      levels_le (Nat.le_refl _) (Nat.le_max_left ..)
    have hsucc : (maxDepth + 1) * (max m k + 1) = (max m k + 1) * maxDepth + (max m k + 1) := by
      ring
    omega
  · omega

/-- Whatever sources are taken, the trees of those accepted are bounded in height exactly when
their runs of operators are bounded in length. -/
theorem height_bounded_iff (sources : Set String) :
    (∃ bound, ∀ src ∈ sources, ∀ e, Expression.parse src = .ok e → e.ast.height ≤ bound) ↔
      ∃ bound, ∀ src ∈ sources, ∀ e, Expression.parse src = .ok e → operatorRun src ≤ bound := by
  constructor
  · rintro ⟨bound, hbound⟩
    refine ⟨(maxDepth + 2) * 4 ^ bound, fun src hsrc e he => ?_⟩
    have hpow : (maxDepth + 2) * 4 ^ e.ast.height ≤ (maxDepth + 2) * 4 ^ bound :=
      Nat.mul_le_mul_left _ (Nat.pow_le_pow_right (by decide) (hbound src hsrc e he))
    exact (height_run he).2.le.trans hpow
  · rintro ⟨bound, hbound⟩
    refine ⟨(maxDepth + 1) * (bound + 1), fun src hsrc e he => (height_run he).1.trans ?_⟩
    exact Nat.mul_le_mul_left _ (Nat.add_le_add_right (hbound src hsrc e he) 1)

/-! ## A chain of member steps -/

/-- `params.a.a…` with this many steps. -/
def memberChain : Nat → List Char
  | 0 => "params".toList
  | n + 1 => memberChain n ++ ".a".toList

def memberTokens : Nat → List Tok
  | 0 => [.ident "params"]
  | n + 1 => memberTokens n ++ [.dot, .ident "a"]

def memberTree : Nat → Ast
  | 0 => .ident "params" noSpan
  | n + 1 => .member (memberTree n) "a" noSpan

theorem memberChain_lexes (n : Nat) : Lexes (memberChain n) (memberTokens n) endsWord := by
  induction n with
  | zero =>
    exact lexes_word (by decide) (List.all_eq_true.mp (by decide))
  | succ n ih =>
    have hword : Lexes ['a'] [wordTok ['a']] endsWord := lexes_word (by decide) (by simp)
    have hstep : Lexes ('.' :: ['a']) ([.dot] ++ [wordTok ['a']]) endsWord :=
      lexes_dot.append_cons hword (by decide)
    exact ih.append_cons hstep ⟨by decide, by decide, by decide⟩

theorem memberTree_derives (n : Nat) :
    Derives false maxDepth .suffix (memberTokens n) (memberTree n) := by
  induction n with
  | zero => exact .tighter (by decide) .ident
  | succ n ih => exact .member ih

theorem memberTree_height (n : Nat) : (memberTree n).fold.height = n + 1 := by
  induction n with
  | zero => rfl
  | succ n ih => simp [memberTree, Ast.fold, Ast.height, ih]

theorem check_strip_memberTree {n : Nat} {e : Ast} (h : e.strip = (memberTree n).fold) :
    check e = .ok () := by
  induction n generalizing e with
  | zero =>
    obtain ⟨span, rfl⟩ := Ast.strip_eq_ident h
    rfl
  | succ n ih =>
    cases e <;> simp [memberTree, Ast.fold, Ast.strip] at h
    simpa [check] using ih h.1

/-- The chain is accepted, with a node for every step. -/
theorem memberChain_accepted (n : Nat) :
    ∃ e, Expression.parse (String.ofList (memberChain n)) = .ok e ∧ e.ast.height = n + 1 := by
  have hlexes : Lexes (String.ofList (memberChain n)).toList (memberTokens n) endsWord := by
    rw [String.toList_ofList]
    exact memberChain_lexes n
  have hder : Derives false maxDepth .ternary (memberTokens n) (memberTree n) :=
    .tighter (by decide) (memberTree_derives n)
  obtain ⟨e, he, hfold⟩ := Expression.parse_of_lexes hlexes ⟨by decide, by decide, by decide⟩ hder
    fun _ => check_strip_memberTree
  refine ⟨e, he, ?_⟩
  rw [← Ast.height_strip, hfold, memberTree_height]

/-- No height bounds the trees of all accepted sources. -/
theorem height_unbounded :
    ¬ ∃ bound, ∀ src e, Expression.parse src = .ok e → e.ast.height ≤ bound := by
  rintro ⟨bound, hbound⟩
  obtain ⟨e, he, hheight⟩ := memberChain_accepted bound
  have hle := hbound _ e he
  omega

end RustyPhoton.SessionRunner.Expr
