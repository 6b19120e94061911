import RustyPhoton.Lib.Ascii
import RustyPhoton.SessionRunner.Events.Client

/-!
# Frames of a stream

Taking blocks off a growing buffer gives the blocks of the whole text, so a stream's events and
cursor only depend on the text its chunks decode to together. And the parser looks for ASCII
characters only: two texts with the same ones have frames with the same fields, whose values are
again texts with the same ones.
-/

namespace RustyPhoton.SessionRunner.Events

open Lib Engine

/-! ## Blocks -/

theorem findBlock_cons (c : Char) (s : List Char) :
    findBlock (c :: s) = if c = '\n' ∧ s.head? = some '\n' then some (['\n', '\n'], s.tail)
      else (findBlock s).map fun (block, rest) => (c :: block, rest) := by
  split
  · rename_i h
    obtain ⟨rfl, hs⟩ := h
    obtain ⟨s, rfl⟩ := List.head?_eq_some_iff.mp hs
    rfl
  · rename_i h
    rw [findBlock]
    rintro rest rfl rfl
    exact h ⟨rfl, rfl⟩

variable {s rest : List Char}

theorem findBlock_eq_some {block : List Char} (h : findBlock s = some (block, rest)) :
    s = block ++ rest ∧ 2 ≤ block.length ∧ ∀ t, findBlock (s ++ t) = some (block, rest ++ t) := by
  induction s generalizing block with
  | nil => simp [findBlock] at h
  | cons c s ih =>
    rw [findBlock_cons] at h
    split at h
    · rename_i hc
      obtain ⟨rfl, hs⟩ := hc
      obtain ⟨s, rfl⟩ := List.head?_eq_some_iff.mp hs
      obtain ⟨rfl, rfl⟩ : ['\n', '\n'] = block ∧ s = rest := by simpa using h
      exact ⟨rfl, by decide, fun _ => rfl⟩
    · rename_i hc
      obtain ⟨⟨block', rest'⟩, hfind, heq⟩ := Option.map_eq_some_iff.mp h
      obtain ⟨rfl, rfl⟩ : c :: block' = block ∧ rest' = rest := by simpa using heq
      obtain ⟨rfl, hlen, happend⟩ := ih hfind
      refine ⟨rfl, by simp; omega, fun t => ?_⟩
      have hc' : ¬ (c = '\n' ∧ (block' ++ rest' ++ t).head? = some '\n') := by
        cases block' with
        | nil => simp at hlen
        | cons x block' => simpa using hc
      rw [List.cons_append, findBlock_cons, if_neg hc', happend t]
      rfl

theorem findBlock_self {block : List Char} (h : findBlock s = some (block, rest)) :
    findBlock block = some (block, []) := by
  induction s generalizing block with
  | nil => simp [findBlock] at h
  | cons c s ih =>
    rw [findBlock_cons] at h
    split at h
    · obtain ⟨rfl, rfl⟩ : ['\n', '\n'] = block ∧ s.tail = rest := by simpa using h
      rfl
    · rename_i hc
      obtain ⟨⟨block', rest'⟩, hfind, heq⟩ := Option.map_eq_some_iff.mp h
      obtain ⟨rfl, rfl⟩ : c :: block' = block ∧ rest' = rest := by simpa using heq
      obtain ⟨rfl, hlen, -⟩ := findBlock_eq_some hfind
      have hc' : ¬ (c = '\n' ∧ block'.head? = some '\n') := by
        cases block' with
        | nil => simp at hlen
        | cons x block' => simpa using hc
      rw [findBlock_cons, if_neg hc', ih hfind]
      rfl

/-- The complete blocks of a text, and what is left after them. -/
def blocks (s : List Char) : List (List Char) × List Char := drainBlocks s.length s

theorem drainBlocks_eq {n : Nat} (hn : s.length ≤ n) : drainBlocks n s = blocks s := by
  suffices h : ∀ {n m : Nat} {s : List Char}, s.length ≤ n → s.length ≤ m →
      drainBlocks n s = drainBlocks m s from h hn (Nat.le_refl _)
  clear hn
  intro n
  induction n with
  | zero =>
    intro m s hn _
    obtain rfl : s = [] := List.length_eq_zero_iff.mp (by omega)
    cases m <;> rfl
  | succ n ih =>
    intro m s hn hm
    cases hfind : findBlock s with
    | none => cases m <;> simp [drainBlocks, hfind]
    | some found =>
      obtain ⟨block, rest⟩ := found
      obtain ⟨rfl, hlen, -⟩ := findBlock_eq_some hfind
      rw [List.length_append] at hn hm
      obtain ⟨m, rfl⟩ : ∃ k, m = k + 1 := ⟨m - 1, by omega⟩
      simp only [drainBlocks, hfind]
      rw [ih (m := m) (by omega) (by omega)]

theorem blocks_none (h : findBlock s = none) : blocks s = ([], s) := by
  rw [← drainBlocks_eq (Nat.le_add_right _ 1), drainBlocks, h]

theorem blocks_some {block : List Char} (h : findBlock s = some (block, rest)) :
    blocks s = (block :: (blocks rest).1, (blocks rest).2) := by
  have hlen : rest.length ≤ s.length := by
    rw [(findBlock_eq_some h).1, List.length_append]
    omega
  rw [← drainBlocks_eq (Nat.le_add_right _ 1), drainBlocks, h]
  simp only [drainBlocks_eq hlen]

/-- Induction along the blocks of a text. -/
theorem blocks_induction {P : List Char → Prop} (none : ∀ s, findBlock s = none → P s)
    (some : ∀ s block rest, findBlock s = some (block, rest) → P rest → P s) (s : List Char) : P s := by
  induction hn : s.length using Nat.strong_induction_on generalizing s with
  | _ n ih =>
    cases hfind : findBlock s with
    | none => exact none s hfind
    | some found =>
      obtain ⟨block, rest⟩ := found
      obtain ⟨heq, hlen, -⟩ := findBlock_eq_some hfind
      refine some s block rest hfind (ih rest.length ?_ rest rfl)
      rw [← hn, heq, List.length_append]
      omega

/-- A text that grows keeps its blocks, and the rest goes on. -/
theorem blocks_append (s t : List Char) :
    blocks (s ++ t) =
      ((blocks s).1 ++ (blocks ((blocks s).2 ++ t)).1, (blocks ((blocks s).2 ++ t)).2) := by
  induction s using blocks_induction with
  | none s hfind => simp [blocks_none hfind]
  | some s block rest hfind ih =>
    rw [blocks_some ((findBlock_eq_some hfind).2.2 t), ih, blocks_some hfind]
    rfl

theorem blocks_left (s : List Char) : blocks (blocks s).2 = ([], (blocks s).2) := by
  induction s using blocks_induction with
  | none s hfind => simp [blocks_none hfind]
  | some s block rest hfind ih => rw [blocks_some hfind, ih]

/-- The blocks of a text are blocks of their own, and make up the text with what is left. -/
theorem blocks_complete (s : List Char) :
    s = (blocks s).1.flatten ++ (blocks s).2 ∧
      ∀ block ∈ (blocks s).1, findBlock block = some (block, []) := by
  induction s using blocks_induction with
  | none s hfind => simp [blocks_none hfind]
  | some s block rest hfind ih =>
    obtain ⟨rfl, -, -⟩ := findBlock_eq_some hfind
    rw [blocks_some hfind]
    refine ⟨?_, fun block' hmem => ?_⟩
    · rw [List.flatten_cons, List.append_assoc, ← ih.1]
    · rcases List.mem_cons.mp hmem with rfl | hmem
      · exact findBlock_self hfind
      · exact ih.2 block' hmem

theorem blocks_flatten {bs : List (List Char)}
    (h : ∀ block ∈ bs, findBlock block = some (block, [])) (t : List Char) :
    blocks (bs.flatten ++ t) = (bs ++ (blocks t).1, (blocks t).2) := by
  induction bs with
  | nil => rfl
  | cons block bs ih =>
    have hfind := (findBlock_eq_some (h block (by simp))).2.2 (bs.flatten ++ t)
    rw [List.flatten_cons, List.append_assoc, blocks_some hfind, List.nil_append,
      ih fun block' hmem => h block' (by simp [hmem])]
    rfl

/-! ## A stream's events and cursor -/

/-- The frames of a text. -/
def frames (s : List Char) : List SseFrame := (blocks s).1.filterMap parseFrame

/-- The cursor after these ids. -/
def cursor (ids : List (Option Nat)) : Option Nat := ids.foldl (fun last id => id.or last) none

theorem cursor_none {ids : List (Option Nat)} (h : ∀ id ∈ ids, id = none) : cursor ids = none := by
  induction ids with
  | nil => rfl
  | cons id ids ih =>
    rw [cursor, List.foldl_cons, h id (by simp)]
    exact ih fun id hmem => h id (by simp [hmem])

theorem foldl_cursor (ids : List (Option Nat)) (last : Option Nat) :
    ids.foldl (fun last id => id.or last) last = (cursor ids).or last := by
  induction ids using List.reverseRecOn with
  | nil => rfl
  | append_singleton ids id ih => simp [cursor, ih, Option.or_assoc]

section

variable {fromStr : List Char → Option Value}

theorem foldl_frame (r : Reader) (fs : List SseFrame) :
    fs.foldl (Reader.frame fromStr) r =
      ⟨r.buffer, (cursor (fs.map (·.id))).or r.lastSeq,
        r.forwarded ++ fs.filterMap (engineEvent fromStr)⟩ := by
  rw [← foldl_cursor]
  induction fs generalizing r with
  | nil => simp
  | cons f fs ih =>
    rw [List.foldl_cons, ih]
    cases hevent : engineEvent fromStr f <;> simp [Reader.frame, hevent]

theorem cursor_append (ids ids' : List (Option Nat)) :
    cursor (ids ++ ids') = (cursor ids').or (cursor ids) := by
  rw [cursor, List.foldl_append, foldl_cursor]
  rfl

theorem foldl_chunk (r : Reader) (hr : blocks r.buffer = ([], r.buffer))
    (chunks : List (List UInt8)) :
    chunks.foldl (Reader.chunk fromStr) r =
      ⟨(blocks (r.buffer ++ chunks.flatMap Utf8.fromUtf8Lossy)).2,
        (cursor ((frames (r.buffer ++ chunks.flatMap Utf8.fromUtf8Lossy)).map (·.id))).or r.lastSeq,
        r.forwarded ++ (frames (r.buffer ++ chunks.flatMap Utf8.fromUtf8Lossy)).filterMap
          (engineEvent fromStr)⟩ := by
  induction chunks generalizing r with
  | nil => simp [frames, hr, cursor]
  | cons chunk chunks ih =>
    have hchunk : Reader.chunk fromStr r chunk =
        ⟨(blocks (r.buffer ++ Utf8.fromUtf8Lossy chunk)).2,
          (cursor ((frames (r.buffer ++ Utf8.fromUtf8Lossy chunk)).map (·.id))).or r.lastSeq,
          r.forwarded ++ (frames (r.buffer ++ Utf8.fromUtf8Lossy chunk)).filterMap
            (engineEvent fromStr)⟩ := by
      simp only [Reader.chunk, drainFrames, foldl_frame]
      rfl
    rw [List.foldl_cons, hchunk, ih _ (blocks_left _), List.flatMap_cons, ← List.append_assoc]
    generalize r.buffer ++ Utf8.fromUtf8Lossy chunk = grown
    simp only [frames, blocks_append grown, List.filterMap_append, List.map_append, cursor_append,
      Option.or_assoc, List.append_assoc]

/-- What is read from a stream only depends on the text that its chunks decode to. -/
theorem readStream_eq (lastSeq : Option Nat) (chunks : List (List UInt8)) :
    readStream fromStr lastSeq chunks =
      ((frames (chunks.flatMap Utf8.fromUtf8Lossy)).filterMap (engineEvent fromStr),
        (cursor ((frames (chunks.flatMap Utf8.fromUtf8Lossy)).map (·.id))).or lastSeq) := by
  rw [readStream, foldl_chunk ⟨[], lastSeq, []⟩ rfl chunks]
  simp

end

/-! ## Texts with the same ASCII characters -/

section

variable {D : List Char → List Char → Prop} (hD : KeepsAscii D) {a t : List Char}
include hD

/-- Induction along an ASCII character that ends parts of related texts. -/
theorem parts_induction {x : Char} (hx : IsAscii x) {P : List Char → List Char → Prop}
    (last : ∀ a t, D a t → x ∉ a → x ∉ t → P a t)
    (part : ∀ p q tp tq, D p tp → D q tq → x ∉ p → x ∉ tp → P q tq → P (p ++ x :: q) (tp ++ x :: tq))
    (h : D a t) : P a t := by
  induction hn : a.length using Nat.strong_induction_on generalizing a t with
  | _ n ih =>
    by_cases hmem : x ∈ t
    · obtain ⟨p, q, tp, tq, rfl, rfl, hp, htp, hptp, hqtq⟩ := hD.first h hx hmem
      refine part p q tp tq hptp hqtq hp htp (ih q.length ?_ hqtq rfl)
      rw [← hn, List.length_append, List.length_cons]
      omega
    · exact last a t h (fun ha => hmem ((hD.mem_iff h hx).mp ha)) hmem

end

theorem findBlock_of_not_mem (h : '\n' ∉ s) : findBlock s = none := by
  induction s with
  | nil => rfl
  | cons c s ih =>
    have hc : c ≠ '\n' := fun hc => h (by simp [hc])
    rw [findBlock_cons, if_neg (fun hcs => hc hcs.1), ih (fun hs => h (by simp [hs]))]
    rfl

variable {p : List Char}

/-- The search goes past a line, and stops where the next line is empty. -/
theorem findBlock_line (hp : '\n' ∉ p) (q : List Char) :
    findBlock (p ++ '\n' :: q) =
      if q.head? = some '\n' then some (p ++ ['\n', '\n'], q.tail)
      else (findBlock q).map fun (block, rest) => (p ++ '\n' :: block, rest) := by
  induction p with
  | nil => simp [findBlock_cons]
  | cons c p ih =>
    have hc : c ≠ '\n' := fun hc => hp (by simp [hc])
    rw [List.cons_append, findBlock_cons, if_neg (fun hcs => hc hcs.1),
      ih (fun hmem => hp (by simp [hmem]))]
    split
    · rfl
    · cases findBlock q <;> rfl

theorem lines_of_not_mem (h : '\n' ∉ s) : lines s = if s = [] then [] else [s] := by
  induction s with
  | nil => rfl
  | cons c s ih =>
    have hc : c ≠ '\n' := fun hc => h (by simp [hc])
    rw [lines, if_neg hc, ih (fun hs => h (by simp [hs]))]
    by_cases hs : s = [] <;> simp [hs]

theorem lines_line (hp : '\n' ∉ p) (q : List Char) :
    lines (p ++ '\n' :: q) = p :: lines q := by
  induction p with
  | nil => simp [lines]
  | cons c p ih =>
    have hc : c ≠ '\n' := fun hc => hp (by simp [hc])
    rw [List.cons_append, lines, if_neg hc, ih (fun hmem => hp (by simp [hmem]))]

variable {c : Char}

theorem splitOnce_of_not_mem (h : c ∉ s) : splitOnce c s = none := by
  induction s with
  | nil => rfl
  | cons x s ih =>
    have hx : x ≠ c := fun hx => h (by simp [hx])
    rw [splitOnce, if_neg hx, ih (fun hs => h (by simp [hs]))]
    rfl

theorem splitOnce_of_mem (hp : c ∉ p) (q : List Char) :
    splitOnce c (p ++ c :: q) = some (p, q) := by
  induction p with
  | nil => simp [splitOnce]
  | cons x p ih =>
    have hx : x ≠ c := fun hx => hp (by simp [hx])
    rw [List.cons_append, splitOnce, if_neg hx, ih (fun hmem => hp (by simp [hmem]))]
    rfl

section

variable {D : List Char → List Char → Prop} (hD : KeepsAscii D) {a t : List Char}
include hD

theorem head?_iff (h : D a t) {x : Char} (hx : IsAscii x) : a.head? = some x ↔ t.head? = some x := by
  rw [List.head?_eq_some_iff, List.head?_eq_some_iff]
  constructor
  · rintro ⟨a, rfl⟩
    obtain ⟨t', rfl, -⟩ := hD.cons h hx
    exact ⟨t', rfl⟩
  · rintro ⟨t, rfl⟩
    obtain ⟨a', rfl, -⟩ := hD.of_cons h hx
    exact ⟨a', rfl⟩

theorem findBlock_rel (h : D a t) :
    Option.Rel (fun x y => D x.1 y.1 ∧ D x.2 y.2) (findBlock a) (findBlock t) := by
  have hnl : IsAscii '\n' := by decide
  refine parts_induction hD hnl (P := fun a t => Option.Rel _ (findBlock a) (findBlock t)) ?_ ?_ h
  · intro a t _ ha ht
    rw [findBlock_of_not_mem ha, findBlock_of_not_mem ht]
    exact .none
  · intro p q tp tq hp hq hnp hntp ih
    rw [findBlock_line hnp, findBlock_line hntp]
    by_cases hhead : q.head? = some '\n'
    · rw [if_pos hhead, if_pos ((head?_iff hD hq hnl).mp hhead)]
      obtain ⟨q, rfl⟩ := List.head?_eq_some_iff.mp hhead
      obtain ⟨tq, rfl, hq'⟩ := hD.cons hq hnl
      exact .some ⟨hD.join hp (hD.join (a := []) (hD.nil.mpr rfl) (hD.nil.mpr rfl) hnl) hnl, hq'⟩
    · rw [if_neg hhead, if_neg (fun ht => hhead ((head?_iff hD hq hnl).mpr ht))]
      revert ih
      cases findBlock q <;> cases findBlock tq <;> rintro (_ | _)
      · exact .none
      · rename_i hrel
        exact .some ⟨hD.join hp hrel.1 hnl, hrel.2⟩

theorem lines_rel (h : D a t) : List.Forall₂ D (lines a) (lines t) := by
  have hnl : IsAscii '\n' := by decide
  refine parts_induction hD hnl (P := fun a t => List.Forall₂ D (lines a) (lines t)) ?_ ?_ h
  · intro a t h ha ht
    rw [lines_of_not_mem ha, lines_of_not_mem ht]
    by_cases hnil : a = []
    · rw [if_pos hnil, if_pos ((hD.of_nil h).mp hnil)]
      exact .nil
    · rw [if_neg hnil, if_neg (fun ht => hnil ((hD.of_nil h).mpr ht))]
      exact .cons h .nil
  · intro p q tp tq hp _ hnp hntp ih
    rw [lines_line hnp, lines_line hntp]
    exact .cons hp ih

theorem stripBlank_rel (h : D a t) : D (stripBlank a) (stripBlank t) := by
  have hblank : IsAscii ' ' := by decide
  by_cases hhead : a.head? = some ' '
  · obtain ⟨a, rfl⟩ := List.head?_eq_some_iff.mp hhead
    obtain ⟨t, rfl, h'⟩ := hD.cons h hblank
    exact h'
  · have ha : stripBlank a = a := by
      unfold stripBlank
      split <;> simp_all
    have ht : stripBlank t = t := by
      have hhead' := (head?_iff hD h hblank).not.mp hhead
      unfold stripBlank
      split <;> simp_all
    rwa [ha, ht]

theorem fieldOf_rel (h : D a t) :
    D (fieldOf a).1 (fieldOf t).1 ∧ D (fieldOf a).2 (fieldOf t).2 := by
  have hcolon : IsAscii ':' := by decide
  by_cases hmem : ':' ∈ t
  · obtain ⟨p, q, tp, tq, rfl, rfl, hp, htp, hptp, hqtq⟩ := hD.first h hcolon hmem
    simp only [fieldOf, splitOnce_of_mem hp, splitOnce_of_mem htp]
    exact ⟨hptp, stripBlank_rel hD hqtq⟩
  · have hmem' : ':' ∉ a := (hD.mem_iff h hcolon).not.mpr hmem
    simp only [fieldOf, splitOnce_of_not_mem hmem, splitOnce_of_not_mem hmem']
    exact ⟨h, hD.nil.mpr rfl⟩

theorem blocks_rel (h : D a t) :
    List.Forall₂ D (blocks a).1 (blocks t).1 ∧ D (blocks a).2 (blocks t).2 := by
  induction a using blocks_induction generalizing t with
  | none a hfind =>
    have hrel := findBlock_rel hD h
    rw [hfind] at hrel
    cases hfind' : findBlock t with
    | none => simpa [blocks_none hfind, blocks_none hfind'] using h
    | some found => rw [hfind'] at hrel; cases hrel
  | some a block rest hfind ih =>
    have hrel := findBlock_rel hD h
    rw [hfind] at hrel
    cases hfind' : findBlock t with
    | none => rw [hfind'] at hrel; cases hrel
    | some found =>
      rw [hfind'] at hrel
      obtain ⟨hblock, hrest⟩ := Option.rel_some_some.mp hrel
      rw [blocks_some hfind, blocks_some hfind']
      exact ⟨.cons hblock (ih hrest).1, (ih hrest).2⟩

end

/-! ## Frames before their values are read -/

/-- The values of a block's fields, unread: those of the last `id` and `event` lines and of every
`data` line. -/
structure RawFrame where
  id : Option (List Char)
  event : Option (List Char)
  data : List (List Char)

namespace RawFrame

def line (raw : RawFrame) (line : List Char) : RawFrame :=
  let line := line.rdropWhile (· = '\r')
  if line = [] ∨ line.head? = some ':' then raw
  else
    let (field, value) := fieldOf line
    if field = "id".toList then { raw with id := some value }
    else if field = "event".toList then { raw with event := some value }
    else if field = "data".toList then { raw with data := raw.data ++ [value] }
    else raw

def ofBlock (block : List Char) : Option RawFrame :=
  let raw := (lines block).foldl line ⟨none, none, []⟩
  if raw.event = none ∧ raw.data = [] then none else some raw

def fields (raw : RawFrame) : Fields :=
  ⟨raw.id.bind fun value => parseU64 (trim value), raw.event, raw.data⟩

/-- The frame with its values read. -/
def read (raw : RawFrame) : SseFrame :=
  ⟨raw.fields.id, raw.event, ['\n'].intercalate raw.data⟩

theorem fields_line (raw : RawFrame) (text : List Char) :
    (raw.line text).fields = parseLine raw.fields text := by
  simp only [line, parseLine]
  repeat' split
  all_goals rfl

theorem fields_foldl (raw : RawFrame) (texts : List (List Char)) :
    (texts.foldl line raw).fields = texts.foldl parseLine raw.fields := by
  induction texts generalizing raw with
  | nil => rfl
  | cons text texts ih => rw [List.foldl_cons, List.foldl_cons, ih, fields_line]

/-- Two frames with related values. -/
structure Rel (D : List Char → List Char → Prop) (raw raw' : RawFrame) : Prop where
  id : Option.Rel D raw.id raw'.id
  event : Option.Rel D raw.event raw'.event
  data : List.Forall₂ D raw.data raw'.data

end RawFrame

theorem parseFrame_eq (block : List Char) :
    parseFrame block = (RawFrame.ofBlock block).map (·.read) := by
  have hfields : (lines block).foldl parseLine ⟨none, none, []⟩ =
      ((lines block).foldl RawFrame.line ⟨none, none, []⟩).fields :=
    (RawFrame.fields_foldl ⟨none, none, []⟩ (lines block)).symm
  simp only [parseFrame, RawFrame.ofBlock, hfields]
  generalize (lines block).foldl RawFrame.line ⟨none, none, []⟩ = raw
  by_cases hempty : raw.event = none ∧ raw.data = []
  · simp [RawFrame.fields, hempty]
  · simp [RawFrame.fields, RawFrame.read, hempty]

/-- The frames of a text, unread. -/
def rawFrames (s : List Char) : List RawFrame := (blocks s).1.filterMap RawFrame.ofBlock

theorem rawFrames_append (h : (blocks s).2 = []) (t : List Char) :
    rawFrames (s ++ t) = rawFrames s ++ rawFrames t := by
  rw [rawFrames, blocks_append, h, List.filterMap_append]
  rfl

theorem frames_eq (s : List Char) : frames s = (rawFrames s).map (·.read) := by
  rw [frames, rawFrames, List.map_filterMap]
  exact List.filterMap_congr fun block _ => parseFrame_eq block

section

variable {D : List Char → List Char → Prop} (hD : KeepsAscii D)
include hD

variable {a t : List Char}

theorem RawFrame.Rel.line {raw raw' : RawFrame} (h : Rel D raw raw') (hat : D a t) :
    Rel D (raw.line a) (raw'.line t) := by
  have htrim : D (a.rdropWhile (· = '\r')) (t.rdropWhile (· = '\r')) := hD.trimEnd hat (by decide)
  simp only [RawFrame.line]
  have hskip := (hD.of_nil htrim).or (head?_iff hD htrim (by decide : IsAscii ':'))
  obtain ⟨hfield, hvalue⟩ := fieldOf_rel hD htrim
  have hid := hD.eq_iff hfield (isAscii_of_all (l := "id".toList) (by decide))
  have hevent := hD.eq_iff hfield (isAscii_of_all (l := "event".toList) (by decide))
  have hdata := hD.eq_iff hfield (isAscii_of_all (l := "data".toList) (by decide))
  simp only [hskip, hid, hevent, hdata]
  repeat' split
  · exact h
  · exact ⟨.some hvalue, h.event, h.data⟩
  · exact ⟨h.id, .some hvalue, h.data⟩
  · exact ⟨h.id, h.event, List.rel_append h.data (.cons hvalue .nil)⟩
  · exact h

theorem RawFrame.Rel.ofBlock (h : D a t) :
    Option.Rel (Rel D) (RawFrame.ofBlock a) (RawFrame.ofBlock t) := by
  have hraw : Rel D ((lines a).foldl RawFrame.line ⟨none, none, []⟩)
      ((lines t).foldl RawFrame.line ⟨none, none, []⟩) :=
    List.rel_foldl (fun _ _ h _ _ hat => h.line hD hat) ⟨.none, .none, .nil⟩ (lines_rel hD h)
  simp only [RawFrame.ofBlock]
  revert hraw
  generalize (lines a).foldl RawFrame.line ⟨none, none, []⟩ = raw
  generalize (lines t).foldl RawFrame.line ⟨none, none, []⟩ = raw'
  intro hraw
  have hevent : raw.event = none ↔ raw'.event = none := by
    have hrel := hraw.event
    revert hrel
    cases raw.event <;> cases raw'.event <;> rintro (_ | _) <;> simp
  have hdata : raw.data = [] ↔ raw'.data = [] := by
    rw [← List.length_eq_zero_iff, ← List.length_eq_zero_iff, hraw.data.length_eq]
  simp only [hevent, hdata]
  split
  · exact .none
  · exact .some hraw

/-- Related texts have as many frames, with related values. -/
theorem rawFrames_rel (h : D a t) :
    List.Forall₂ (RawFrame.Rel D) (rawFrames a) (rawFrames t) :=
  List.rel_filterMap (fun _ _ h => RawFrame.Rel.ofBlock hD h) (blocks_rel hD h).1

end

end RustyPhoton.SessionRunner.Events
