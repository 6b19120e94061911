import RustyPhoton.PlanetariumBridge.Spool

/-!
# What a restart finds in the spool

The lines a load should find are counted without the disk: `after` says what an operation leaves of
them, and `Kept` what one that a crash cuts short may. They are found as long as every direct append
starts on a file that a line feed ends, and no crash stops one inside a character.
-/

namespace RustyPhoton.PlanetariumBridge

open Lib.Lines

/-- The lines that should be kept after an operation, under the bound of the process that runs. -/
def after (kept : List (List Char)) (running : Option Nat) : SpoolOp → List (List Char)
  | .load maxEntries => kept.drop (kept.length - maxEntries)
  | .append line =>
      match running with
      | none => kept
      | some maxEntries => (if maxEntries ≤ kept.length then kept.tail else kept) ++ [line.text]
  | .popHead =>
      match running with
      | none => kept
      | some _ => kept.tail

/-- What a crash may leave of an append beside nothing and the whole: one torn line. -/
def Torn (kept : List (List Char)) (op : SpoolOp) (kept' : List (List Char)) : Prop :=
  ∃ line torn, op = .append line ∧ torn <+: line.text ∧ kept' = kept ++ [torn]

/-- What may be kept after an operation, completed or not. -/
def Kept (kept : List (List Char)) (running : Option Nat) (event : SpoolEvent)
    (kept' : List (List Char)) : Prop :=
  match event.crash with
  | none => kept' = after kept running event.op
  | some _ => kept' = kept ∨ kept' = after kept running event.op ∨ Torn kept event.op kept'

/-- The bound the process that runs was started with. -/
def Bridge.running (bridge : Bridge) : Option Nat := bridge.spool.map (·.maxEntries)

/-- Every load of a run finds the lines that are kept, and the bound always holds. -/
inductive Durable : Bridge → List (List Char) → List SpoolEvent → Prop
  | nil {bridge kept} : Durable bridge kept []
  | cons {bridge kept event rest kept'} (hkept : Kept kept bridge.running event kept')
      (hload : ∀ maxEntries spool, event = ⟨.load maxEntries, none⟩ →
        (bridge.step event).spool = some spool → spool.texts = kept')
      (hbound : ∀ spool, (bridge.step event).spool = some spool →
        spool.entries.length ≤ spool.maxEntries)
      (hrest : Durable (bridge.step event) kept' rest) : Durable bridge kept (event :: rest)

/-! ## The condition -/

def appended : DiskWrite → Option UInt8
  | .append byte => some byte
  | _ => none

/-- The bytes an event adds to the spool file without rewriting it. -/
def Bridge.added (bridge : Bridge) (event : SpoolEvent) : List UInt8 :=
  let all := (bridge.perform event.op).2
  (match event.crash with
    | none => all
    | some made => all.take made).filterMap appended

/-- What an event adds is whole characters, after a line feed. -/
def Sound (bridge : Bridge) (event : SpoolEvent) : Prop :=
  bridge.added event = [] ∨
  (∃ content, bridge.disk.text = some content ∧ Terminated content) ∧
    (decode (bridge.added event)).isSome

def SoundRun : Bridge → List SpoolEvent → Prop
  | _, [] => True
  | bridge, event :: rest => Sound bridge event ∧ SoundRun (bridge.step event) rest

/-- The bounds a run's loads are given. -/
def Bounded (run : List SpoolEvent) : Prop :=
  ∀ event ∈ run, ∀ maxEntries, event.op = .load maxEntries → 1 ≤ maxEntries

/-! ## Writing -/

namespace Disk

variable {disk : Disk}

theorem writes_append (disk : Disk) (a b : List DiskWrite) :
    disk.writes (a ++ b) = (disk.writes a).writes b := List.foldl_append

theorem file_appends (disk : Disk) (content bytes : List UInt8) (h : disk.file = some content) :
    (disk.writes (bytes.map .append)).file = some (content ++ bytes) := by
  induction bytes generalizing disk content with
  | nil => rw [List.append_nil]; exact h
  | cons byte rest ih =>
    refine (ih (disk.write (.append byte)) (content ++ [byte]) ?_).trans ?_
    · show some (disk.file.getD [] ++ [byte]) = _
      rw [h, Option.getD_some]
    · rw [List.append_assoc, List.singleton_append]

theorem tmp_writes (disk : Disk) (content bytes : List UInt8) (h : disk.tmp = some content) :
    disk.writes (bytes.map .writeTmp) = ⟨disk.file, some (content ++ bytes)⟩ := by
  induction bytes generalizing disk content with
  | nil => rw [List.append_nil, ← h]; rfl
  | cons byte rest ih =>
    refine (ih (disk.write (.writeTmp byte)) (content ++ [byte]) ?_).trans ?_
    · show some (disk.tmp.getD [] ++ [byte]) = _
      rw [h, Option.getD_some]
    · rw [List.append_assoc, List.singleton_append]
      rfl

end Disk

theorem file_appendToFile (disk : Disk) (line : List Char) (made : Nat) :
    (disk.writes ((Spool.appendToFile line).take (made + 1))).file =
      some (disk.file.getD [] ++ (encode line ++ encode ['\n']).take made) := by
  unfold Spool.appendToFile
  rw [List.take_succ_cons, ← List.map_take]
  exact Disk.file_appends (disk.write .openAppend) _ _ rfl

/-- A rewrite leaves the file as it was until the rename, which replaces it whole. -/
theorem file_rewrite (disk : Disk) (spool : Spool) :
    (disk.writes spool.rewrite).file = some (encode (unlines spool.texts)) := by
  show (disk.writes (.createTmp :: _ ++ [.rename])).file = _
  rw [Disk.writes_append]
  show (((disk.write .createTmp).writes _).write .rename).file = _
  rw [Disk.tmp_writes (disk.write .createTmp) [] _ rfl]
  rfl

theorem file_rewrite_take (disk : Disk) (spool : Spool) (made : Nat) :
    (disk.writes (spool.rewrite.take made)).file = disk.file ∨
    (disk.writes (spool.rewrite.take made)).file = some (encode (unlines spool.texts)) := by
  by_cases hall : spool.rewrite.length ≤ made
  · rw [List.take_of_length_le hall]
    exact .inr (file_rewrite disk spool)
  · refine .inl ?_
    have hsplit : spool.rewrite =
        .createTmp :: (encode (unlines spool.texts)).map .writeTmp ++ [.rename] := rfl
    rw [hsplit, List.length_append, List.length_singleton, Nat.not_le] at hall
    rw [hsplit, List.take_append_of_le_length (Nat.le_of_lt_succ hall)]
    cases made with
    | zero => rfl
    | succ made =>
      rw [List.take_succ_cons, ← List.map_take]
      show ((disk.write .createTmp).writes _).file = _
      rw [Disk.tmp_writes (disk.write .createTmp) [] _ rfl]
      rfl

/-! ## Reading -/

/-- A line that `load` finds as it was written. -/
def Readable (line : List Char) : Prop := '\n' ∉ line ∧ '\r' ∉ line ∧ isBlank line = false

theorem Line.readable (line : Line) : Readable line.text := ⟨line.feed, line.carriage, line.blank⟩

/-- The lines of a text that are not blank. -/
def found (content : List Char) : List (List Char) :=
  (lines content).filter fun line => !isBlank line

theorem texts_read (content : List Char) : (Spool.read content).map (·.line) = found content := by
  unfold Spool.read found
  generalize 1 = number
  induction lines content generalizing number with
  | nil => rfl
  | cons line rest ih =>
    rw [List.zipIdx_cons, List.filterMap_cons]
    cases hblank : isBlank line with
    | true => simpa [hblank] using ih (number + 1)
    | false => simpa [hblank] using ih (number + 1)

theorem found_unlines {kept : List (List Char)} (h : ∀ line ∈ kept, Readable line) :
    found (unlines kept) = kept := by
  unfold found
  rw [lines_unlines fun line hin => ⟨(h line hin).1, (h line hin).2.1⟩]
  refine List.filter_eq_self.mpr fun line hin => ?_
  rw [(h line hin).2.2]
  rfl

theorem found_append {content : List Char} (h : Terminated content) (more : List Char) :
    found (content ++ more) = found content ++ found more := by
  unfold found
  rw [lines_append h, List.filter_append]

theorem found_line {line : List Char} (h : Readable line) : found (line ++ ['\n']) = [line] := by
  unfold found
  rw [lines_line h.1 h.2.1]
  simp [h.2.2]

/-- A torn line is found as far as it goes, unless nothing of it shows. -/
theorem found_torn {line torn : List Char} (h : Readable line) (hpre : torn <+: line) :
    found torn = [] ∨ found torn = [torn] ∧ Readable torn := by
  have hfeed : '\n' ∉ torn := fun hin => h.1 (hpre.subset hin)
  have hreturn : '\r' ∉ torn := fun hin => h.2.1 (hpre.subset hin)
  by_cases hne : torn = []
  · subst hne
    exact .inl rfl
  · unfold found
    rw [lines_rest hfeed hne]
    cases hblank : isBlank torn with
    | true => exact .inl (by simp [hblank])
    | false => exact .inr ⟨by simp [hblank], hfeed, hreturn, hblank⟩

/-! ## The invariant -/

section

variable {bridge : Bridge} {kept : List (List Char)} {op : SpoolOp}

/-- A running process holds the lines that are kept, within its bound. -/
def Holds (spool : Option Spool) (kept : List (List Char)) : Prop :=
  ∀ running, spool = some running → running.texts = kept ∧ 1 ≤ running.maxEntries ∧
    running.entries.length ≤ running.maxEntries

/-- The file reads as the lines that are kept, and so does the queue in memory. -/
structure Stored (bridge : Bridge) (kept : List (List Char)) : Prop where
  content : ∃ content, bridge.disk.text = some content ∧ found content = kept
  readable : ∀ line ∈ kept, Readable line
  holds : Holds bridge.spool kept

theorem stored_start : Stored .start [] :=
  ⟨⟨[], rfl, rfl⟩, by simp, fun _ h => by cases h⟩

theorem length_entries {spool : Spool} (h : spool.texts = kept) :
    spool.entries.length = kept.length := by
  rw [← h, Spool.texts, List.length_map]

/-- The writes of an operation: none where nothing is to change, a rewrite with the lines that are
to be kept, or the bytes of a line that is added. -/
inductive Writes (kept : List (List Char)) (running : Option Nat) :
    SpoolOp → Option Spool × List DiskWrite → Prop where
  | none {op spool} (hafter : after kept running op = kept) : Writes kept running op (spool, [])
  | rewrite {op spool} (hafter : after kept running op = spool.texts) :
      Writes kept running op (some spool, spool.rewrite)
  | append {line spool} (hafter : after kept running (.append line) = kept ++ [line.text]) :
      Writes kept running (.append line) (spool, Spool.appendToFile line.text)

section

-- the equations the proofs below unfold, computed once
attribute [local simp] Bridge.running Bridge.perform Spool.append Spool.popHead Spool.texts

end

theorem Stored.perform (h : Stored bridge kept)
    (hpos : ∀ maxEntries, op = .load maxEntries → 1 ≤ maxEntries) :
    Writes kept bridge.running op (bridge.perform op) ∧
      Holds (bridge.perform op).1 (after kept bridge.running op) := by
  cases op with
  | load maxEntries =>
    obtain ⟨content, htext, hfound⟩ := h.content
    have hread : (Spool.read content).map (·.line) = kept := (texts_read content).trans hfound
    have hlength : (Spool.read content).length = kept.length := by rw [← hread, List.length_map]
    have hperform : bridge.perform (.load maxEntries) =
        (some ⟨(Spool.read content).drop (kept.length - maxEntries), maxEntries⟩,
          if 0 < kept.length - maxEntries then
            Spool.rewrite ⟨(Spool.read content).drop (kept.length - maxEntries), maxEntries⟩
          else []) := by
      simp only [Bridge.perform, Spool.load, Spool.readFile, htext, hlength]
    have htexts : Spool.texts ⟨(Spool.read content).drop (kept.length - maxEntries), maxEntries⟩ =
        kept.drop (kept.length - maxEntries) := by
      rw [Spool.texts, List.map_drop, hread]
    rw [hperform]
    constructor
    · split
      · exact .rewrite htexts.symm
      · next hfits =>
          refine .none ?_
          show kept.drop (kept.length - maxEntries) = kept
          rw [Nat.eq_zero_of_not_pos hfits, List.drop_zero]
    · intro running hrunning
      cases hrunning
      refine ⟨htexts, hpos maxEntries rfl, ?_⟩
      show ((Spool.read content).drop (kept.length - maxEntries)).length ≤ maxEntries
      rw [List.length_drop]
      omega
  | append line =>
    cases hspool : bridge.spool with
    | none =>
      have hrunning : bridge.running = none := by rw [Bridge.running, hspool]; rfl
      have hperform : bridge.perform (.append line) = (none, []) := by
        simp only [Bridge.perform, hspool]
      rw [hperform, hrunning]
      exact ⟨.none rfl, fun _ hnone => by cases hnone⟩
    | some spool =>
      obtain ⟨htexts, hmin, hmax⟩ := h.holds spool hspool
      have hlength := length_entries htexts
      have hrunning : bridge.running = some spool.maxEntries := by
        rw [Bridge.running, hspool]
        rfl
      rw [hrunning]
      by_cases hfull : spool.maxEntries ≤ spool.entries.length
      · have hperform : bridge.perform (.append line) =
            (some { spool with entries := spool.entries.tail ++ [⟨line.text, none⟩] },
              Spool.rewrite
                { spool with entries := spool.entries.tail ++ [⟨line.text, none⟩] }) := by
          simp only [Bridge.perform, hspool, Spool.append, if_pos hfull]
        have hafter : after kept (some spool.maxEntries) (.append line) =
            Spool.texts { spool with entries := spool.entries.tail ++ [⟨line.text, none⟩] } := by
          show (if spool.maxEntries ≤ kept.length then kept.tail else kept) ++ [line.text] = _
          rw [if_pos (hlength ▸ hfull), ← htexts]
          simp [Spool.texts, List.map_tail]
        rw [hperform]
        refine ⟨.rewrite hafter, ?_⟩
        intro running hrunning
        cases hrunning
        refine ⟨hafter.symm, hmin, ?_⟩
        show (spool.entries.tail ++ [_]).length ≤ spool.maxEntries
        rw [List.length_append, List.length_tail, List.length_singleton]
        omega
      · have hperform : bridge.perform (.append line) =
            (some { spool with entries := spool.entries ++ [⟨line.text, none⟩] },
              Spool.appendToFile line.text) := by
          simp only [Bridge.perform, hspool, Spool.append, if_neg hfull]
        have hafter : after kept (some spool.maxEntries) (.append line) =
            kept ++ [line.text] := by
          show (if spool.maxEntries ≤ kept.length then kept.tail else kept) ++ [line.text] = _
          rw [if_neg (hlength ▸ hfull)]
        rw [hperform]
        refine ⟨.append hafter, ?_⟩
        intro running hrunning
        cases hrunning
        refine ⟨?_, hmin, ?_⟩
        · rw [hafter, ← htexts]
          simp [Spool.texts]
        · show (spool.entries ++ [_]).length ≤ spool.maxEntries
          rw [List.length_append, List.length_singleton]
          omega
  | popHead =>
    cases hspool : bridge.spool with
    | none =>
      have hrunning : bridge.running = none := by rw [Bridge.running, hspool]; rfl
      have hperform : bridge.perform .popHead = (none, []) := by
        simp only [Bridge.perform, hspool]
      rw [hperform, hrunning]
      exact ⟨.none rfl, fun _ hnone => by cases hnone⟩
    | some spool =>
      obtain ⟨htexts, hmin, hmax⟩ := h.holds spool hspool
      have hrunning : bridge.running = some spool.maxEntries := by
        rw [Bridge.running, hspool]
        rfl
      rw [hrunning]
      show Writes kept (some spool.maxEntries) .popHead _ ∧ Holds _ kept.tail
      cases hentries : spool.entries with
      | nil =>
        have hperform : bridge.perform .popHead = (some spool, []) := by
          simp only [Bridge.perform, hspool, Spool.popHead, hentries]
        have hnil : kept = [] := by rw [← htexts, Spool.texts, hentries]; rfl
        rw [hperform, hnil]
        refine ⟨.none rfl, ?_⟩
        intro running hrunning
        cases hrunning
        exact ⟨htexts.trans hnil, hmin, hmax⟩
      | cons head rest =>
        have hperform : bridge.perform .popHead =
            (some { spool with entries := rest },
              Spool.rewrite { spool with entries := rest }) := by
          simp only [Bridge.perform, hspool, Spool.popHead, hentries]
        have hafter : kept.tail = Spool.texts { spool with entries := rest } := by
          rw [← htexts, Spool.texts, hentries]
          rfl
        rw [hperform]
        refine ⟨.rewrite hafter, ?_⟩
        intro running hrunning
        cases hrunning
        refine ⟨hafter.symm, hmin, ?_⟩
        rw [hentries, List.length_cons] at hmax
        exact Nat.le_of_succ_le hmax

theorem readable_after (h : ∀ line ∈ kept, Readable line) (running : Option Nat) (op : SpoolOp) :
    ∀ line ∈ after kept running op, Readable line := by
  have htail : ∀ line ∈ kept.tail, Readable line := fun line hin => h line (List.mem_of_mem_tail hin)
  cases op with
  | load maxEntries => exact fun line hin => h line (List.mem_of_mem_drop hin)
  | append new =>
    cases running with
    | none => exact h
    | some maxEntries =>
      intro line hin
      rcases List.mem_append.mp hin with hin | hin
      · split at hin
        · exact htail line hin
        · exact h line hin
      · rw [List.mem_singleton.mp hin]
        exact new.readable
  | popHead =>
    cases running with
    | none => exact h
    | some _ => exact htail

theorem text_of_file {disk : Disk} {content : List Char}
    (h : disk.file = some (encode content)) : disk.text = some content := by
  rw [Disk.text, h]
  exact decode_encode content

/-- What is added to a file is read after what it held. -/
theorem text_append {disk disk' : Disk} {content : List Char} (h : disk.text = some content)
    (more : List Char) (hfile : disk'.file = some (disk.file.getD [] ++ encode more)) :
    disk'.text = some (content ++ more) := by
  refine text_of_file ?_
  rw [hfile, encode_append]
  unfold Disk.text at h
  cases hbefore : disk.file with
  | none =>
    rw [hbefore] at h
    rw [← Option.some.inj h]
    rfl
  | some bytes =>
    rw [hbefore] at h
    rw [encode_of_decode h, Option.getD_some]

theorem filterMap_appended (bytes : List UInt8) :
    (bytes.map DiskWrite.append).filterMap appended = bytes := by
  rw [List.filterMap_map]
  exact List.filterMap_some

/-- An operation that completes keeps the lines it should. -/
theorem Stored.complete (h : Stored bridge kept)
    (hpos : ∀ maxEntries, op = .load maxEntries → 1 ≤ maxEntries)
    (hsound : Sound bridge ⟨op, none⟩) :
    Stored (bridge.step ⟨op, none⟩) (after kept bridge.running op) := by
  obtain ⟨hwrites, hholds⟩ := h.perform hpos
  refine ⟨?_, readable_after h.readable _ op, hholds⟩
  have hreadable := readable_after h.readable bridge.running op
  show ∃ content, (bridge.disk.writes (bridge.perform op).2).text = some content ∧
    found content = after kept bridge.running op
  generalize hperform : bridge.perform op = performed at hwrites
  cases hwrites with
  | none hafter =>
    rw [hafter]
    exact h.content
  | rewrite hafter =>
    exact ⟨_, text_of_file (file_rewrite _ _), hafter ▸ found_unlines (hafter ▸ hreadable)⟩
  | @append line _ hafter =>
    obtain ⟨content, htext, hfound⟩ := h.content
    have hadded : bridge.added ⟨.append line, none⟩ = encode line.text ++ encode ['\n'] := by
      simp only [Bridge.added, hperform, Spool.appendToFile, List.filterMap_cons, appended]
      exact filterMap_appended _
    obtain hnil | ⟨⟨before, hbefore, hterminated⟩, -⟩ := hsound
    · rw [hadded, ← encode_append] at hnil
      cases List.append_eq_nil_iff.mp (encode_eq_nil hnil) |>.2
    · have hsame : before = content := Option.some.inj (hbefore.symm.trans htext)
      subst hsame
      have hfile := file_appendToFile bridge.disk line.text
        (Spool.appendToFile line.text).length
      rw [List.take_of_length_le (Nat.le_succ _), List.take_of_length_le (by
        simp only [Spool.appendToFile, List.length_cons, List.length_map]
        omega), ← encode_append] at hfile
      refine ⟨_, text_append htext _ hfile, ?_⟩
      rw [found_append hterminated, hfound, found_line line.readable, hafter]

/-- An operation that a crash cuts short keeps the lines it found, or those it should leave, or the
first with a torn line. -/
theorem Stored.crash (h : Stored bridge kept)
    (hpos : ∀ maxEntries, op = .load maxEntries → 1 ≤ maxEntries) {made : Nat}
    (hsound : Sound bridge ⟨op, some made⟩) :
    ∃ kept', Kept kept bridge.running ⟨op, some made⟩ kept' ∧
      Stored (bridge.step ⟨op, some made⟩) kept' := by
  obtain ⟨hwrites, -⟩ := h.perform hpos
  have hgone : ∀ kept', Holds none kept' := fun _ _ hnone => by cases hnone
  have hreadable := readable_after h.readable bridge.running op
  obtain ⟨content, htext, hfound⟩ := h.content
  have hstay : ∀ disk : Disk, disk.text = bridge.disk.text → Stored ⟨disk, none⟩ kept :=
    fun disk hdisk => ⟨⟨content, hdisk.trans htext, hfound⟩, h.readable, hgone kept⟩
  show ∃ kept', _ ∧ Stored ⟨bridge.disk.writes ((bridge.perform op).2.take made), none⟩ kept'
  generalize hperform : bridge.perform op = performed at hwrites
  cases hwrites with
  | none hafter =>
    refine ⟨kept, .inl rfl, hstay _ ?_⟩
    rw [List.take_nil]
    rfl
  | @rewrite _ spool hafter =>
    rcases file_rewrite_take bridge.disk spool made with hfile | hfile
    · refine ⟨kept, .inl rfl, hstay _ ?_⟩
      rw [Disk.text, hfile]
      rfl
    · refine ⟨_, .inr (.inl rfl), ⟨_, text_of_file hfile, ?_⟩, hreadable, hgone _⟩
      exact hafter ▸ found_unlines (hafter ▸ hreadable)
  | @append line _ hafter =>
    cases made with
    | zero => exact ⟨kept, .inl rfl, hstay _ rfl⟩
    | succ made =>
      have hfile := file_appendToFile bridge.disk line.text made
      have hadded : bridge.added ⟨.append line, some (made + 1)⟩ =
          (encode line.text ++ encode ['\n']).take made := by
        simp only [Bridge.added, hperform, Spool.appendToFile, List.take_succ_cons,
          List.filterMap_cons, appended]
        rw [← List.map_take]
        exact filterMap_appended _
      obtain hnil | ⟨⟨before, hbefore, hterminated⟩, hdecode⟩ := hsound
      · rw [hadded] at hnil
        rw [hnil, ← encode_nil] at hfile
        have hsame := text_append htext [] hfile
        rw [List.append_nil, ← htext] at hsame
        exact ⟨kept, .inl rfl, hstay _ hsame⟩
      · have hsame : before = content := Option.some.inj (hbefore.symm.trans htext)
        subst hsame
        obtain ⟨torn, htorn⟩ := Option.isSome_iff_exists.mp hdecode
        have hbytes := encode_of_decode htorn
        rw [hadded] at hbytes
        rw [← hbytes] at hfile
        have hpre : torn <+: line.text ++ ['\n'] := by
          have hwhole : encode torn ++ (encode line.text ++ encode ['\n']).drop made =
              encode (line.text ++ ['\n']) := by
            rw [hbytes, List.take_append_drop, encode_append]
          exact prefix_of_encode_append hwhole
        have hfoundAll : found (before ++ torn) = kept ++ found torn := by
          rw [found_append hterminated, hfound]
        have htextAll := text_append htext torn hfile
        rcases List.prefix_concat_iff.mp hpre with rfl | hpre
        · refine ⟨_, .inr (.inl rfl), ⟨_, htextAll, ?_⟩, hreadable, hgone _⟩
          rw [hfoundAll, found_line line.readable, hafter]
        · rcases found_torn line.readable hpre with hnone | ⟨hone, htornReadable⟩
          · refine ⟨kept, .inl rfl, ⟨_, htextAll, ?_⟩, h.readable, hgone _⟩
            rw [hfoundAll, hnone, List.append_nil]
          · refine ⟨kept ++ [torn], .inr (.inr ⟨line, torn, rfl, hpre, rfl⟩),
              ⟨_, htextAll, ?_⟩, ?_, hgone _⟩
            · rw [hfoundAll, hone]
            · intro other hin
              rcases List.mem_append.mp hin with hin | hin
              · exact h.readable other hin
              · rw [List.mem_singleton.mp hin]
                exact htornReadable

end

/-- Every load finds the lines that are kept, in every run whose direct appends start after a line
feed and are not stopped inside a character. -/
theorem Stored.durable {bridge : Bridge} {kept : List (List Char)} (h : Stored bridge kept)
    {run : List SpoolEvent} (hbounded : Bounded run) (hsound : SoundRun bridge run) :
    Durable bridge kept run := by
  induction run generalizing bridge kept with
  | nil => exact .nil
  | cons event rest ih =>
    have hpos := hbounded event List.mem_cons_self
    have hrest : Bounded rest := fun other hin => hbounded other (List.mem_cons_of_mem _ hin)
    obtain ⟨op, crash⟩ := event
    cases crash with
    | none =>
      have hs := h.complete hpos hsound.1
      exact .cons rfl (fun _ spool _ hspool => (hs.holds spool hspool).1)
        (fun spool hspool => (hs.holds spool hspool).2.2) (ih hs hrest hsound.2)
    | some made =>
      obtain ⟨kept', hkept, hs⟩ := h.crash hpos hsound.1
      exact .cons hkept (fun _ _ hload => by cases hload)
        (fun spool hspool => (hs.holds spool hspool).2.2) (ih hs hrest hsound.2)

theorem durable_of_soundRun {run : List SpoolEvent} (hbounded : Bounded run)
    (hsound : SoundRun .start run) : Durable .start [] run :=
  stored_start.durable hbounded hsound

/-! ## A torn line, repaired and not -/

/-- A load that finds no more than its bound leaves the file alone. -/
theorem step_load {bridge : Bridge} (content : List Char) {maxEntries : Nat}
    (htext : bridge.disk.text = some content) (hfits : (found content).length ≤ maxEntries) :
    bridge.step ⟨.load maxEntries, none⟩ =
      ⟨bridge.disk, some ⟨Spool.read content, maxEntries⟩⟩ := by
  have hlength : (Spool.read content).length = (found content).length := by
    rw [← texts_read, List.length_map]
  have hdropped : (Spool.read content).length - maxEntries = 0 := by omega
  simp only [Bridge.step, Bridge.perform, Spool.load, Spool.readFile, htext, hdropped,
    List.drop_zero]
  rfl

def vega : Line := ⟨"\x7b\x22name\x22:\x22Vega\x22\x7d".toList, by decide, by decide, by decide⟩

def deneb : Line := ⟨"\x7b\x22name\x22:\x22Deneb\x22\x7d".toList, by decide, by decide, by decide⟩

/-- The disk after a first append that a crash stopped at its third byte. -/
def tornDisk : Disk := ⟨some (encode "\x7b\x22n".toList), none⟩

/-- The torn append, the reload after it, and what a delivery and a further append then leave. -/
theorem steps_torn :
    (Bridge.start.step ⟨.load 2, none⟩).step ⟨.append vega, some 4⟩ = ⟨tornDisk, none⟩ ∧
    Bridge.step ⟨tornDisk, none⟩ ⟨.load 2, none⟩ =
      ⟨tornDisk, some ⟨[⟨"\x7b\x22n".toList, some 1⟩], 2⟩⟩ ∧
    Bridge.step ⟨tornDisk, some ⟨[⟨"\x7b\x22n".toList, some 1⟩], 2⟩⟩ ⟨.popHead, none⟩ =
      ⟨⟨some (encode []), none⟩, some ⟨[], 2⟩⟩ ∧
    Bridge.step ⟨tornDisk, some ⟨[⟨"\x7b\x22n".toList, some 1⟩], 2⟩⟩ ⟨.append deneb, none⟩ =
      ⟨⟨some (encode ("\x7b\x22n".toList ++ deneb.text ++ ['\n'])), none⟩,
        some ⟨[⟨"\x7b\x22n".toList, some 1⟩, ⟨deneb.text, none⟩], 2⟩⟩ := by
  refine ⟨?_, ?_, ?_⟩
  · rw [step_load [] rfl (by decide)]
    decide +kernel
  · rw [step_load _ (text_of_file rfl) (by decide +kernel)]
    decide +kernel
  · decide +kernel

theorem added_load (bridge : Bridge) (maxEntries : Nat) :
    bridge.added ⟨.load maxEntries, none⟩ = [] := by
  refine List.filterMap_eq_nil_iff.mpr fun write hin => ?_
  have hin : write ∈ (Spool.load bridge.disk maxEntries).2.2 := hin
  simp only [Spool.load] at hin
  split at hin
  · simp only [Spool.rewrite, List.mem_append, List.mem_cons, List.mem_map, List.not_mem_nil,
      or_false] at hin
    rcases hin with (rfl | ⟨byte, -, rfl⟩) | rfl <;> rfl
  · exact (List.not_mem_nil hin).elim

/-- The torn line is skipped before anything is appended. -/
theorem durable_of_skipped :
    Durable .start [] [⟨.load 2, none⟩, ⟨.append vega, some 4⟩, ⟨.load 2, none⟩, ⟨.popHead, none⟩,
      ⟨.append deneb, none⟩, ⟨.load 2, none⟩] := by
  refine durable_of_soundRun ?_ ⟨.inl (added_load _ _), .inr ⟨⟨[], ?_, .inl rfl⟩, ?_⟩,
    .inl (added_load _ _), ?_⟩
  · intro event hin maxEntries hop
    simp only [List.mem_cons, List.not_mem_nil, or_false] at hin
    rcases hin with rfl | rfl | rfl | rfl | rfl | rfl <;> cases hop <;> decide
  · rw [step_load [] rfl (by decide)]
    rfl
  · rw [step_load [] rfl (by decide)]
    show (decode (encode "\x7b\x22n".toList)).isSome
    rw [decode_encode]
    rfl
  · rw [steps_torn.1, steps_torn.2.1]
    have hskip := steps_torn.2.2.1
    refine ⟨.inl (by decide +kernel), ?_⟩
    rw [hskip]
    refine ⟨.inr ⟨⟨[], text_of_file rfl, .inl rfl⟩, ?_⟩, .inl (added_load _ _), trivial⟩
    show (decode (encode (deneb.text ++ ['\n']))).isSome
    rw [decode_encode]
    rfl

/-- An append to the torn line is merged with it, and the next load finds neither. -/
theorem not_durable : ¬ ∀ run, Bounded run → Durable .start [] run := by
  intro hall
  have hrun := hall [⟨.load 2, none⟩, ⟨.append vega, some 4⟩, ⟨.load 2, none⟩,
    ⟨.append deneb, none⟩, ⟨.load 2, none⟩] (by
      intro event hin maxEntries hop
      simp only [List.mem_cons, List.not_mem_nil, or_false] at hin
      rcases hin with rfl | rfl | rfl | rfl | rfl <;> cases hop <;> decide)
  obtain _ | ⟨-, -, -, hrun⟩ := hrun
  obtain _ | ⟨-, -, -, hrun⟩ := hrun
  rw [steps_torn.1] at hrun
  obtain _ | ⟨hloaded, -, -, hrun⟩ := hrun
  rename_i before
  rw [steps_torn.2.1] at hrun
  obtain _ | ⟨hkept, -, -, hrun⟩ := hrun
  rename_i kept
  -- the completed append must be kept, as the last line
  have hlast : kept.getLast? = some deneb.text := by
    rw [hkept]
    exact List.getLast?_concat
  have hmerged := steps_torn.2.2.2
  rw [hmerged] at hrun
  obtain _ | ⟨hkept, hload, -, -⟩ := hrun
  rename_i found
  have hshown := hload 2 _ rfl (by rw [step_load _ (text_of_file rfl) (by decide +kernel)])
  have hfound : found = ["\x7b\x22n".toList ++ deneb.text] := by
    rw [← hshown]
    decide +kernel
  have hends : found.getLast? = some deneb.text := by
    have hne : ¬ kept.length ≤ kept.length - 2 := by
      cases kept with
      | nil => cases hlast
      | cons line rest =>
        rw [List.length_cons]
        omega
    rw [hkept]
    show (kept.drop (kept.length - 2)).getLast? = _
    rw [List.getLast?_drop, if_neg hne, hlast]
  rw [hfound] at hends
  revert hends
  decide +kernel

end RustyPhoton.PlanetariumBridge
