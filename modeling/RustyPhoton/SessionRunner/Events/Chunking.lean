import RustyPhoton.SessionRunner.Events.Frames

/-!
# How a stream is cut into chunks

Each chunk is decoded by itself, so a cut inside a multi-byte sequence replaces the character by
replacement characters, and the same bytes are read as different texts. The texts a stream can be
read as have the same ASCII characters, those of its bytes, so its frames and their fields are the
same; what can differ is the values. The events differ when a forwarded frame has a value with a
sequence to cut, and the cursor when an id is only readable for the blanks outside ASCII around it.
-/

namespace RustyPhoton.SessionRunner.Events

open Lib Engine Utf8

/-! ## Bytes as characters -/

/-- Every byte as one character. -/
def latin1 (bytes : List UInt8) : List Char := bytes.map fun b => Char.ofNat b.toNat

def bytesOf (text : List Char) : List UInt8 := text.map fun c => UInt8.ofNat c.toNat

theorem toNat_latin1 (b : UInt8) : (Char.ofNat b.toNat).toNat = b.toNat :=
  toNat_ofNat (.inl (Nat.lt_trans b.toNat_lt (by decide)))

@[simp] theorem bytesOf_latin1 (bytes : List UInt8) : bytesOf (latin1 bytes) = bytes := by
  simp [bytesOf, latin1, toNat_latin1, Function.comp_def]

/-- How the bytes of a text may be read: each ASCII byte as itself, and what stands between them in
one of the given ways. -/
structure ReadsAscii (R : List UInt8 → List Char → Prop) : Prop where
  nil : ∀ {t}, R [] t ↔ t = []
  ne_nil : ∀ {a}, R a [] → a = []
  split : ∀ {a b t} {x : UInt8}, x.toNat < 0x80 →
    (R (a ++ x :: b) t ↔ ∃ ta tb, t = ta ++ Char.ofNat x.toNat :: tb ∧ R a ta ∧ R b tb)
  mem : ∀ {a t c}, R a t → IsAscii c → c ∈ t → ∃ b ∈ a, c = Char.ofNat b.toNat

/-- The reading of bytes as a relation between texts. -/
def Reading (R : List UInt8 → List Char → Prop) (a t : List Char) : Prop :=
  ∃ bytes, a = latin1 bytes ∧ R bytes t

variable {R : List UInt8 → List Char → Prop}

theorem ReadsAscii.keepsAscii (hR : ReadsAscii R) :
    KeepsAscii (Reading R) where
  nil := by
    intro t
    constructor
    · rintro ⟨bytes, hbytes, h⟩
      obtain rfl : bytes = [] := by simpa [latin1] using hbytes.symm
      exact hR.nil.mp h
    · rintro rfl
      exact ⟨[], rfl, hR.nil.mpr rfl⟩
  ne_nil := by
    rintro a ⟨bytes, rfl, h⟩
    rw [hR.ne_nil h]
    rfl
  split := by
    rintro a b t x ⟨bytes, hbytes, h⟩ hx
    obtain ⟨ba, rest, rfl, rfl, hrest⟩ := List.append_eq_map_iff.mp hbytes
    obtain ⟨y, bb, rfl, rfl, rfl⟩ := List.map_eq_cons_iff.mp hrest
    have hy : y.toNat < 0x80 := by rwa [IsAscii, toNat_latin1] at hx
    obtain ⟨ta, tb, rfl, ha, hb⟩ := (hR.split hy).mp h
    exact ⟨ta, tb, rfl, ⟨ba, rfl, ha⟩, ⟨bb, rfl, hb⟩⟩
  join := by
    rintro _ _ ta tb x ⟨ba, rfl, ha⟩ ⟨bb, rfl, hb⟩ hx
    have hlt : x.toNat < 256 := Nat.lt_trans hx (by decide)
    have hbyte : (UInt8.ofNat x.toNat).toNat = x.toNat := by simp [Nat.mod_eq_of_lt hlt]
    refine ⟨ba ++ UInt8.ofNat x.toNat :: bb, ?_, ?_⟩
    · simp [latin1, Nat.mod_eq_of_lt hlt]
    · refine (hR.split (by rwa [hbyte])).mpr ⟨ta, tb, ?_, ha, hb⟩
      rw [hbyte, Char.ofNat_toNat]
  mem := by
    rintro _ t x ⟨bytes, rfl, h⟩ hx hmem
    obtain ⟨b, hb, rfl⟩ := hR.mem h hx hmem
    exact List.mem_map.mpr ⟨b, hb, rfl⟩

/-! ## Three readings -/

/-- The bytes as one chunk. -/
def Whole (bytes : List UInt8) (t : List Char) : Prop := t = decode none bytes

/-- Every byte as a chunk. -/
def Single (bytes : List UInt8) (t : List Char) : Prop := t = bytes.map byteChar

/-- The bytes in some chunks. -/
def Cut (bytes : List UInt8) (t : List Char) : Prop :=
  ∃ chunks : List (List UInt8), chunks.flatten = bytes ∧ t = chunks.flatMap fromUtf8Lossy

theorem whole_readsAscii : ReadsAscii Whole where
  nil := Iff.rfl
  ne_nil := by
    intro a h
    by_contra hne
    exact decode_ne_nil hne h.symm
  split := by
    intro a b t x hx
    rw [Whole, decode_append_ascii none a b hx]
    constructor
    · rintro rfl
      exact ⟨_, _, rfl, rfl, rfl⟩
    · rintro ⟨_, _, rfl, rfl, rfl⟩
      rfl
  mem := by
    rintro a t c rfl hc hmem
    obtain ⟨b, hb, -, rfl⟩ := exists_of_mem_decode hmem hc
    exact ⟨b, hb, rfl⟩

theorem single_readsAscii : ReadsAscii Single where
  nil := Iff.rfl
  ne_nil := by
    intro a h
    simpa [Single] using h.symm
  split := by
    intro a b t x hx
    have hchar : byteChar x = Char.ofNat x.toNat := if_pos hx
    rw [Single, List.map_append, List.map_cons, hchar]
    constructor
    · rintro rfl
      exact ⟨_, _, rfl, rfl, rfl⟩
    · rintro ⟨_, _, rfl, rfl, rfl⟩
      rfl
  mem := by
    rintro a t c rfl hc hmem
    obtain ⟨b, hb, rfl⟩ := List.mem_map.mp hmem
    refine ⟨b, hb, ?_⟩
    by_cases hlt : b.toNat < 0x80
    · exact if_pos hlt
    · rw [byteChar, if_neg hlt] at hc
      exact absurd hc replacement_not_ascii

theorem cut_split {x : UInt8} (hx : x.toNat < 0x80) (chunks : List (List UInt8))
    (a b : List UInt8) (h : chunks.flatten = a ++ x :: b) :
    ∃ ta tb, chunks.flatMap fromUtf8Lossy = ta ++ Char.ofNat x.toNat :: tb ∧ Cut a ta ∧
      Cut b tb := by
  induction chunks generalizing a with
  | nil => simp at h
  | cons c chunks ih =>
    have hlater : ∀ a', a = c ++ a' → chunks.flatten = a' ++ x :: b → ∃ ta tb,
        (c :: chunks).flatMap fromUtf8Lossy = ta ++ Char.ofNat x.toNat :: tb ∧ Cut a ta ∧
          Cut b tb := by
      rintro a' rfl hflat
      obtain ⟨ta, tb, htext, ⟨as, rfl, rfl⟩, hb⟩ := ih a' hflat
      exact ⟨fromUtf8Lossy c ++ as.flatMap fromUtf8Lossy, tb, by simp [htext],
        ⟨c :: as, rfl, rfl⟩, hb⟩
    rw [List.flatten_cons] at h
    rcases List.append_eq_append_iff.mp h with ⟨a', rfl, hflat⟩ | ⟨c', rfl, hflat⟩
    · exact hlater a' rfl hflat
    · cases c' with
      | nil => exact hlater [] (by simp) (by simpa using hflat.symm)
      | cons y c' =>
        obtain ⟨rfl, rfl⟩ := List.cons.inj hflat
        refine ⟨decode none a, decode none c' ++ chunks.flatMap fromUtf8Lossy, ?_,
          ⟨[a], by simp, by simp [fromUtf8Lossy]⟩, ⟨c' :: chunks, rfl, rfl⟩⟩
        simp [fromUtf8Lossy, decode_append_ascii none a c' hx]

theorem Cut.append {a b : List UInt8} {ta tb : List Char} (ha : Cut a ta) (hb : Cut b tb) :
    Cut (a ++ b) (ta ++ tb) := by
  obtain ⟨as, rfl, rfl⟩ := ha
  obtain ⟨bs, rfl, rfl⟩ := hb
  exact ⟨as ++ bs, by simp, by simp⟩

theorem cut_readsAscii : ReadsAscii Cut where
  nil := by
    intro t
    constructor
    · rintro ⟨chunks, hflat, rfl⟩
      have hempty : ∀ c ∈ chunks, c = [] := List.flatten_eq_nil_iff.mp hflat
      refine List.flatMap_eq_nil_iff.mpr fun c hc => ?_
      rw [hempty c hc]
      rfl
    · rintro rfl
      exact ⟨[], rfl, rfl⟩
  ne_nil := by
    rintro a ⟨chunks, rfl, h⟩
    refine List.flatten_eq_nil_iff.mpr fun c hc => ?_
    by_contra hne
    exact decode_ne_nil hne (List.flatMap_eq_nil_iff.mp h.symm c hc)
  split := by
    intro a b t x hx
    constructor
    · rintro ⟨chunks, hflat, rfl⟩
      exact cut_split hx chunks a b hflat
    · rintro ⟨ta, tb, rfl, ha, hb⟩
      have hchar : Cut [x] [Char.ofNat x.toNat] :=
        ⟨[[x]], rfl, by simp [fromUtf8Lossy, decode_singleton, byteChar, hx]⟩
      exact ha.append (hchar.append hb)
  mem := by
    rintro a t c ⟨chunks, rfl, rfl⟩ hc hmem
    obtain ⟨chunk, hchunk, hmem⟩ := List.mem_flatMap.mp hmem
    obtain ⟨b, hb, -, rfl⟩ := exists_of_mem_decode hmem hc
    exact ⟨b, List.mem_flatten.mpr ⟨chunk, hchunk, hb⟩, rfl⟩

/-! ## Values -/

variable {bytes : List UInt8} {t : List Char}

/-- A text without a sequence to cut is read byte by byte. -/
theorem Cut.of_severable (h : Cut bytes t)
    (hs : Severable bytes) : t = bytes.map byteChar := by
  obtain ⟨chunks, rfl, rfl⟩ := h
  induction chunks with
  | nil => rfl
  | cons c chunks ih =>
    rw [List.flatten_cons] at hs
    rw [List.flatMap_cons, ih hs.right_of_append, List.flatten_cons, List.map_append,
      fromUtf8Lossy, decode_of_severable hs.left_of_append]

/-- A text read without replacements is the one that the bytes encode. -/
theorem Cut.of_clean (h : Cut bytes t)
    (hclean : replacement ∉ t) : t = decode none bytes := by
  obtain ⟨chunks, rfl, rfl⟩ := h
  induction chunks with
  | nil => rfl
  | cons c chunks ih =>
    simp only [List.flatMap_cons, List.mem_append, not_or] at hclean
    rw [List.flatMap_cons, List.flatten_cons, ih hclean.2]
    exact (decode_append_of_clean hclean.1 _).symm

variable {text : List Char}

theorem mem_trim {c : Char} (hc : isWhitespace c = false) (h : c ∈ text) :
    c ∈ trim text := by
  have hdrop : ∀ {s : List Char}, c ∈ s → c ∈ s.dropWhile isWhitespace := by
    intro s hs
    rw [← List.takeWhile_append_dropWhile (p := isWhitespace) (l := s), List.mem_append] at hs
    rcases hs with hs | hs
    · rw [List.mem_takeWhile_imp hs] at hc
      cases hc
    · exact hs
  exact List.mem_reverse.mpr (hdrop (List.mem_reverse.mpr (hdrop h)))

variable {n : Nat}

theorem parseU64_clean (h : parseU64 text = some n) :
    replacement ∉ text := by
  have hdigits : ∀ {s : List Char} {m : Option Nat},
      (if s ≠ [] ∧ s.all Char.isDigit then m else none) = some n → replacement ∉ s := by
    intro s m hs hmem
    by_cases hall : s ≠ [] ∧ s.all Char.isDigit
    · exact absurd (List.all_eq_true.mp hall.2 _ hmem) (by decide)
    · rw [if_neg hall] at hs
      cases hs
  unfold parseU64 at h
  simp only at h
  split at h
  · simpa [replacement] using hdigits h
  · exact hdigits h

/-- The number of an id value. -/
def idNumber (value : List Char) : Option Nat := parseU64 (trim value)

variable {value : List Char}

theorem idNumber_clean (h : idNumber value = some n) :
    replacement ∉ value :=
  fun hmem => parseU64_clean h (mem_trim (by decide) hmem)

/-! ## The streams that can be cut anywhere -/

/-- A value without a sequence to cut. -/
def Plain (value : List Char) : Prop := Severable (bytesOf value)

/-- A value read byte by byte. -/
def bytewise (value : List Char) : List Char := (bytesOf value).map byteChar

instance (value : List Char) : Decidable (Plain value) :=
  inferInstanceAs (Decidable (Severable _))

namespace RawFrame

/-- A frame that is an event of the engine if its data can be read. -/
def forwardable (raw : RawFrame) : Bool :=
  raw.event.any fun event => event ≠ "stream_gap".toList && event ≠ "stream_error".toList

/-- The id of a frame whose bytes are decoded as one. -/
def wholeId (raw : RawFrame) : Option Nat :=
  raw.id.bind fun value => idNumber (decode none (bytesOf value))

/-- The id of a frame, where its value has no sequence to cut. -/
def plainId (raw : RawFrame) : Option Nat :=
  raw.id.bind fun value =>
    if Plain value then idNumber (decode none (bytesOf value)) else none

end RawFrame

/-- The frames of a stream, each byte of which is taken as one character. -/
def byteFrames (bytes : List UInt8) : List RawFrame := rawFrames (latin1 bytes)

/-- Cuts do not show: no value of a forwarded frame has a sequence to cut, and every id that a cut
makes unreadable is the cursor already, or an id after it sets the cursor. -/
structure ChunkSafe (bytes : List UInt8) : Prop where
  values : ∀ raw ∈ byteFrames bytes, raw.forwardable →
    (∀ value ∈ raw.event, Plain value) ∧ ∀ value ∈ raw.data, Plain value
  ids : ∀ before raw after, byteFrames bytes = before ++ raw :: after → raw.plainId = none →
    ∀ n, raw.wholeId = some n → (∀ later ∈ after, later.plainId = none) →
      cursor (before.map (·.plainId)) = some n

/-! ### They are read alike -/

section

variable {fromStr : List Char → Option Value} {raw raw' : RawFrame}

theorem Reading.plain {value t : List Char} (h : Reading Cut value t) (hplain : Plain value) :
    t = bytewise value := by
  obtain ⟨bytes, rfl, hcut⟩ := h
  rw [Plain, bytesOf_latin1] at hplain
  rw [bytewise, bytesOf_latin1]
  exact hcut.of_severable hplain

theorem RawFrame.Rel.forwardable {R : List UInt8 → List Char → Prop} (hR : ReadsAscii R)
    (h : Rel (Reading R) raw raw') : raw'.forwardable = raw.forwardable := by
  have hrel := h.event
  unfold RawFrame.forwardable
  revert hrel
  cases raw.event <;> cases raw'.event <;> rintro (_ | hrel)
  · rfl
  · rename_i hrel
    have hgap := hR.keepsAscii.eq_iff hrel (isAscii_of_all (l := "stream_gap".toList) (by decide))
    have herror := hR.keepsAscii.eq_iff hrel (isAscii_of_all (l := "stream_error".toList) (by decide))
    simp only [Option.any_some, ne_eq, hgap, herror]

theorem engineEvent_read (raw : RawFrame) :
    engineEvent fromStr raw.read = if raw.forwardable then
      (fromStr (['\n'].intercalate raw.data)).map fun envelope =>
        ⟨String.ofList (raw.event.getD []), (envelope.get "payload").getD .null⟩
      else none := by
  obtain ⟨id, event, data⟩ := raw
  cases event with
  | none => rfl
  | some event =>
    by_cases hcontrol : event = "stream_gap".toList ∨ event = "stream_error".toList
    · rcases hcontrol with rfl | rfl <;> rfl
    · obtain ⟨hgap, herror⟩ := not_or.mp hcontrol
      simp only [engineEvent, RawFrame.read, RawFrame.forwardable, hgap, herror, or_self, if_false,
        Option.any_some, ne_eq, not_false_eq_true, decide_true, Bool.and_self, if_true,
        Option.getD_some]

theorem plain_values {values values' : List (List Char)}
    (h : List.Forall₂ (Reading Cut) values values') (hplain : ∀ value ∈ values, Plain value) :
    values' = values.map bytewise := by
  induction h with
  | nil => rfl
  | cons hvalue _ ih =>
    rw [List.map_cons, hvalue.plain (hplain _ (by simp)),
      ih fun value hmem => hplain value (by simp [hmem])]

/-- A frame whose values have no sequence to cut gives the same event however it is cut. -/
theorem engineEvent_plain (h : RawFrame.Rel (Reading Cut) raw raw')
    (hplain : raw.forwardable → (∀ value ∈ raw.event, Plain value) ∧ ∀ value ∈ raw.data, Plain value) :
    engineEvent fromStr raw'.read = if raw.forwardable then
      (fromStr (['\n'].intercalate (raw.data.map bytewise))).map fun envelope =>
        ⟨String.ofList (bytewise (raw.event.getD [])), (envelope.get "payload").getD .null⟩
      else none := by
  rw [engineEvent_read, h.forwardable cut_readsAscii]
  by_cases hforward : raw.forwardable
  · rw [if_pos hforward, if_pos hforward]
    obtain ⟨hevent, hdata⟩ := hplain hforward
    have hname : raw'.event.getD [] = bytewise (raw.event.getD []) := by
      have hrel := h.event
      revert hrel hevent
      cases raw.event <;> cases raw'.event <;> rintro hevent (_ | hrel)
      · rfl
      · rename_i hrel
        exact hrel.plain (hevent _ rfl)
    rw [plain_values h.data hdata, hname]
  · rw [if_neg hforward, if_neg hforward]

/-- What an id is read as: nothing or what its bytes say, and the latter where it is plain. -/
theorem id_cases (h : RawFrame.Rel (Reading Cut) raw raw') :
    raw'.read.id = raw.plainId ∨ raw.plainId = none ∧ raw'.read.id = raw.wholeId := by
  have hrel := h.id
  simp only [RawFrame.read, RawFrame.fields, RawFrame.plainId, RawFrame.wholeId]
  revert hrel
  cases raw.id with
  | none =>
    cases raw'.id <;> rintro (_ | _)
    exact .inl rfl
  | some value =>
    cases raw'.id with
    | none => rintro (_ | _)
    | some t =>
      intro hrel
      obtain ⟨bytes, rfl, hcut⟩ := Option.rel_some_some.mp hrel
      simp only [Option.bind_some, Plain, bytesOf_latin1]
      by_cases hplain : Severable bytes
      · left
        rw [if_pos hplain, hcut.of_severable hplain, decode_of_severable hplain]
        rfl
      · rw [if_neg hplain]
        cases hid : parseU64 (trim t) with
        | none => exact .inl rfl
        | some n =>
          right
          rw [← hcut.of_clean (idNumber_clean hid), ← hid]
          exact ⟨rfl, rfl⟩

variable {raws : List RawFrame}

/-- The cursor after frames whose ids are read in part, where the ids that are cut do not show. -/
theorem cursor_plain {ids : List (Option Nat)}
    (h : List.Forall₂ (fun raw id => id = raw.plainId ∨ raw.plainId = none ∧ id = raw.wholeId)
      raws ids)
    (hids : ∀ before raw after, raws = before ++ raw :: after → raw.plainId = none →
      ∀ n, raw.wholeId = some n → (∀ later ∈ after, later.plainId = none) →
        cursor (before.map (·.plainId)) = some n) :
    cursor ids = cursor (raws.map (·.plainId)) := by
  induction raws using List.reverseRecOn generalizing ids with
  | nil =>
    cases h
    rfl
  | append_singleton raws raw ih =>
    have hinit := List.forall₂_take raws.length h
    have hlast := List.forall₂_drop raws.length h
    rw [List.take_left] at hinit
    rw [List.drop_left] at hlast
    obtain ⟨last, _, hraw, hnil, hdrop⟩ := List.forall₂_cons_left_iff.mp hlast
    obtain rfl := List.forall₂_nil_left_iff.mp hnil
    rw [← List.take_append_drop raws.length ids, hdrop, cursor_append, List.map_append, cursor_append]
    show Option.or (Option.or last none) _ = Option.or (Option.or raw.plainId none) _
    rw [Option.or_none, Option.or_none]
    cases hplain : raw.plainId with
    | some n =>
      obtain rfl : last = some n := by simpa [hplain] using hraw
      rfl
    | none =>
      -- the last id is not plain, so the ids before it are as safe as all of them
      have hbefore : cursor (ids.take raws.length) = cursor (raws.map (·.plainId)) := by
        refine ih hinit fun before raw' after hsplit hnone n hn hafter => ?_
        refine hids before raw' (after ++ [raw]) (by simp [hsplit]) hnone n hn fun later hlater => ?_
        rcases List.mem_append.mp hlater with hlater | hlater
        · exact hafter later hlater
        · rw [List.mem_singleton.mp hlater, hplain]
      rw [hbefore, Option.none_or]
      cases last with
      | none => rfl
      | some n =>
        have hwhole : raw.wholeId = some n := by simpa [hplain, eq_comm] using hraw
        exact (hids raws raw [] rfl hplain n hwhole (by simp)).symm

theorem filterMap_plain {raws' : List RawFrame}
    (h : List.Forall₂ (RawFrame.Rel (Reading Cut)) raws raws')
    (hvalues : ∀ raw ∈ raws, raw.forwardable →
      (∀ value ∈ raw.event, Plain value) ∧ ∀ value ∈ raw.data, Plain value) :
    (raws'.map (·.read)).filterMap (engineEvent fromStr) = raws.filterMap fun raw =>
      if raw.forwardable then
        (fromStr (['\n'].intercalate (raw.data.map bytewise))).map fun envelope =>
          (⟨String.ofList (bytewise (raw.event.getD [])), (envelope.get "payload").getD .null⟩ :
            EngineEvent)
      else none := by
  induction h with
  | nil => rfl
  | cons hraw _ ih =>
    rw [List.map_cons, List.filterMap_cons, List.filterMap_cons,
      engineEvent_plain hraw (hvalues _ (by simp)), ih fun raw hmem => hvalues raw (by simp [hmem])]

end

/-! ### Only they are -/

theorem Reading.whole (h : Reading Whole value t) :
    t = decode none (bytesOf value) := by
  obtain ⟨bytes, rfl, ht⟩ := h
  rwa [bytesOf_latin1]

theorem Reading.single (h : Reading Single value t) : t = bytewise value := by
  obtain ⟨bytes, rfl, ht⟩ := h
  rwa [bytewise, bytesOf_latin1]

/-- A reader that takes every text, and keeps it. -/
def echo (text : List Char) : Option Value :=
  some (.object [("payload", .string (String.ofList text))])

theorem engineEvent_echo (raw : RawFrame) :
    engineEvent echo raw.read = if raw.forwardable then
      some ⟨String.ofList (raw.event.getD []),
        .string (String.ofList (['\n'].intercalate raw.data))⟩
      else none := by
  rw [engineEvent_read]
  rfl

variable {values : List (List Char)} {f : List Char → List Char}

theorem length_intercalate_le {g : List Char → List Char}
    (h : ∀ value, (f value).length ≤ (g value).length) :
    (['\n'].intercalate (values.map f)).length ≤ (['\n'].intercalate (values.map g)).length ∧
      ((['\n'].intercalate (values.map f)).length = (['\n'].intercalate (values.map g)).length →
        ∀ value ∈ values, (f value).length = (g value).length) := by
  induction values with
  | nil => simp
  | cons value values ih =>
    have hvalue := h value
    by_cases hnil : values = []
    · subst hnil
      simpa using hvalue
    · obtain ⟨hle, heq⟩ := ih
      rw [List.map_cons, List.map_cons, List.intercalate_cons_of_ne_nil (by simpa using hnil),
        List.intercalate_cons_of_ne_nil (by simpa using hnil)]
      simp only [List.length_append, List.mem_cons, forall_eq_or_imp]
      exact ⟨by omega, fun hsum => ⟨by omega, heq (by omega)⟩⟩

theorem length_whole_le (value : List Char) :
    (decode none (bytesOf value)).length ≤ (bytewise value).length := by
  have hle := length_decode_le none (bytesOf value)
  simpa [bytewise, pendingText] using hle

theorem plain_of_length
    (h : (decode none (bytesOf value)).length = (bytewise value).length) : Plain value :=
  severable_of_decode (by simpa [bytewise] using h)

theorem values_map (hf : ∀ value t, Reading R value t → t = f value) {values' : List (List Char)}
    (h : List.Forall₂ (Reading R) values values') : values' = values.map f := by
  induction h with
  | nil => rfl
  | cons hvalue _ ih => rw [List.map_cons, hf _ _ hvalue, ih]

variable {raw : RawFrame}

/-- A forwarded frame that gives the same event whole and byte by byte. -/
theorem plain_of_event {whole single : RawFrame} (hw : RawFrame.Rel (Reading Whole) raw whole)
    (hs : RawFrame.Rel (Reading Single) raw single) (hname : whole.event.getD [] = single.event.getD [])
    (hdata : ['\n'].intercalate whole.data = ['\n'].intercalate single.data) :
    (∀ value ∈ raw.event, Plain value) ∧ ∀ value ∈ raw.data, Plain value := by
  refine ⟨fun value hvalue => ?_, ?_⟩
  · have hwhole := hw.event
    have hsingle := hs.event
    rw [Option.mem_def.mp hvalue] at hwhole hsingle
    cases hwe : whole.event with
    | none => rw [hwe] at hwhole; cases hwhole
    | some w =>
      cases hse : single.event with
      | none => rw [hse] at hsingle; cases hsingle
      | some s =>
        rw [hwe] at hwhole
        rw [hse] at hsingle
        have hw' := (Option.rel_some_some.mp hwhole).whole
        have hs' := (Option.rel_some_some.mp hsingle).single
        have heq : w = s := by simpa [hwe, hse] using hname
        exact plain_of_length (by rw [← hw', ← hs', heq])
  · rw [values_map (fun _ _ => Reading.whole) hw.data,
      values_map (fun _ _ => Reading.single) hs.data] at hdata
    intro value hvalue
    exact plain_of_length ((length_intercalate_le length_whole_le).2 (by rw [hdata]) value hvalue)

theorem plain_of_events {raws ws ss : List RawFrame}
    (hw : List.Forall₂ (RawFrame.Rel (Reading Whole)) raws ws)
    (hs : List.Forall₂ (RawFrame.Rel (Reading Single)) raws ss)
    (h : (ws.map (·.read)).filterMap (engineEvent echo) =
      (ss.map (·.read)).filterMap (engineEvent echo)) :
    ∀ raw ∈ raws, raw.forwardable →
      (∀ value ∈ raw.event, Plain value) ∧ ∀ value ∈ raw.data, Plain value := by
  induction hw generalizing ss with
  | nil => simp
  | @cons raw whole raws ws hwhole _ ih =>
    obtain ⟨single, ss, hsingle, hss, rfl⟩ := List.forall₂_cons_left_iff.mp hs
    simp only [List.map_cons, List.filterMap_cons, engineEvent_echo,
      hwhole.forwardable whole_readsAscii, hsingle.forwardable single_readsAscii] at h
    intro raw' hmem hforward
    cases hraw : raw.forwardable with
    | false =>
      simp only [hraw, Bool.false_eq_true, if_false] at h
      rcases List.mem_cons.mp hmem with rfl | hmem
      · rw [hraw] at hforward
        cases hforward
      · exact ih hss h raw' hmem hforward
    | true =>
      simp only [hraw, if_true, List.cons.injEq, EngineEvent.mk.injEq, Value.string.injEq] at h
      rcases List.mem_cons.mp hmem with rfl | hmem
      · exact plain_of_event hwhole hsingle (String.ofList_injective h.1.1)
          (String.ofList_injective h.1.2)
      · exact ih hss h.2 raw' hmem hforward

theorem wholeId_of_rel {whole : RawFrame} (h : RawFrame.Rel (Reading Whole) raw whole) :
    whole.read.id = raw.wholeId := by
  have hrel := h.id
  simp only [RawFrame.read, RawFrame.fields, RawFrame.wholeId]
  revert hrel
  cases raw.id <;> cases whole.id <;> rintro (_ | hrel)
  · rfl
  · rename_i hrel
    rw [Option.bind_some, Option.bind_some, hrel.whole]
    rfl

theorem flatten_bytes (bytes : List UInt8) : (bytes.map fun b => [b]).flatten = bytes := by
  induction bytes with
  | nil => rfl
  | cons b bytes ih => rw [List.map_cons, List.flatten_cons, ih, List.singleton_append]

theorem flatMap_bytes (bytes : List UInt8) :
    (bytes.map fun b => [b]).flatMap fromUtf8Lossy = bytes.map byteChar := by
  induction bytes with
  | nil => rfl
  | cons b bytes ih =>
    rw [List.map_cons, List.flatMap_cons, ih, fromUtf8Lossy, decode_singleton,
      List.singleton_append, List.map_cons]

theorem plainId_of_rel {single : RawFrame} (h : RawFrame.Rel (Reading Single) raw single) :
    single.read.id = raw.plainId := by
  have hrel := h.id
  simp only [RawFrame.read, RawFrame.fields, RawFrame.plainId]
  revert hrel
  cases raw.id <;> cases single.id <;> rintro (_ | hrel)
  · rfl
  · rename_i value t hrel
    rw [Option.bind_some, Option.bind_some, hrel.single]
    by_cases hplain : Plain value
    · rw [if_pos hplain, decode_of_severable hplain]
      rfl
    · rw [if_neg hplain]
      cases hid : parseU64 (trim (bytewise value)) with
      | none => rfl
      | some n =>
        -- a number is read without replacements, so the value has no sequence to cut
        have hcut : Cut (bytesOf value) (bytewise value) :=
          ⟨(bytesOf value).map fun b => [b], flatten_bytes _, (flatMap_bytes _).symm⟩
        exact absurd (decode_eq_map_iff.mp (hcut.of_clean (idNumber_clean hid)).symm) hplain

/-- The ids of the frames of a text read as one, or byte by byte. -/
theorem ids_of_rel {f : RawFrame → Option Nat}
    (hR : ReadsAscii R) (hf : ∀ raw raw', RawFrame.Rel (Reading R) raw raw' → raw'.read.id = f raw)
    (h : R bytes t) :
    (rawFrames t).map (fun raw => raw.read.id) = (byteFrames bytes).map f := by
  have hrel := rawFrames_rel hR.keepsAscii (⟨bytes, rfl, h⟩ : Reading R (latin1 bytes) t)
  revert hrel
  generalize rawFrames t = raws'
  rw [byteFrames]
  generalize rawFrames (latin1 bytes) = raws
  intro hrel
  induction hrel with
  | nil => rfl
  | cons hraw _ ih => rw [List.map_cons, List.map_cons, hf _ _ hraw, ih]

theorem left_of_rel (hR : ReadsAscii R)
    (h : R bytes t) (hleft : (blocks (latin1 bytes)).2 = []) : (blocks t).2 = [] := by
  have hrel := (blocks_rel hR.keepsAscii (⟨bytes, rfl, h⟩ : Reading R (latin1 bytes) t)).2
  rw [hleft] at hrel
  exact hR.keepsAscii.nil.mp hrel

/-! ## Chunks -/

/-- A way of splitting a byte stream into non-empty chunks. -/
def Chunked (bytes : List UInt8) (chunks : List (List UInt8)) : Prop :=
  chunks.flatten = bytes ∧ ∀ chunk ∈ chunks, chunk ≠ []

/-- Whatever the JSON reader and the cursor so far, every way of splitting the stream gives the same
events and the same cursor. -/
def Insensitive (bytes : List UInt8) : Prop :=
  ∀ fromStr lastSeq chunks chunks', Chunked bytes chunks → Chunked bytes chunks' →
    readStream fromStr lastSeq chunks = readStream fromStr lastSeq chunks'

theorem chunked_bytes (bytes : List UInt8) :
    Chunked bytes (bytes.map fun b => [b]) ∧
      (bytes.map fun b => [b]).flatMap fromUtf8Lossy = bytes.map byteChar :=
  ⟨⟨flatten_bytes bytes, by simp⟩, flatMap_bytes bytes⟩

theorem exists_chunked (bytes : List UInt8) :
    ∃ chunks, Chunked bytes chunks ∧ chunks.flatMap fromUtf8Lossy = decode none bytes := by
  by_cases hnil : bytes = []
  · subst hnil
    exact ⟨[], ⟨rfl, by simp⟩, rfl⟩
  · exact ⟨[bytes], ⟨by simp, by simpa using hnil⟩, by simp [fromUtf8Lossy]⟩

theorem Chunked.append {a b : List UInt8} {as bs : List (List UInt8)} (ha : Chunked a as)
    (hb : Chunked b bs) : Chunked (a ++ b) (as ++ bs) := by
  refine ⟨by rw [List.flatten_append, ha.1, hb.1], fun chunk hmem => ?_⟩
  exact (List.mem_append.mp hmem).elim (ha.2 chunk) (hb.2 chunk)

theorem readStream_raw (fromStr : List Char → Option Value) (lastSeq : Option Nat)
    (chunks : List (List UInt8)) :
    readStream fromStr lastSeq chunks =
      (((rawFrames (chunks.flatMap fromUtf8Lossy)).map (·.read)).filterMap (engineEvent fromStr),
        (cursor ((rawFrames (chunks.flatMap fromUtf8Lossy)).map fun raw => raw.read.id)).or
          lastSeq) := by
  rw [readStream_eq, frames_eq, List.map_map]
  rfl

theorem insensitive_of_chunkSafe (h : ChunkSafe bytes) : Insensitive bytes := by
  intro fromStr lastSeq chunks chunks' hchunks hchunks'
  have hrel : ∀ chunks, Chunked bytes chunks → List.Forall₂ (RawFrame.Rel (Reading Cut))
      (byteFrames bytes) (rawFrames (chunks.flatMap fromUtf8Lossy)) := fun chunks hchunks =>
    rawFrames_rel cut_readsAscii.keepsAscii ⟨bytes, rfl, chunks, hchunks.1, rfl⟩
  have hids : ∀ chunks, Chunked bytes chunks →
      cursor ((rawFrames (chunks.flatMap fromUtf8Lossy)).map fun raw => raw.read.id) =
        cursor ((byteFrames bytes).map (·.plainId)) := fun chunks hchunks =>
    cursor_plain (List.forall₂_map_right_iff.mpr
      ((hrel chunks hchunks).imp fun _ _ hraw => id_cases hraw)) h.ids
  rw [readStream_raw, readStream_raw, filterMap_plain (hrel chunks hchunks) h.values,
    filterMap_plain (hrel chunks' hchunks') h.values, hids chunks hchunks, hids chunks' hchunks']

theorem values_of_insensitive (h : Insensitive bytes) :
    ∀ raw ∈ byteFrames bytes, raw.forwardable →
      (∀ value ∈ raw.event, Plain value) ∧ ∀ value ∈ raw.data, Plain value := by
  obtain ⟨whole, hwhole, htext⟩ := exists_chunked bytes
  obtain ⟨hsingle, htext'⟩ := chunked_bytes bytes
  have hread := h echo none _ _ hwhole hsingle
  rw [readStream_raw, readStream_raw, htext, htext'] at hread
  exact plain_of_events
    (rawFrames_rel whole_readsAscii.keepsAscii ⟨bytes, rfl, rfl⟩)
    (rawFrames_rel single_readsAscii.keepsAscii ⟨bytes, rfl, rfl⟩) (Prod.mk.inj hread).1

/-- A stream's bytes around the block of one of its frames. -/
theorem split_at_frame {before after : List RawFrame}
    (h : byteFrames bytes = before ++ raw :: after) :
    ∃ a block b, bytes = a ++ (block ++ b) ∧ byteFrames a = before ∧ byteFrames block = [raw] ∧
      byteFrames b = after ∧ (blocks (latin1 a)).2 = [] ∧ (blocks (latin1 block)).2 = [] := by
  obtain ⟨hsplit, hcomplete⟩ := blocks_complete (latin1 bytes)
  have hleft := blocks_left (latin1 bytes)
  generalize (blocks (latin1 bytes)).2 = left at hsplit hleft
  obtain ⟨as, rest, hblocks, rfl, hrest⟩ := List.filterMap_eq_append_iff.mp h
  obtain ⟨skipped, block, bs, rfl, hskipped, hraw, rfl⟩ := List.filterMap_eq_cons_iff.mp hrest
  rw [hblocks] at hsplit hcomplete
  have hsplit' : latin1 bytes =
      (as ++ skipped).flatten ++ (block ++ (bs.flatten ++ left)) := by
    rw [hsplit]
    simp
  obtain ⟨a, rest, rfl, ha, hrest⟩ := List.map_eq_append_iff.mp hsplit'
  obtain ⟨c, b, rfl, hc, hb⟩ := List.map_eq_append_iff.mp hrest
  have hblocksA : blocks (latin1 a) = (as ++ skipped, []) := by
    have hflat := @blocks_flatten (as ++ skipped)
      (fun block' hmem => hcomplete block' (by
        rcases List.mem_append.mp hmem with hmem | hmem <;> simp [hmem])) []
    rw [List.append_nil] at hflat
    rw [latin1, ha, hflat]
    simp [blocks, drainBlocks]
  have hblocksC : blocks (latin1 c) = ([block], []) := by
    rw [latin1, hc, blocks_some (hcomplete block (by simp))]
    rfl
  have hblocksB : (blocks (latin1 b)).1 = bs := by
    rw [latin1, hb, blocks_flatten (fun block' hmem => hcomplete block' (by simp [hmem])), hleft]
    simp
  refine ⟨a, c, b, rfl, ?_, ?_, ?_, by rw [hblocksA], by rw [hblocksC]⟩
  · rw [byteFrames, rawFrames, hblocksA, List.filterMap_append,
      List.filterMap_eq_nil_iff.mpr hskipped, List.append_nil]
  · rw [byteFrames, rawFrames, hblocksC]
    simp [hraw]
  · rw [byteFrames, rawFrames, hblocksB]

theorem ids_of_insensitive (h : Insensitive bytes) {before after : List RawFrame}
    (hsplit : byteFrames bytes = before ++ raw :: after) (hplain : raw.plainId = none)
    (hn : raw.wholeId = some n) (hafter : ∀ later ∈ after, later.plainId = none) :
    cursor (before.map (·.plainId)) = some n := by
  obtain ⟨a, block, b, rfl, ha, hblock, hb, hleft, hleft'⟩ := split_at_frame hsplit
  obtain ⟨whole, hwhole, htext⟩ := exists_chunked block
  have hmixed := (chunked_bytes a).1.append (hwhole.append (chunked_bytes b).1)
  have hread := h echo none _ _ (chunked_bytes _).1 hmixed
  have hnone : cursor (after.map (·.plainId)) = none := by
    refine cursor_none fun id hid => ?_
    obtain ⟨later, hlater, rfl⟩ := List.mem_map.mp hid
    exact hafter later hlater
  have hids : ∀ {bytes : List UInt8},
      (rawFrames (bytes.map byteChar)).map (fun raw => raw.read.id) =
        (byteFrames bytes).map (·.plainId) :=
    ids_of_rel single_readsAscii (fun _ _ => plainId_of_rel) rfl
  have hids' : (rawFrames (decode none block)).map (fun raw => raw.read.id) =
      (byteFrames block).map (·.wholeId) :=
    ids_of_rel whole_readsAscii (fun _ _ => wholeId_of_rel) rfl
  rw [readStream_raw, readStream_raw, flatMap_bytes, List.flatMap_append, List.flatMap_append,
    flatMap_bytes, flatMap_bytes, htext] at hread
  have hcursor := (Prod.mk.inj hread).2
  rw [Option.or_none, Option.or_none, hids, hsplit,
    rawFrames_append (left_of_rel single_readsAscii rfl hleft),
    rawFrames_append (left_of_rel whole_readsAscii rfl hleft')] at hcursor
  simp only [List.map_append, List.map_cons, List.map_nil, cursor_append, hids, hids', ha, hblock, hb,
    hn] at hcursor
  -- the left side is read byte by byte, the right side takes the id from the frame
  have hlast : cursor (raw.plainId :: after.map (·.plainId)) = none :=
    cursor_none (by simpa [hplain] using hafter)
  have hone : cursor [some n] = some n := rfl
  rw [hlast, hnone, hone] at hcursor
  simpa using hcursor

/-- Exactly the streams whose values have no sequence to cut where it shows are read alike however
they are split. -/
theorem insensitive_iff (bytes : List UInt8) : Insensitive bytes ↔ ChunkSafe bytes :=
  ⟨fun h => ⟨values_of_insensitive h, fun _ _ _ hsplit hplain _ hn hafter =>
    ids_of_insensitive h hsplit hplain hn hafter⟩, insensitive_of_chunkSafe⟩

/-- What a JSON reader makes of an object with one plain string under `payload`. -/
def readPayload (text : List Char) : Option Value :=
  if text.take 12 = "\x7b\"payload\":\"".toList ∧ text.reverse.take 2 = "\x7d\"".toList then
    some (.object [("payload", .string (String.ofList (text.drop 12).dropLast.dropLast))])
  else none

/-- A frame whose payload is one two-byte character, in two chunks that meet inside it. -/
def accentChunks : List UInt8 × List UInt8 :=
  ("event: drift\ndata: \x7b\"payload\":\"".toUTF8.toList ++ [0xC3],
    0xA9 :: "\"\x7d\n\n".toUTF8.toList)

/-- The event arrives with its payload in one chunk, and with two replacement characters in two. -/
theorem accent_is_cut :
    readStream readPayload none [accentChunks.1 ++ accentChunks.2] =
        ([⟨"drift", .string "é"⟩], none) ∧
      readStream readPayload none [accentChunks.1, accentChunks.2] =
        ([⟨"drift", .string "\uFFFD\uFFFD"⟩], none) ∧
      ¬ Insensitive (accentChunks.1 ++ accentChunks.2) := by
  have hwhole : readStream readPayload none [accentChunks.1 ++ accentChunks.2] =
      ([⟨"drift", .string "é"⟩], none) := by decide +kernel
  have hcut : readStream readPayload none [accentChunks.1, accentChunks.2] =
      ([⟨"drift", .string "\uFFFD\uFFFD"⟩], none) := by decide +kernel
  refine ⟨hwhole, hcut, fun h => ?_⟩
  have heq := h readPayload none [accentChunks.1 ++ accentChunks.2] [accentChunks.1, accentChunks.2]
    ⟨by simp, by decide +kernel⟩ ⟨by simp, by decide +kernel⟩
  rw [hwhole, hcut] at heq
  exact absurd heq (by decide +kernel)

end RustyPhoton.SessionRunner.Events
