import RustyPhoton.Rp.Persistence.Accounting

/-!
# What the sidecars keep

The same sidecar has several writers: a cached entry, an entry that was evicted while a call holds it,
an entry read again, and the calls on disk. Each writes a whole record, from its own copy of it. When
no copy that is written was overtaken by another writer, the sidecars keep every section.
-/

namespace RustyPhoton.Rp.Persistence

open Lib
open Lib.Recency (Touch)

/-- The section a record of the log wrote, and where. -/
def Record.write? : Record → Option (Path × String)
  | .wrote file _ name => some (file, name)
  | _ => none

/-- The sections written so far. -/
def writes (log : List Record) : List (Path × String) := log.filterMap Record.write?

/-- A read of a file gives its reader a copy of the record; a write leaves only the writer's. -/
def hold (file : Path) (holders : List Source) : Record → List Source
  | .read f source => if f = file then source :: holders else holders
  | .wrote f source _ => if f = file then [source] else holders
  | .touched _ => holders

/-- Those whose copy of a file's record nobody has overtaken. -/
def holders (file : Path) (log : List Record) : List Source := log.foldl (hold file) []

theorem writes_append (log log' : List Record) : writes (log ++ log') = writes log ++ writes log' :=
  List.filterMap_append

theorem holders_append (file : Path) (log : List Record) (record : Record) :
    holders file (log ++ [record]) = hold file (holders file log) record := by
  rw [holders, List.foldl_append]
  rfl

theorem holders_touched (file : Path) (log : List Record) (touches : List (Touch DocumentId)) :
    holders file (log ++ touches.map .touched) = holders file log := by
  induction touches generalizing log with
  | nil => rw [List.map_nil, List.append_nil]
  | cons t touches ih =>
    rw [List.map_cons, List.append_cons, ih, holders_append]
    rfl

theorem writes_touched (log : List Record) (touches : List (Touch DocumentId)) :
    writes (log ++ touches.map .touched) = writes log := by
  have hnone : writes (touches.map .touched) = [] := by
    rw [writes, List.filterMap_map]
    exact List.filterMap_eq_nil_iff.mpr fun _ _ => rfl
  rw [writes_append, hnone, List.append_nil]

/-- The sidecar a call has written, once it has. -/
def Phase.written : Phase → Option Path
  | .owing _ path => some path
  | .returned wrote => wrote
  | _ => none

/-- What a file is to hold: what a call has written, and what it held at the start if no write has named
it since. -/
inductive Promised (start : Disk) (log : List Record) (calls : List Call) (file : Path) (name : String)
    (value : Value) : Prop where
  | before {document : ExposureDocument} (read : start.sidecars file = .ok document)
      (section_eq : document.sections.lookup name = some value) (kept : (file, name) ∉ writes log)
  | call {call : Call} {path : Path} (mem : call ∈ calls) (written : call.phase.written = some path)
      (file_eq : start.realPath path = file) (name_eq : call.name = name) (value_eq : call.value = value)

/-- The record has what its file is to hold. -/
def Keeps (start : Disk) (log : List Record) (calls : List Call) (file : Path)
    (document : ExposureDocument) : Prop :=
  ∀ name value, Promised start log calls file name value → document.sections.lookup name = some value

/-- A holder's copy. -/
inductive Copies (start : Disk) (log : List Record) (s : World) (file : Path) : Source → Prop where
  | entry {arc : Arc} {image : CachedImage} {path : Path} (image_eq : s.store.heap[arc]? = some image)
      (path_eq : sidecarPathFor image.fitsPath = some path) (file_eq : start.realPath path = file)
      (keeps : Keeps start log s.calls file image.document) : Copies start log s file (.entry arc)
  | writing {index : Nat} {call : Call} {fitsPath : Path} {document : ExposureDocument}
      (call_eq : s.calls[index]? = some call) (phase : call.phase = .writing fitsPath document)
      (keeps : Keeps start log s.calls file document) : Copies start log s file (.call index)
  | returned {index : Nat} {call : Call} {wrote : Option Path} (call_eq : s.calls[index]? = some call)
      (phase : call.phase = .returned wrote) : Copies start log s file (.call index)

/-- What holds along every run without overtaken writes. -/
structure Intact (start : Disk) (log : List Record) (s : World) : Prop where
  links : s.disk.realPath = start.realPath
  stored : ∀ file name value, Promised start log s.calls file name value →
    ∃ document, s.disk.sidecars file = .ok document ∧ document.sections.lookup name = some value
  copies : ∀ file source, source ∈ holders file log → Copies start log s file source
  named : ∀ call ∈ s.calls, ∀ path, call.phase.written = some path →
    (start.realPath path, call.name) ∈ writes log

/-- A sidecar is written from a copy that nobody has overtaken, under a name that no other write of it
has used. -/
def FromCurrent (log : List Record) (s : World) : Input → Prop
  | .write _ .failed => True
  | .write index _ =>
      ∀ call ∈ s.calls[index]?, ∀ copy ∈ s.copyAt index call,
        copy.1 ∈ holders (s.disk.realPath copy.2.1) log ∧
          (s.disk.realPath copy.2.1, call.name) ∉ writes log
  | _ => True

/-- Every section is in its sidecar: what each call that returned `Ok` wrote, and what was there before
and was not written since. -/
structure SectionsKept (start : Disk) (log : List Record) (s : World) : Prop where
  written : ∀ call ∈ s.calls, ∀ path, call.phase = .returned (some path) →
    ∃ document, s.disk.readSidecar path = .ok document ∧
      document.sections.lookup call.name = some call.value
  before : ∀ path document name value, start.readSidecar path = .ok document →
    document.sections.lookup name = some value → (start.realPath path, name) ∉ writes log →
    ∃ document, s.disk.readSidecar path = .ok document ∧
      document.sections.lookup name = some value

/-! ## Promises -/

section Promises

variable {start : Disk} {log log' : List Record} {calls calls' : List Call} {file : Path}
  {name : String} {value : Value}

/-- More writes and no more calls that have written: fewer promises. -/
theorem Promised.mono (h : Promised start log' calls' file name value)
    (hwrites : writes log ⊆ writes log')
    (hcalls : ∀ call ∈ calls', ∀ path, call.phase.written = some path →
      ∃ earlier ∈ calls, earlier.phase.written = some path ∧ earlier.name = call.name ∧
        earlier.value = call.value) :
    Promised start log calls file name value := by
  cases h with
  | before hread hsection hkept => exact .before hread hsection fun hmem => hkept (hwrites hmem)
  | call hmem hwritten hfile hname hvalue =>
    obtain ⟨earlier, hearlier, hpath, hsame, hsame'⟩ := hcalls _ hmem _ hwritten
    exact .call hearlier hpath hfile (hsame.trans hname) (hsame'.trans hvalue)

end Promises

/-! ## Steps that read and write no sidecar -/

/-- The call has a copy of its own, or had one. -/
def Phase.Holding (phase : Phase) : Prop :=
  (∃ fitsPath document, phase = .writing fitsPath document) ∨ ∃ wrote, phase = .returned wrote

/-- Calls with a copy keep it, or return. -/
def Carries (calls calls' : List Call) : Prop :=
  ∀ (index : Nat) (call : Call), calls[index]? = some call → call.phase.Holding →
    ∃ call' : Call, calls'[index]? = some call' ∧
      (call'.phase = call.phase ∨ ∃ wrote, call'.phase = .returned wrote)

/-- Calls that have written had written before, the same section. -/
def NoneWrote (calls calls' : List Call) : Prop :=
  ∀ call ∈ calls', ∀ path, call.phase.written = some path →
    ∃ earlier ∈ calls, earlier.phase.written = some path ∧ earlier.name = call.name ∧
      earlier.value = call.value

section Quiet

variable {start : Disk} {log log' : List Record} {s s' : World} {file : Path} {source : Source}

theorem carries_refl (calls : List Call) : Carries calls calls :=
  fun _ call hcall _ => ⟨call, hcall, .inl rfl⟩

theorem carries_append (calls : List Call) (call : Call) : Carries calls (calls ++ [call]) := by
  intro index earlier hearlier _
  have hlt := (List.getElem?_eq_some_iff.mp hearlier).1
  exact ⟨earlier, by rw [List.getElem?_append_left hlt, hearlier], .inl rfl⟩

/-- A call steps: it returns, or it had no copy. -/
theorem carries_set {calls : List Call} {index : Nat} {call : Call} {phase : Phase}
    (hcall : calls[index]? = some call)
    (h : (∃ wrote, phase = .returned wrote) ∨ ¬ call.phase.Holding) :
    Carries calls (calls.set index { call with phase }) := by
  intro i earlier hearlier hholding
  have hlt := (List.getElem?_eq_some_iff.mp hcall).1
  by_cases hi : index = i
  · subst hi
    cases hcall.symm.trans hearlier
    obtain ⟨wrote, hphase⟩ := h.resolve_right fun hnot => hnot hholding
    exact ⟨_, List.getElem?_set_self hlt, .inr ⟨wrote, hphase⟩⟩
  · exact ⟨earlier, by rw [List.getElem?_set_ne hi, hearlier], .inl rfl⟩

theorem noneWrote_refl (calls : List Call) : NoneWrote calls calls :=
  fun call hcall _ hwritten => ⟨call, hcall, hwritten, rfl, rfl⟩

theorem noneWrote_append (calls : List Call) {call : Call} (h : call.phase.written = none) :
    NoneWrote calls (calls ++ [call]) := by
  intro other hother path hwritten
  rcases List.mem_append.mp hother with hother | hother
  · exact ⟨other, hother, hwritten, rfl, rfl⟩
  · cases List.mem_singleton.mp hother
    rw [h] at hwritten
    cases hwritten

/-- A call steps without writing: it has written no more than before. -/
theorem noneWrote_set {calls : List Call} {index : Nat} {call : Call} {phase : Phase}
    (hcall : calls[index]? = some call)
    (h : ∀ path, phase.written = some path → call.phase.written = some path) :
    NoneWrote calls (calls.set index { call with phase }) := by
  intro other hother path hwritten
  rcases List.mem_or_eq_of_mem_set hother with hother | rfl
  · exact ⟨other, hother, hwritten, rfl, rfl⟩
  · exact ⟨call, List.mem_of_getElem? hcall, h path hwritten, rfl, rfl⟩

theorem Copies.mono (h : Copies start log s file source)
    (hheap : ∀ (arc : Arc) (image : CachedImage) (path : Path), s.store.heap[arc]? = some image →
      sidecarPathFor image.fitsPath = some path → start.realPath path = file →
      s'.store.heap[arc]? = some image)
    (hcarries : Carries s.calls s'.calls)
    (hpromised : ∀ name value, Promised start log' s'.calls file name value →
      Promised start log s.calls file name value) :
    Copies start log' s' file source := by
  cases h with
  | entry himage hpath hfile hkeeps =>
    exact .entry (hheap _ _ _ himage hpath hfile) hpath hfile fun _ _ h => hkeeps _ _ (hpromised _ _ h)
  | writing hcall hphase hkeeps =>
    obtain ⟨call', hcall', hsame | ⟨wrote, hreturned⟩⟩ := hcarries _ _ hcall (.inl ⟨_, _, hphase⟩)
    · exact .writing hcall' (hsame.trans hphase) fun _ _ h => hkeeps _ _ (hpromised _ _ h)
    · exact .returned hcall' hreturned
  | returned hcall hphase =>
    obtain ⟨call', hcall', hsame | ⟨wrote, hreturned⟩⟩ := hcarries _ _ hcall (.inr ⟨_, hphase⟩)
    · exact .returned hcall' (hsame.trans hphase)
    · exact .returned hcall' hreturned

/-- A step that reads and writes no sidecar. -/
theorem Intact.quiet (h : Intact start log s) (hdisk : s'.disk = s.disk)
    (hheap : ∀ (arc : Arc) (image : CachedImage), s.store.heap[arc]? = some image →
      s'.store.heap[arc]? = some image)
    (hcarries : Carries s.calls s'.calls) (hnone : NoneWrote s.calls s'.calls)
    (hholders : ∀ file, holders file log' = holders file log) (hwrites : writes log' = writes log) :
    Intact start log' s' := by
  have hpromised : ∀ {file name value}, Promised start log' s'.calls file name value →
      Promised start log s.calls file name value :=
    fun hnew => hnew.mono (fun _ hmem => hwrites ▸ hmem) hnone
  refine ⟨?_, ?_, ?_, ?_⟩
  · rw [hdisk, h.links]
  · intro file name value hnew
    rw [hdisk]
    exact h.stored file name value (hpromised hnew)
  · intro file source hmem
    rw [hholders] at hmem
    exact (h.copies file source hmem).mono (fun arc image _ himage _ _ => hheap arc image himage)
      hcarries fun _ _ => hpromised
  · intro call hcall path hwritten
    obtain ⟨earlier, hearlier, hpath, hname, -⟩ := hnone call hcall path hwritten
    rw [hwrites, ← hname]
    exact h.named earlier hearlier path hpath

/-- A read: what a file is to hold is in the copy. -/
theorem Intact.read (h : Intact start log s) (hcopy : Copies start log s file source) :
    Intact start (log ++ [.read file source]) s := by
  have hwrites : writes (log ++ [.read file source]) = writes log := by
    rw [writes_append]
    exact List.append_nil _
  have hpromised : ∀ {file' name value},
      Promised start (log ++ [.read file source]) s.calls file' name value →
      Promised start log s.calls file' name value :=
    fun hnew => hnew.mono (fun _ hmem => hwrites ▸ hmem) (noneWrote_refl s.calls)
  refine ⟨h.links, fun f name value hnew => h.stored f name value (hpromised hnew), ?_, ?_⟩
  · intro f other hmem
    have hold : Copies start log s f other := by
      rw [holders_append, hold] at hmem
      split at hmem
      · next hf =>
          rcases List.mem_cons.mp hmem with rfl | hmem
          · exact hf ▸ hcopy
          · exact h.copies f other hmem
      · exact h.copies f other hmem
    exact hold.mono (fun _ _ _ himage _ _ => himage) (carries_refl _) fun _ _ => hpromised
  · intro call hcall path hwritten
    rw [hwrites]
    exact h.named call hcall path hwritten

/-- The record a file holds has what it is to hold. -/
theorem Intact.keeps_stored (h : Intact start log s) {document : ExposureDocument}
    (hread : s.disk.sidecars file = .ok document) : Keeps start log s.calls file document := by
  intro name value hpromised
  obtain ⟨stored, hstored, hsection⟩ := h.stored file name value hpromised
  cases hread.symm.trans hstored
  exact hsection

/-- Touches of the cache change nothing of what was read and written. -/
theorem Intact.touched (h : Intact start log s) (touches : List (Touch DocumentId)) :
    Intact start (log ++ touches.map .touched) s :=
  h.quiet rfl (fun _ _ himage => himage) (carries_refl _) (noneWrote_refl _)
    (fun file => holders_touched file log touches) (writes_touched log touches)

/-- The cache and the images on their way change nothing of the copies. -/
theorem Intact.cache (h : Intact start log s) (inner : CacheInner) (more : List CachedImage)
    (loading : List (DocumentId × Arc)) :
    Intact start log ⟨s.disk, ⟨s.store.heap ++ more, inner⟩, loading, s.calls⟩ := by
  refine h.quiet rfl (fun arc image himage => ?_) (carries_refl _) (noneWrote_refl _) (fun _ => rfl) rfl
  have hlt := (List.getElem?_eq_some_iff.mp himage).1
  show (s.store.heap ++ more)[arc]? = some image
  rw [List.getElem?_append_left hlt, himage]

end Quiet

/-! ## Writes -/

section Write

variable {start : Disk} {log : List Record} {s s' : World} {file : Path} {source : Source}

theorem writes_wrote (log : List Record) (file : Path) (source : Source) (name : String) :
    writes (log ++ [.wrote file source name]) = writes log ++ [(file, name)] :=
  writes_append log _

/-- After a write: the section just written, or an earlier promise of another section. -/
theorem promised_wrote (h : Intact start log s) {index : Nat} {call : Call} {phase : Phase}
    (hphase : ∀ path, phase.written = some path → start.realPath path = file)
    (hfresh : (file, call.name) ∉ writes log) {file' : Path} {name : String} {value : Value}
    (hnew : Promised start (log ++ [.wrote file source call.name])
      (s.calls.set index { call with phase }) file' name value) :
    phase.written ≠ none ∧ file' = file ∧ name = call.name ∧ value = call.value ∨
      Promised start log s.calls file' name value ∧ (file', name) ≠ (file, call.name) := by
  cases hnew with
  | before hread hsection hkept =>
    rw [writes_wrote, List.mem_append, not_or] at hkept
    exact .inr ⟨.before hread hsection hkept.1, fun heq => hkept.2 (List.mem_singleton.mpr heq)⟩
  | @call other path hmem hwritten hfile hname hvalue =>
    rcases List.mem_or_eq_of_mem_set hmem with hmem | rfl
    · have hwas := h.named other hmem path hwritten
      rw [hfile, hname] at hwas
      exact .inr ⟨.call hmem hwritten hfile hname hvalue, fun heq => hfresh (heq ▸ hwas)⟩
    · refine .inl ⟨?_, hfile.symm.trans (hphase path hwritten), hname.symm, hvalue.symm⟩
      intro hnone
      cases hnone.symm.trans hwritten

/-- A record with the section set has what the file is to hold after the write. -/
theorem keeps_withSection (h : Intact start log s) {index : Nat} {call : Call} {phase : Phase}
    (hphase : ∀ path, phase.written = some path → start.realPath path = file)
    (hfresh : (file, call.name) ∉ writes log) {document : ExposureDocument}
    (hkeeps : Keeps start log s.calls file document) :
    Keeps start (log ++ [.wrote file source call.name]) (s.calls.set index { call with phase }) file
      (document.withSection call.name call.value) := by
  intro name value hnew
  rcases promised_wrote h hphase hfresh hnew with ⟨-, -, rfl, rfl⟩ | ⟨hold, hne⟩
  · exact Assoc.lookup_insert_self _ _ _
  · have hname : name ≠ call.name := fun heq => hne (heq ▸ rfl)
    show (Assoc.insert call.name call.value document.sections).lookup name = some value
    rw [Assoc.lookup_insert_of_ne _ _ hname]
    exact hkeeps name value hold

/-- A write of a sidecar by a call that then takes a phase. -/
theorem Intact.wrote (h : Intact start log s) {index : Nat} {call : Call} {phase : Phase}
    {document : ExposureDocument} (hcall : s.calls[index]? = some call)
    (hphase : ∀ path, phase.written = some path → start.realPath path = file)
    (hfresh : (file, call.name) ∉ writes log)
    (hstep : (∃ wrote, phase = .returned wrote) ∨ ¬ call.phase.Holding)
    (hdisk : s'.disk = s.disk.write file (document.withSection call.name call.value))
    (hcalls : s'.calls = s.calls.set index { call with phase })
    (hheap : ∀ (arc : Arc) (image : CachedImage) (path : Path), s.store.heap[arc]? = some image →
      sidecarPathFor image.fitsPath = some path → start.realPath path ≠ file →
      s'.store.heap[arc]? = some image)
    (hkeeps : Keeps start log s.calls file document)
    (hcopy : Copies start (log ++ [.wrote file source call.name]) s' file source) :
    Intact start (log ++ [.wrote file source call.name]) s' := by
  have hothers : ∀ {file' name value}, file' ≠ file →
      Promised start (log ++ [.wrote file source call.name]) s'.calls file' name value →
      Promised start log s.calls file' name value := by
    intro file' name value hne hnew
    rw [hcalls] at hnew
    rcases promised_wrote h hphase hfresh hnew with ⟨-, heq, -⟩ | ⟨hold, -⟩
    · exact absurd heq hne
    · exact hold
  refine ⟨?_, ?_, ?_, ?_⟩
  · rw [hdisk]
    exact h.links
  · intro file' name value hnew
    rw [hdisk]
    by_cases hfile : file' = file
    · subst hfile
      rw [hcalls] at hnew
      exact ⟨_, Function.update_self _ _ _, keeps_withSection h hphase hfresh hkeeps _ _ hnew⟩
    · obtain ⟨stored, hstored, hsection⟩ := h.stored file' name value (hothers hfile hnew)
      refine ⟨stored, ?_, hsection⟩
      show Function.update s.disk.sidecars file _ file' = _
      rw [Function.update_of_ne hfile]
      exact hstored
  · intro file' other hmem
    rw [holders_append, hold] at hmem
    split at hmem
    · next hfile =>
        subst hfile
        cases List.mem_singleton.mp hmem
        exact hcopy
    · next hfile =>
        refine (h.copies file' other hmem).mono (fun arc image path himage hpath heq => ?_) ?_
          fun _ _ => hothers (Ne.symm hfile)
        · exact hheap arc image path himage hpath fun heq' => hfile (heq'.symm.trans heq)
        · rw [hcalls]
          exact carries_set hcall hstep
  · intro other hother path hwritten
    rw [writes_wrote]
    rw [hcalls] at hother
    rcases List.mem_or_eq_of_mem_set hother with hother | rfl
    · exact List.mem_append_left _ (h.named other hother path hwritten)
    · rw [hphase path hwritten]
      exact List.mem_append_right _ (List.mem_singleton.mpr rfl)

/-- The record a write starts from is its holder's copy. -/
theorem copyAt_keeps {index : Nat} {call : Call} {path : Path} {document : ExposureDocument}
    (hcall : s.calls[index]? = some call) (hcopy : s.copyAt index call = some (source, path, document))
    (h : Copies start log s file source) : Keeps start log s.calls file document := by
  rw [World.copyAt] at hcopy
  split at hcopy
  · obtain ⟨image, himage, hrest⟩ := Option.bind_eq_some_iff.mp hcopy
    obtain ⟨_, _, heq⟩ := Option.map_eq_some_iff.mp hrest
    cases heq
    cases h with
    | entry himage' _ _ hkeeps =>
      cases himage.symm.trans himage'
      exact hkeeps
  · next hphase =>
      obtain ⟨_, _, heq⟩ := Option.map_eq_some_iff.mp hcopy
      cases heq
      cases h with
      | writing hcall' hphase' hkeeps =>
        cases hcall.symm.trans hcall'
        cases hphase.symm.trans hphase'
        exact hkeeps
      | returned hcall' hphase' =>
        cases hcall.symm.trans hcall'
        cases hphase.symm.trans hphase'
  · cases hcopy

end Write

/-! ## Runs -/

section Runs

variable [Crates] {cache : ImageCache} {start : Disk} {log more : List Record} {s s' : World}

omit [Crates] in
theorem start_intact (start : Disk) : Intact start [] (World.start start) where
  links := rfl
  stored file name value h := by
    cases h with
    | before hread hsection _ => exact ⟨_, hread, hsection⟩
    | call hmem => exact absurd hmem List.not_mem_nil
  copies _ _ h := absurd h List.not_mem_nil
  named _ h := absurd h List.not_mem_nil

omit [Crates] in
/-- A captured frame's record is a copy if its sidecar still holds it. -/
theorem Intact.captured (h : Intact start log s) (image : CachedImage) :
    Intact start (log ++ (s.copied image).toList.map (.read · (.entry s.store.heap.length)))
      (s.alloc image) := by
  have halloc : Intact start log (s.alloc image) := h.cache s.store.inner [image] s.loading
  cases hcopied : s.copied image with
  | none =>
    show Intact start (log ++ []) _
    rw [List.append_nil]
    exact halloc
  | some file =>
    obtain ⟨path, hpath, hrest⟩ := Option.bind_eq_some_iff.mp hcopied
    split at hrest
    · next hread =>
        cases hrest
        have hfile : start.realPath path = s.disk.realPath path := by rw [h.links]
        have hlast : (s.store.heap ++ [image])[s.store.heap.length]? = some image :=
          List.getElem?_concat_length
        exact halloc.read (.entry hlast hpath hfile (halloc.keeps_stored hread))
    · cases hrest

/-- The image of a pair has the pair's record. -/
theorem imageOfCandidates_copy {disk : Disk} {id : DocumentId} {fitsPath : Path} {image : CachedImage}
    (h : imageOfCandidates disk id [fitsPath] = some image) :
    image.fitsPath = fitsPath ∧ confirmPair disk fitsPath (some id) = some image.document := by
  rcases candidate_cases disk id fitsPath with hpassed | hstops | ⟨document, maxAdu, frame, husable⟩
  · rw [imageOfCandidates_passedOver hpassed] at h
    cases h
  · rw [imageOfCandidates_stops hstops] at h
    cases h
  · rw [imageOfCandidates, husable.confirmed] at h
    simp only [husable.maxAdu, husable.readable, if_pos husable.dimensions] at h
    obtain ⟨cp, -, rfl⟩ := Option.map_eq_some_iff.mp h
    exact ⟨rfl, husable.confirmed⟩

omit [Crates] in
/-- What a confirmed pair's sidecar holds. -/
theorem sidecar_of_confirmed {disk : Disk} {fitsPath path : Path} {id : DocumentId}
    {document : ExposureDocument} (hpath : sidecarPathFor fitsPath = some path)
    (h : confirmPair disk fitsPath (some id) = some document) :
    disk.sidecars (disk.realPath path) = .ok document := by
  obtain ⟨path', hpath', -, hread, -⟩ := confirmPair_eq_some.mp h
  cases hpath.symm.trans hpath'
  exact hread

/-- One step. -/
theorem moves_intact {i : Input} (h : Intact start log s) (hcurrent : FromCurrent log s i)
    (hmoves : World.Moves cache s i s' more) : Intact start (log ++ more) s' := by
  have hlinks : ∀ path, start.realPath path = s.disk.realPath path := fun path => by rw [h.links]
  cases hmoves with
  | @capture _ _ _ _ _ document image hmade =>
    rw [← List.append_assoc]
    have hcache := (h.captured image).cache
      (cache.insert (s.alloc image).store.heap document.id s.store.heap.length s.store.inner).1 []
      s.loading
    rw [List.append_nil] at hcache
    exact hcache.touched _
  | @rehydrate documentId fitsPath path image hpath hmade =>
    have halloc := h.cache s.store.inner [image] (s.loading ++ [(documentId, s.store.heap.length)])
    obtain ⟨rfl, hconfirmed⟩ := imageOfCandidates_copy hmade
    have hlast : (s.store.heap ++ [image])[s.store.heap.length]? = some image :=
      List.getElem?_concat_length
    exact halloc.read
      (.entry hlast hpath (hlinks path) (halloc.keeps_stored (sidecar_of_confirmed hpath hconfirmed)))
  | @insertLoaded index documentId arc hloaded =>
    have hcache := h.cache (cache.insert s.store.heap documentId arc s.store.inner).1 []
      (s.loading.eraseIdx index)
    rw [List.append_nil] at hcache
    exact hcache.touched _
  | get documentId =>
    have hcache := h.cache (ImageCache.get documentId s.store.inner).2.1 [] s.loading
    rw [List.append_nil] at hcache
    exact hcache.touched _
  | putSection documentId name value resolved =>
    have hphase : (s.entryFor (ImageCache.get documentId s.store.inner).1 resolved).written = none := by
      unfold World.entryFor
      split
      · rfl
      · split
        · split <;> rfl
        · rfl
    have hquiet : Intact start log { s with
        calls := s.calls ++ [⟨documentId, name, value, resolved, s.entryFor _ resolved⟩] } :=
      h.quiet rfl (fun _ _ himage => himage) (carries_append _ _) (noneWrote_append _ hphase)
        (fun _ => rfl) rfl
    have hcache := hquiet.cache (ImageCache.get documentId s.store.inner).2.1 [] s.loading
    rw [List.append_nil] at hcache
    exact hcache.touched _
  | gaveUp hcall hunpaid =>
    rw [List.append_nil]
    refine h.quiet rfl (fun _ _ himage => himage) (carries_set hcall (.inl ⟨none, rfl⟩))
      (noneWrote_set hcall fun path hpath => ?_) (fun _ => rfl) rfl
    cases hpath
  | @found index call fitsPath path document hcall hphase hpath hconfirmed =>
    have hnot : ¬ call.phase.Holding := by
      rw [hphase]
      rintro (⟨_, _, heq⟩ | ⟨_, heq⟩) <;> cases heq
    have hquiet : Intact start log (s.setPhase index call (.writing fitsPath document)) :=
      h.quiet rfl (fun _ _ himage => himage) (carries_set hcall (.inr hnot))
        (noneWrote_set hcall fun path hpath => by cases hpath) (fun _ => rfl) rfl
    have hlt := (List.getElem?_eq_some_iff.mp hcall).1
    have hset : (s.setPhase index call (.writing fitsPath document)).calls[index]? =
        some { call with phase := .writing fitsPath document } := List.getElem?_set_self hlt
    exact hquiet.read
      (.writing hset rfl (hquiet.keeps_stored (sidecar_of_confirmed hpath hconfirmed)))
  | @wroteCached index call arc image path document hcall hphase himage hpath hwritten =>
    subst hwritten
    have hcopyAt : s.copyAt index call = some (.entry arc, path, image.document) := by
      simp [World.copyAt, hphase, himage, hpath]
    obtain ⟨hholder, hfresh⟩ := hcurrent call hcall _ hcopyAt
    have hkeeps := copyAt_keeps hcall hcopyAt (h.copies _ _ hholder)
    have hlt := (List.getElem?_eq_some_iff.mp himage).1
    have howing : ∀ p, (Phase.owing (sizeDelta (Crates.jsonLen
        (image.document.withSection call.name call.value)) image.jsonNbytes) path).written = some p →
        start.realPath p = s.disk.realPath path := fun p hp => Option.some.inj hp ▸ hlinks path
    have hnot : ¬ call.phase.Holding := by
      rw [hphase]
      rintro (⟨_, _, heq⟩ | ⟨_, heq⟩) <;> cases heq
    refine h.wrote hcall howing hfresh (.inr hnot) rfl rfl ?_ hkeeps ?_
    · intro other image' path' himage' hpath' hne
      have hother : arc ≠ other := by
        rintro rfl
        cases himage.symm.trans himage'
        cases hpath.symm.trans hpath'
        exact hne (hlinks path)
      exact (List.getElem?_set_ne hother).trans himage'
    · exact .entry (List.getElem?_set_self hlt) hpath (hlinks path)
        (keeps_withSection h howing hfresh hkeeps)
  | @wroteBeside index call fitsPath path document hcall hphase hpath =>
    have hcopyAt : s.copyAt index call = some (.call index, path, document) := by
      simp [World.copyAt, hphase, hpath]
    obtain ⟨hholder, hfresh⟩ := hcurrent call hcall _ hcopyAt
    have hkeeps := copyAt_keeps hcall hcopyAt (h.copies _ _ hholder)
    have hlt := (List.getElem?_eq_some_iff.mp hcall).1
    have hreturned : ∀ p, (Phase.returned (some path)).written = some p →
        start.realPath p = s.disk.realPath path := fun p hp => Option.some.inj hp ▸ hlinks path
    refine h.wrote hcall hreturned hfresh (.inl ⟨_, rfl⟩) rfl rfl
      (fun _ _ _ himage _ _ => himage) hkeeps ?_
    exact .returned (List.getElem?_set_self hlt) rfl
  | @renamed index call source path document hcall hunpaid hcopyAt =>
    obtain ⟨hholder, hfresh⟩ := hcurrent call hcall _ hcopyAt
    have hcopy := h.copies _ _ hholder
    have hkeeps := copyAt_keeps hcall hcopyAt hcopy
    have hnothing : ∀ p, (Phase.returned none).written = some p →
        start.realPath p = s.disk.realPath path := fun p hp => by cases hp
    refine h.wrote hcall hnothing hfresh (.inl ⟨_, rfl⟩) rfl rfl
      (fun _ _ _ himage _ _ => himage) hkeeps ?_
    refine hcopy.mono (fun _ _ _ himage _ _ => himage) (carries_set hcall (.inl ⟨none, rfl⟩)) ?_
    intro name value hnew
    rcases promised_wrote h hnothing hfresh hnew with ⟨hwrote, -⟩ | ⟨hold, -⟩
    · exact absurd rfl hwrote
    · exact hold
  | @adjust index call delta path hcall hphase =>
    have hwritten : call.phase.written = some path := by rw [hphase]; rfl
    have hquiet : Intact start log (s.setPhase index call (.returned (some path))) :=
      h.quiet rfl (fun _ _ himage => himage) (carries_set hcall (.inl ⟨_, rfl⟩))
        (noneWrote_set hcall fun p hp => hwritten.trans hp) (fun _ => rfl) rfl
    have hcache := hquiet.cache (cache.adjustBytes s.store.heap delta s.store.inner).1 [] s.loading
    rw [List.append_nil] at hcache
    exact hcache.touched _

end Runs

namespace Evaluation

attribute [local instance] crates

instance (log : List Record) (s : World) (index : Nat) : Decidable (FromCurrent log s (.write index .ok)) :=
  inferInstanceAs (Decidable (∀ call ∈ s.calls[index]?, ∀ copy ∈ s.copyAt index call,
    copy.1 ∈ holders (s.disk.realPath copy.2.1) log ∧
      (s.disk.realPath copy.2.1, call.name) ∉ writes log))

def sidecarPath : Path := ["/data", "550e8400.json"]

def solve : Input := .putSection documentId "plate_solve" (.bool true) none

end Evaluation

end RustyPhoton.Rp.Persistence
