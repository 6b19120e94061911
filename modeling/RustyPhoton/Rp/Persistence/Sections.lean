import RustyPhoton.Lib.Transition
import RustyPhoton.Rp.Persistence.Cache

/-!
# Section updates

After `put_section` and `put_section_at` of `cache.rs`. Captures, lookups and section updates run side
by side; each step is one section under a lock, one read of a sidecar or one write of one. A section
update holds its entry by reference: from the lookup on, the cache may evict or replace that entry.
-/

namespace RustyPhoton.Rp.Persistence

open Lib
open Lib.Recency (Touch Tracks)

variable [Crates]

/-- Where a call of `put_section` or `put_section_at` is. -/
inductive Phase where
  /-- It has the cached entry. -/
  | cached (image : Arc)
  /-- It looks for the pair on disk. -/
  | looking
  /-- It has read and confirmed the pair. -/
  | writing (fitsPath : Path) (document : ExposureDocument)
  /-- The entry and its sidecar are written, and the total is not adjusted yet. -/
  | owing (delta : Int) (sidecarPath : Path)
  /-- It has returned: with the sidecar it wrote, or with an error. -/
  | returned (wrote : Option Path)

structure Call where
  documentId : DocumentId
  name : String
  value : Value
  /-- The FITS file a `put_section_at` was resolved to. -/
  resolved : Option Path
  phase : Phase

/-- How a write of a sidecar ends: a file that was renamed into place may still fail to sync. -/
inductive Outcome where
  | ok
  | failed
  | renamed

structure World where
  disk : Disk
  store : Store
  /-- Images that `resolve` has read and not inserted yet. -/
  loading : List (DocumentId × Arc)
  calls : List Call

inductive Input where
  /-- `capture` has written the pair and inserts the frame. -/
  | capture (pixels : CachedPixels) (width height : Nat) (fitsPath : Path) (maxAdu : Nat)
      (document : ExposureDocument)
  /-- `resolve` reads a pair. -/
  | rehydrate (documentId : DocumentId) (fitsPath : Path)
  | insertLoaded (index : Nat)
  | get (documentId : DocumentId)
  | putSection (documentId : DocumentId) (name : String) (value : Value) (resolved : Option Path)
  /-- The search on disk ends, with the FITS file that confirmed. -/
  | look (call : Nat) (fitsPath : Option Path)
  | write (call : Nat) (outcome : Outcome)
  | adjust (call : Nat)

/-- Who holds a copy of a record. -/
inductive Source where
  | entry (image : Arc)
  | call (index : Nat)
  deriving DecidableEq

/-- What the log keeps: the keys' uses and evictions, and the reads and writes of sidecars. -/
inductive Record where
  | touched (t : Touch DocumentId)
  | read (file : Path) (source : Source)
  | wrote (file : Path) (source : Source) (name : String)
  deriving DecidableEq

def i64Max : Nat := 2 ^ 63 - 1

/-- The signed change of a size; a size beyond `i64::MAX` counts as that. -/
def sizeDelta (new old : Nat) : Int := (min new i64Max : Nat) - (min old i64Max : Nat)

def ExposureDocument.withSection (document : ExposureDocument) (name : String) (value : Value) :
    ExposureDocument :=
  { document with sections := Assoc.insert name value document.sections }

/-- Put the prior value of a section back, or take the section out. -/
def ExposureDocument.rollback (document : ExposureDocument) (name : String) (prior : Option Value) :
    ExposureDocument :=
  match prior with
  | some value => document.withSection name value
  | none => { document with sections := Assoc.erase name document.sections }

def Disk.write (disk : Disk) (file : Path) (document : ExposureDocument) : Disk :=
  { disk with sidecars := Function.update disk.sidecars file (.ok document) }

namespace World

def setPhase (s : World) (index : Nat) (call : Call) (phase : Phase) : World :=
  { s with calls := s.calls.set index { call with phase } }

def writeDisk (s : World) (file : Path) (document : ExposureDocument) : World :=
  { s with disk := s.disk.write file document }

def setImage (s : World) (arc : Arc) (image : CachedImage) : World :=
  { s with store := { s.store with heap := s.store.heap.set arc image } }

/-- `put_section_cached`, up to the change of the total: the entry's lock is held throughout. -/
def putSectionCached (s : World) (index : Nat) (call : Call) (arc : Arc) (image : CachedImage)
    (outcome : Outcome) : World × List Record :=
  match sidecarPathFor image.fitsPath with
  | none => (s.setPhase index call (.returned none), [])
  | some sidecarPath =>
      let file := s.disk.realPath sidecarPath
      let prior := image.document.sections.lookup call.name
      let document := image.document.withSection call.name call.value
      let undone := { image with document := document.rollback call.name prior }
      match outcome with
      | .ok =>
          let newBytes := Crates.jsonLen document
          (((s.writeDisk file document).setImage arc
              { image with document, jsonNbytes := newBytes }).setPhase index call
              (.owing (sizeDelta newBytes image.jsonNbytes) sidecarPath),
            [.wrote file (.entry arc) call.name])
      | .failed => ((s.setImage arc undone).setPhase index call (.returned none), [])
      | .renamed =>
          (((s.writeDisk file document).setImage arc undone).setPhase index call
              (.returned none),
            [.wrote file (.entry arc) call.name])

/-- `write_section_beside`. -/
def writeSectionBeside (s : World) (index : Nat) (call : Call) (fitsPath : Path)
    (document : ExposureDocument) (outcome : Outcome) : World × List Record :=
  match sidecarPathFor fitsPath with
  | none => (s.setPhase index call (.returned none), [])
  | some sidecarPath =>
      let file := s.disk.realPath sidecarPath
      let document := document.withSection call.name call.value
      match outcome with
      | .ok =>
          ((s.writeDisk file document).setPhase index call (.returned (some sidecarPath)),
            [.wrote file (.call index) call.name])
      | .failed => (s.setPhase index call (.returned none), [])
      | .renamed =>
          ((s.writeDisk file document).setPhase index call (.returned none),
            [.wrote file (.call index) call.name])

/-- `insert`, of an image of the store. -/
def insert (cache : ImageCache) (s : World) (key : DocumentId) (arc : Arc) : World × List Record :=
  let (inner, touches) := cache.insert s.store.heap key arc s.store.inner
  ({ s with store := { s.store with inner } }, touches.map .touched)

def alloc (s : World) (image : CachedImage) : World :=
  { s with store := { s.store with heap := s.store.heap ++ [image] } }

/-- The entry a section update takes: the cached one, if it is of the same file. -/
def entryFor (s : World) (found : Option Arc) (resolved : Option Path) : Phase :=
  match found with
  | none => .looking
  | some arc =>
      match s.store.heap[arc]? with
      | some image => if resolved.all (s.disk.sameFile image.fitsPath) then .cached arc else .looking
      | none => .looking

/-- The image's record is that of the sidecar beside its FITS file. -/
def copied (s : World) (image : CachedImage) : Option Path :=
  (sidecarPathFor image.fitsPath).bind fun sidecarPath =>
    if s.disk.readSidecar sidecarPath = .ok image.document then some (s.disk.realPath sidecarPath)
    else none

def step (cache : ImageCache) (s : World) : Input → Option (World × List Record)
  | .capture pixels width height fitsPath maxAdu document =>
      let image := CachedImage.new pixels width height fitsPath maxAdu document
      let arc := s.store.heap.length
      let (s', log) := (s.alloc image).insert cache document.id arc
      some (s', (s.copied image).toList.map (.read · (.entry arc)) ++ log)
  | .rehydrate documentId fitsPath =>
      match sidecarPathFor fitsPath, imageOfCandidates s.disk documentId [fitsPath] with
      | some sidecarPath, some image =>
          let arc := s.store.heap.length
          some ({ s.alloc image with loading := s.loading ++ [(documentId, arc)] },
            [.read (s.disk.realPath sidecarPath) (.entry arc)])
      | _, _ => none
  | .insertLoaded index =>
      match s.loading[index]? with
      | some (documentId, arc) =>
          some ({ s with loading := s.loading.eraseIdx index }.insert cache documentId arc)
      | none => none
  | .get documentId =>
      let (_, inner, touches) := ImageCache.get documentId s.store.inner
      some ({ s with store := { s.store with inner } }, touches.map .touched)
  | .putSection documentId name value resolved =>
      let (found, inner, touches) := ImageCache.get documentId s.store.inner
      let call := ⟨documentId, name, value, resolved, s.entryFor found resolved⟩
      some ({ s with store := { s.store with inner }, calls := s.calls ++ [call] },
        touches.map .touched)
  | .look index fitsPath =>
      match s.calls[index]? with
      | some call =>
          match call.phase, fitsPath with
          | .looking, none => some (s.setPhase index call (.returned none), [])
          | .looking, some fitsPath =>
              match sidecarPathFor fitsPath, confirmPair s.disk fitsPath (some call.documentId) with
              | some sidecarPath, some document =>
                  if call.resolved.all (· = fitsPath) then
                    some (s.setPhase index call (.writing fitsPath document),
                      [.read (s.disk.realPath sidecarPath) (.call index)])
                  else none
              | _, _ => none
          | _, _ => none
      | none => none
  | .write index outcome =>
      match s.calls[index]? with
      | some call =>
          match call.phase with
          | .cached arc =>
              match s.store.heap[arc]? with
              | some image => some (s.putSectionCached index call arc image outcome)
              | none => none
          | .writing fitsPath document =>
              some (s.writeSectionBeside index call fitsPath document outcome)
          | _ => none
      | none => none
  | .adjust index =>
      match s.calls[index]? with
      | some call =>
          match call.phase with
          | .owing delta sidecarPath =>
              let (inner, touches) := cache.adjustBytes s.store.heap delta s.store.inner
              some ({ s with store := { s.store with inner } }.setPhase index call
                  (.returned (some sidecarPath)),
                touches.map .touched)
          | _ => none
      | none => none

/-- Nothing cached and nothing going on. -/
def start (disk : Disk) : World := ⟨disk, ⟨[], ImageCache.empty⟩, [], []⟩

/-! ## What a step does -/

omit [Crates] in
theorem rollback_withSection (document : ExposureDocument) (name : String) (value : Value) :
    (document.withSection name value).rollback name (document.sections.lookup name) = document := by
  cases hprior : document.sections.lookup name with
  | some prior =>
    show (document.withSection name value).withSection name prior = document
    rw [ExposureDocument.withSection, ExposureDocument.withSection, Assoc.insert_insert_self,
      Assoc.insert_of_lookup hprior]
  | none =>
    show { document with sections := Assoc.erase name (Assoc.insert name value document.sections) } = _
    rw [Assoc.erase_insert _ hprior]

omit [Crates] in
theorem setImage_self {s : World} {arc : Arc} {image : CachedImage}
    (h : s.store.heap[arc]? = some image) : s.setImage arc image = s := by
  obtain ⟨hlt, himage⟩ := List.getElem?_eq_some_iff.mp h
  rw [setImage, ← himage, List.set_getElem_self]

/-- The copy of the record that a call's write starts from: its holder, the sidecar and the record. -/
def copyAt (s : World) (index : Nat) (call : Call) : Option (Source × Path × ExposureDocument) :=
  match call.phase with
  | .cached arc =>
      (s.store.heap[arc]?).bind fun image =>
        (sidecarPathFor image.fitsPath).map fun path => (.entry arc, path, image.document)
  | .writing fitsPath document =>
      (sidecarPathFor fitsPath).map fun path => (.call index, path, document)
  | _ => none

/-- The steps, each with what it found. -/
inductive Moves (cache : ImageCache) (s : World) : Input → World → List Record → Prop where
  | capture (pixels : CachedPixels) (width height : Nat) (fitsPath : Path) (maxAdu : Nat)
      (document : ExposureDocument) {image : CachedImage}
      (made : image = .new pixels width height fitsPath maxAdu document) :
      Moves cache s (.capture pixels width height fitsPath maxAdu document)
        ((s.alloc image).insert cache document.id s.store.heap.length).1
        ((s.copied image).toList.map (.read · (.entry s.store.heap.length)) ++
          ((s.alloc image).insert cache document.id s.store.heap.length).2)
  | rehydrate {documentId : DocumentId} {fitsPath sidecarPath : Path} {image : CachedImage}
      (path : sidecarPathFor fitsPath = some sidecarPath)
      (made : imageOfCandidates s.disk documentId [fitsPath] = some image) :
      Moves cache s (.rehydrate documentId fitsPath)
        { s.alloc image with loading := s.loading ++ [(documentId, s.store.heap.length)] }
        [.read (s.disk.realPath sidecarPath) (.entry s.store.heap.length)]
  | insertLoaded {index : Nat} {documentId : DocumentId} {arc : Arc}
      (loaded : s.loading[index]? = some (documentId, arc)) :
      Moves cache s (.insertLoaded index)
        ({ s with loading := s.loading.eraseIdx index }.insert cache documentId arc).1
        ({ s with loading := s.loading.eraseIdx index }.insert cache documentId arc).2
  | get (documentId : DocumentId) :
      Moves cache s (.get documentId)
        { s with store := { s.store with inner := (ImageCache.get documentId s.store.inner).2.1 } }
        ((ImageCache.get documentId s.store.inner).2.2.map .touched)
  | putSection (documentId : DocumentId) (name : String) (value : Value) (resolved : Option Path) :
      Moves cache s (.putSection documentId name value resolved)
        { s with
          store := { s.store with inner := (ImageCache.get documentId s.store.inner).2.1 }
          calls := s.calls ++ [⟨documentId, name, value, resolved,
            s.entryFor (ImageCache.get documentId s.store.inner).1 resolved⟩] }
        ((ImageCache.get documentId s.store.inner).2.2.map .touched)
  /-- A search or a write that failed leaves everything as it was. -/
  | gaveUp {i : Input} {index : Nat} {call : Call} (call_eq : s.calls[index]? = some call)
      (unpaid : ∀ delta path, call.phase ≠ .owing delta path) :
      Moves cache s i (s.setPhase index call (.returned none)) []
  | found {index : Nat} {call : Call} {fitsPath sidecarPath : Path} {document : ExposureDocument}
      (call_eq : s.calls[index]? = some call) (phase : call.phase = .looking)
      (path : sidecarPathFor fitsPath = some sidecarPath)
      (confirmed : confirmPair s.disk fitsPath (some call.documentId) = some document) :
      Moves cache s (.look index (some fitsPath))
        (s.setPhase index call (.writing fitsPath document))
        [.read (s.disk.realPath sidecarPath) (.call index)]
  | wroteCached {index : Nat} {call : Call} {arc : Arc} {image : CachedImage} {sidecarPath : Path}
      {document : ExposureDocument} (call_eq : s.calls[index]? = some call)
      (phase : call.phase = .cached arc) (image_eq : s.store.heap[arc]? = some image)
      (path : sidecarPathFor image.fitsPath = some sidecarPath)
      (written : document = image.document.withSection call.name call.value) :
      Moves cache s (.write index .ok)
        (((s.writeDisk (s.disk.realPath sidecarPath) document).setImage arc
            { image with document, jsonNbytes := Crates.jsonLen document }).setPhase index call
            (.owing (sizeDelta (Crates.jsonLen document) image.jsonNbytes) sidecarPath))
        [.wrote (s.disk.realPath sidecarPath) (.entry arc) call.name]
  | wroteBeside {index : Nat} {call : Call} {fitsPath sidecarPath : Path}
      {document : ExposureDocument} (call_eq : s.calls[index]? = some call)
      (phase : call.phase = .writing fitsPath document)
      (path : sidecarPathFor fitsPath = some sidecarPath) :
      Moves cache s (.write index .ok)
        ((s.writeDisk (s.disk.realPath sidecarPath) (document.withSection call.name call.value)).setPhase
          index call (.returned (some sidecarPath)))
        [.wrote (s.disk.realPath sidecarPath) (.call index) call.name]
  /-- A write that was renamed into place and failed to sync: the copy is as it was. -/
  | renamed {index : Nat} {call : Call} {source : Source} {sidecarPath : Path}
      {document : ExposureDocument} (call_eq : s.calls[index]? = some call)
      (unpaid : ∀ delta path, call.phase ≠ .owing delta path)
      (copy : s.copyAt index call = some (source, sidecarPath, document)) :
      Moves cache s (.write index .renamed)
        ((s.writeDisk (s.disk.realPath sidecarPath) (document.withSection call.name call.value)).setPhase
          index call (.returned none))
        [.wrote (s.disk.realPath sidecarPath) source call.name]
  | adjust {index : Nat} {call : Call} {delta : Int} {sidecarPath : Path}
      (call_eq : s.calls[index]? = some call) (phase : call.phase = .owing delta sidecarPath) :
      Moves cache s (.adjust index)
        ({ s with store :=
            { s.store with inner := (cache.adjustBytes s.store.heap delta s.store.inner).1 } }.setPhase
          index call (.returned (some sidecarPath)))
        ((cache.adjustBytes s.store.heap delta s.store.inner).2.map .touched)

variable {cache : ImageCache} {s s' : World} {log : List Record}

theorem putSectionCached_moves {index : Nat} {call : Call} {arc : Arc} {image : CachedImage}
    (hcall : s.calls[index]? = some call) (hphase : call.phase = .cached arc)
    (himage : s.store.heap[arc]? = some image) (outcome : Outcome) :
    Moves cache s (.write index outcome) (s.putSectionCached index call arc image outcome).1
      (s.putSectionCached index call arc image outcome).2 := by
  have hunpaid : ∀ delta path, call.phase ≠ .owing delta path := by simp [hphase]
  unfold putSectionCached
  split
  · exact .gaveUp hcall hunpaid
  · next sidecarPath hpath =>
      cases outcome with
      | ok => exact .wroteCached hcall hphase himage hpath rfl
      | failed =>
        have hundone := rollback_withSection image.document call.name call.value
        simp only [hundone]
        rw [setImage_self himage]
        exact .gaveUp hcall hunpaid
      | renamed =>
        have hundone := rollback_withSection image.document call.name call.value
        have hcopy : s.copyAt index call = some (.entry arc, sidecarPath, image.document) := by
          simp [copyAt, hphase, himage, hpath]
        have hself : (s.writeDisk (s.disk.realPath sidecarPath)
            (image.document.withSection call.name call.value)).setImage arc image =
            s.writeDisk (s.disk.realPath sidecarPath)
              (image.document.withSection call.name call.value) := setImage_self himage
        simp only [hundone]
        rw [hself]
        exact .renamed hcall hunpaid hcopy

theorem writeSectionBeside_moves {index : Nat} {call : Call} {fitsPath : Path}
    {document : ExposureDocument} (hcall : s.calls[index]? = some call)
    (hphase : call.phase = .writing fitsPath document) (outcome : Outcome) :
    Moves cache s (.write index outcome) (s.writeSectionBeside index call fitsPath document outcome).1
      (s.writeSectionBeside index call fitsPath document outcome).2 := by
  have hunpaid : ∀ delta path, call.phase ≠ .owing delta path := by simp [hphase]
  unfold writeSectionBeside
  split
  · exact .gaveUp hcall hunpaid
  · next sidecarPath hpath =>
      cases outcome with
      | ok => exact .wroteBeside hcall hphase hpath
      | failed => exact .gaveUp hcall hunpaid
      | renamed =>
        have hcopy : s.copyAt index call = some (.call index, sidecarPath, document) := by
          simp [copyAt, hphase, hpath]
        exact .renamed hcall hunpaid hcopy

theorem step_moves {i : Input} (h : s.step cache i = some (s', log)) : Moves cache s i s' log := by
  cases i with
  | capture pixels width height fitsPath maxAdu document =>
    cases h
    exact .capture pixels width height fitsPath maxAdu document rfl
  | rehydrate documentId fitsPath =>
    simp only [step] at h
    split at h
    · next hpath hmade =>
        cases h
        exact .rehydrate hpath hmade
    · cases h
  | insertLoaded index =>
    simp only [step] at h
    split at h
    · next hloaded =>
        cases h
        exact .insertLoaded hloaded
    · cases h
  | get documentId =>
    cases h
    exact .get documentId
  | putSection documentId name value resolved =>
    cases h
    exact .putSection documentId name value resolved
  | look index fitsPath =>
    simp only [step] at h
    split at h
    · next call hcall =>
        split at h
        · next hphase =>
            cases h
            exact .gaveUp hcall (by simp [hphase])
        · next fitsPath hphase =>
            split at h
            · next hpath hconfirm =>
                split at h
                · cases h
                  exact .found hcall hphase hpath hconfirm
                · cases h
            · cases h
        · cases h
    · cases h
  | write index outcome =>
    simp only [step] at h
    split at h
    · next call hcall =>
        split at h
        · next hphase =>
            split at h
            · next himage =>
                obtain ⟨rfl, rfl⟩ := Prod.mk.inj (Option.some.inj h)
                exact putSectionCached_moves hcall hphase himage outcome
            · cases h
        · next hphase =>
            obtain ⟨rfl, rfl⟩ := Prod.mk.inj (Option.some.inj h)
            exact writeSectionBeside_moves hcall hphase outcome
        · cases h
    · cases h
  | adjust index =>
    simp only [step] at h
    split at h
    · next call hcall =>
        split at h
        · next hphase =>
            cases h
            exact .adjust hcall hphase
        · cases h
    · cases h

end World

end RustyPhoton.Rp.Persistence
