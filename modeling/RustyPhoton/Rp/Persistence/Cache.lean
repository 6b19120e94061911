import RustyPhoton.Lib.Recency
import RustyPhoton.Rp.Persistence.Document

/-!
# The image cache

After `cache.rs`: entries shared by reference, two budgets, and eviction from the least recently
used end. An entry is an index into a list of images, so that one evicted from the cache lives on in
the hands of whoever still holds it.
-/

namespace RustyPhoton.Rp.Persistence

open Lib Assoc
open Lib.Recency (Touch)

def usizeMax : Nat := 2 ^ 64 - 1

/-- `usize::saturating_add`; the difference of natural numbers saturates on its own. -/
def saturatingAdd (a b : Nat) : Nat := min (a + b) usizeMax

/-- A frame of elements of a size in bytes, row by row, in one allocation. -/
structure Array2 (α : Type) (size : Nat) where
  height : Nat
  width : Nat
  items : List α
  shape : items.length = height * width
  fits : items.length * size ≤ isizeMax

/-- A length along an axis, where an empty axis counts as one. -/
def axisLength (n : Nat) : Nat := if n = 0 then 1 else n

/-- `from_shape_vec`: the axes that are not empty must not overflow an `isize`. -/
def Array2.fromShapeVec {α : Type} {size : Nat} (height width : Nat) (items : List α)
    (fits : items.length * size ≤ isizeMax) : Option (Array2 α size) :=
  if isizeMax < axisLength height * axisLength width then none
  else if h : items.length = height * width then some ⟨height, width, items, h, fits⟩ else none

inductive CachedPixels where
  | u16 (a : Array2 Nat 2)
  | i32 (a : Array2 Int 4)

namespace CachedPixels

/-- Memory footprint of the buffer, in bytes. -/
def nbytes : CachedPixels → Nat
  | u16 a => min (a.items.length * 2) usizeMax
  | i32 a => min (a.items.length * 4) usizeMax

/-- A pixel clamped to what the camera can report. -/
def narrow (maxAdu : Nat) (pixel : Int) : Nat := (max 0 (min pixel maxAdu)).toNat

theorem narrowed_fits {pixels : List Int} (fits : pixels.length * 4 ≤ isizeMax) (maxAdu : Nat) :
    (pixels.map (narrow maxAdu)).length * 2 ≤ isizeMax := by
  rw [List.length_map]
  omega

def fromI32Pixels (pixels : List Int) (fits : pixels.length * 4 ≤ isizeMax)
    (width height maxAdu : Nat) : Option CachedPixels :=
  if maxAdu < 2 ^ 16 then
    (Array2.fromShapeVec height width (pixels.map (narrow maxAdu)) (narrowed_fits fits maxAdu)).map u16
  else (Array2.fromShapeVec height width pixels fits).map i32

end CachedPixels

structure CachedImage where
  pixels : CachedPixels
  width : Nat
  height : Nat
  fitsPath : Path
  maxAdu : Nat
  document : ExposureDocument
  jsonNbytes : Nat

section CachedImage

variable [Crates]

def CachedImage.new (pixels : CachedPixels) (width height : Nat) (fitsPath : Path) (maxAdu : Nat)
    (document : ExposureDocument) : CachedImage :=
  ⟨pixels, width, height, fitsPath, maxAdu, document, Crates.jsonLen document⟩

/-- Total memory footprint counted against the cache budget. -/
def CachedImage.nbytes (image : CachedImage) : Nat :=
  saturatingAdd image.pixels.nbytes image.jsonNbytes

/-- Disk-resolve to a full image, candidate by candidate. -/
def imageOfCandidates (disk : Disk) (fullUuid : String) : List Path → Option CachedImage
  | [] => none
  | fitsPath :: rest =>
      match confirmPair disk fitsPath (some fullUuid) with
      | none => imageOfCandidates disk fullUuid rest
      | some doc =>
          match doc.maxAdu with
          | none => none
          | some maxAdu =>
              match disk.readFitsPixels fitsPath with
              | .error _ => imageOfCandidates disk fullUuid rest
              | .ok ⟨pixels, width, height, fits⟩ =>
                  if width < 2 ^ 32 ∧ height < 2 ^ 32 then
                    -- a pixel count that does not match ends the whole lookup
                    (CachedPixels.fromI32Pixels pixels fits width height maxAdu).map fun cp =>
                      .new cp width height fitsPath maxAdu doc
                  else imageOfCandidates disk fullUuid rest

def diskResolveToCachedImage (disk : Disk) (dir : Path) (depth : Nat) (fullUuid : String) :
    Option CachedImage :=
  imageOfCandidates disk fullUuid (findCandidatesBySuffix disk dir depth fullUuid)

end CachedImage

/-- The number an image is known by; a reference keeps it alive. -/
abbrev Arc := Nat

abbrev DocumentId := String

/-- `order` is the recency: its front is the next to evict, its back the most recently used. -/
structure CacheInner where
  images : List (DocumentId × Arc)
  order : List DocumentId
  bytes : Nat

/-- The images made so far, and the cache. -/
structure Store where
  heap : List CachedImage
  inner : CacheInner

structure ImageCache where
  maxBytes : Nat
  maxImages : Nat
  dataDirectory : Path
  frameDirectoryDepth : Nat

/-- The bytes of the image at a number. -/
def arcNbytes (heap : List CachedImage) (image : Arc) : Nat :=
  (heap[image]?).elim 0 CachedImage.nbytes

namespace ImageCache

/-- `ImageCache::new`: the budget is given in mebibytes. -/
def new (maxMib maxImages : Nat) (dataDirectory : Path) (frameDirectoryDepth : Nat) : ImageCache :=
  ⟨min (maxMib * (1024 * 1024)) usizeMax, maxImages, dataDirectory, frameDirectoryDepth⟩

/-- The cache as it is constructed. -/
def empty : CacheInner := ⟨[], [], 0⟩

variable (cache : ImageCache) (heap : List CachedImage)

/-- One of the budgets is exceeded. -/
def Over (images : List (DocumentId × Arc)) (bytes : Nat) : Prop :=
  cache.maxBytes < bytes ∨ cache.maxImages < images.length
  deriving Decidable

/-- `evict_locked`: pop from the front while a budget is exceeded. -/
def evict : List DocumentId → List (DocumentId × Arc) → Nat → CacheInner × List (Touch DocumentId)
  | [], images, bytes => (⟨images, [], bytes⟩, [])
  | key :: order, images, bytes =>
      if cache.Over images bytes then
        match images.lookup key with
        | some image =>
            let (inner, log) := evict order (erase key images) (bytes - arcNbytes heap image)
            (inner, .evicted key :: log)
        | none => evict order images bytes
      else (⟨images, key :: order, bytes⟩, [])

def evictLocked (inner : CacheInner) : CacheInner × List (Touch DocumentId) :=
  cache.evict heap inner.order inner.images inner.bytes

/-- Take an earlier entry of the key out. -/
def detach (key : DocumentId) (inner : CacheInner) : CacheInner :=
  match inner.images.lookup key with
  | some prev =>
      ⟨erase key inner.images, inner.order.filter (· ≠ key), inner.bytes - arcNbytes heap prev⟩
  | none => inner

/-- Put an entry in, most recently used. -/
def attach (key : DocumentId) (image : Arc) (inner : CacheInner) : CacheInner :=
  ⟨inner.images ++ [(key, image)], inner.order ++ [key],
    saturatingAdd inner.bytes (arcNbytes heap image)⟩

/-- `insert`: an earlier entry of the key is replaced, and the budgets are restored. -/
def insert (key : DocumentId) (image : Arc) (inner : CacheInner) : CacheInner × List (Touch DocumentId) :=
  let (inner, log) := cache.evictLocked heap (attach heap key image (detach heap key inner))
  (inner, .used key :: log)

/-- `get`: a hit becomes the most recently used. -/
def get (key : DocumentId) (inner : CacheInner) : Option Arc × CacheInner × List (Touch DocumentId) :=
  match inner.images.lookup key with
  | some image => (some image, { inner with order := inner.order.filter (· ≠ key) ++ [key] }, [.used key])
  | none => (none, inner, [])

/-- A signed change of the total. -/
def adjusted (delta : Int) (inner : CacheInner) : CacheInner :=
  { inner with
    bytes := if 0 ≤ delta then saturatingAdd inner.bytes delta.natAbs else inner.bytes - delta.natAbs }

/-- `adjust_bytes`: the total is changed, then the budgets are restored. -/
def adjustBytes (delta : Int) (inner : CacheInner) : CacheInner × List (Touch DocumentId) :=
  cache.evictLocked heap (adjusted delta inner)

/-- `resolve`, with no other call in between. -/
def resolve [Crates] (disk : Disk) (documentId : DocumentId) (store : Store) : Option Arc × Store :=
  match get documentId store.inner with
  | (some image, inner, _) => (some image, { store with inner })
  | (none, inner, _) =>
      match diskResolveToCachedImage disk cache.dataDirectory cache.frameDirectoryDepth documentId with
      | none => (none, { store with inner })
      | some image =>
          let heap := store.heap ++ [image]
          let inserted := (cache.insert heap documentId store.heap.length inner).1
          let (found, inner, _) := get documentId inserted
          (found, ⟨heap, inner⟩)

end ImageCache

/-! ## Recency and budgets -/

/-- The keys by recency are the keys there are, each once. -/
structure CacheInner.Ordered (inner : CacheInner) : Prop where
  nodup : inner.order.Nodup
  perm : inner.order.Perm (keys inner.images)

/-- Both budgets hold, or nothing is left to evict. -/
structure ImageCache.Within (cache : ImageCache) (inner : CacheInner) : Prop where
  bytes : inner.bytes ≤ cache.maxBytes ∨ inner.images = []
  images : inner.images.length ≤ cache.maxImages

theorem empty_ordered : ImageCache.empty.Ordered := ⟨List.nodup_nil, .nil⟩

theorem empty_within (cache : ImageCache) : cache.Within ImageCache.empty := ⟨.inr rfl, Nat.zero_le _⟩

namespace CacheInner.Ordered

variable {inner : CacheInner}

theorem keys_nodup (h : inner.Ordered) : (keys inner.images).Nodup := h.perm.nodup_iff.mp h.nodup

variable {key : DocumentId}

theorem mem_order (h : inner.Ordered) :
    key ∈ inner.order ↔ key ∈ keys inner.images :=
  h.perm.mem_iff

/-- What holds of the rest once the front is popped and erased. -/
theorem pop {order : List DocumentId} {images : List (DocumentId × Arc)}
    {bytes : Nat} (h : Ordered ⟨images, key :: order, bytes⟩) (bytes' : Nat) :
    Ordered ⟨erase key images, order, bytes'⟩ := by
  obtain ⟨hnot, hnodup⟩ := List.nodup_cons.mp h.nodup
  refine ⟨hnodup, ?_⟩
  have hfilter := h.perm.filter (· ≠ key)
  have horder : (key :: order).filter (· ≠ key) = order := by
    rw [List.filter_cons_of_neg (by simp), Recency.filter_ne_of_not_mem hnot]
  rw [keys_erase]
  rwa [horder] at hfilter

theorem detach (heap : List CachedImage) (key : DocumentId) (h : inner.Ordered) :
    (ImageCache.detach heap key inner).Ordered := by
  rw [ImageCache.detach]
  split
  · refine ⟨h.nodup.filter _, ?_⟩
    rw [keys_erase]
    exact h.perm.filter _
  · exact h

theorem not_mem_detach (heap : List CachedImage) (key : DocumentId) (h : inner.Ordered) :
    key ∉ (ImageCache.detach heap key inner).order := by
  rw [ImageCache.detach]
  split
  · simp
  · next hnone =>
      rw [h.mem_order, ← lookup_isSome_iff, hnone]
      simp

theorem attach (heap : List CachedImage) (image : Arc) (h : inner.Ordered)
    (hkey : key ∉ inner.order) : (ImageCache.attach heap key image inner).Ordered := by
  refine ⟨?_, ?_⟩
  · show (inner.order ++ [key]).Nodup
    rw [List.nodup_append_comm]
    exact List.nodup_cons.mpr ⟨hkey, h.nodup⟩
  · show (inner.order ++ [key]).Perm (keys (inner.images ++ [(key, image)]))
    rw [keys, List.map_append]
    exact h.perm.append_right _

theorem get (key : DocumentId) (h : inner.Ordered) : (ImageCache.get key inner).2.1.Ordered := by
  rw [ImageCache.get]
  split
  · next image hlookup =>
      have hmem : key ∈ inner.order := by
        rw [h.mem_order, ← lookup_isSome_iff, hlookup]
        rfl
      refine ⟨?_, ?_⟩
      · show (inner.order.filter (· ≠ key) ++ [key]).Nodup
        rw [List.nodup_append_comm]
        exact List.nodup_cons.mpr ⟨by simp, h.nodup.filter _⟩
      · show (inner.order.filter (· ≠ key) ++ [key]).Perm (keys inner.images)
        have herase : inner.order.filter (· ≠ key) = inner.order.erase key := by
          rw [h.nodup.erase_eq_filter]
          exact List.filter_congr fun k _ => by by_cases hk : k = key <;> simp [hk]
        have hcons : (key :: inner.order.filter (· ≠ key)).Perm inner.order := by
          rw [herase]
          exact (List.perm_cons_erase hmem).symm
        exact (List.perm_append_comm.trans hcons).trans h.perm
  · exact h

end CacheInner.Ordered

/-- What an eviction leaves: some keys went from the front, in their order, and nothing else. -/
structure Evicts (images : List (DocumentId × Arc)) (order gone : List DocumentId)
    (result : CacheInner × List (Touch DocumentId)) : Prop where
  order : order = gone ++ result.1.order
  log : result.2 = gone.map .evicted
  images : result.1.images = images.filter fun entry => entry.1 ∉ gone

section Evict

variable (cache : ImageCache) (heap : List CachedImage)

variable {order : List DocumentId} {bytes : Nat}

theorem evict_evicts {images : List (DocumentId × Arc)}
    (h : CacheInner.Ordered ⟨images, order, bytes⟩) :
    (cache.evict heap order images bytes).1.Ordered ∧
      cache.Within (cache.evict heap order images bytes).1 ∧
      ∃ gone, Evicts images order gone (cache.evict heap order images bytes) := by
  induction order generalizing images bytes with
  | nil =>
    have hnil : images = [] := List.map_eq_nil_iff.mp (List.nil_perm.mp h.perm)
    subst hnil
    exact ⟨h, ⟨.inr rfl, Nat.zero_le _⟩, [], rfl, rfl, rfl⟩
  | cons key order ih =>
    rw [ImageCache.evict]
    split
    · obtain ⟨image, hlookup⟩ := exists_lookup (h.mem_order.mp List.mem_cons_self)
      rw [hlookup]
      obtain ⟨hordered, hwithin, gone, hevicts⟩ := ih (h.pop (bytes - arcNbytes heap image))
      refine ⟨hordered, hwithin, key :: gone, ?_, ?_, ?_⟩
      · exact congrArg (key :: ·) hevicts.order
      · exact congrArg (Touch.evicted key :: ·) hevicts.log
      · show (cache.evict heap order (erase key images) (bytes - arcNbytes heap image)).1.images = _
        rw [hevicts.images, erase, List.filter_filter]
        refine List.filter_congr fun entry _ => ?_
        simp only [List.mem_cons, not_or, ne_eq, Bool.decide_and]
        exact Bool.and_comm _ _
    · next hover =>
        rw [ImageCache.Over, not_or, not_lt, not_lt] at hover
        refine ⟨h, ⟨.inl hover.1, hover.2⟩, [], rfl, rfl, ?_⟩
        exact (List.filter_eq_self.mpr fun entry _ => by simp).symm

/-- The bytes of the entries. -/
def total (images : List (DocumentId × Arc)) : Nat :=
  (images.map fun entry => arcNbytes heap entry.2).sum

variable {heap} {images : List (DocumentId × Arc)} {key : DocumentId}

theorem total_erase (heap : List CachedImage) {image : Arc} (hkeys : (keys images).Nodup)
    (hlookup : images.lookup key = some image) :
    total heap images = arcNbytes heap image + total heap (erase key images) := by
  have hperm := (perm_cons_erase hkeys hlookup).map fun entry => arcNbytes heap entry.2
  rw [total, hperm.sum_eq]
  rfl

variable {cache}

/-- The most recently used entry stays if the budgets can hold it alone. -/
theorem mem_evict_last (cache : ImageCache) (heap : List CachedImage)
    (h : CacheInner.Ordered ⟨images, order ++ [key], bytes⟩) :
    key ∈ (cache.evict heap (order ++ [key]) images bytes).1.order ↔
      1 ≤ cache.maxImages ∧ bytes - total heap (erase key images) ≤ cache.maxBytes := by
  induction order generalizing images bytes with
  | nil =>
    obtain ⟨⟨k, image⟩, himages, hk⟩ :=
      List.map_eq_singleton_iff.mp (List.singleton_perm.mp h.perm).symm
    subst himages hk
    have herase : erase k [(k, image)] = [] := by simp [erase]
    have hlookup : List.lookup k [(k, image)] = some image := by simp
    have htotal : total heap [] = 0 := rfl
    rw [herase, htotal, List.nil_append, ImageCache.evict, hlookup]
    simp only [herase, ImageCache.evict, ImageCache.Over, List.length_singleton]
    by_cases hover : cache.maxBytes < bytes ∨ cache.maxImages < 1
    · rw [if_pos hover]
      simp only [List.not_mem_nil, false_iff]
      omega
    · rw [if_neg hover]
      simp only [List.mem_singleton, true_iff]
      omega
  | cons k order ih =>
    obtain ⟨hnot, -⟩ := List.nodup_cons.mp h.nodup
    have hne : k ≠ key := fun heq => hnot (List.mem_append_right _ (by simp [heq]))
    rw [List.cons_append, ImageCache.evict]
    split
    · obtain ⟨image, hlookup⟩ := exists_lookup (h.mem_order.mp List.mem_cons_self)
      have hkeys : (keys (erase key images)).Nodup := by
        rw [keys_erase]
        exact h.keys_nodup.filter _
      have hstill : (erase key images).lookup k = some image := by
        rw [lookup_erase_of_ne _ hne, hlookup]
      have hcomm : erase key (erase k images) = erase k (erase key images) := by
        simp only [erase, List.filter_filter]
        exact List.filter_congr fun entry _ => Bool.and_comm _ _
      rw [hlookup]
      show key ∈ (cache.evict heap (order ++ [key]) _ _).1.order ↔ _
      rw [ih (h.pop _), hcomm, total_erase heap hkeys hstill]
      omega
    · next hover =>
        rw [ImageCache.Over, not_or, not_lt, not_lt] at hover
        have hlength : (k :: order ++ [key]).length = images.length := by
          rw [h.perm.length_eq, keys, List.length_map]
        have hmem : key ∈ k :: (order ++ [key]) := by simp
        simp only [List.length_append, List.length_cons] at hlength
        simp only [hmem, true_iff]
        omega

end Evict

/-! ## A lookup without other activity -/

/-- The images are the store's, and the cache is ordered. -/
structure Store.Sound (store : Store) : Prop where
  ordered : store.inner.Ordered
  within : ∀ entry ∈ store.inner.images, entry.2 < store.heap.length

variable {heap : List CachedImage}

theorem arcNbytes_append {image : Arc} (h : image < heap.length)
    (more : List CachedImage) : arcNbytes (heap ++ more) image = arcNbytes heap image := by
  rw [arcNbytes, arcNbytes, List.getElem?_append_left h]

theorem arcNbytes_last (heap : List CachedImage) (image : CachedImage) :
    arcNbytes (heap ++ [image]) heap.length = image.nbytes := by
  rw [arcNbytes, List.getElem?_concat_length]
  rfl

theorem total_append {images : List (DocumentId × Arc)}
    (h : ∀ entry ∈ images, entry.2 < heap.length) (more : List CachedImage) :
    total (heap ++ more) images = total heap images := by
  rw [total, total]
  congr 1
  exact List.map_congr_left fun entry hentry => arcNbytes_append (h entry hentry) more

section Resolve

variable [Crates] (disk : Disk) (id : DocumentId)

/-- A candidate that confirms, with a known pixel type and readable pixels of matching count and
dimensions that fit. -/
structure Usable (path : Path) (document : ExposureDocument) (maxAdu : Nat) (frame : FitsPixels) :
    Prop where
  confirmed : confirmPair disk path (some id) = some document
  maxAdu : document.maxAdu = some maxAdu
  readable : disk.readFitsPixels path = .ok frame
  dimensions : frame.width < 2 ^ 32 ∧ frame.height < 2 ^ 32
  count : frame.pixels.length = frame.height * frame.width

/-- A candidate that the lookup goes past: it does not confirm, or its pixels are of no use. -/
def PassedOver (path : Path) : Prop :=
  confirmPair disk path (some id) = none ∨
    ∃ document maxAdu, confirmPair disk path (some id) = some document ∧
      document.maxAdu = some maxAdu ∧
      ∀ frame, disk.readFitsPixels path = .ok frame → 2 ^ 32 ≤ frame.width ∨ 2 ^ 32 ≤ frame.height

/-- A candidate that ends the lookup with nothing: it confirms, and its pixel type is unknown or its
pixel count does not match. -/
def Stops (path : Path) : Prop :=
  ∃ document, confirmPair disk path (some id) = some document ∧
    (document.maxAdu = none ∨
      ∃ frame, disk.readFitsPixels path = .ok frame ∧
        frame.width < 2 ^ 32 ∧ frame.height < 2 ^ 32 ∧
        frame.pixels.length ≠ frame.height * frame.width)

/-- The image holds the frame, each pixel narrowed where the pixel type is. -/
structure CachedImage.Holds (image : CachedImage) (maxAdu : Nat) (frame : FitsPixels) : Prop where
  size : image.width = frame.width ∧ image.height = frame.height
  pixels : match image.pixels with
    | .u16 a => maxAdu < 2 ^ 16 ∧ a.height = frame.height ∧ a.width = frame.width ∧
        a.items = frame.pixels.map (CachedPixels.narrow maxAdu)
    | .i32 a => 2 ^ 16 ≤ maxAdu ∧ a.height = frame.height ∧ a.width = frame.width ∧
        a.items = frame.pixels

/-- The bytes a frame and its document are billed with. -/
def billed (maxAdu : Nat) (frame : FitsPixels) (document : ExposureDocument) : Nat :=
  saturatingAdd (frame.pixels.length * if maxAdu < 2 ^ 16 then 2 else 4) (Crates.jsonLen document)

/-- Some usable candidate's frame. -/
def Serves (cache : ImageCache) (image : CachedImage) : Prop :=
  ∃ path ∈ findCandidatesBySuffix disk cache.dataDirectory cache.frameDirectoryDepth id,
    ∃ document maxAdu frame, Usable disk id path document maxAdu frame ∧ image.Holds maxAdu frame

variable {disk id}

theorem axisLength_mul_le (frame : FitsPixels)
    (hdims : frame.width < 2 ^ 32 ∧ frame.height < 2 ^ 32)
    (hcount : frame.pixels.length = frame.height * frame.width) :
    axisLength frame.height * axisLength frame.width ≤ isizeMax := by
  have hfits := frame.fits
  rw [hcount] at hfits
  obtain ⟨hwidth, hheight⟩ := hdims
  have hmax : isizeMax = 9223372036854775807 := rfl
  rw [axisLength, axisLength]
  by_cases hh : frame.height = 0 <;> by_cases hw : frame.width = 0
  · simp only [hh, hw, if_true]
    omega
  · simp only [hh, hw, if_true, if_false]
    omega
  · simp only [hh, hw, if_true, if_false]
    omega
  · simp only [hh, hw, if_false]
    omega

variable {path : Path} {document : ExposureDocument} {maxAdu : Nat} {frame : FitsPixels}

/-- Pixels of matching count make an image that holds them. -/
theorem fromI32Pixels_holds (h : Usable disk id path document maxAdu frame) :
    ∃ cp, CachedPixels.fromI32Pixels frame.pixels frame.fits frame.width frame.height maxAdu = some cp ∧
      (CachedImage.new cp frame.width frame.height path maxAdu document).Holds maxAdu frame ∧
      (CachedImage.new cp frame.width frame.height path maxAdu document).nbytes =
        billed maxAdu frame document := by
  have haxes := Nat.not_lt.mpr (axisLength_mul_le frame h.dimensions h.count)
  have hfits := frame.fits
  have hmax : isizeMax = 9223372036854775807 := rfl
  have husize : usizeMax = 18446744073709551615 := rfl
  by_cases hadu : maxAdu < 2 ^ 16
  · have hcount : (frame.pixels.map (CachedPixels.narrow maxAdu)).length = frame.height * frame.width := by
      rw [List.length_map, h.count]
    refine ⟨.u16 ⟨frame.height, frame.width, _, hcount, CachedPixels.narrowed_fits hfits maxAdu⟩, ?_, ⟨⟨rfl, rfl⟩, hadu, rfl, rfl, rfl⟩, ?_⟩
    · rw [CachedPixels.fromI32Pixels, if_pos hadu, Array2.fromShapeVec, if_neg haxes, dif_pos hcount]
      rfl
    · rw [CachedImage.nbytes, billed, if_pos hadu]
      congr 1
      show min ((frame.pixels.map (CachedPixels.narrow maxAdu)).length * 2) usizeMax = _
      rw [List.length_map]
      omega
  · refine ⟨.i32 ⟨frame.height, frame.width, _, h.count, hfits⟩, ?_,
      ⟨⟨rfl, rfl⟩, Nat.not_lt.mp hadu, rfl, rfl, rfl⟩, ?_⟩
    · rw [CachedPixels.fromI32Pixels, if_neg hadu, Array2.fromShapeVec, if_neg haxes, dif_pos h.count]
      rfl
    · rw [CachedImage.nbytes, billed, if_neg hadu]
      congr 1
      show min (frame.pixels.length * 4) usizeMax = _
      omega

/-- A pixel count that does not match makes no image. -/
theorem fromI32Pixels_eq_none {pixels : List Int} (fits : pixels.length * 4 ≤ isizeMax)
    {width height : Nat} (hcount : pixels.length ≠ height * width) (maxAdu : Nat) :
    CachedPixels.fromI32Pixels pixels fits width height maxAdu = none := by
  have hnone : ∀ {α : Type} {size : Nat} {items : List α} (hfits : items.length * size ≤ isizeMax),
      items.length = pixels.length → Array2.fromShapeVec height width items hfits = none := by
    intro α size items hfits hlength
    rw [Array2.fromShapeVec]
    split
    · rfl
    · exact dif_neg (hlength ▸ hcount)
  rw [CachedPixels.fromI32Pixels, hnone _ (List.length_map _), hnone fits rfl]
  exact ite_self _

/-! ### The candidate loop -/

theorem candidate_cases (disk : Disk) (id : DocumentId) (path : Path) :
    PassedOver disk id path ∨ Stops disk id path ∨
      ∃ document maxAdu frame, Usable disk id path document maxAdu frame := by
  cases hconfirm : confirmPair disk path (some id) with
  | none => exact .inl (.inl hconfirm)
  | some document =>
    cases hadu : document.maxAdu with
    | none => exact .inr (.inl ⟨document, hconfirm, .inl hadu⟩)
    | some maxAdu =>
      cases hread : disk.readFitsPixels path with
      | error _ =>
        refine .inl (.inr ⟨document, maxAdu, hconfirm, hadu, fun frame hframe => ?_⟩)
        rw [hread] at hframe
        cases hframe
      | ok frame =>
        by_cases hdims : frame.width < 2 ^ 32 ∧ frame.height < 2 ^ 32
        · by_cases hcount : frame.pixels.length = frame.height * frame.width
          · exact .inr (.inr ⟨document, maxAdu, frame, hconfirm, hadu, hread, hdims, hcount⟩)
          · exact .inr (.inl ⟨document, hconfirm, .inr ⟨frame, hread, hdims.1, hdims.2, hcount⟩⟩)
        · refine .inl (.inr ⟨document, maxAdu, hconfirm, hadu, fun other hother => ?_⟩)
          cases hread.symm.trans hother
          omega

theorem imageOfCandidates_passedOver (h : PassedOver disk id path) (rest : List Path) :
    imageOfCandidates disk id (path :: rest) = imageOfCandidates disk id rest := by
  rw [imageOfCandidates]
  rcases h with hnone | ⟨document, maxAdu, hconfirm, hadu, hbig⟩
  · rw [hnone]
  · rw [hconfirm]
    simp only [hadu]
    cases hread : disk.readFitsPixels path with
    | error _ => rfl
    | ok frame =>
      have hdims := hbig frame hread
      exact if_neg (by omega)

theorem imageOfCandidates_stops (h : Stops disk id path) (rest : List Path) :
    imageOfCandidates disk id (path :: rest) = none := by
  obtain ⟨document, hconfirm, hwhy⟩ := h
  rw [imageOfCandidates, hconfirm]
  cases hadu : document.maxAdu with
  | none => simp only [hadu]
  | some maxAdu =>
    rw [hadu] at hwhy
    obtain ⟨frame, hread, hwidth, hheight, hcount⟩ := hwhy.resolve_left (Option.some_ne_none _)
    simp only [hadu, hread]
    rw [if_pos ⟨hwidth, hheight⟩, fromI32Pixels_eq_none frame.fits hcount]
    rfl

theorem imageOfCandidates_usable
    (h : Usable disk id path document maxAdu frame) (rest : List Path) :
    ∃ image, imageOfCandidates disk id (path :: rest) = some image ∧ image.Holds maxAdu frame ∧
      image.nbytes = billed maxAdu frame document := by
  obtain ⟨cp, hcp, hholds, hbilled⟩ := fromI32Pixels_holds h
  refine ⟨_, ?_, hholds, hbilled⟩
  rw [imageOfCandidates, h.confirmed]
  simp only [h.maxAdu, h.readable]
  rw [if_pos h.dimensions, hcp]
  rfl

/-- The first candidate that is not passed over is this one, and it is usable. -/
structure FirstUsable (disk : Disk) (id : DocumentId) (candidates : List Path) (path : Path)
    (document : ExposureDocument) (maxAdu : Nat) (frame : FitsPixels) : Prop where
  first : ∃ before after, candidates = before ++ path :: after ∧ ∀ q ∈ before, PassedOver disk id q
  usable : Usable disk id path document maxAdu frame

variable {candidates : List Path}

theorem imageOfCandidates_first (h : FirstUsable disk id candidates path document maxAdu frame) :
    ∃ image, imageOfCandidates disk id candidates = some image ∧ image.Holds maxAdu frame ∧
      image.nbytes = billed maxAdu frame document := by
  obtain ⟨⟨before, after, rfl, hpassed⟩, husable⟩ := h
  induction before with
  | nil => exact imageOfCandidates_usable husable after
  | cons q before ih =>
    rw [List.cons_append, imageOfCandidates_passedOver (hpassed q List.mem_cons_self)]
    exact ih fun p hp => hpassed p (List.mem_cons_of_mem _ hp)

theorem imageOfCandidates_some {image : CachedImage}
    (h : imageOfCandidates disk id candidates = some image) :
    ∃ path document maxAdu frame, FirstUsable disk id candidates path document maxAdu frame := by
  induction candidates with
  | nil => cases h
  | cons path rest ih =>
    rcases candidate_cases disk id path with hpassed | hstops | ⟨document, maxAdu, frame, husable⟩
    · rw [imageOfCandidates_passedOver hpassed] at h
      obtain ⟨found, document, maxAdu, frame, ⟨before, after, rfl, hbefore⟩, husable⟩ := ih h
      refine ⟨found, document, maxAdu, frame, ⟨path :: before, after, rfl, ?_⟩, husable⟩
      exact List.forall_mem_cons.mpr ⟨hpassed, hbefore⟩
    · rw [imageOfCandidates_stops hstops] at h
      cases h
    · exact ⟨path, document, maxAdu, frame,
        ⟨[], rest, rfl, fun q hq => absurd hq List.not_mem_nil⟩, husable⟩

/-! ### Insertion and the last look -/

variable {cache : ImageCache} {heap : List CachedImage} {inner : CacheInner}

omit [Crates] in
theorem insert_evicts (cache : ImageCache) (heap : List CachedImage) (h : inner.Ordered) (key : DocumentId) (image : Arc) :
    (cache.insert heap key image inner).1.Ordered ∧
      cache.Within (cache.insert heap key image inner).1 ∧
      ∃ gone, (cache.insert heap key image inner).2 = .used key :: gone.map .evicted ∧
        Evicts ((ImageCache.detach heap key inner).images ++ [(key, image)])
          ((ImageCache.detach heap key inner).order ++ [key]) gone
          ((cache.insert heap key image inner).1, gone.map .evicted) := by
  obtain ⟨hordered, hwithin, gone, hevicts⟩ := evict_evicts cache heap
    ((h.detach heap key).attach heap image (h.not_mem_detach heap key))
  exact ⟨hordered, hwithin, gone, congrArg (Touch.used key :: ·) hevicts.log, hevicts.order, rfl,
    hevicts.images⟩

variable {key : DocumentId}

omit [Crates] in
/-- What an insertion leaves under its key is what was inserted. -/
theorem lookup_insert (h : inner.Ordered) {image found : Arc}
    (hfound : (cache.insert heap key image inner).1.images.lookup key = some found) :
    found = image := by
  obtain ⟨-, -, gone, -, hevicts⟩ := insert_evicts cache heap h key image
  have hmem := mem_of_lookup hfound
  rw [hevicts.images] at hmem
  rcases List.mem_append.mp (List.mem_of_mem_filter hmem) with hold | hnew
  · have hnot := h.not_mem_detach heap key
    rw [(h.detach heap key).mem_order] at hnot
    exact absurd (List.mem_map_of_mem hold) hnot
  · exact (Prod.mk.inj (List.mem_singleton.mp hnew)).2

omit [Crates] in
/-- A new entry is found afterwards if the budgets can hold it. -/
theorem get_insert_new (h : inner.Ordered) (image : Arc)
    (hnew : inner.images.lookup key = none) (found : Arc) :
    (ImageCache.get key (cache.insert heap key image inner).1).1 = some found ↔
      found = image ∧ 1 ≤ cache.maxImages ∧
        saturatingAdd inner.bytes (arcNbytes heap image) - total heap inner.images ≤ cache.maxBytes := by
  have hdetach : ImageCache.detach heap key inner = inner := by rw [ImageCache.detach, hnew]
  have hkey : key ∉ keys inner.images := by
    rw [← lookup_isSome_iff, hnew]
    simp
  have hrest : erase key (inner.images ++ [(key, image)]) = inner.images := by
    rw [erase, List.filter_append]
    show erase key inner.images ++ _ = _
    rw [erase_of_not_mem hkey]
    simp
  have hordered := (h.detach heap key).attach heap image (h.not_mem_detach heap key)
  rw [hdetach] at hordered
  have hlast := mem_evict_last cache heap hordered
  rw [hrest] at hlast
  have hresult : cache.insert heap key image inner =
      ((cache.evict heap (inner.order ++ [key]) (inner.images ++ [(key, image)])
          (saturatingAdd inner.bytes (arcNbytes heap image))).1,
        .used key :: (cache.evict heap (inner.order ++ [key]) (inner.images ++ [(key, image)])
          (saturatingAdd inner.bytes (arcNbytes heap image))).2) := by
    rw [ImageCache.insert, hdetach]
    rfl
  obtain ⟨hafter, -, -⟩ := insert_evicts cache heap h key image
  rw [← hlast]
  constructor
  · intro hget
    rw [ImageCache.get] at hget
    split at hget
    · next arc hlookup =>
        cases hget
        refine ⟨lookup_insert h hlookup, ?_⟩
        have hmem : key ∈ (cache.insert heap key image inner).1.order :=
          hafter.mem_order.mpr (lookup_isSome_iff.mp (by rw [hlookup]; rfl))
        rwa [hresult] at hmem
    · cases hget
  · intro ⟨heq, hmem⟩
    have hmem' : key ∈ (cache.insert heap key image inner).1.order := by rwa [hresult]
    obtain ⟨arc, hlookup⟩ := exists_lookup (hafter.mem_order.mp hmem')
    rw [ImageCache.get, hlookup, heq, lookup_insert h hlookup]

/-- The condition: a cached frame is that of a usable candidate; otherwise the first candidate not
passed over is usable, and the budgets can hold its frame beside what the total is off by. -/
def ImageCache.Resolves (cache : ImageCache) (disk : Disk) (id : DocumentId) (store : Store) : Prop :=
  match store.inner.images.lookup id with
  | some arc => ∃ image, store.heap[arc]? = some image ∧ Serves disk id cache image
  | none =>
      ∃ path document maxAdu frame,
        FirstUsable disk id
          (findCandidatesBySuffix disk cache.dataDirectory cache.frameDirectoryDepth id)
          path document maxAdu frame ∧
        1 ≤ cache.maxImages ∧
        saturatingAdd store.inner.bytes (billed maxAdu frame document) -
          total store.heap store.inner.images ≤ cache.maxBytes

/-- The lookup returns an image with a usable candidate's pixels. -/
def ImageCache.Rehydrates (cache : ImageCache) (disk : Disk) (id : DocumentId) (store : Store) :
    Prop :=
  ∃ arc image, (cache.resolve disk id store).1 = some arc ∧
    (cache.resolve disk id store).2.heap[arc]? = some image ∧ Serves disk id cache image

variable {store : Store}

theorem resolve_hit (cache : ImageCache) (disk : Disk) {arc : Arc} (hlookup : store.inner.images.lookup id = some arc) :
    (cache.resolve disk id store).1 = some arc ∧
      (cache.resolve disk id store).2.heap = store.heap := by
  rw [ImageCache.resolve, ImageCache.get, hlookup]
  exact ⟨rfl, rfl⟩

theorem resolve_miss (hlookup : store.inner.images.lookup id = none) :
    cache.resolve disk id store =
      match diskResolveToCachedImage disk cache.dataDirectory cache.frameDirectoryDepth id with
      | none => (none, store)
      | some image =>
        ((ImageCache.get id
            (cache.insert (store.heap ++ [image]) id store.heap.length store.inner).1).1,
          ⟨store.heap ++ [image],
            (ImageCache.get id
              (cache.insert (store.heap ++ [image]) id store.heap.length store.inner).1).2.1⟩) := by
  have hget : ImageCache.get id store.inner = (none, store.inner, []) := by
    rw [ImageCache.get, hlookup]
  rw [ImageCache.resolve, hget]

/-- A lookup of a document with a usable candidate returns its pixels exactly under the condition. -/
theorem resolve_complete_iff {store : Store} (hstore : store.Sound) :
    ((∃ path ∈ findCandidatesBySuffix disk cache.dataDirectory cache.frameDirectoryDepth id,
        ∃ document maxAdu frame, Usable disk id path document maxAdu frame) →
      cache.Rehydrates disk id store) ↔
    ((∃ path ∈ findCandidatesBySuffix disk cache.dataDirectory cache.frameDirectoryDepth id,
        ∃ document maxAdu frame, Usable disk id path document maxAdu frame) →
      cache.Resolves disk id store) := by
  refine imp_congr_right fun _ => ?_
  rw [ImageCache.Rehydrates, ImageCache.Resolves]
  cases hlookup : store.inner.images.lookup id with
  | some arc =>
    obtain ⟨hfound, hheap⟩ := resolve_hit cache disk hlookup
    rw [hfound, hheap]
    constructor
    · intro ⟨found, image, heq, himage, hserves⟩
      cases heq
      exact ⟨image, himage, hserves⟩
    · intro ⟨image, himage, hserves⟩
      exact ⟨arc, image, rfl, himage, hserves⟩
  | none =>
    rw [resolve_miss hlookup, diskResolveToCachedImage]
    constructor
    · intro ⟨arc, image, harc, _, _⟩
      split at harc
      · cases harc
      · next made hmade =>
          obtain ⟨path, document, maxAdu, frame, hfirst⟩ := imageOfCandidates_some hmade
          obtain ⟨other, hother, -, hbilled⟩ := imageOfCandidates_first hfirst
          cases hmade.symm.trans hother
          obtain ⟨-, himages, hbytes⟩ := (get_insert_new hstore.ordered _ hlookup _).mp harc
          rw [total_append hstore.within, arcNbytes_last, hbilled] at hbytes
          exact ⟨path, document, maxAdu, frame, hfirst, himages, hbytes⟩
    · intro ⟨path, document, maxAdu, frame, hfirst, himages, hbytes⟩
      obtain ⟨image, himage, hholds, hbilled⟩ := imageOfCandidates_first hfirst
      rw [← hbilled, ← arcNbytes_last store.heap image, ← total_append hstore.within [image]] at hbytes
      rw [himage]
      refine ⟨store.heap.length, image,
        (get_insert_new hstore.ordered _ hlookup _).mpr ⟨rfl, himages, hbytes⟩, by simp, path, ?_,
        document, maxAdu, frame, hfirst.usable, hholds⟩
      obtain ⟨before, after, hcandidates, -⟩ := hfirst.first
      rw [hcandidates]
      exact List.mem_append_right _ List.mem_cons_self

end Resolve

/-! ### Evaluation

The crates on a small part of their domain: hyphenated UUIDs in lower case, and documents whose other
fields and sections are plain texts, numbers and flags. -/

namespace Evaluation

def hexValue (c : Char) : Nat := if c.isDigit then c.toNat - '0'.toNat else c.toNat - 'a'.toNat + 10

def parseHyphenated (s : String) : Option Uuid :=
  let digits := s.toList.filter (· ≠ '-')
  if s.toList.length = 36 ∧ digits.length = 32 then
    some (BitVec.ofNat 128 (digits.foldl (fun n c => n * 16 + hexValue c) 0))
  else none

def scalarLen : Value → Nat
  | .null => 4
  | .bool b => if b then 4 else 5
  | .string s => s.length + 2
  | .number (.posInt n _) => (Nat.toDigits 10 n).length
  | _ => 2

/-- The members with their names, quotes, colons and commas, between braces. -/
def objectLen (members : List (String × Value)) : Nat :=
  2 + (members.map fun m => m.1.length + 3 + scalarLen m.2).sum + (members.length - 1)

def documentLen (document : ExposureDocument) : Nat :=
  let rest := match document.rest with
    | .object members => members
    | _ => []
  let maxAdu := document.maxAdu.toList.map fun n => ("max_adu", Value.number (.ofNat n))
  objectLen (("id", .string document.id) :: rest ++ maxAdu) + ("sections".length + 4) +
    objectLen document.sections

@[reducible] def crates : Crates where
  parseUuid := parseHyphenated
  jsonLen document := min (documentLen document) isizeMax
  jsonLen_le _ := Nat.min_le_right _ _

def documentId : DocumentId := "550e8400-e29b-41d4-a716-446655440000"

def fitsPath : Path := ["/data", "550e8400.fits"]

/-- A document of a square frame of 16-bit pixels. -/
def document (side : Nat) : ExposureDocument where
  id := documentId
  maxAdu := some 65535
  sections := []
  rest := .object [("captured_at", .string "2026-04-30T00:00:00Z"),
    ("file_path", .string "/data/550e8400.fits"), ("width", .number (.ofNat side)),
    ("height", .number (.ofNat side))]

/-- A black square frame. -/
def frame (side : Nat) (h : side * side * 4 ≤ isizeMax) : FitsPixels where
  pixels := List.replicate (side * side) 0
  width := side
  height := side
  fits := by rwa [List.length_replicate]

/-- The frame and its sidecar, alone in the data directory. -/
def disk (side : Nat) (h : side * side * 4 ≤ isizeMax) : Disk where
  realPath path := path
  fileExists _ := true
  readDir path := if path = ["/data"] then .ok [⟨"550e8400.fits", false⟩, ⟨"550e8400.json", false⟩]
    else .error "not found"
  readFitsDocId path := if path = fitsPath then .ok (some documentId) else .error "not found"
  readFitsPixels path := if path = fitsPath then .ok (frame side h) else .error "not found"
  sidecars path := if path = ["/data", "550e8400.json"] then .ok (document side) else .error "not found"

attribute [local instance] crates

theorem candidates (side : Nat) (h : side * side * 4 ≤ isizeMax) :
    findCandidatesBySuffix (disk side h) ["/data"] 0 documentId = [fitsPath] := by
  have hparse : Crates.parseUuid documentId = some (0x550e8400e29b41d4a716446655440000#128) := by decide
  have hwalk : walk (disk side h) (uuid8Of 0x550e8400e29b41d4a716446655440000#128) 0 [["/data"]] =
      [fitsPath] := rfl
  rw [findCandidatesBySuffix, hparse]
  show (walk _ _ _ _).mergeSort _ = _
  rw [hwalk, List.mergeSort_singleton]

theorem usable (side : Nat) (h : side * side * 4 ≤ isizeMax) (hside : side < 2 ^ 32) :
    Usable (disk side h) documentId fitsPath (document side) 65535 (frame side h) where
  confirmed := confirmPair_eq_some.mpr ⟨["/data", "550e8400.json"], by decide, rfl, rfl, rfl⟩
  maxAdu := rfl
  readable := rfl
  dimensions := ⟨hside, hside⟩
  count := List.length_replicate

/-- One mebibyte for up to eight images, and nothing in the cache yet. -/
def small : ImageCache := .new 1 8 ["/data"] 0

def cold : Store := ⟨[], ImageCache.empty⟩

theorem cold_sound : cold.Sound := ⟨empty_ordered, fun _ h => absurd h List.not_mem_nil⟩

theorem one_fits : 1 * 1 * 4 ≤ isizeMax := by decide

theorem some_usable (side : Nat) (h : side * side * 4 ≤ isizeMax) (hside : side < 2 ^ 32) :
    ∃ path ∈ findCandidatesBySuffix (disk side h) small.dataDirectory small.frameDirectoryDepth documentId,
      ∃ document maxAdu frame, Usable (disk side h) documentId path document maxAdu frame := by
  refine ⟨fitsPath, ?_, _, _, _, usable side h hside⟩
  show fitsPath ∈ findCandidatesBySuffix (disk side h) ["/data"] 0 documentId
  rw [candidates]
  exact List.mem_cons_self

theorem resolve_complete_small : small.Rehydrates (disk 1 one_fits) documentId cold := by
  refine (resolve_complete_iff cold_sound).mpr (fun _ => ?_) (some_usable 1 one_fits (by omega))
  show ∃ path document maxAdu frame, _
  exact ⟨fitsPath, _, _, _, ⟨⟨[], [], candidates 1 one_fits, fun _ h => absurd h List.not_mem_nil⟩,
    usable 1 one_fits (by omega)⟩, by decide, by decide⟩

theorem kibi_fits : 1024 * 1024 * 4 ≤ isizeMax := by decide

/-- A frame of two mebibytes is evicted as it arrives, and the lookup finds nothing. -/
theorem large_frame_lost :
    ¬ ((∃ path ∈ findCandidatesBySuffix (disk 1024 kibi_fits) small.dataDirectory
          small.frameDirectoryDepth documentId,
        ∃ document maxAdu frame,
          Usable (disk 1024 kibi_fits) documentId path document maxAdu frame) →
      small.Rehydrates (disk 1024 kibi_fits) documentId cold) := by
  intro hclaim
  obtain ⟨arc, -, harc, -⟩ := hclaim (some_usable 1024 kibi_fits (by omega))
  have hmiss : cold.inner.images.lookup documentId = none := rfl
  obtain ⟨image, himage, -, hbilled⟩ := imageOfCandidates_usable (usable 1024 kibi_fits (by omega)) []
  have hdisk : diskResolveToCachedImage (disk 1024 kibi_fits) small.dataDirectory
      small.frameDirectoryDepth documentId = some image := by
    rw [diskResolveToCachedImage]
    show imageOfCandidates _ _ (findCandidatesBySuffix (disk 1024 kibi_fits) ["/data"] 0 documentId) = _
    rw [candidates, himage]
  rw [resolve_miss hmiss, hdisk] at harc
  obtain ⟨-, -, hbytes⟩ := (get_insert_new empty_ordered _ hmiss _).mp harc
  have hlast : arcNbytes (cold.heap ++ [image]) cold.heap.length = image.nbytes := arcNbytes_last _ _
  have hlength : (frame 1024 kibi_fits).pixels.length = 1024 * 1024 := List.length_replicate
  have hsmall : small.maxBytes = 1048576 := by decide
  have husize : usizeMax = 18446744073709551615 := by decide
  have htotal : total (cold.heap ++ [image]) ImageCache.empty.images = 0 := rfl
  have hzero : ImageCache.empty.bytes = 0 := rfl
  rw [hlast, hbilled, hsmall, htotal, hzero, billed, hlength, if_pos (by omega)] at hbytes
  simp only [saturatingAdd] at hbytes
  omega

end Evaluation

end RustyPhoton.Rp.Persistence
