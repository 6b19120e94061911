import RustyPhoton.Rp.Persistence.Sections

/-!
# The accounts of the cache

Along every run the recency lists the cached keys, each once, evictions take the least recently used
key first, and the budgets hold. The running total is the size of the entries as long as no entry is
resized after it has left the cache, and no sum or difference of the total saturates.
-/

namespace RustyPhoton.Rp.Persistence

open Lib
open Lib.Recency (Touch Tracks OldestFirst)

/-! ## One call of the cache -/

/-- What one call of the cache keeps, with the touches so far. -/
structure Orderly (cache : ImageCache) (touches : List (Touch DocumentId)) (inner : CacheInner) : Prop where
  ordered : inner.Ordered
  within : cache.Within inner
  tracks : Tracks touches inner.order

section Orderly

variable {cache : ImageCache} {touches : List (Touch DocumentId)} {inner : CacheInner}

theorem empty_orderly (cache : ImageCache) : Orderly cache [] ImageCache.empty :=
  ⟨empty_ordered, empty_within cache, .nil⟩

theorem detach_order (heap : List CachedImage) (key : DocumentId) (h : inner.Ordered) :
    (ImageCache.detach heap key inner).order = inner.order.filter (· ≠ key) := by
  rw [ImageCache.detach]
  split
  · rfl
  · next hnone =>
      have hnot : key ∉ inner.order := by
        rw [h.mem_order, ← Assoc.lookup_isSome_iff, hnone]
        simp
      exact (Recency.filter_ne_of_not_mem hnot).symm

theorem orderly_evictLocked (cache : ImageCache) (hordered : inner.Ordered) (htracks : Tracks touches inner.order)
    (heap : List CachedImage) :
    Orderly cache (touches ++ (cache.evictLocked heap inner).2) (cache.evictLocked heap inner).1 := by
  obtain ⟨hafter, hwithin, gone, hevicts⟩ := evict_evicts cache heap hordered
  refine ⟨hafter, hwithin, ?_⟩
  have hnodup := hordered.nodup
  rw [hevicts.order] at htracks hnodup
  rw [ImageCache.evictLocked, hevicts.log]
  exact htracks.evicted hnodup

theorem Orderly.insert (h : Orderly cache touches inner) (heap : List CachedImage) (key : DocumentId)
    (image : Arc) :
    Orderly cache (touches ++ (cache.insert heap key image inner).2)
      (cache.insert heap key image inner).1 := by
  have hordered := (h.ordered.detach heap key).attach heap image (h.ordered.not_mem_detach heap key)
  have hused := h.tracks.used key
  rw [← detach_order heap key h.ordered] at hused
  have hafter := orderly_evictLocked cache hordered hused heap
  rwa [List.append_assoc] at hafter

theorem Orderly.get (h : Orderly cache touches inner) (key : DocumentId) :
    Orderly cache (touches ++ (ImageCache.get key inner).2.2) (ImageCache.get key inner).2.1 := by
  have hordered := h.ordered.get key
  rw [ImageCache.get] at hordered ⊢
  split at hordered
  · next hlookup => exact ⟨hordered, ⟨h.within.bytes, h.within.images⟩, h.tracks.used key⟩
  · refine ⟨h.ordered, h.within, ?_⟩
    rw [List.append_nil]
    exact h.tracks

theorem Orderly.adjustBytes (h : Orderly cache touches inner) (heap : List CachedImage) (delta : Int) :
    Orderly cache (touches ++ (cache.adjustBytes heap delta inner).2)
      (cache.adjustBytes heap delta inner).1 :=
  have hordered : (ImageCache.adjusted delta inner).Ordered := ⟨h.ordered.nodup, h.ordered.perm⟩
  orderly_evictLocked cache hordered h.tracks heap

end Orderly

/-! ## What the total is off by -/

namespace ImageCache

variable (cache : ImageCache) (heap : List CachedImage)

/-- No eviction takes more off the total than it holds. -/
def EvictsExactly : List DocumentId → List (DocumentId × Arc) → Nat → Prop
  | [], _, _ => True
  | key :: order, images, bytes =>
      if cache.Over images bytes then
        match images.lookup key with
        | some image =>
            arcNbytes heap image ≤ bytes ∧
              EvictsExactly order (Assoc.erase key images) (bytes - arcNbytes heap image)
        | none => EvictsExactly order images bytes
      else True

instance decidableEvictsExactly (cache : ImageCache) (heap : List CachedImage) :
    (order : List DocumentId) → (images : List (DocumentId × Arc)) → (bytes : Nat) →
      Decidable (cache.EvictsExactly heap order images bytes)
  | [], _, _ => isTrue trivial
  | key :: order, images, bytes =>
      if hover : cache.Over images bytes then
        match hlookup : images.lookup key with
        | some image =>
            let _ := decidableEvictsExactly cache heap order (Assoc.erase key images)
              (bytes - arcNbytes heap image)
            decidable_of_iff (arcNbytes heap image ≤ bytes ∧
                cache.EvictsExactly heap order (Assoc.erase key images)
                  (bytes - arcNbytes heap image))
              (by simp [EvictsExactly, hover, hlookup])
        | none =>
            let _ := decidableEvictsExactly cache heap order images bytes
            decidable_of_iff (cache.EvictsExactly heap order images bytes)
              (by simp [EvictsExactly, hover, hlookup])
      else isTrue (by simp [EvictsExactly, hover])

/-- No sum or difference of an insertion saturates. -/
def InsertsExactly (key : DocumentId) (image : Arc) (inner : CacheInner) : Prop :=
  (∀ prev ∈ inner.images.lookup key, arcNbytes heap prev ≤ inner.bytes) ∧
    (detach heap key inner).bytes + arcNbytes heap image ≤ usizeMax ∧
    cache.EvictsExactly heap (attach heap key image (detach heap key inner)).order
      (attach heap key image (detach heap key inner)).images
      (attach heap key image (detach heap key inner)).bytes

/-- No sum or difference of a change saturates. -/
def AdjustsExactly (delta : Int) (inner : CacheInner) : Prop :=
  0 ≤ inner.bytes + delta ∧ inner.bytes + delta ≤ usizeMax ∧
    cache.EvictsExactly heap inner.order inner.images (adjusted delta inner).bytes

instance (key : DocumentId) (image : Arc) (inner : CacheInner) :
    Decidable (cache.InsertsExactly heap key image inner) :=
  inferInstanceAs (Decidable (_ ∧ _ ∧ _))

instance (delta : Int) (inner : CacheInner) : Decidable (cache.AdjustsExactly heap delta inner) :=
  inferInstanceAs (Decidable (_ ∧ _ ∧ _))

end ImageCache

/-- The total less the size of the entries. -/
def off (heap : List CachedImage) (inner : CacheInner) : Int := inner.bytes - total heap inner.images

section Off

variable {cache : ImageCache} {heap : List CachedImage} {inner : CacheInner}

theorem evict_off {order : List DocumentId} {images : List (DocumentId × Arc)} {bytes : Nat}
    (h : CacheInner.Ordered ⟨images, order, bytes⟩)
    (hexact : cache.EvictsExactly heap order images bytes) :
    off heap (cache.evict heap order images bytes).1 = off heap ⟨images, order, bytes⟩ := by
  induction order generalizing images bytes with
  | nil => rfl
  | cons key order ih =>
    rw [ImageCache.EvictsExactly] at hexact
    rw [ImageCache.evict]
    split
    · next hover =>
        obtain ⟨image, hlookup⟩ := Assoc.exists_lookup (h.mem_order.mp List.mem_cons_self)
        rw [if_pos hover, hlookup] at hexact
        obtain ⟨hle, hrest⟩ := hexact
        have htotal : total heap images =
            arcNbytes heap image + total heap (Assoc.erase key images) :=
          total_erase heap h.keys_nodup hlookup
        rw [hlookup]
        show off heap (cache.evict heap order _ _).1 = _
        rw [ih (h.pop _) hrest, off, off]
        show ((bytes - arcNbytes heap image : Nat) : Int) - total heap (Assoc.erase key images) =
          bytes - total heap images
        omega
    · rfl

theorem detach_off (key : DocumentId) (h : inner.Ordered)
    (hexact : ∀ prev ∈ inner.images.lookup key, arcNbytes heap prev ≤ inner.bytes) :
    off heap (ImageCache.detach heap key inner) = off heap inner := by
  rw [ImageCache.detach]
  split
  · next prev hprev =>
      have hle := hexact prev hprev
      have htotal := total_erase heap h.keys_nodup hprev
      show ((inner.bytes - arcNbytes heap prev : Nat) : Int) - total heap (Assoc.erase key inner.images) =
        inner.bytes - total heap inner.images
      omega
  · rfl

theorem attach_off (key : DocumentId) (image : Arc)
    (hfits : inner.bytes + arcNbytes heap image ≤ usizeMax) :
    off heap (ImageCache.attach heap key image inner) = off heap inner := by
  have htotal : total heap (inner.images ++ [(key, image)]) =
      total heap inner.images + arcNbytes heap image := by
    simp [total]
  have hsum : saturatingAdd inner.bytes (arcNbytes heap image) =
      inner.bytes + arcNbytes heap image := Nat.min_eq_left hfits
  rw [ImageCache.attach, off, off]
  show ((saturatingAdd inner.bytes (arcNbytes heap image) : Nat) : Int) -
    total heap (inner.images ++ [(key, image)]) = _
  rw [htotal, hsum]
  omega

theorem insert_off (key : DocumentId) (image : Arc) (h : inner.Ordered)
    (hexact : cache.InsertsExactly heap key image inner) :
    off heap (cache.insert heap key image inner).1 = off heap inner := by
  obtain ⟨hprev, hfits, hevicts⟩ := hexact
  have hordered := (h.detach heap key).attach heap image (h.not_mem_detach heap key)
  have hafter := evict_off hordered hevicts
  calc off heap (cache.insert heap key image inner).1
      = off heap (ImageCache.attach heap key image (ImageCache.detach heap key inner)) := hafter
    _ = off heap (ImageCache.detach heap key inner) := attach_off key image hfits
    _ = off heap inner := detach_off key h hprev

theorem get_off (key : DocumentId) : off heap (ImageCache.get key inner).2.1 = off heap inner := by
  rw [ImageCache.get]
  split <;> rfl

theorem adjustBytes_off {delta : Int} (h : inner.Ordered)
    (hexact : cache.AdjustsExactly heap delta inner) :
    off heap (cache.adjustBytes heap delta inner).1 = off heap inner + delta := by
  obtain ⟨hnonneg, hfits, hevicts⟩ := hexact
  have hordered : (ImageCache.adjusted delta inner).Ordered := ⟨h.nodup, h.perm⟩
  have hbytes : ((ImageCache.adjusted delta inner).bytes : Int) = inner.bytes + delta := by
    rw [ImageCache.adjusted]
    show ((if 0 ≤ delta then saturatingAdd inner.bytes delta.natAbs
      else inner.bytes - delta.natAbs : Nat) : Int) = _
    split
    · rw [saturatingAdd, Nat.min_eq_left (by omega)]
      omega
    · omega
  calc off heap (cache.adjustBytes heap delta inner).1
      = off heap (ImageCache.adjusted delta inner) := evict_off hordered hevicts
    _ = ((ImageCache.adjusted delta inner).bytes : Int) - total heap inner.images := rfl
    _ = off heap inner + delta := by
      rw [hbytes, off]
      omega

end Off

/-! ## Resizing an entry -/

section Resize

variable {heap : List CachedImage} {images : List (DocumentId × Arc)} {arc : Arc} {old new : CachedImage}

theorem arcNbytes_set (hold : heap[arc]? = some old) (other : Arc) :
    arcNbytes (heap.set arc new) other = if other = arc then new.nbytes else arcNbytes heap other := by
  obtain ⟨hlt, -⟩ := List.getElem?_eq_some_iff.mp hold
  rw [arcNbytes, arcNbytes, List.getElem?_set]
  by_cases h : arc = other
  · rw [if_pos h, if_pos (h ▸ hlt), if_pos h.symm]
    rfl
  · rw [if_neg h, if_neg (Ne.symm h)]

/-- Resizing an image changes nothing for entries that it is not among. -/
theorem total_set_of_not_mem (hold : heap[arc]? = some old) (h : arc ∉ images.map Prod.snd) :
    total (heap.set arc new) images = total heap images := by
  rw [total, total]
  congr 1
  refine List.map_congr_left fun entry hentry => ?_
  have hne : entry.2 ≠ arc := fun heq => h (heq ▸ List.mem_map_of_mem hentry)
  rw [arcNbytes_set hold, if_neg hne]

/-- Resizing an entry changes the total by as much. -/
theorem total_set (new : CachedImage) (hold : heap[arc]? = some old) (hnodup : (images.map Prod.snd).Nodup)
    (h : arc ∈ images.map Prod.snd) :
    total (heap.set arc new) images + old.nbytes = total heap images + new.nbytes := by
  induction images with
  | nil => cases h
  | cons entry images ih =>
    obtain ⟨hnot, hnodup⟩ := List.nodup_cons.mp hnodup
    have hcons : ∀ heap : List CachedImage,
        total heap (entry :: images) = arcNbytes heap entry.2 + total heap images :=
      fun _ => List.sum_cons
    rw [hcons, hcons, arcNbytes_set hold]
    by_cases heq : entry.2 = arc
    · have hsize : arcNbytes heap entry.2 = old.nbytes := by rw [heq, arcNbytes, hold]; rfl
      rw [if_pos heq, hsize, total_set_of_not_mem hold (heq ▸ hnot)]
      omega
    · rw [if_neg heq]
      have hrest := ih hnodup ((List.mem_cons.mp h).resolve_left (Ne.symm heq))
      omega

end Resize

/-! ## Runs -/

section Runs

def Record.touch? : Record → Option (Touch DocumentId)
  | .touched t => some t
  | _ => none

/-- The uses and evictions of a log. -/
def touches (log : List Record) : List (Touch DocumentId) := log.filterMap Record.touch?

/-- What the call still has to change the total by. -/
def Phase.debt : Phase → Int
  | .owing delta _ => delta
  | _ => 0

def owed (calls : List Call) : Int := (calls.map fun call => call.phase.debt).sum

/-- The entries and the images about to be inserted. -/
def World.arcs (s : World) : List Arc :=
  s.store.inner.images.map Prod.snd ++ s.loading.map Prod.snd

/-- The numbers of different images among so many. -/
structure Distinct (arcs : List Arc) (count : Nat) : Prop where
  once : arcs.Nodup
  below : ∀ arc ∈ arcs, arc < count

variable {arcs : List Arc} {count : Nat}

theorem Distinct.subperm {arcs' : List Arc} (h : Distinct arcs count)
    (hsub : arcs'.Subperm arcs) : Distinct arcs' count := by
  obtain ⟨middle, hperm, hsublist⟩ := hsub
  refine ⟨hperm.nodup_iff.mp (hsublist.nodup h.once), fun arc harc => h.below arc ?_⟩
  exact hsublist.subset (hperm.mem_iff.mpr harc)

/-- One image more. -/
theorem Distinct.push (h : Distinct arcs count) :
    Distinct (count :: arcs) (count + 1) := by
  refine ⟨List.nodup_cons.mpr ⟨fun hmem => Nat.lt_irrefl _ (h.below _ hmem), h.once⟩, ?_⟩
  intro arc harc
  rcases List.mem_cons.mp harc with rfl | harc
  · exact Nat.lt_succ_self _
  · exact Nat.lt_succ_of_lt (h.below arc harc)

/-- What holds along every run. -/
structure Sane (cache : ImageCache) (log : List Record) (s : World) : Prop where
  orderly : Orderly cache (touches log) s.store.inner
  distinct : Distinct s.arcs s.store.heap.length
  sizes : ∀ image ∈ s.store.heap, image.jsonNbytes ≤ isizeMax

variable {cache : ImageCache} {log : List Record} {s s' : World}

theorem touches_append (log log' : List Record) : touches (log ++ log') = touches log ++ touches log' :=
  List.filterMap_append

theorem touches_touched (log : List Record) (more : List (Touch DocumentId)) :
    touches (log ++ more.map .touched) = touches log ++ more := by
  rw [touches_append]
  congr 1
  rw [touches, List.filterMap_map]
  exact List.filterMap_some

theorem touches_reads (log : List Record) (files : List Path) (source : Source) :
    touches (log ++ files.map (.read · source)) = touches log := by
  have hnone : touches (files.map (.read · source)) = [] := by
    rw [touches, List.filterMap_map]
    exact List.filterMap_eq_nil_iff.mpr fun _ _ => rfl
  rw [touches_append, hnone, List.append_nil]

theorem start_sane (cache : ImageCache) (disk : Disk) : Sane cache [] (World.start disk) where
  orderly := empty_orderly cache
  distinct := ⟨List.nodup_nil, fun _ h => absurd h List.not_mem_nil⟩
  sizes _ h := absurd h List.not_mem_nil

theorem detach_images (heap : List CachedImage) (key : DocumentId) (inner : CacheInner) :
    (ImageCache.detach heap key inner).images.Sublist inner.images := by
  rw [ImageCache.detach]
  split
  · exact List.filter_sublist
  · exact List.Sublist.refl _

variable {inner : CacheInner}

/-- An insertion leaves a part of the entries and the new one. -/
theorem insert_images (cache : ImageCache) (heap : List CachedImage) (key : DocumentId) (arc : Arc)
    (h : inner.Ordered) :
    (cache.insert heap key arc inner).1.images.Sublist (inner.images ++ [(key, arc)]) := by
  obtain ⟨-, -, gone, -, hevicts⟩ := insert_evicts cache heap h key arc
  rw [hevicts.images]
  exact List.filter_sublist.trans ((detach_images heap key inner).append_right _)

theorem adjustBytes_images (cache : ImageCache) (heap : List CachedImage) (delta : Int)
    (h : inner.Ordered) :
    (cache.adjustBytes heap delta inner).1.images.Sublist inner.images := by
  have hordered : (ImageCache.adjusted delta inner).Ordered := ⟨h.nodup, h.perm⟩
  obtain ⟨-, -, gone, hevicts⟩ := evict_evicts cache heap hordered
  have hsub : (inner.images.filter fun entry => entry.1 ∉ gone).Sublist inner.images :=
    List.filter_sublist
  rw [← hevicts.images] at hsub
  exact hsub

theorem get_images (key : DocumentId) (inner : CacheInner) :
    (ImageCache.get key inner).2.1.images = inner.images := by
  rw [ImageCache.get]
  split <;> rfl

/-- The images of the cache after an insertion, and those to come. -/
theorem insert_arcs (cache : ImageCache) (s : World) (key : DocumentId) (arc : Arc) (h : s.store.inner.Ordered) :
    (s.insert cache key arc).1.arcs.Subperm (arc :: s.arcs) := by
  have himages := (insert_images cache s.store.heap key arc h).map Prod.snd
  rw [List.map_append] at himages
  have hsub := (himages.append_right (s.loading.map Prod.snd)).subperm
  rw [List.append_assoc] at hsub
  exact hsub.trans List.perm_middle.subperm

theorem length_push (heap : List CachedImage) (image : CachedImage) :
    (heap ++ [image]).length = heap.length + 1 :=
  List.length_append

variable {image : CachedImage}

theorem sizes_push {heap : List CachedImage} (h : ∀ image ∈ heap, image.jsonNbytes ≤ isizeMax)
    (hsize : image.jsonNbytes ≤ isizeMax) :
    ∀ i ∈ heap ++ [image], i.jsonNbytes ≤ isizeMax := by
  intro i hi
  rcases List.mem_append.mp hi with hi | hi
  · exact h i hi
  · cases List.mem_singleton.mp hi
    exact hsize

theorem imageOfCandidates_size [Crates] {disk : Disk} {id : DocumentId} {candidates : List Path}
    (h : imageOfCandidates disk id candidates = some image) :
    image.jsonNbytes ≤ isizeMax := by
  induction candidates with
  | nil => cases h
  | cons path rest ih =>
    rcases candidate_cases disk id path with hpassed | hstops | ⟨document, maxAdu, frame, husable⟩
    · rw [imageOfCandidates_passedOver hpassed] at h
      exact ih h
    · rw [imageOfCandidates_stops hstops] at h
      cases h
    · rw [imageOfCandidates, husable.confirmed] at h
      simp only [husable.maxAdu, husable.readable, if_pos husable.dimensions] at h
      obtain ⟨cp, -, rfl⟩ := Option.map_eq_some_iff.mp h
      exact Crates.jsonLen_le document

variable {more : List Record}

/-- Logs without uses and evictions leave the cache as it was. -/
theorem Orderly.silent (h : Orderly cache (touches log) inner)
    (hmore : touches more = []) : Orderly cache (touches (log ++ more)) inner := by
  rw [touches_append, hmore, List.append_nil]
  exact h

variable {i : Input}

/-- One step. -/
theorem moves_sane [Crates] (h : Sane cache log s)
    (hmoves : World.Moves cache s i s' more) : Sane cache (log ++ more) s' := by
  obtain ⟨horderly, hdistinct, hsizes⟩ := h
  cases hmoves with
  | @capture _ _ _ _ _ document image hmade =>
    have hsize : image.jsonNbytes ≤ isizeMax := by
      subst hmade
      exact Crates.jsonLen_le document
    refine ⟨?_, ?_, sizes_push hsizes hsize⟩
    · rw [← List.append_assoc, World.insert, touches_touched, touches_reads]
      exact horderly.insert (s.alloc image).store.heap document.id s.store.heap.length
    · have hpushed := hdistinct.push.subperm
        (insert_arcs cache (s.alloc image) document.id s.store.heap.length horderly.ordered)
      rwa [← length_push s.store.heap image] at hpushed
  | @rehydrate documentId _ _ image hpath hmade =>
    refine ⟨horderly.silent rfl, ?_, sizes_push hsizes (imageOfCandidates_size hmade)⟩
    have harcs : s.store.inner.images.map Prod.snd ++
        (s.loading ++ [(documentId, s.store.heap.length)]).map Prod.snd =
        s.arcs ++ [s.store.heap.length] := by
      rw [World.arcs, List.map_append, List.append_assoc]
      rfl
    have hpushed := hdistinct.push.subperm (List.perm_append_singleton s.store.heap.length s.arcs).subperm
    rw [← harcs, ← length_push s.store.heap image] at hpushed
    exact hpushed
  | @insertLoaded index documentId arc hloaded =>
    refine ⟨?_, ?_, hsizes⟩
    · rw [World.insert, touches_touched]
      exact horderly.insert s.store.heap _ _
    · have hinsert := insert_arcs cache { s with loading := s.loading.eraseIdx index } documentId arc
        horderly.ordered
      obtain ⟨hlt, hget⟩ := List.getElem?_eq_some_iff.mp hloaded
      have hperm := (List.getElem_cons_eraseIdx_perm hlt).map Prod.snd
      rw [hget] at hperm
      have hback := List.perm_middle.symm.trans (hperm.append_left (s.store.inner.images.map Prod.snd))
      exact hdistinct.subperm (hinsert.trans hback.subperm)
  | get documentId | putSection documentId name value resolved =>
    refine ⟨?_, ?_, hsizes⟩
    · rw [touches_touched]
      exact horderly.get documentId
    · have harcs : s.store.inner.images.map Prod.snd = _ :=
        congrArg (List.map Prod.snd) (get_images documentId s.store.inner).symm
      rw [World.arcs, harcs] at hdistinct
      exact hdistinct
  | gaveUp | found | wroteBeside | renamed => exact ⟨horderly.silent rfl, hdistinct, hsizes⟩

  | @wroteCached _ _ arc _ _ document =>
    refine ⟨horderly.silent rfl, ?_, fun i hi => ?_⟩
    · show Distinct s.arcs (s.store.heap.set arc _).length
      rw [List.length_set]
      exact hdistinct
    · rcases List.mem_or_eq_of_mem_set hi with hi | rfl
      · exact hsizes i hi
      · exact Crates.jsonLen_le document
  | @adjust _ _ delta =>
    refine ⟨?_, ?_, hsizes⟩
    · rw [touches_touched]
      exact horderly.adjustBytes s.store.heap _
    · have hsub := (adjustBytes_images cache s.store.heap delta horderly.ordered).map Prod.snd
      exact hdistinct.subperm (hsub.append_right _).subperm

/-! ## The balance -/

/-- The entry a call has. -/
def Phase.entry : Phase → Option Arc
  | .cached image => some image
  | _ => none

/-- The entry that a call has resized is still cached, or its size has not changed; and no sum or
difference of the total saturates. -/
def Billed [Crates] (cache : ImageCache) (s : World) : Input → Prop
  | .capture pixels width height fitsPath maxAdu document =>
      cache.InsertsExactly
        (s.store.heap ++ [CachedImage.new pixels width height fitsPath maxAdu document])
        document.id s.store.heap.length s.store.inner
  | .insertLoaded index =>
      ∀ entry ∈ s.loading[index]?, cache.InsertsExactly s.store.heap entry.1 entry.2 s.store.inner
  | .write index .ok =>
      ∀ call ∈ s.calls[index]?, ∀ arc ∈ call.phase.entry, ∀ image ∈ s.store.heap[arc]?,
        arc ∈ s.store.inner.images.map Prod.snd ∨
          Crates.jsonLen (image.document.withSection call.name call.value) = image.jsonNbytes
  | .adjust index =>
      ∀ call ∈ s.calls[index]?, cache.AdjustsExactly s.store.heap call.phase.debt s.store.inner
  | _ => True

instance decidableBilled [Crates] (cache : ImageCache) (s : World) :
    (i : Input) → Decidable (Billed cache s i)
  | .capture .. => inferInstanceAs (Decidable (ImageCache.InsertsExactly ..))
  | .insertLoaded index =>
      inferInstanceAs (Decidable (∀ entry ∈ s.loading[index]?,
        cache.InsertsExactly s.store.heap entry.1 entry.2 s.store.inner))
  | .write index .ok =>
      inferInstanceAs (Decidable (∀ call ∈ s.calls[index]?, ∀ arc ∈ call.phase.entry,
        ∀ image ∈ s.store.heap[arc]?, arc ∈ s.store.inner.images.map Prod.snd ∨
          Crates.jsonLen (image.document.withSection call.name call.value) = image.jsonNbytes))
  | .adjust index =>
      inferInstanceAs (Decidable (∀ call ∈ s.calls[index]?,
        cache.AdjustsExactly s.store.heap call.phase.debt s.store.inner))
  | .rehydrate .. | .get .. | .putSection .. | .look .. | .write _ .failed | .write _ .renamed =>
      isTrue trivial

/-- The total is the size of the entries, less what is still owed. -/
def Balanced (s : World) : Prop := off s.store.heap s.store.inner + owed s.calls = 0

variable {calls : List Call} {index : Nat} {call : Call}

theorem owed_set {call' : Call} (h : calls[index]? = some call) :
    owed (calls.set index call') = owed calls - call.phase.debt + call'.phase.debt := by
  induction calls generalizing index with
  | nil => cases h
  | cons first rest ih =>
    have hcons : ∀ (c : Call) (cs : List Call), owed (c :: cs) = c.phase.debt + owed cs :=
      fun _ _ => List.sum_cons
    cases index with
    | zero =>
      cases h
      rw [List.set_cons_zero, hcons, hcons]
      omega
    | succ index =>
      rw [List.set_cons_succ, hcons, hcons, ih h]
      omega

/-- A call that owed nothing and owes nothing. -/
theorem owed_settled (phase : Phase)
    (h : calls[index]? = some call) (hbefore : call.phase.debt = 0) (hafter : phase.debt = 0) :
    owed (calls.set index { call with phase }) = owed calls := by
  rw [owed_set h, hbefore, hafter]
  omega

theorem debt_of_unpaid {phase : Phase} (h : ∀ delta path, phase ≠ .owing delta path) :
    phase.debt = 0 := by
  cases phase with
  | owing delta path => exact absurd rfl (h delta path)
  | _ => rfl

theorem debt_entryFor (s : World) (found : Option Arc) (resolved : Option Path) :
    (s.entryFor found resolved).debt = 0 := by
  unfold World.entryFor
  split
  · rfl
  · split
    · split <;> rfl
    · rfl

theorem off_append {s : World} (hdistinct : Distinct s.arcs s.store.heap.length)
    (more : List CachedImage) :
    off (s.store.heap ++ more) s.store.inner = off s.store.heap s.store.inner := by
  have htotal : total (s.store.heap ++ more) s.store.inner.images = total s.store.heap s.store.inner.images := by
    refine total_append (fun entry hentry => hdistinct.below entry.2 ?_) more
    exact List.mem_append_left _ (List.mem_map_of_mem hentry)
  rw [off, off, htotal]

theorem pixels_nbytes_le (pixels : CachedPixels) : pixels.nbytes ≤ isizeMax := by
  cases pixels with
  | u16 a | i32 a => exact Nat.le_trans (Nat.min_le_left _ _) a.fits


variable {size : Nat}

/-- An image grows by as much as its record. -/
theorem nbytes_resized (hsize : image.jsonNbytes ≤ isizeMax)
    (document : ExposureDocument) (hnew : size ≤ isizeMax) :
    (({ image with document, jsonNbytes := size } : CachedImage).nbytes : Int) =
      image.nbytes + sizeDelta size image.jsonNbytes := by
  have hpixels := pixels_nbytes_le image.pixels
  have hmax : isizeMax = 9223372036854775807 := rfl
  have husize : usizeMax = 18446744073709551615 := rfl
  have hi64 : i64Max = 9223372036854775807 := rfl
  show ((min (image.pixels.nbytes + size) usizeMax : Nat) : Int) =
    (min (image.pixels.nbytes + image.jsonNbytes) usizeMax : Nat) + sizeDelta size image.jsonNbytes
  rw [sizeDelta]
  omega

/-- An entry written while it is cached, or without a change of size. -/
theorem off_set {s : World} {arc : Arc}
    (hdistinct : Distinct s.arcs s.store.heap.length) (himage : s.store.heap[arc]? = some image)
    (hsize : image.jsonNbytes ≤ isizeMax) (document : ExposureDocument) (hnew : size ≤ isizeMax)
    (hbilled : arc ∈ s.store.inner.images.map Prod.snd ∨ size = image.jsonNbytes) :
    off (s.store.heap.set arc { image with document, jsonNbytes := size }) s.store.inner =
      off s.store.heap s.store.inner - sizeDelta size image.jsonNbytes := by
  have hbytes := nbytes_resized hsize document hnew
  rw [off, off]
  by_cases hcached : arc ∈ s.store.inner.images.map Prod.snd
  · have hnodup := (List.nodup_append.mp hdistinct.once).1
    have htotal := total_set { image with document, jsonNbytes := size } himage hnodup hcached
    omega
  · have hsame := hbilled.resolve_left hcached
    rw [total_set_of_not_mem himage hcached, hsame, sizeDelta]
    omega

theorem start_balanced (disk : Disk) : Balanced (World.start disk) := rfl

/-- One step. -/
theorem moves_balanced [Crates] (hsane : Sane cache log s)
    (h : Balanced s) (hbilled : Billed cache s i) (hmoves : World.Moves cache s i s' more) :
    Balanced s' := by
  have hdistinct := hsane.distinct
  have hordered := hsane.orderly.ordered
  rw [Balanced] at h ⊢
  cases hmoves with
  | @capture _ _ _ _ _ document image hmade =>
    subst hmade
    have hinsert := insert_off _ _ hordered hbilled
    rw [off_append hdistinct] at hinsert
    rw [← hinsert] at h
    exact h
  | rehydrate hpath hmade =>
    rw [← off_append hdistinct] at h
    exact h
  | insertLoaded hloaded =>
    have hinsert := insert_off _ _ hordered (hbilled _ hloaded)
    rw [← hinsert] at h
    exact h
  | get documentId =>
    rw [← get_off documentId] at h
    exact h
  | putSection documentId name value resolved =>
    have hcalls : ∀ call : Call, call.phase.debt = 0 → owed (s.calls ++ [call]) = owed s.calls := by
      intro call hcall
      rw [owed, List.map_append, List.sum_append, List.map_singleton, List.sum_singleton, hcall]
      exact Int.add_zero _
    rw [← get_off documentId, ← hcalls ⟨documentId, name, value, resolved, _⟩ (debt_entryFor s _ _)] at h
    exact h
  | gaveUp hcall hunpaid | renamed hcall hunpaid =>
    have hcalls := owed_settled (.returned none) hcall (debt_of_unpaid hunpaid) rfl
    rw [← hcalls] at h
    exact h
  | @found index call fitsPath _ document hcall hphase =>
    have hcalls := owed_settled (.writing fitsPath document) hcall (by rw [hphase]; rfl) rfl
    rw [← hcalls] at h
    exact h
  | @wroteCached index call arc image _ document hcall hphase himage _ hwritten =>
    have hsize := hsane.sizes image (List.mem_of_getElem? himage)
    have hentry : arc ∈ call.phase.entry := by rw [hphase]; rfl
    have hcached := hbilled call hcall arc hentry image himage
    rw [← hwritten] at hcached
    have hoff := off_set hdistinct himage hsize document (Crates.jsonLen_le document) hcached
    have hdebt : call.phase.debt = 0 := by rw [hphase]; rfl
    show off (s.store.heap.set arc _) s.store.inner + owed (s.calls.set index _) = 0
    rw [hoff, owed_set hcall, hdebt]
    show _ - sizeDelta _ _ + (owed s.calls - 0 + sizeDelta _ _) = 0
    omega
  | @wroteBeside index call _ sidecarPath _ hcall hphase =>
    have hcalls := owed_settled (.returned (some sidecarPath)) hcall (by rw [hphase]; rfl) rfl
    rw [← hcalls] at h
    exact h
  | @adjust index call delta _ hcall hphase =>
    have hdebt : call.phase.debt = delta := by rw [hphase]; rfl
    have hexact := hbilled call hcall
    rw [hdebt] at hexact
    have hoff := adjustBytes_off hordered hexact
    show off s.store.heap (cache.adjustBytes s.store.heap delta s.store.inner).1 +
      owed (s.calls.set index _) = 0
    rw [hoff, owed_set hcall, hdebt]
    show _ + delta + (owed s.calls - delta + 0) = 0
    omega

/-! ## The accounts -/

/-- No section update is in progress. -/
def Idle (s : World) : Prop := ∀ call ∈ s.calls, ∃ wrote, call.phase = .returned wrote

/-- The accounts are right: the total, the recency, the budgets, and which entries went. -/
structure Accounted (cache : ImageCache) (log : List Record) (s : World) : Prop where
  bytes : Idle s → s.store.inner.bytes = total s.store.heap s.store.inner.images
  nodup : s.store.inner.order.Nodup
  perm : s.store.inner.order.Perm (Assoc.keys s.store.inner.images)
  images : s.store.inner.images.length ≤ cache.maxImages
  within : s.store.inner.bytes ≤ cache.maxBytes ∨ s.store.inner.images = []
  oldest : OldestFirst (touches log)

theorem owed_idle (h : ∀ call ∈ calls, ∃ wrote, call.phase = .returned wrote) :
    owed calls = 0 := by
  refine List.sum_eq_zero fun debt hdebt => ?_
  obtain ⟨call, hcall, rfl⟩ := List.mem_map.mp hdebt
  obtain ⟨wrote, hphase⟩ := h call hcall
  rw [hphase]
  rfl

variable [Crates] {disk : Disk} {inputs : List Input}

/-- Along every run: the recency, the budgets and the evictions are right. -/
theorem run_sane {allowed : List Record → World → Input → Prop}
    (h : History (World.step cache) allowed (World.start disk) inputs log s) : Sane cache log s := by
  refine h.invariant (Sane cache) (start_sane cache disk) ?_
  intro log s i s' more hsane _ hstep
  exact moves_sane hsane (World.step_moves hstep)

/-- Along every run whose steps are billed: the accounts are right. -/
theorem accounted_of_billed
    (h : History (World.step cache) (fun _ s i => Billed cache s i) (World.start disk) inputs log s) :
    Accounted cache log s := by
  have hsane := run_sane h
  have hbalanced : Sane cache log s ∧ Balanced s := by
    refine h.invariant (fun log s => Sane cache log s ∧ Balanced s)
      ⟨start_sane cache disk, start_balanced disk⟩ ?_
    intro log s i s' more hinv hbilled hstep
    have hmoves := World.step_moves hstep
    exact ⟨moves_sane hinv.1 hmoves, moves_balanced hinv.1 hinv.2 hbilled hmoves⟩
  refine ⟨fun hidle => ?_, hsane.orderly.ordered.nodup, hsane.orderly.ordered.perm,
    hsane.orderly.within.images, hsane.orderly.within.bytes, hsane.orderly.tracks.oldest⟩
  have hzero := hbalanced.2
  rw [Balanced, owed_idle hidle, off] at hzero
  omega

end Runs

namespace Evaluation

attribute [local instance] crates

/-- One black pixel. -/
def pixel : CachedPixels := .u16 ⟨1, 1, [0], rfl, by decide⟩

/-- Another frame's document. -/
def other : DocumentId := "67e55044-10b1-426f-9247-bb680e5fe0c8"

def otherDocument : ExposureDocument := { document 1 with id := other }

def captureFirst : Input := .capture pixel 1 1 fitsPath 65535 (document 1)

def captureOther : Input := .capture pixel 1 1 ["/data", "67e55044.fits"] 65535 otherDocument

def analyse : Input := .putSection documentId "image_analysis" (.bool true) none

/-- A section update of a cached frame, from its capture to its return. -/
theorem update_accounted :
    ∃ log s, History (World.step small) (fun _ s i => Billed small s i)
        (World.start (disk 1 one_fits)) [captureFirst, analyse, .write 0 .ok, .adjust 0] log s ∧
      s.store.inner.bytes = total s.store.heap s.store.inner.images := by
  have h0 : History (World.step small) (fun _ s i => Billed small s i)
      (World.start (disk 1 one_fits)) [] [] _ := .nil
  have h1 := h0.snoc (i := captureFirst) (by decide) rfl
  have h2 := h1.snoc (i := analyse) trivial rfl
  have h3 := h2.snoc (i := Input.write 0 .ok) (by decide) rfl
  have h4 := h3.snoc (i := Input.adjust 0) (by decide) rfl
  refine ⟨_, _, h4, (accounted_of_billed h4).bytes fun call hcall => ?_⟩
  cases List.mem_singleton.mp hcall
  exact ⟨_, rfl⟩

/-- The budget of one image. -/
def single : ImageCache := .new 1 1 ["/data"] 0

/-- A frame arrives while a section of the one before it is written: the entry is gone, its growth is
billed all the same, and the total stays too high. -/
theorem evicted_entry_billed :
    ∃ log s, History (World.step single) (fun _ _ _ => True)
        (World.start (disk 1 one_fits))
        [captureFirst, analyse, captureOther, .write 0 .ok, .adjust 0] log s ∧
      ¬ Accounted single log s := by
  have h0 : History (World.step single) (fun _ _ _ => True)
      (World.start (disk 1 one_fits)) [] [] _ := .nil
  have h1 := h0.snoc (i := captureFirst) trivial rfl
  have h2 := h1.snoc (i := analyse) trivial rfl
  have h3 := h2.snoc (i := captureOther) trivial rfl
  have h4 := h3.snoc (i := Input.write 0 .ok) trivial rfl
  have h5 := h4.snoc (i := Input.adjust 0) trivial rfl
  refine ⟨_, _, h5, fun haccounted => ?_⟩
  have hbytes := haccounted.bytes fun call hcall => by
    cases List.mem_singleton.mp hcall
    exact ⟨_, rfl⟩
  revert hbytes
  decide

end Evaluation

end RustyPhoton.Rp.Persistence
