import RustyPhoton.DoctorChecks.Placement

/-!
# The join does not depend on enumeration order

The cameras under new indices and a scan in another order are joined alike: the same port for each
camera, the same ports for a look-alike, and the same rivals under their new indices.
-/

namespace RustyPhoton.DoctorChecks

open Lib

/-- A place under new camera indices. -/
def CameraPlace.relabel {cameras cameras' : ℕ} (σ : Fin cameras ≃ Fin cameras') :
    CameraPlace cameras → CameraPlace cameras'
  | .Port port => .Port port
  | .LookAlike ports rivals => .LookAlike ports ((rivals.map σ).insertionSort (· ≤ ·))
  | .Unrecognised => .Unrecognised
  | .NoRecord => .NoRecord

/-- The same cameras under new indices, on the same records in another order. -/
structure Renaming (n : Normalizer) (sdk sdk' : List SdkCamera) (scan scan' : UsbScan) where
  σ : CameraIndex sdk ≃ CameraIndex sdk'
  τ : RecordIndex n scan ≃ RecordIndex n scan'
  camera : ∀ c, sdk'.get (σ c) = sdk.get c
  record : ∀ r, recordAt n scan' (τ r) = recordAt n scan r
  faults : scan.faults.Perm scan'.faults

theorem exists_renaming (n : Normalizer) {sdk sdk' : List SdkCamera} {scan scan' : UsbScan}
    (σ : CameraIndex sdk ≃ CameraIndex sdk') (hσ : Relabels sdk sdk' σ)
    (hdevices : scan.devices.Perm scan'.devices) (hfaults : scan.faults.Perm scan'.faults) :
    ∃ ren : Renaming n sdk sdk' scan scan', ren.σ = σ := by
  obtain ⟨τ, hτ⟩ := exists_relabels (hdevices.filter n.isOwnRecord)
  exact ⟨⟨σ, τ, hσ, hτ, hfaults⟩, rfl⟩

variable {n : Normalizer} {sdk : List SdkCamera} {scan scan' : UsbScan}

theorem eliminates_of_perm (h : scan.faults.Perm scan'.faults) (camera : SdkCamera) (record : UsbDevice) :
    eliminates n scan' camera record = eliminates n scan camera record := by
  have hany : scan'.faults.any n.couldBeCamera = scan.faults.any n.couldBeCamera := by
    rw [Bool.eq_iff_iff, List.any_eq_true, List.any_eq_true]
    simp only [h.mem_iff]
  unfold eliminates
  rw [hany]

theorem mem_rivalsOf {c other : CameraIndex sdk} :
    other ∈ rivalsOf n sdk scan c ↔
      (∃ r, Matches n sdk scan c r ∧ Matches n sdk scan other r) ∧ other ≠ c := by
  simp [rivalsOf, mem_matching, mem_matchedBy]

/-- The rivals are listed in the order of their indices. -/
theorem sorted_rivalsOf (c : CameraIndex sdk) : (rivalsOf n sdk scan c).Pairwise (· ≤ ·) :=
  (List.pairwise_insertionSort _ _).sublist (List.dedup_sublist _)

namespace Renaming

variable {sdk' : List SdkCamera} (ren : Renaming n sdk sdk' scan scan')

theorem matches_iff (c : CameraIndex sdk) (r : RecordIndex n scan) :
    Matches n sdk' scan' (ren.σ c) (ren.τ r) ↔ Matches n sdk scan c r := by
  unfold Matches
  rw [ren.camera, ren.record]

theorem placedOn_eq (c : CameraIndex sdk) :
    placedOn n sdk' scan' (ren.σ c) = (placedOn n sdk scan c).map ren.τ := by
  have hiff : ∀ r, placedOn n sdk' scan' (ren.σ c) = some (ren.τ r) ↔ placedOn n sdk scan c = some r := by
    intro r
    have hsole := sole_iff ren.matches_iff
    rw [placedOn_eq_some, placedOn_eq_some, hsole, leftover_iff hsole, ren.camera, ren.record,
      eliminates_of_perm ren.faults]
  cases hplaced : placedOn n sdk scan c with
  | some r => exact (hiff r).mpr hplaced
  | none =>
    refine Option.eq_none_iff_forall_ne_some.mpr ?_
    rw [ren.τ.surjective.forall]
    intro r hr
    rw [(hiff r).mp hr] at hplaced
    cases hplaced

theorem portOf_eq (r : RecordIndex n scan) : portOf n scan' (ren.τ r) = portOf n scan r := by
  unfold portOf
  rw [ren.record]

theorem matching_perm (c : CameraIndex sdk) :
    (matching n sdk' scan' (ren.σ c)).Perm ((matching n sdk scan c).map ren.τ) :=
  filter_finRange_perm ren.τ fun r => by rw [ren.camera, ren.record]

theorem ports_eq (c : CameraIndex sdk) :
    ((matching n sdk' scan' (ren.σ c)).map (portOf n scan')).insertionSort PortLe =
      ((matching n sdk scan c).map (portOf n scan)).insertionSort PortLe := by
  refine @List.Perm.eq_of_pairwise _ PortLe _ _ (fun _ _ _ _ => PortLe.antisymm)
    (List.pairwise_insertionSort _ _) (List.pairwise_insertionSort _ _) ?_
  have hports : ((matching n sdk scan c).map ren.τ).map (portOf n scan') =
      (matching n sdk scan c).map (portOf n scan) := by
    rw [List.map_map]
    exact List.map_congr_left fun r _ => ren.portOf_eq r
  have hmapped := (ren.matching_perm c).map (portOf n scan')
  rw [hports] at hmapped
  exact (List.perm_insertionSort _ _).trans (hmapped.trans (List.perm_insertionSort _ _).symm)

theorem rivalsOf_eq (c : CameraIndex sdk) :
    rivalsOf n sdk' scan' (ren.σ c) = ((rivalsOf n sdk scan c).map ren.σ).insertionSort (· ≤ ·) := by
  refine @List.Perm.eq_of_pairwise _ (· ≤ ·) _ _ (fun _ _ _ _ => le_antisymm) (sorted_rivalsOf _)
    (List.pairwise_insertionSort _ _) ?_
  refine List.Perm.trans ?_ (List.perm_insertionSort _ _).symm
  refine (List.perm_ext_iff_of_nodup (List.nodup_dedup _)
    ((List.nodup_dedup _).map ren.σ.injective)).mpr ?_
  rw [ren.σ.surjective.forall]
  intro other
  show ren.σ other ∈ rivalsOf n sdk' scan' (ren.σ c) ↔ ren.σ other ∈ (rivalsOf n sdk scan c).map ren.σ
  rw [mem_rivalsOf, List.mem_map_of_injective ren.σ.injective, mem_rivalsOf, ren.τ.surjective.exists]
  simp only [ren.matches_iff, ne_eq, ren.σ.injective.eq_iff]

/-- The placement is the same under the new indices. -/
theorem cameraPlace_eq (c : CameraIndex sdk) :
    cameraPlace n sdk' scan' (ren.σ c) = (cameraPlace n sdk scan c).relabel ren.σ := by
  have hempty : (matching n sdk' scan' (ren.σ c)).isEmpty = (matching n sdk scan c).isEmpty := by
    rw [Bool.eq_iff_iff, List.isEmpty_iff, List.isEmpty_iff, ← List.map_eq_nil_iff (f := ren.τ)]
    exact ⟨fun h => List.perm_nil.mp (h ▸ (ren.matching_perm c).symm),
      fun h => List.perm_nil.mp (h ▸ ren.matching_perm c)⟩
  unfold cameraPlace
  rw [ren.placedOn_eq]
  cases placedOn n sdk scan c with
  | some r =>
    show CameraPlace.Port (portOf n scan' (ren.τ r)) = .Port (portOf n scan r)
    rw [ren.portOf_eq]
  | none =>
    show (if (matching n sdk' scan' (ren.σ c)).isEmpty = true then _ else _) = _
    rw [hempty, ren.camera, ren.ports_eq, ren.rivalsOf_eq]
    dsimp only
    split
    · split
      · rfl
      · rfl
    · rfl

end Renaming

/-! ## Listed ports and the port order -/

/-- No two camera records of the scan are on one port. -/
def DistinctPorts (n : Normalizer) (scan : UsbScan) : Prop := Function.Injective (portOf n scan)

theorem eq_of_port (hports : DistinctPorts n scan) {c c' : CameraIndex sdk} {port : String}
    (h : cameraPlace n sdk scan c = .Port port) (h' : cameraPlace n sdk scan c' = .Port port) : c = c' := by
  obtain ⟨r, hr, hport⟩ := cameraPlace_eq_port.mp h
  obtain ⟨r', hr', hport'⟩ := cameraPlace_eq_port.mp h'
  rw [hports (hport.trans hport'.symm)] at hr
  exact placedOn_injective hr hr'

theorem cameraOn_eq_some (hports : DistinctPorts n scan) {c : CameraIndex sdk} {port : String} :
    (place n sdk scan).cameraOn port = some c ↔ cameraPlace n sdk scan c = .Port port := by
  constructor
  · intro h
    exact of_decide_eq_true
      (List.find?_some (p := fun c => decide ((place n sdk scan).cameras c = .Port port)) h)
  · intro h
    cases hfound : (place n sdk scan).cameraOn port with
    | none =>
      have hnot := List.find?_eq_none.mp hfound c (List.mem_finRange c)
      exact absurd (decide_eq_true h) hnot
    | some c' =>
      have hplace := of_decide_eq_true
        (List.find?_some (p := fun c => decide ((place n sdk scan).cameras c = .Port port)) hfound)
      rw [eq_of_port hports hplace h]

theorem mem_onPorts {c : CameraIndex sdk} {port : String} :
    (c, port) ∈ (place n sdk scan).onPorts ↔ cameraPlace n sdk scan c = .Port port := by
  unfold Placement.onPorts
  rw [List.mem_filterMap]
  constructor
  · rintro ⟨c', _, h⟩
    split at h
    · next hplace =>
        cases h
        exact hplace
    · cases h
  · intro h
    refine ⟨c, List.mem_finRange c, ?_⟩
    rw [show (place n sdk scan).cameras c = .Port port from h]

theorem nodup_onPorts (n : Normalizer) (sdk : List SdkCamera) (scan : UsbScan) :
    (place n sdk scan).onPorts.Nodup := by
  refine (List.nodup_finRange _).filterMap fun c c' p hc hc' => ?_
  split at hc
  · cases hc
    split at hc'
    · cases hc'
      rfl
    · cases hc'
  · cases hc

theorem placed_new (service : String) :
    (Claims.new n service (.ok scan) sdk).placed =
      (place n sdk scan).onPorts.insertionSort fun a b => PortLe a.2 b.2 := rfl

/-- The camera a resolution names. -/
def Resolution.camera {cameras : ℕ} : Resolution cameras → Option (Fin cameras)
  | .Camera index => some index
  | .Placeholder _ => none

theorem camera_resolve_new (service port : String) :
    ((Claims.new n service (.ok scan) sdk).resolve port).camera = (place n sdk scan).cameraOn port := by
  unfold Claims.resolve Claims.new
  dsimp only [Except.map]
  cases (place n sdk scan).cameraOn port with
  | some camera => rfl
  | none => rfl

/-- What is on ports is put in one order by its ports, when no port holds two. -/
theorem insertionSort_ports_eq {α β : Type} {l : List (α × String)} {l' : List (β × String)}
    {φ : α × String → β × String} (hφ : ∀ a, (φ a).2 = a.2) (hperm : l'.Perm (l.map φ))
    (hone : ∀ a ∈ l', ∀ b ∈ l', a.2 = b.2 → a = b) :
    l'.insertionSort (fun a b => PortLe a.2 b.2) =
      (l.insertionSort fun a b => PortLe a.2 b.2).map φ := by
  have htrans : ∀ γ : Type, IsTrans (γ × String) fun a b => PortLe a.2 b.2 :=
    fun γ => ⟨fun a b c => IsTrans.trans a.2 b.2 c.2⟩
  have htotal : ∀ γ : Type, Std.Total fun a b : γ × String => PortLe a.2 b.2 :=
    fun γ => ⟨fun a b => portLe_total a.2 b.2⟩
  have hsorted := List.pairwise_insertionSort (fun a b : α × String => PortLe a.2 b.2) l
  have hsorted' := List.pairwise_insertionSort (fun a b : β × String => PortLe a.2 b.2) l'
  have hsort := List.perm_insertionSort (fun a b : α × String => PortLe a.2 b.2) l
  have hsort' := List.perm_insertionSort (fun a b : β × String => PortLe a.2 b.2) l'
  refine @List.Perm.eq_of_pairwise _ (fun a b : β × String => PortLe a.2 b.2) _ _ ?_ hsorted'
    (List.pairwise_map.mpr (hsorted.imp fun h => ?_)) ?_
  · intro a b ha hb hle hle'
    have ha' : a ∈ l' := hsort'.mem_iff.mp ha
    have hb' : b ∈ l' := hperm.mem_iff.mpr ((hsort.map φ).mem_iff.mp hb)
    exact hone a ha' b hb' (PortLe.antisymm hle hle')
  · rw [hφ, hφ]
    exact h
  · exact hsort'.trans (hperm.trans (hsort.symm.map φ))

namespace Renaming

variable {sdk' : List SdkCamera} (ren : Renaming n sdk sdk' scan scan')

theorem port_iff {c : CameraIndex sdk} {port : String} :
    cameraPlace n sdk' scan' (ren.σ c) = .Port port ↔ cameraPlace n sdk scan c = .Port port := by
  rw [ren.cameraPlace_eq]
  cases cameraPlace n sdk scan c with
  | Port port' => simp [CameraPlace.relabel]
  | _ => simp [CameraPlace.relabel]

include ren in
theorem distinctPorts (hports : DistinctPorts n scan) : DistinctPorts n scan' := by
  unfold DistinctPorts Function.Injective
  rw [ren.τ.surjective.forall]
  intro r
  rw [ren.τ.surjective.forall]
  intro r' h
  rw [ren.portOf_eq, ren.portOf_eq] at h
  rw [hports h]

theorem cameraOn_eq (hports : DistinctPorts n scan) (port : String) :
    (place n sdk' scan').cameraOn port = ((place n sdk scan).cameraOn port).map ren.σ := by
  have hiff : ∀ c, (place n sdk' scan').cameraOn port = some (ren.σ c) ↔
      (place n sdk scan).cameraOn port = some c := fun c => by
    rw [cameraOn_eq_some (ren.distinctPorts hports), cameraOn_eq_some hports, ren.port_iff]
  cases hfound : (place n sdk scan).cameraOn port with
  | some c => exact (hiff c).mpr hfound
  | none =>
    refine Option.eq_none_iff_forall_ne_some.mpr ?_
    rw [ren.σ.surjective.forall]
    intro c hc
    rw [(hiff c).mp hc] at hfound
    cases hfound

/-- The cameras are numbered alike in port order. -/
theorem placed_eq (hports : DistinctPorts n scan) (service : String) :
    (Claims.new n service (.ok scan') sdk').placed =
      (Claims.new n service (.ok scan) sdk).placed.map (Prod.map ren.σ id) := by
  have hperm : (place n sdk' scan').onPorts.Perm ((place n sdk scan).onPorts.map (Prod.map ren.σ id)) := by
    refine (List.perm_ext_iff_of_nodup (nodup_onPorts _ _ _)
      ((nodup_onPorts _ _ _).map (ren.σ.injective.prodMap Function.injective_id))).mpr ?_
    rintro ⟨c', port⟩
    obtain ⟨c, rfl⟩ := ren.σ.surjective c'
    rw [mem_onPorts, ren.port_iff, ← mem_onPorts]
    exact (List.mem_map_of_injective (ren.σ.injective.prodMap Function.injective_id)).symm
  rw [placed_new, placed_new]
  refine insertionSort_ports_eq (fun _ => rfl) hperm ?_
  -- cameras on one port are one camera
  rintro ⟨a, port⟩ ha ⟨b, port'⟩ hb hsame
  cases hsame
  rw [eq_of_port (ren.distinctPorts hports) (mem_onPorts.mp ha) (mem_onPorts.mp hb)]

end Renaming

/-! ## The join -/

/-- A camera is put on the port of the record it is placed on, every consistent assignment puts it on that
record, and no record receives two. -/
structure NeverGuesses (n : Normalizer) (sdk : List SdkCamera) (scan : UsbScan) : Prop where
  port : ∀ c port, (place n sdk scan).cameras c = .Port port ↔
    ∃ r, placedOn n sdk scan c = some r ∧ portOf n scan r = port
  forced : ∀ f, Consistent n sdk scan f → ∀ c r, placedOn n sdk scan c = some r → f c = r
  apart : ∀ c c' r, placedOn n sdk scan c = some r → placedOn n sdk scan c' = some r → c = c'

/-- Two rigs are joined alike: the same places under the new indices, and, when no two records share a
port, the same camera for every listed port and for every number. -/
structure JoinedAlike (n : Normalizer) (sdk sdk' : List SdkCamera) (scan scan' : UsbScan)
    (σ : CameraIndex sdk ≃ CameraIndex sdk') : Prop where
  places : ∀ c, (place n sdk' scan').cameras (σ c) = ((place n sdk scan).cameras c).relabel σ
  resolves : DistinctPorts n scan → ∀ service port,
    ((Claims.new n service (.ok scan') sdk').resolve port).camera =
      ((Claims.new n service (.ok scan) sdk).resolve port).camera.map σ
  numbered : DistinctPorts n scan → ∀ service,
    (Claims.new n service (.ok scan') sdk').placed =
      (Claims.new n service (.ok scan) sdk).placed.map (Prod.map σ id)

/-- The join never guesses and never depends on enumeration order. -/
theorem join_sound (n : Normalizer) (sdk : List SdkCamera) (scan : UsbScan) :
    NeverGuesses n sdk scan ∧
    (∀ sdk' scan' (σ : CameraIndex sdk ≃ CameraIndex sdk'), Relabels sdk sdk' σ →
      scan.devices.Perm scan'.devices → scan.faults.Perm scan'.faults →
      JoinedAlike n sdk sdk' scan scan' σ) ∧
    (∀ a b, comparePorts a b = .eq ↔ a = b) ∧ (∀ a b, comparePorts b a = (comparePorts a b).swap) ∧
    ∀ a b c, (comparePorts a b).isLE → (comparePorts b c).isLE → (comparePorts a c).isLE := by
  refine ⟨⟨fun c port => cameraPlace_eq_port, fun f hf c r => hf.eq_of_placedOn,
    fun c c' r => placedOn_injective⟩, fun sdk' scan' σ hσ hdevices hfaults => ?_,
    fun a b => comparePorts_eq_iff, fun a b => Std.OrientedCmp.eq_swap, fun a b c => Std.TransCmp.isLE_trans⟩
  obtain ⟨ren, rfl⟩ := exists_renaming n σ hσ hdevices hfaults
  refine ⟨ren.cameraPlace_eq, fun hports service port => ?_, fun hports service =>
    ren.placed_eq hports service⟩
  rw [camera_resolve_new, camera_resolve_new, ren.cameraOn_eq hports]

def benchNormalizer : Normalizer := ⟨"SVBony", "f266", [("SV605CC", "9a0a")], [], none⟩

/-- A camera of a known model, and one of a model nobody knows. -/
def benchCameras : List SdkCamera := [⟨"SV605CC", none⟩, ⟨"SV705C", none⟩]

def benchScan : UsbScan :=
  ⟨[⟨"f266", "9b00", none, some "1-2", none⟩, ⟨"f266", "9a0a", none, some "1-4", none⟩], []⟩

def benchAssignment (c : CameraIndex benchCameras) : RecordIndex benchNormalizer benchScan :=
  ⟨1 - c.val, by revert c; decide⟩

def benchUnknown : CameraIndex benchCameras := ⟨1, by decide⟩

/-- The SDK enumerates the other way round. -/
def benchSwap : CameraIndex benchCameras ≃ CameraIndex benchCameras.reverse := Fin.revPerm

theorem join_sound_bench :
    placedOn benchNormalizer benchCameras benchScan benchUnknown = some (benchAssignment benchUnknown) ∧
    (∀ r, placedOn benchNormalizer benchCameras benchScan benchUnknown = some r →
      benchAssignment benchUnknown = r) ∧
    JoinedAlike benchNormalizer benchCameras benchCameras.reverse benchScan
      ⟨benchScan.devices.reverse, []⟩ benchSwap := by
  have hnone : ∀ c : CameraIndex benchCameras, (benchCameras.get c).serial = none := by decide
  have hconsistent : Consistent benchNormalizer benchCameras benchScan benchAssignment := by
    refine ⟨by decide, by decide, fun c serial hserial => ?_⟩
    rw [hnone] at hserial
    cases hserial
  have hcameras : Relabels benchCameras benchCameras.reverse benchSwap := by
    intro c
    match c with
    | ⟨0, _⟩ => rfl
    | ⟨1, _⟩ => rfl
  exact ⟨by decide +kernel, (join_sound _ _ _).1.forced benchAssignment hconsistent benchUnknown,
    (join_sound benchNormalizer benchCameras benchScan).2.1 _ _ benchSwap hcameras
      (List.reverse_perm _).symm (.refl _)⟩

end RustyPhoton.DoctorChecks
