import RustyPhoton.DoctorChecks.Claims
import RustyPhoton.Lib.OneToOne

/-!
# The join never guesses

A camera is placed on the record that is its only match and whose only match it is, or on the record left
over when it is left over too. Any assignment of cameras to records that the two signals allow puts it
there.
-/

namespace RustyPhoton.DoctorChecks

open Lib

variable {n : Normalizer} {sdk : List SdkCamera} {scan : UsbScan}

/-- A camera and a record match on the strongest signal both carry. -/
def Matches (n : Normalizer) (sdk : List SdkCamera) (scan : UsbScan) (c : CameraIndex sdk)
    (r : RecordIndex n scan) : Prop :=
  keyedMatch n (sdk.get c) (recordAt n scan r) = true

variable {c : CameraIndex sdk} {r : RecordIndex n scan}

theorem mem_matching :
    r ∈ matching n sdk scan c ↔ Matches n sdk scan c r := by
  simp [matching, Matches]

theorem mem_matchedBy :
    c ∈ matchedBy n sdk scan r ↔ Matches n sdk scan c r := by
  simp [matchedBy, mem_matching]

theorem nodup_matching (c : CameraIndex sdk) : (matching n sdk scan c).Nodup :=
  (List.nodup_finRange _).filter _

theorem nodup_matchedBy (r : RecordIndex n scan) : (matchedBy n sdk scan r).Nodup :=
  (List.nodup_finRange _).filter _

/-- A list without repetitions whose only member is this one. -/
theorem eq_singleton_iff {α : Type} {l : List α} (hl : l.Nodup) {a : α} :
    l = [a] ↔ a ∈ l ∧ ∀ b ∈ l, b = a := by
  constructor
  · intro h
    rw [h]
    exact ⟨List.mem_singleton_self a, fun b hb => List.mem_singleton.mp hb⟩
  · rintro ⟨hmem, honly⟩
    refine List.perm_singleton.mp ((List.perm_ext_iff_of_nodup hl (List.nodup_singleton a)).mpr fun b => ?_)
    exact ⟨fun hb => List.mem_singleton.mpr (honly b hb), fun hb => by
      rw [List.mem_singleton.mp hb]
      exact hmem⟩

/-! ## Where a camera is placed -/

theorem keyedPlace_eq_some :
    keyedPlace n sdk scan c = some r ↔ Sole (Matches n sdk scan) c r := by
  have hone : (matchedBy n sdk scan r).length = 1 ∧ Matches n sdk scan c r ↔
      Matches n sdk scan c r ∧ ∀ c', Matches n sdk scan c' r → c' = c := by
    constructor
    · rintro ⟨hlength, hmatch⟩
      obtain ⟨c₀, hc₀⟩ := List.length_eq_one_iff.mp hlength
      obtain ⟨_, honly⟩ := (eq_singleton_iff (nodup_matchedBy r)).mp hc₀
      have hc := honly c (mem_matchedBy.mpr hmatch)
      exact ⟨hmatch, fun c' hc' => (honly c' (mem_matchedBy.mpr hc')).trans hc.symm⟩
    · rintro ⟨hmatch, honly⟩
      have hlist : matchedBy n sdk scan r = [c] := (eq_singleton_iff (nodup_matchedBy r)).mpr
        ⟨mem_matchedBy.mpr hmatch, fun c' hc' => honly c' (mem_matchedBy.mp hc')⟩
      exact ⟨by rw [hlist]; rfl, hmatch⟩
  constructor
  · intro h
    unfold keyedPlace at h
    split at h
    · next r' hlist =>
        split at h
        · next hlength =>
            cases h
            obtain ⟨hmem, honly⟩ := (eq_singleton_iff (nodup_matching c)).mp hlist
            have hpair := hone.mp ⟨hlength, mem_matching.mp hmem⟩
            exact ⟨hpair.1, fun r' hr' => honly r' (mem_matching.mpr hr'), hpair.2⟩
        · cases h
    · cases h
  · intro h
    have hlist : matching n sdk scan c = [r] := (eq_singleton_iff (nodup_matching c)).mpr
      ⟨mem_matching.mpr h.pair, fun r' hr' => h.right r' (mem_matching.mp hr')⟩
    unfold keyedPlace
    rw [hlist]
    exact if_pos (hone.mpr ⟨h.pair, h.left⟩).1

/-- One camera and one record are left over. -/
theorem unpaired_eq :
    unpairedCameras n sdk scan = [c] ∧ unpairedRecords n sdk scan = [r] ↔
      Leftover (Sole (Matches n sdk scan)) c r := by
  have hcameras : ∀ c', c' ∈ unpairedCameras n sdk scan ↔ ∀ r', ¬Sole (Matches n sdk scan) c' r' := by
    intro c'
    simp only [unpairedCameras, List.mem_filter, List.mem_finRange, true_and, Option.isNone_iff_eq_none,
      Option.eq_none_iff_forall_ne_some, ne_eq, keyedPlace_eq_some]
  have hrecords : ∀ r', r' ∈ unpairedRecords n sdk scan ↔ ∀ c', ¬Sole (Matches n sdk scan) c' r' := by
    intro r'
    simp [unpairedRecords, keyedPlace_eq_some]
  have hnodup : (unpairedCameras n sdk scan).Nodup := (List.nodup_finRange _).filter _
  have hnodup' : (unpairedRecords n sdk scan).Nodup := (List.nodup_finRange _).filter _
  rw [eq_singleton_iff hnodup, eq_singleton_iff hnodup', hcameras, hrecords]
  constructor
  · rintro ⟨⟨hleft, hothers⟩, hright, hothers'⟩
    refine ⟨hleft, hright, fun c' hne => ?_, fun r' hne => ?_⟩
    · by_contra hnone
      exact hne (hothers c' ((hcameras c').mpr fun r' hr' => hnone ⟨r', hr'⟩))
    · by_contra hnone
      exact hne (hothers' r' ((hrecords r').mpr fun c' hc' => hnone ⟨c', hc'⟩))
  · intro h
    refine ⟨⟨h.left, fun c' hc' => ?_⟩, h.right, fun r' hr' => ?_⟩
    · by_contra hne
      obtain ⟨r', hr'⟩ := h.others c' hne
      exact (hcameras c').mp hc' r' hr'
    · by_contra hne
      obtain ⟨c', hc'⟩ := h.others' r' hne
      exact (hrecords r').mp hr' c' hc'

/-- A camera is placed on its sole match, or on the record left over with it. -/
theorem placedOn_eq_some :
    placedOn n sdk scan c = some r ↔ Sole (Matches n sdk scan) c r ∨
      Leftover (Sole (Matches n sdk scan)) c r ∧
        eliminates n scan (sdk.get c) (recordAt n scan r) = true := by
  unfold placedOn
  split
  · next camera record hcameras hrecords =>
      have hleft : Leftover (Sole (Matches n sdk scan)) camera record :=
        unpaired_eq.mp ⟨hcameras, hrecords⟩
      split
      · next helim =>
          by_cases hsame : c = camera
          · subst hsame
            rw [Function.update_self]
            constructor
            · intro h
              cases h
              exact .inr ⟨hleft, helim⟩
            · rintro (h | ⟨h, _⟩)
              · exact absurd h (hleft.left r)
              · rw [(h.eq hleft).2]
          · rw [Function.update_of_ne hsame, keyedPlace_eq_some]
            refine ⟨.inl, ?_⟩
            rintro (h | ⟨h, _⟩)
            · exact h
            · exact absurd (h.eq hleft).1 hsame
      · next helim =>
          rw [keyedPlace_eq_some]
          refine ⟨.inl, ?_⟩
          rintro (h | ⟨h, helim'⟩)
          · exact h
          · obtain ⟨rfl, rfl⟩ := h.eq hleft
            exact absurd helim' helim
  · next hnone =>
      rw [keyedPlace_eq_some]
      refine ⟨.inl, ?_⟩
      rintro (h | ⟨h, _⟩)
      · exact h
      · obtain ⟨hcameras, hrecords⟩ := unpaired_eq.mpr h
        exact absurd hrecords (hnone c r hcameras)

/-- No record receives two cameras. -/
theorem placedOn_injective {c' : CameraIndex sdk}
    (h : placedOn n sdk scan c = some r) (h' : placedOn n sdk scan c' = some r) : c = c' := by
  rcases placedOn_eq_some.mp h with hsole | ⟨hleft, _⟩
  · rcases placedOn_eq_some.mp h' with hsole' | ⟨hleft', _⟩
    · exact hsole.eq_left hsole'
    · exact absurd hsole (hleft'.right c)
  · rcases placedOn_eq_some.mp h' with hsole' | ⟨hleft', _⟩
    · exact absurd hsole' (hleft.right c')
    · exact (hleft.eq hleft').1

theorem cameraPlace_eq_port {port : String} :
    cameraPlace n sdk scan c = .Port port ↔
      ∃ r, placedOn n sdk scan c = some r ∧ portOf n scan r = port := by
  unfold cameraPlace
  cases placedOn n sdk scan c with
  | some r => simp
  | none =>
    dsimp only
    split
    · split
      · simp
      · simp
    · simp

/-! ## The assignments the signals allow -/

/-- An assignment of the cameras to the scan's camera records that both signals allow. -/
structure Consistent (n : Normalizer) (sdk : List SdkCamera) (scan : UsbScan)
    (f : CameraIndex sdk → RecordIndex n scan) : Prop where
  injective : Function.Injective f
  fits : ∀ c, keyedMatch n (sdk.get c) (recordAt n scan (f c)) = true ∨
    n.productFor (sdk.get c).model = none ∧
      ¬((sdk.get c).serial.isSome ∧ (recordAt n scan (f c)).serial.isSome)
  serial : ∀ c serial, (sdk.get c).serial = some serial →
    (∃ r, (recordAt n scan r).serial = some serial) → (recordAt n scan (f c)).serial = some serial

/-- A match of a camera whose model nobody knows is one of serials. -/
theorem serial_of_keyedMatch {camera : SdkCamera} {record : UsbDevice}
    (h : keyedMatch n camera record = true) (hmodel : n.productFor camera.model = none) :
    ∃ serial, camera.serial = some serial ∧ record.serial = some serial := by
  unfold keyedMatch at h
  split at h
  · next sdk bus hsdk hbus =>
      exact ⟨sdk, hsdk, by rw [hbus, of_decide_eq_true h]⟩
  · rw [hmodel] at h
    simp at h

variable {f : CameraIndex sdk → RecordIndex n scan}

/-- A camera's sole match is where every consistent assignment puts it. -/
theorem Consistent.eq_of_sole (hf : Consistent n sdk scan f)
    (h : Sole (Matches n sdk scan) c r) : f c = r := by
  rcases hf.fits c with hfit | ⟨hmodel, hserials⟩
  · exact h.right (f c) hfit
  · -- the match was one of serials, so the assigned record carries the serial too
    obtain ⟨serial, hcamera, hrecord⟩ := serial_of_keyedMatch h.pair hmodel
    have hassigned := hf.serial c serial hcamera ⟨r, hrecord⟩
    exact absurd ⟨by rw [hcamera]; rfl, by rw [hassigned]; rfl⟩ hserials

theorem Consistent.eq_of_placedOn (hf : Consistent n sdk scan f)
    (h : placedOn n sdk scan c = some r) : f c = r := by
  rcases placedOn_eq_some.mp h with hsole | ⟨hleft, _⟩
  · exact hf.eq_of_sole hsole
  · exact hleft.forced hf.injective fun c' r' hsole => hf.eq_of_sole hsole

end RustyPhoton.DoctorChecks
