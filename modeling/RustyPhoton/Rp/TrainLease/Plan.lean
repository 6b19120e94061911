import Mathlib.Data.List.Basic

/-!
# What a lease covers

After `LeasePlan` of `train_lease.rs` and the queries of `trains.rs` it makes. A lease moves the
terminal focuser and the wheels of its train, holds the other focusers and the rotators still, and
holds every camera behind something it moves.
-/

namespace RustyPhoton.Rp.TrainLease

/-! ## Trains -/

inductive TrainDeviceKind where
  | camera
  | focuser
  | rotator
  | filterWheel
  | coverCalibrator
  deriving DecidableEq

structure TrainDevice where
  id : String
  kind : TrainDeviceKind
  deriving DecidableEq

inductive TrainPurpose where
  | imaging
  | guiding
  deriving DecidableEq

/-- A train: its devices from the objective to the camera. -/
structure Train where
  id : String
  purpose : TrainPurpose
  devices : List TrainDevice
  deriving DecidableEq

namespace Train

/-- The camera a train ends in. -/
def cameraId (train : Train) : Option String := train.devices.getLast?.map TrainDevice.id

/-- The last focuser of a train. -/
def terminalFocuser (train : Train) : Option String :=
  (train.devices.reverse.find? fun d => d.kind = .focuser).map TrainDevice.id

def idsOfKind (train : Train) (kind : TrainDeviceKind) : List String :=
  (train.devices.filter fun d => d.kind = kind).map TrainDevice.id

/-- The train contains one of the ids. -/
def contains (train : Train) (ids : List String) : Bool :=
  train.devices.any fun d => ids.contains d.id

end Train

structure TrainModel where
  trains : List Train

def TrainModel.train (trains : TrainModel) (trainId : String) : Option Train :=
  trains.trains.find? fun t => t.id = trainId

/-! ## Plans -/

structure LeasePlan where
  trainId : String
  guiding : Bool
  cameraId : String
  focuserId : String
  filterWheelIds : List String
  heldFocuserIds : List String
  heldRotatorIds : List String
  drainedCameraIds : List String
  deriving DecidableEq

namespace LeasePlan

/-- The other cameras of the trains that contain something the lease moves, in order, each once. -/
def drainedCameras (trains : TrainModel) (moved : List String) (cameraId : String) : List String :=
  ((((trains.trains.filter fun t => t.contains moved).filterMap Train.cameraId).filter
    fun id => id ≠ cameraId).eraseDups).mergeSort fun a b => decide (a ≤ b)

/-- `for_train`. -/
def forTrain (trains : TrainModel) (trainId : String) : Except String LeasePlan :=
  match trains.train trainId with
  | none => .error ("train not found: " ++ trainId)
  | some train =>
      match train.cameraId with
      | none => .error ("train '" ++ trainId ++ "' has no camera")
      | some cameraId =>
          match train.terminalFocuser with
          | none => .error ("train '" ++ trainId ++ "' has no focuser")
          | some focuserId =>
              let filterWheelIds := train.idsOfKind .filterWheel
              .ok {
                trainId := trainId
                guiding := train.purpose = .guiding
                cameraId := cameraId
                focuserId := focuserId
                filterWheelIds := filterWheelIds
                heldFocuserIds := (train.idsOfKind .focuser).filter fun id => id ≠ focuserId
                heldRotatorIds := train.idsOfKind .rotator
                drainedCameraIds := drainedCameras trains (focuserId :: filterWheelIds) cameraId }

/-- The cameras the lease holds: its own, then the drained ones. -/
def cameras (plan : LeasePlan) : List String := plan.cameraId :: plan.drainedCameraIds

/-- Whether a call under the lease may move a device. -/
def moves (plan : LeasePlan) (deviceId : String) : Bool :=
  plan.focuserId = deviceId || plan.filterWheelIds.contains deviceId

/-- Whether the lease holds a device still. -/
def holdsStill (plan : LeasePlan) (deviceId : String) : Bool :=
  (plan.heldFocuserIds ++ plan.heldRotatorIds).contains deviceId

/-- Every device the lease moves or holds still, with its kind. -/
def devices (plan : LeasePlan) : List (String × String) :=
  ("focuser", plan.focuserId) :: plan.filterWheelIds.map (Prod.mk "filter wheel") ++
    plan.heldFocuserIds.map (Prod.mk "focuser") ++ plan.heldRotatorIds.map (Prod.mk "rotator")

/-- Every camera and device of the reservation, with its kind. -/
def reservation (plan : LeasePlan) : List (String × String) :=
  plan.cameras.map (Prod.mk "camera") ++ plan.devices

def reserves (plan : LeasePlan) (id : String) : Bool :=
  plan.reservation.any fun reserved => reserved.2 = id

/-- A camera or device both reservations include, with its kind. -/
def sharedWith (plan other : LeasePlan) : Option (String × String) :=
  plan.reservation.find? fun reserved => other.reserves reserved.2

/-! ## Reservations -/

/-- No camera or device is in both reservations. -/
def Disjoint (plan other : LeasePlan) : Prop :=
  ∀ id, plan.reserves id = true → other.reserves id = false

variable {plan other : LeasePlan} {id : String}

theorem Disjoint.symm (h : plan.Disjoint other) : other.Disjoint plan := by
  intro id hid
  cases hplan : plan.reserves id with
  | false => rfl
  | true =>
    rw [h id hplan] at hid
    cases hid

theorem sharedWith_eq_none : plan.sharedWith other = none ↔ plan.Disjoint other := by
  rw [sharedWith, List.find?_eq_none]
  constructor
  · intro h id hid
    obtain ⟨reserved, hmem, heq⟩ := List.any_eq_true.mp hid
    rw [decide_eq_true_eq] at heq
    rw [← heq]
    exact Bool.eq_false_iff.mpr (h reserved hmem)
  · intro h reserved hmem
    rw [h reserved.2 (List.any_eq_true.mpr ⟨reserved, hmem, decide_eq_true rfl⟩)]
    exact Bool.false_ne_true

theorem reserves_of_camera (h : id ∈ plan.cameras) : plan.reserves id = true := by
  refine List.any_eq_true.mpr ⟨("camera", id), ?_, decide_eq_true rfl⟩
  exact List.mem_append_left _ (List.mem_map_of_mem h)

theorem reserves_of_device (kind : String) (h : (kind, id) ∈ plan.devices) :
    plan.reserves id = true :=
  List.any_eq_true.mpr ⟨(kind, id), List.mem_append_right _ h, decide_eq_true rfl⟩

/-- What a lease moves is in its reservation. -/
theorem reserves_of_moves (h : plan.moves id = true) : plan.reserves id = true := by
  rw [moves, Bool.or_eq_true, decide_eq_true_eq] at h
  rcases h with rfl | hwheel
  · exact reserves_of_device "focuser" List.mem_cons_self
  · refine reserves_of_device "filter wheel" ?_
    rw [devices, List.cons_append, List.cons_append]
    refine List.mem_cons_of_mem _ (List.mem_append_left _ (List.mem_append_left _ ?_))
    exact List.mem_map_of_mem (List.contains_iff_mem.mp hwheel)

/-- What a lease holds still is in its reservation. -/
theorem reserves_of_holdsStill (h : plan.holdsStill id = true) : plan.reserves id = true := by
  rw [holdsStill, List.contains_iff_mem, List.mem_append] at h
  rcases h with hfocuser | hrotator
  · refine reserves_of_device "focuser" ?_
    rw [devices, List.cons_append, List.cons_append]
    refine List.mem_cons_of_mem _ (List.mem_append_left _ (List.mem_append_right _ ?_))
    exact List.mem_map_of_mem hfocuser
  · refine reserves_of_device "rotator" ?_
    exact List.mem_append_right _ (List.mem_map_of_mem hrotator)

/-! ## The cameras behind what a lease moves -/

theorem mem_drainedCameras {trains : TrainModel} {moved : List String} {cameraId camera : String} :
    camera ∈ drainedCameras trains moved cameraId ↔
      camera ≠ cameraId ∧ ∃ train ∈ trains.trains, train.contains moved = true ∧
        train.cameraId = some camera := by
  rw [drainedCameras, List.mem_mergeSort, List.mem_eraseDups, List.mem_filter, List.mem_filterMap]
  constructor
  · intro h
    obtain ⟨⟨train, htrain, hcamera⟩, hne⟩ := h
    obtain ⟨hmem, hcontains⟩ := List.mem_filter.mp htrain
    exact ⟨of_decide_eq_true hne, train, hmem, hcontains, hcamera⟩
  · intro h
    obtain ⟨hne, train, hmem, hcontains, hcamera⟩ := h
    exact ⟨⟨train, List.mem_filter.mpr ⟨hmem, hcontains⟩, hcamera⟩, decide_eq_true hne⟩

/-- A lease holds the camera of every train that contains something it moves. -/
theorem forTrain_drains {trains : TrainModel} {trainId : String} {train : Train} {camera : String}
    (h : forTrain trains trainId = .ok plan) (hmoves : plan.moves id = true)
    (htrain : train ∈ trains.trains) (hdevice : ∃ d ∈ train.devices, d.id = id)
    (hcamera : train.cameraId = some camera) : camera ∈ plan.cameras := by
  rw [forTrain] at h
  split at h
  · cases h
  · split at h
    · cases h
    · next cameraId _ =>
        split at h
        · cases h
        · next focuserId _ =>
            cases h
            rw [cameras, List.mem_cons]
            by_cases hown : camera = cameraId
            · exact .inl hown
            · refine .inr (mem_drainedCameras.mpr ⟨hown, train, htrain, ?_, hcamera⟩)
              obtain ⟨d, hd, rfl⟩ := hdevice
              refine List.any_eq_true.mpr ⟨d, hd, List.contains_iff_mem.mpr ?_⟩
              rw [moves, Bool.or_eq_true, decide_eq_true_eq, List.contains_iff_mem] at hmoves
              rcases hmoves with hfocuser | hwheel
              · rw [← hfocuser]
                exact List.mem_cons_self
              · exact List.mem_cons_of_mem _ hwheel

/-- A device that one lease moves is in no train whose camera the other holds, and the other does not
hold it still, when their reservations are disjoint. -/
theorem isolated_of_disjoint {trains : TrainModel} {trainId : String}
    (hplan : forTrain trains trainId = .ok plan) (hdisjoint : plan.Disjoint other)
    (hmoves : plan.moves id = true) :
    (∀ train ∈ trains.trains, (∃ d ∈ train.devices, d.id = id) →
      ∀ camera ∈ other.cameras, train.cameraId ≠ some camera) ∧ other.holdsStill id = false := by
  constructor
  · intro train htrain hdevice camera hheld hcamera
    have hshared := hdisjoint camera
      (reserves_of_camera (forTrain_drains hplan hmoves htrain hdevice hcamera))
    rw [reserves_of_camera hheld] at hshared
    cases hshared
  · cases hstill : other.holdsStill id with
    | false => rfl
    | true =>
      have hshared := hdisjoint id (reserves_of_moves hmoves)
      rw [reserves_of_holdsStill hstill] at hshared
      cases hshared

end LeasePlan

end RustyPhoton.Rp.TrainLease
