import RustyPhoton.Rp.Equipment.Trains
import RustyPhoton.Rp.Targets.Validation

/-!
# The validated trains

`TrainModel::try_from_equipment` of `equipment/trains.rs`: the submitted trains against the roster,
one after another, with every violation reported; the model is built where nothing was. The optics
of a train are left out.
-/

namespace RustyPhoton.Rp.Equipment.Model

open Lib
open Targets (FieldError)

inductive TrainDeviceKind where
  | camera
  | focuser
  | rotator
  | filterWheel
  | coverCalibrator
  deriving DecidableEq

def TrainDeviceKind.name : TrainDeviceKind → String
  | camera => "camera"
  | focuser => "focuser"
  | rotator => "rotator"
  | filterWheel => "filter wheel"
  | coverCalibrator => "cover calibrator"

inductive TrainPurpose where
  | imaging
  | guiding
  deriving DecidableEq

structure TrainDevice where
  id : String
  kind : TrainDeviceKind
  deriving DecidableEq

structure Train where
  id : String
  purpose : TrainPurpose
  devices : List TrainDevice
  deriving DecidableEq

namespace Train

def ids (train : Train) : List String := train.devices.map (·.id)

def cameraId (train : Train) : Option String := train.devices.getLast?.map (·.id)

def terminalFocuser (train : Train) : Option String :=
  (train.devices.reverse.find? fun d => d.kind = .focuser).map (·.id)

/-- The train as the order of its devices has it. -/
def order (train : Train) : Equipment.Train := ⟨train.devices.map fun d => ⟨d.id⟩⟩

end Train

structure TrainModel where
  trains : List Train
  deriving DecidableEq

/-! ## The configuration -/

/-- `auto_focus`, by the names of the fields the metric sweep does not take. -/
structure TrainAutoFocusConfig where
  otherFields : List String

structure OpticalTrainConfig where
  id : String
  purpose : TrainPurpose
  devices : List String
  autoFocus : Option TrainAutoFocusConfig

structure MountConfig where
  guiding : Bool

/-- The roster by the ids of its entries. -/
structure EquipmentConfig where
  cameras : List String
  focusers : List String
  rotators : List String
  filterWheels : List String
  coverCalibrators : List String
  safetyMonitors : List String
  switches : List String
  observingConditions : List String
  domes : List String
  mount : Option MountConfig
  opticalTrains : List OpticalTrainConfig

def trainPath (i : Nat) (suffix : String) : String := s!"equipment.optical_trains.{i}{suffix}"

/-- The ids of one kind over those entered before. -/
def enter {α : Type} (kind : α) (ids : List String) (kinds : List (String × α)) :
    List (String × α) :=
  ids.foldl (fun kinds id => Assoc.insert id kind kinds) kinds

structure RosterKinds where
  kinds : List (String × TrainDeviceKind)
  otherKinds : List (String × String)

def rosterKinds (equipment : EquipmentConfig) : RosterKinds where
  kinds :=
    enter .coverCalibrator equipment.coverCalibrators <|
      enter .filterWheel equipment.filterWheels <|
        enter .rotator equipment.rotators <|
          enter .focuser equipment.focusers <| enter .camera equipment.cameras []
  otherKinds :=
    enter "dome" equipment.domes <|
      enter "observing-conditions device" equipment.observingConditions <|
        enter "switch" equipment.switches <| enter "safety monitor" equipment.safetyMonitors []

/-! ## The rules of one train -/

def validatePurpose (train : OpticalTrainConfig) (i : Nat) (guidingConfigured : Bool)
    (seenGuidingTrain : Bool) : Bool × List FieldError :=
  if train.purpose = .guiding then
    (true,
      (if seenGuidingTrain then
        [⟨trainPath i ".purpose",
          s!"at most one train may have purpose \"guiding\" (train '{train.id}')"⟩] else []) ++
      if guidingConfigured then []
      else
        [⟨trainPath i ".purpose",
          s!"a guiding train requires equipment.mount.guiding (train '{train.id}')"⟩])
  else (seenGuidingTrain, [])

def validateAutoFocus (train : OpticalTrainConfig) (i : Nat) : List FieldError :=
  match train.autoFocus with
  | none => []
  | some block =>
      match train.purpose with
      | .imaging =>
          [⟨trainPath i ".auto_focus",
            s!"imaging train '{train.id}' carries an auto_focus block, which only the guiding " ++
              "train may have: the focus-model provider focuses an imaging train, from " ++
              s!"trains.{train.id} in focus-model.json; remove the block"⟩]
      | .guiding =>
          block.otherFields.map fun field =>
            ⟨trainPath i s!".auto_focus.{field}",
              s!"auto_focus.{field} does not apply to the guiding train's metric " ++
                "sweep, whose block takes step_size, half_width, frames_per_step, " ++
                s!"min_fit_points and confirmation_tolerance (train '{train.id}')"⟩

def imagingFocusersError (train : OpticalTrainConfig) (i : Nat) (devices : List TrainDevice) :
    Option FieldError :=
  if train.purpose = .guiding then none
  else
    let focusers := (devices.filter fun d => d.kind = .focuser).map fun d => s!"'{d.id}'"
    match focusers.getLast? with
    | none => none
    | some last =>
        if focusers.dropLast.isEmpty then none
        else
          let rest := ", ".intercalate focusers.dropLast
          some ⟨trainPath i ".devices",
            s!"imaging train '{train.id}' holds focusers {rest} and {last}; an imaging train " ++
              "holds at most one, the focuser its camera is focused with, and only the guiding " ++
              "train may hold more"⟩

/-- The first calibrator of the train after this one, and the error where it is misplaced. -/
def calibratorPlacementError (train : OpticalTrainConfig) (id : String) (j : Nat)
    (firstCalibrator : Option String) : Option String × Option String :=
  match firstCalibrator with
  | some first =>
      (some first, some (s!"a train may contain at most one cover calibrator; '{id}' joins " ++
        s!"'{first}' (train '{train.id}') — a separate dust cap and light panel on one train is " ++
        "not modeled"))
  | none =>
      (some id,
        if j = 0 then none
        else some (s!"cover calibrator '{id}' must be the first device of a train (it sits at the " ++
          s!"objective); found at position {j} (train '{train.id}')"))

/-- The loop over the devices of a train. -/
structure DeviceScan where
  devices : List TrainDevice
  seenInTrain : List String
  trainOk : Bool
  firstCalibrator : Option String
  seenTerminalCameras : List (String × String)
  errors : List FieldError

namespace DeviceScan

/-- An entry that is reported and left out. -/
def refuse (scan : DeviceScan) (path msg : String) : DeviceScan :=
  { scan with trainOk := false, errors := scan.errors ++ [⟨path, msg⟩] }

/-- A resolved entry at its place in the train. -/
def place (scan : DeviceScan) (train : OpticalTrainConfig) (path : String) (id : String)
    (kind : TrainDeviceKind) (isLast : Bool) : DeviceScan :=
  let scan :=
    match kind, isLast with
    | .camera, false =>
        scan.refuse path s!"camera '{id}' may only terminate a train (train '{train.id}')"
    | .camera, true =>
        let reserved :=
          { scan with
            seenTerminalCameras := Assoc.insert id train.id scan.seenTerminalCameras }
        match scan.seenTerminalCameras.lookup id with
        | none => reserved
        | some other =>
            reserved.refuse path
              s!"camera '{id}' already terminates train '{other}' (train '{train.id}')"
    | kind, true =>
        scan.refuse path
          s!"the last device must be a camera; got {kind.name} '{id}' (train '{train.id}')"
    | _, false => scan
  { scan with devices := scan.devices ++ [⟨id, kind⟩] }

def entry (roster : RosterKinds) (train : OpticalTrainConfig) (i : Nat) (scan : DeviceScan)
    (j : Nat) (id : String) : DeviceScan :=
  let entryPath := trainPath i s!".devices.{j}"
  if id ∈ scan.seenInTrain then
    scan.refuse entryPath s!"device '{id}' repeats within train '{train.id}'"
  else
    let scan := { scan with seenInTrain := id :: scan.seenInTrain }
    match roster.kinds.lookup id with
    | none =>
        scan.refuse entryPath <|
          match roster.otherKinds.lookup id with
          | none => s!"'{id}' is not in the equipment roster (train '{train.id}')"
          | some other =>
              s!"'{id}' is a {other}; trains may only contain cameras, focusers, rotators, " ++
                s!"filter wheels, and cover calibrators (train '{train.id}')"
    | some kind =>
        let isLast := j = train.devices.length - 1
        if kind = .coverCalibrator then
          let (first, misplaced) := calibratorPlacementError train id j scan.firstCalibrator
          let scan := { scan with firstCalibrator := first }
          match misplaced with
          | some msg => scan.refuse entryPath msg
          | none => scan.place train entryPath id kind isLast
        else scan.place train entryPath id kind isLast

/-- The entries from a position on. -/
def entries (roster : RosterKinds) (train : OpticalTrainConfig) (i : Nat) :
    Nat → List String → DeviceScan → DeviceScan
  | _, [], scan => scan
  | j, id :: later, scan => entries roster train i (j + 1) later (scan.entry roster train i j id)

end DeviceScan

def validateDevices (roster : RosterKinds) (train : OpticalTrainConfig) (i : Nat)
    (seenTerminalCameras : List (String × String)) : DeviceScan :=
  DeviceScan.entries roster train i 0 train.devices ⟨[], [], true, none, seenTerminalCameras, []⟩

/-! ## All trains -/

structure TrainScan where
  trains : List Train
  seenTrainIds : List String
  seenTerminalCameras : List (String × String)
  seenGuidingTrain : Bool
  errors : List FieldError

def TrainScan.train (roster : RosterKinds) (guidingConfigured : Bool) (scan : TrainScan) (i : Nat)
    (train : OpticalTrainConfig) : TrainScan :=
  let duplicate : List FieldError :=
    if train.id ∈ scan.seenTrainIds then
      [⟨trainPath i ".id", s!"duplicate train id '{train.id}'"⟩] else []
  let (guidingSeen, purposeErrors) :=
    validatePurpose train i guidingConfigured scan.seenGuidingTrain
  let scan :=
    { scan with
      seenTrainIds := train.id :: scan.seenTrainIds
      seenGuidingTrain := guidingSeen
      errors := scan.errors ++ duplicate ++ purposeErrors ++ validateAutoFocus train i }
  if train.devices.isEmpty then
    { scan with
      errors := scan.errors ++ [⟨trainPath i ".devices",
        s!"must not be empty; a train terminates in a camera (train '{train.id}')"⟩] }
  else
    let found := validateDevices roster train i scan.seenTerminalCameras
    let focusers := imagingFocusersError train i found.devices
    { scan with
      seenTerminalCameras := found.seenTerminalCameras
      errors := scan.errors ++ found.errors ++ focusers.toList
      trains :=
        if found.trainOk && focusers.isNone then
          scan.trains ++ [⟨train.id, train.purpose, found.devices⟩]
        else scan.trains }

/-- The trains from an index on. -/
def TrainScan.run (roster : RosterKinds) (guidingConfigured : Bool) :
    Nat → List OpticalTrainConfig → TrainScan → TrainScan
  | _, [], scan => scan
  | i, train :: later, scan =>
      run roster guidingConfigured (i + 1) later (scan.train roster guidingConfigured i train)

def orderError (iteration : Iteration) (trains : List Train) : List FieldError :=
  match orderCycle iteration (trains.map Train.order) with
  | none => []
  | some cycle =>
      let devices := ", ".intercalate cycle
      [⟨"equipment.optical_trains",
        s!"devices [{devices}] appear in contradictory order across trains"⟩]

def tryFromEquipment (iteration : Iteration) (equipment : EquipmentConfig) :
    Except (List FieldError) TrainModel :=
  let scan := TrainScan.run (rosterKinds equipment) (equipment.mount.any (·.guiding)) 0
    equipment.opticalTrains ⟨[], [], [], false, []⟩
  let errors := scan.errors ++ orderError iteration scan.trains
  if errors.isEmpty then .ok ⟨scan.trains⟩ else .error errors

/-! ## What an accepted train is -/

/-- Devices of the roster's kinds, none twice, a camera at the end and nowhere else, and one focuser
at most where the train images. -/
structure Shaped (kinds : List (String × TrainDeviceKind)) (train : Train) : Prop where
  nodup : train.ids.Nodup
  kind : ∀ d ∈ train.devices, kinds.lookup d.id = some d.kind
  camera : ∃ front last, train.devices = front ++ [last] ∧ last.kind = .camera
  oneFocuser : train.purpose = .imaging →
    (train.devices.filter fun d => d.kind = .focuser).length ≤ 1

/-- The devices an accepted scan made of the entries from a position on. -/
structure Resolved (roster : RosterKinds) (train : OpticalTrainConfig) (j : Nat)
    (ids : List String) (devices : List TrainDevice) : Prop where
  ids : devices.map (·.id) = ids
  kind : ∀ d ∈ devices, roster.kinds.lookup d.id = some d.kind
  last : ∀ k d, devices[k]? = some d → (d.kind = .camera ↔ j + k = train.devices.length - 1)

namespace DeviceScan

variable {roster : RosterKinds} {train : OpticalTrainConfig} {i j : Nat} {scan : DeviceScan}

theorem place_seen (path id : String) (kind : TrainDeviceKind) (isLast : Bool) :
    (scan.place train path id kind isLast).seenInTrain = scan.seenInTrain := by
  unfold place
  cases kind <;> cases isLast <;> try rfl
  dsimp only
  split <;> rfl

variable {id : String}

/-- A place that is not refused is that of a camera exactly where it is the last. -/
theorem place_ok {path : String} {kind : TrainDeviceKind} {isLast : Bool}
    (h : (scan.place train path id kind isLast).trainOk = true) :
    scan.trainOk = true ∧ (kind = .camera ↔ isLast = true) ∧
      (scan.place train path id kind isLast).devices = scan.devices ++ [⟨id, kind⟩] := by
  unfold place at h ⊢
  cases kind <;> cases isLast <;> simp_all [refuse]
  split at h <;> simp_all

theorem entry_seen (id : String) {x : String} :
    x ∈ (scan.entry roster train i j id).seenInTrain ↔ x ∈ scan.seenInTrain ∨ x = id := by
  unfold entry
  split
  · next hmem =>
    show x ∈ scan.seenInTrain ↔ _
    exact ⟨.inl, fun h => h.elim (fun h => h) fun h => h ▸ hmem⟩
  · have hcons : x ∈ id :: scan.seenInTrain ↔ x ∈ scan.seenInTrain ∨ x = id := by
      rw [List.mem_cons, or_comm]
    dsimp only
    split
    · exact hcons
    · split
      · split
        · exact hcons
        · rw [place_seen]
          exact hcons
      · rw [place_seen]
        exact hcons

/-- An entry that is not refused is new, of the roster, and a camera exactly where it is the last. -/
theorem entry_ok (h : (scan.entry roster train i j id).trainOk = true) :
    scan.trainOk = true ∧ id ∉ scan.seenInTrain ∧ ∃ kind, roster.kinds.lookup id = some kind ∧
      (kind = .camera ↔ j = train.devices.length - 1) ∧
      (scan.entry roster train i j id).devices = scan.devices ++ [⟨id, kind⟩] := by
  unfold entry at h ⊢
  split at h
  · cases h
  · next hnew =>
    rw [if_neg hnew]
    dsimp only at h ⊢
    split at h
    · cases h
    · next kind hkind =>
      rw [hkind]
      split at h
      · split at h
        · cases h
        · next hcal _ _ =>
          obtain ⟨hok, hlast, hdevices⟩ := place_ok h
          refine ⟨hok, hnew, kind, rfl, by simpa using hlast, ?_⟩
          rw [if_pos hcal]
          exact hdevices
      · next hcal =>
        obtain ⟨hok, hlast, hdevices⟩ := place_ok h
        refine ⟨hok, hnew, kind, rfl, by simpa using hlast, ?_⟩
        rw [if_neg hcal]
        exact hdevices

theorem entries_ok {ids : List String} (h : (entries roster train i j ids scan).trainOk = true) :
    scan.trainOk = true ∧ ids.Nodup ∧ (∀ id ∈ ids, id ∉ scan.seenInTrain) ∧
      ∃ added, (entries roster train i j ids scan).devices = scan.devices ++ added ∧
        Resolved roster train j ids added := by
  induction ids generalizing j scan with
  | nil => exact ⟨h, List.nodup_nil, by simp, [], by simp [entries], rfl, by simp, by simp⟩
  | cons id later ih =>
    obtain ⟨hok, hnodup, hnew, added, hdevices, hadded⟩ := ih h
    obtain ⟨hok, hfresh, kind, hkind, hlast, hdevice⟩ := entry_ok hok
    have hnot : id ∉ later := fun hmem => hnew id hmem ((entry_seen id).mpr (.inr rfl))
    refine ⟨hok, List.nodup_cons.mpr ⟨hnot, hnodup⟩, ?_, ⟨id, kind⟩ :: added, ?_, ?_, ?_, ?_⟩
    · intro x hx
      rcases List.mem_cons.mp hx with rfl | hx
      · exact hfresh
      · exact fun hseen => hnew x hx ((entry_seen id).mpr (.inl hseen))
    · show (entries roster train i (j + 1) later _).devices = _
      rw [hdevices, hdevice, List.append_assoc]
      rfl
    · rw [List.map_cons, hadded.ids]
    · intro d hd
      rcases List.mem_cons.mp hd with rfl | hd
      · exact hkind
      · exact hadded.kind d hd
    · intro k d hk
      cases k with
      | zero =>
        cases hk
        exact hlast
      | succ k =>
        have := hadded.last k d hk
        rwa [Nat.add_right_comm] at this

end DeviceScan

variable {train : OpticalTrainConfig} {i : Nat}

theorem imagingFocusersError_eq_none
    {devices : List TrainDevice} (h : imagingFocusersError train i devices = none)
    (himaging : train.purpose = .imaging) :
    (devices.filter fun d => d.kind = .focuser).length ≤ 1 := by
  unfold imagingFocusersError at h
  rw [if_neg (by rw [himaging]; exact nofun)] at h
  dsimp only at h
  split at h
  · next hnone =>
    have hlen := congrArg List.length (List.getLast?_eq_none_iff.mp hnone)
    simp only [List.length_map, List.length_nil] at hlen
    omega
  · split at h
    · next hrest =>
      have hlen := congrArg List.length (List.isEmpty_iff.mp hrest)
      simp only [List.length_dropLast, List.length_map, List.length_nil] at hlen
      omega
    · cases h

/-- A train whose devices and focusers are in order has the shape of an accepted one. -/
theorem shaped_of_ok {roster : RosterKinds}
    {cameras : List (String × String)} (hne : train.devices ≠ [])
    (hok : (validateDevices roster train i cameras).trainOk = true)
    (hfocusers : imagingFocusersError train i (validateDevices roster train i cameras).devices
      = none) :
    Shaped roster.kinds
      ⟨train.id, train.purpose, (validateDevices roster train i cameras).devices⟩ := by
  obtain ⟨-, hnodup, -, added, hdevices, hadded⟩ := DeviceScan.entries_ok hok
  rw [List.nil_append] at hdevices
  rw [validateDevices, hdevices] at hfocusers ⊢
  refine ⟨?_, hadded.kind, ?_, imagingFocusersError_eq_none hfocusers⟩
  · show (added.map (·.id)).Nodup
    rw [hadded.ids]
    exact hnodup
  · have hlen : added.length = train.devices.length := by
      rw [← hadded.ids, List.length_map]
    have hpos : 0 < train.devices.length := List.length_pos_of_ne_nil hne
    rcases List.eq_nil_or_concat added with rfl | ⟨front, last, rfl⟩
    · rw [← hlen] at hpos
      exact absurd hpos (Nat.lt_irrefl 0)
    · refine ⟨front, last, List.concat_eq_append, (hadded.last front.length last (by simp)).mpr ?_⟩
      rw [List.length_concat] at hlen
      omega

/-! ## The scan of all trains -/

/-- What the trains kept so far owe to the roster and to what the scan has seen. -/
structure TrainScan.Sound (roster : RosterKinds) (scan : TrainScan) : Prop where
  seen : ∀ train ∈ scan.trains, train.id ∈ scan.seenTrainIds
  nodup : (scan.trains.map (·.id)).Nodup
  guiding : ∀ train ∈ scan.trains, train.purpose = .guiding → scan.seenGuidingTrain = true
  sole : ∀ train ∈ scan.trains, ∀ other ∈ scan.trains,
    train.purpose = .guiding → other.purpose = .guiding → train = other
  shaped : ∀ train ∈ scan.trains, Shaped roster.kinds train

namespace TrainScan

variable {roster : RosterKinds} {guidingConfigured : Bool} {scan : TrainScan}

variable {train : OpticalTrainConfig} {i : Nat}

/-- A purpose nothing was reported about. -/
theorem validatePurpose_ok {seen : Bool}
    (h : (validatePurpose train i guidingConfigured seen).2 = []) :
    (train.purpose = .guiding → seen = false) ∧
      (validatePurpose train i guidingConfigured seen).1 =
        (seen || decide (train.purpose = .guiding)) := by
  unfold validatePurpose at h ⊢
  split at h
  · next hguiding =>
    rw [if_pos hguiding]
    cases seen with
    | true => simp at h
    | false => simp [hguiding]
  · next himaging =>
    rw [if_neg himaging]
    simp [himaging]

variable {cameras : List (String × String)} {errors : List FieldError}

/-- A train that is added to those kept. -/
theorem Sound.add {devices : List TrainDevice} (h : scan.Sound roster)
    (hnew : train.id ∉ scan.seenTrainIds)
    (hguiding : train.purpose = .guiding → scan.seenGuidingTrain = false)
    (hshaped : Shaped roster.kinds ⟨train.id, train.purpose, devices⟩) :
    Sound roster ⟨scan.trains ++ [⟨train.id, train.purpose, devices⟩],
      train.id :: scan.seenTrainIds, cameras,
      scan.seenGuidingTrain || decide (train.purpose = .guiding), errors⟩ := by
  have hnone : ∀ kept ∈ scan.trains, kept.purpose = .guiding → train.purpose ≠ .guiding := by
    intro kept hkept hkg htg
    have := h.guiding kept hkept hkg
    rw [hguiding htg] at this
    cases this
  refine ⟨?_, ?_, ?_, ?_, ?_⟩
  · intro kept hkept
    rcases List.mem_append.mp hkept with hkept | hkept
    · exact List.mem_cons_of_mem _ (h.seen kept hkept)
    · rw [List.mem_singleton.mp hkept]
      exact List.mem_cons_self
  · show ((scan.trains ++ [(⟨train.id, train.purpose, devices⟩ : Train)]).map (·.id)).Nodup
    rw [List.map_append, List.nodup_append]
    refine ⟨h.nodup, List.nodup_singleton _, ?_⟩
    intro id hid other hother heq
    obtain ⟨kept, hkept, rfl⟩ := List.mem_map.mp hid
    have : kept.id = train.id := by
      rw [heq]
      simpa using hother
    exact hnew (this ▸ h.seen kept hkept)
  · intro kept hkept hkg
    show (scan.seenGuidingTrain || decide (train.purpose = .guiding)) = true
    rcases List.mem_append.mp hkept with hkept | hkept
    · rw [h.guiding kept hkept hkg, Bool.true_or]
    · rw [List.mem_singleton.mp hkept] at hkg
      simp [show train.purpose = .guiding from hkg]
  · intro kept hkept other hother hkg hog
    rcases List.mem_append.mp hkept with hkept | hkept
    · rcases List.mem_append.mp hother with hother | hother
      · exact h.sole kept hkept other hother hkg hog
      · rw [List.mem_singleton.mp hother] at hog
        exact absurd hog (hnone kept hkept hkg)
    · rcases List.mem_append.mp hother with hother | hother
      · rw [List.mem_singleton.mp hkept] at hkg
        exact absurd hkg (hnone other hother hog)
      · rw [List.mem_singleton.mp hkept, List.mem_singleton.mp hother]
  · intro kept hkept
    rcases List.mem_append.mp hkept with hkept | hkept
    · exact h.shaped kept hkept
    · rw [List.mem_singleton.mp hkept]
      exact hshaped

/-- A train that is left out. -/
theorem Sound.skip (h : scan.Sound roster) :
    Sound roster ⟨scan.trains, train.id :: scan.seenTrainIds, cameras,
      scan.seenGuidingTrain || decide (train.purpose = .guiding), errors⟩ where
  seen kept hkept := List.mem_cons_of_mem _ (h.seen kept hkept)
  nodup := h.nodup
  guiding kept hkept hkg := by
    show (scan.seenGuidingTrain || _) = true
    rw [h.guiding kept hkept hkg, Bool.true_or]
  sole := h.sole
  shaped := h.shaped

/-- One train, with nothing reported up to its end. -/
theorem train_ok (h : (scan.train roster guidingConfigured i train).errors = []) :
    scan.errors = [] ∧
      (scan.Sound roster → (scan.train roster guidingConfigured i train).Sound roster) := by
  unfold TrainScan.train at h ⊢
  dsimp only at h ⊢
  split at h
  · simp at h
  · next hne =>
    rw [if_neg hne]
    simp only [List.append_eq_nil_iff] at h
    obtain ⟨⟨⟨⟨⟨hbefore, hid⟩, hpurpose⟩, -⟩, -⟩, -⟩ := h
    refine ⟨hbefore, fun hsound => ?_⟩
    obtain ⟨hguiding, hseen⟩ := validatePurpose_ok hpurpose
    have hnew : train.id ∉ scan.seenTrainIds := by
      intro hmem
      rw [if_pos hmem] at hid
      cases hid
    rw [hseen]
    split
    · next hkeep =>
      obtain ⟨hok, hfocusers⟩ := Bool.and_eq_true_iff.mp hkeep
      refine hsound.add hnew hguiding ?_
      exact shaped_of_ok (by simpa using hne) hok (Option.isNone_iff_eq_none.mp hfocusers)
    · exact hsound.skip

theorem run_ok {trains : List OpticalTrainConfig}
    (h : (run roster guidingConfigured i trains scan).errors = []) :
    scan.errors = [] ∧
      (scan.Sound roster → (run roster guidingConfigured i trains scan).Sound roster) := by
  induction trains generalizing i scan with
  | nil => exact ⟨h, id⟩
  | cons train later ih =>
    obtain ⟨herrors, hrun⟩ := ih h
    obtain ⟨hbefore, hstep⟩ := train_ok herrors
    exact ⟨hbefore, fun hsound => hrun (hstep hsound)⟩

end TrainScan

/-- The trains of a model a configuration was accepted with. -/
structure Accepted (model : TrainModel) : Prop where
  nodup : (model.trains.map (·.id)).Nodup
  sole : ∀ train ∈ model.trains, ∀ other ∈ model.trains,
    train.purpose = .guiding → other.purpose = .guiding → train = other
  shaped : ∃ kinds, ∀ train ∈ model.trains, Shaped kinds train

theorem tryFromEquipment_accepted {iteration : Iteration} {equipment : EquipmentConfig}
    {model : TrainModel} (h : tryFromEquipment iteration equipment = .ok model) :
    Accepted model := by
  unfold tryFromEquipment at h
  dsimp only at h
  split at h
  · next hnone =>
    cases h
    have herrors := List.append_eq_nil_iff.mp (List.isEmpty_iff.mp hnone)
    have hsound := (TrainScan.run_ok herrors.1).2
      ⟨by simp, List.nodup_nil, by simp, by simp, by simp⟩
    exact ⟨hsound.nodup, hsound.sole, _, hsound.shaped⟩
  · cases h

end RustyPhoton.Rp.Equipment.Model
