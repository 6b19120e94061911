import RustyPhoton.Rp.Equipment.TrainModel

/-!
# Refocus plans

The auto-focus sequence of a train and the plan a focus provider walks: the focusers the train
shares and its own, each with the train that measures it. In a model that was accepted a focuser an
imaging train holds is that train's only one.
-/

namespace RustyPhoton.Rp.Equipment.Model

open Lib

structure AfStep where
  focuserId : String
  trainId : String
  deriving DecidableEq

inductive StepMetric where
  | capture
  | guide
  deriving DecidableEq

structure PlanStep where
  focuserId : String
  runTrainId : String
  cameraId : Option String
  metric : StepMetric
  deriving DecidableEq

structure RefocusPlan where
  trainId : String
  guideCoupled : Bool
  steps : List PlanStep
  deriving DecidableEq

namespace TrainModel

variable (model : TrainModel)

def train (trainId : String) : Option Train := model.trains.find? fun t => t.id = trainId

def guidingTrain : Option Train := model.trains.find? fun t => t.purpose = .guiding

def trainsWithDevice (deviceId : String) : List Train :=
  model.trains.filter fun t => t.devices.any fun d => d.id = deviceId

def imagingTrains : List Train := model.trains.filter fun t => t.purpose = .imaging

def imagingTrainFocusing (focuserId : String) : Option Train :=
  model.imagingTrains.find? fun t => t.terminalFocuser = some focuserId

def runTrain (train : Train) (focuserId : String) : String :=
  let run := match train.purpose with
    | .imaging => train
    | .guiding => (model.imagingTrainFocusing focuserId).getD train
  run.id

/-- A focuser of the train, other than its last, that another train holds too. -/
def sharedUpstream (train : Train) (device : TrainDevice) : Bool :=
  device.kind = .focuser && some device.id ≠ train.terminalFocuser &&
    2 ≤ (model.trainsWithDevice device.id).length

def afSequence (trainId : String) : Option (List AfStep) := do
  let train ← model.train trainId
  let steps := (train.devices.filter (model.sharedUpstream train)).map fun device =>
    ⟨device.id, model.runTrain train device.id⟩
  match train.terminalFocuser with
  | none => some steps
  | some terminal => some (steps ++ [⟨terminal, model.runTrain train terminal⟩])

def planStep (step : AfStep) : PlanStep :=
  let runTrain := model.train step.trainId
  let guide := runTrain.any fun t => t.purpose = .guiding
  { cameraId := if guide then none else runTrain.bind Train.cameraId
    metric := if guide then .guide else .capture
    focuserId := step.focuserId
    runTrainId := step.trainId }

def refocusPlan (trainId : String) : Option RefocusPlan := do
  let sequence ← model.afSequence trainId
  let guidingMembers := (model.guidingTrain.map Train.ids).getD []
  let steps := sequence.map model.planStep
  some
    { trainId := trainId
      guideCoupled := steps.any fun step =>
        step.metric = .capture && step.focuserId ∈ guidingMembers
      steps := steps }

end TrainModel

/-! ## The focusers of a train -/

/-- The train holds a focuser of this id. -/
def Train.Holds (train : Train) (focuserId : String) : Prop :=
  ∃ device ∈ train.devices, device.id = focuserId ∧ device.kind = .focuser

variable {focuserId : String}

/-- The terminal focuser is the last of the focusers. -/
theorem terminalFocuser_eq_some {train : Train} :
    train.terminalFocuser = some focuserId ↔
      ∃ before device later, train.devices = before ++ device :: later ∧ device.kind = .focuser ∧
        device.id = focuserId ∧ ∀ other ∈ later, other.kind ≠ .focuser := by
  unfold Train.terminalFocuser
  rw [Option.map_eq_some_iff]
  constructor
  · rintro ⟨device, hfind, rfl⟩
    obtain ⟨hkind, later, before, hsplit, hlater⟩ := List.find?_eq_some_iff_append.mp hfind
    refine ⟨before.reverse, device, later.reverse, ?_, by simpa using hkind, rfl, ?_⟩
    · rw [← List.reverse_reverse train.devices, hsplit]
      simp
    · intro other hother
      simpa using hlater other (List.mem_reverse.mp hother)
  · rintro ⟨before, device, later, hsplit, hkind, rfl, hlater⟩
    refine ⟨device, ?_, rfl⟩
    rw [List.find?_eq_some_iff_append]
    refine ⟨by simpa using hkind, later.reverse, before.reverse, by simp [hsplit], ?_⟩
    intro other hother
    simpa using hlater other (List.mem_reverse.mp hother)

theorem terminalFocuser_eq_none {train : Train} :
    train.terminalFocuser = none ↔ ∀ device ∈ train.devices, device.kind ≠ .focuser := by
  unfold Train.terminalFocuser
  simp

theorem holds_of_terminal {train : Train}
    (h : train.terminalFocuser = some focuserId) : train.Holds focuserId := by
  obtain ⟨before, device, later, hsplit, hkind, hid, -⟩ := terminalFocuser_eq_some.mp h
  exact ⟨device, by rw [hsplit]; simp, hid, hkind⟩

/-- A focuser an imaging train holds is the one its camera is focused with. -/
theorem terminal_of_holds {kinds : List (String × TrainDeviceKind)} {train : Train}
    (hshaped : Shaped kinds train) (himaging : train.purpose = .imaging)
    (h : train.Holds focuserId) : train.terminalFocuser = some focuserId := by
  obtain ⟨device, hmem, hid, hkind⟩ := h
  cases hterminal : train.terminalFocuser with
  | none => exact absurd hkind (terminalFocuser_eq_none.mp hterminal device hmem)
  | some last =>
    obtain ⟨other, hother, hotherId, hotherKind⟩ := holds_of_terminal hterminal
    have hone := hshaped.oneFocuser himaging
    have hdevice : device ∈ train.devices.filter fun d => d.kind = .focuser :=
      List.mem_filter.mpr ⟨hmem, decide_eq_true hkind⟩
    have hlast : other ∈ train.devices.filter fun d => d.kind = .focuser :=
      List.mem_filter.mpr ⟨hother, decide_eq_true hotherKind⟩
    obtain ⟨only, honly⟩ := List.length_eq_one_iff.mp
      (Nat.le_antisymm hone (List.length_pos_of_mem hdevice))
    rw [honly, List.mem_singleton] at hdevice hlast
    rw [← hotherId, ← hid, hdevice, hlast]

/-! ## The sequence -/

variable {model : TrainModel} {train : Train}

theorem train_of_mem (haccepted : Accepted model) (htrain : train ∈ model.trains) :
    model.train train.id = some train := by
  unfold TrainModel.train
  cases hfind : model.trains.find? fun t => t.id = train.id with
  | none => simpa using List.find?_eq_none.mp hfind train htrain
  | some other =>
    have hid : other.id = train.id := by simpa using List.find?_some hfind
    exact congrArg some
      (List.inj_on_of_nodup_map haccepted.nodup (List.mem_of_find?_eq_some hfind) htrain hid)

/-- A focuser of two trains is held by an imaging one. -/
theorem imagingTrainFocusing_of_shared (haccepted : Accepted model) (htrain : train ∈ model.trains)
    (hholds : train.Holds focuserId)
    (hshared : 2 ≤ (model.trainsWithDevice focuserId).length) :
    ∃ run ∈ model.trains, run.purpose = .imaging ∧ run.Holds focuserId := by
  obtain ⟨kinds, hshaped⟩ := haccepted.shaped
  obtain ⟨device, hmem, hid, hkind⟩ := hholds
  obtain ⟨other, hother, hne⟩ : ∃ other ∈ model.trainsWithDevice focuserId, other ≠ train := by
    by_contra hall
    push Not at hall
    have hnodup : (model.trainsWithDevice focuserId).Nodup := haccepted.nodup.of_map.filter _
    have hsub : model.trainsWithDevice focuserId ⊆ [train] := fun other hother =>
      List.mem_singleton.mpr (hall other hother)
    have := (List.subperm_of_subset hnodup hsub).length_le
    rw [List.length_singleton] at this
    omega
  obtain ⟨hmodel, hany⟩ := List.mem_filter.mp hother
  obtain ⟨shared, hsharedMem, hsharedId⟩ := List.any_eq_true.mp hany
  -- the roster has one kind for the id, so the other train's device is a focuser too
  have hsharedKind : shared.kind = .focuser := by
    have h1 := (hshaped other hmodel).kind shared hsharedMem
    have h2 := (hshaped train htrain).kind device hmem
    rw [of_decide_eq_true hsharedId, ← hid, h2, hkind] at h1
    exact (Option.some.inj h1).symm
  have hotherHolds : other.Holds focuserId :=
    ⟨shared, hsharedMem, of_decide_eq_true hsharedId, hsharedKind⟩
  cases hpurpose : other.purpose with
  | imaging => exact ⟨other, hmodel, hpurpose, hotherHolds⟩
  | guiding =>
    cases htrainPurpose : train.purpose with
    | imaging => exact ⟨train, htrain, htrainPurpose, device, hmem, hid, hkind⟩
    | guiding =>
      exact absurd (haccepted.sole other hmodel train htrain hpurpose htrainPurpose) hne

/-- The train a step runs in, for a focuser of the train that is shared or its last. -/
theorem runTrain_terminal (haccepted : Accepted model) (htrain : train ∈ model.trains)
    (hholds : train.Holds focuserId)
    (hstep : train.terminalFocuser = some focuserId ∨
      2 ≤ (model.trainsWithDevice focuserId).length) :
    ∃ run ∈ model.trains, model.runTrain train focuserId = run.id ∧
      run.terminalFocuser = some focuserId ∧
      (run.purpose = .guiding ↔
        ¬ ∃ other ∈ model.trains, other.purpose = .imaging ∧ other.Holds focuserId) := by
  obtain ⟨kinds, hshaped⟩ := haccepted.shaped
  unfold TrainModel.runTrain
  cases hpurpose : train.purpose with
  | imaging =>
    refine ⟨train, htrain, rfl, terminal_of_holds (hshaped train htrain) hpurpose hholds, ?_⟩
    rw [hpurpose]
    simp only [reduceCtorEq, false_iff, not_not]
    exact ⟨train, htrain, hpurpose, hholds⟩
  | guiding =>
    cases hfind : model.imagingTrainFocusing focuserId with
    | some run =>
      obtain ⟨hrun, himaging⟩ := List.mem_filter.mp (List.mem_of_find?_eq_some hfind)
      have hterminal : run.terminalFocuser = some focuserId := by
        simpa using List.find?_some hfind
      have himaging : run.purpose = .imaging := of_decide_eq_true himaging
      refine ⟨run, hrun, rfl, hterminal, ?_⟩
      rw [himaging]
      simp only [reduceCtorEq, false_iff, not_not]
      exact ⟨run, hrun, himaging, holds_of_terminal hterminal⟩
    | none =>
      -- no imaging train holds it, so it is not shared and the step is the last one
      have hnone : ¬ ∃ other ∈ model.trains, other.purpose = .imaging ∧
          other.Holds focuserId := by
        rintro ⟨other, hother, himaging, hheld⟩
        have hterminal := terminal_of_holds (hshaped other hother) himaging hheld
        have hmem : other ∈ model.imagingTrains :=
          List.mem_filter.mpr ⟨hother, decide_eq_true himaging⟩
        simpa [hterminal] using List.find?_eq_none.mp hfind other hmem
      refine ⟨train, htrain, rfl, ?_, by simp only [hpurpose, true_iff]; exact hnone⟩
      rcases hstep with hterminal | hshared
      · exact hterminal
      · exact absurd (imagingTrainFocusing_of_shared haccepted htrain hholds hshared) hnone

/-- The focusers of the sequence are some of the train's, in its order, its last one last. -/
theorem afSequence_eq (haccepted : Accepted model) (htrain : train ∈ model.trains) :
    ∃ focusers : List TrainDevice, focusers.Sublist train.devices ∧
      (∀ device ∈ focusers, device.kind = .focuser ∧
        (train.terminalFocuser = some device.id ∨
          2 ≤ (model.trainsWithDevice device.id).length)) ∧
      (focusers.map (·.id)).getLast? = train.terminalFocuser ∧
      model.afSequence train.id =
        some (focusers.map fun device => ⟨device.id, model.runTrain train device.id⟩) := by
  unfold TrainModel.afSequence
  rw [train_of_mem haccepted htrain]
  have hshared : ∀ device ∈ train.devices.filter (model.sharedUpstream train),
      device.kind = .focuser ∧ 2 ≤ (model.trainsWithDevice device.id).length := by
    intro device hdevice
    have := (List.mem_filter.mp hdevice).2
    simp only [TrainModel.sharedUpstream, Bool.and_eq_true, decide_eq_true_eq] at this
    exact ⟨this.1.1, this.2⟩
  cases hterminal : train.terminalFocuser with
  | none =>
    -- a train without focusers
    have hnil : train.devices.filter (model.sharedUpstream train) = [] := by
      refine List.filter_eq_nil_iff.mpr fun device hdevice hsome => ?_
      exact terminalFocuser_eq_none.mp hterminal device hdevice
        (hshared device (List.mem_filter.mpr ⟨hdevice, hsome⟩)).1
    refine ⟨[], List.nil_sublist _, by simp, rfl, ?_⟩
    simp [hnil, hterminal]
  | some terminal =>
    obtain ⟨before, device, later, hsplit, hkind, rfl, hlater⟩ :=
      terminalFocuser_eq_some.mp hterminal
    -- nothing after the last focuser is one, and it is not upstream of itself
    have hrest : (device :: later).filter (model.sharedUpstream train) = [] := by
      refine List.filter_eq_nil_iff.mpr fun other hother hsome => ?_
      rcases List.mem_cons.mp hother with rfl | hother
      · simp [TrainModel.sharedUpstream, hterminal] at hsome
      · have hmem : other ∈ train.devices := by
          rw [hsplit]
          exact List.mem_append_right _ (List.mem_cons_of_mem _ hother)
        exact hlater other hother (hshared other (List.mem_filter.mpr ⟨hmem, hsome⟩)).1
    have hfilter : train.devices.filter (model.sharedUpstream train) =
        before.filter (model.sharedUpstream train) := by
      rw [hsplit, List.filter_append, hrest, List.append_nil]
    refine ⟨train.devices.filter (model.sharedUpstream train) ++ [device], ?_, ?_, ?_, ?_⟩
    · rw [hfilter, hsplit]
      exact List.filter_sublist.append (List.singleton_sublist.mpr List.mem_cons_self)
    · intro other hother
      rcases List.mem_append.mp hother with hother | hother
      · exact ⟨(hshared other hother).1, .inr (hshared other hother).2⟩
      · rw [List.mem_singleton.mp hother]
        exact ⟨hkind, .inl rfl⟩
    · simp
    · simp [hterminal]

/-! ## The plan -/

/-- A step that runs where its focuser is terminal is measured there. -/
theorem planStep_spec (haccepted : Accepted model) {run : Train} (hrun : run ∈ model.trains)
    (focuserId : String) :
    (run.purpose = .guiding ∧
        model.planStep ⟨focuserId, run.id⟩ = ⟨focuserId, run.id, none, .guide⟩) ∨
      (run.purpose = .imaging ∧ ∃ camera ∈ run.devices, camera.kind = .camera ∧
        model.planStep ⟨focuserId, run.id⟩ = ⟨focuserId, run.id, some camera.id, .capture⟩) := by
  obtain ⟨kinds, hshaped⟩ := haccepted.shaped
  obtain ⟨front, camera, hsplit, hkind⟩ := (hshaped run hrun).camera
  have hfind := train_of_mem haccepted hrun
  cases hpurpose : run.purpose with
  | guiding =>
    refine .inl ⟨rfl, ?_⟩
    simp [TrainModel.planStep, hfind, hpurpose]
  | imaging =>
    refine .inr ⟨rfl, camera, by rw [hsplit]; simp, hkind, ?_⟩
    simp [TrainModel.planStep, hfind, hpurpose, Train.cameraId, hsplit]

theorem mem_guidingMembers (haccepted : Accepted model) {deviceId : String} :
    deviceId ∈ (model.guidingTrain.map Train.ids).getD [] ↔
      ∃ guiding ∈ model.trains, guiding.purpose = .guiding ∧ deviceId ∈ guiding.ids := by
  unfold TrainModel.guidingTrain
  cases hfind : model.trains.find? fun t => t.purpose = .guiding with
  | none =>
    simp only [Option.map_none, Option.getD_none, List.not_mem_nil, false_iff]
    rintro ⟨guiding, hmem, hpurpose, -⟩
    simpa [hpurpose] using List.find?_eq_none.mp hfind guiding hmem
  | some found =>
    have hmem := List.mem_of_find?_eq_some hfind
    have hpurpose : found.purpose = .guiding := by simpa using List.find?_some hfind
    simp only [Option.map_some, Option.getD_some]
    constructor
    · intro h
      exact ⟨found, hmem, hpurpose, h⟩
    · rintro ⟨guiding, hguiding, hother, h⟩
      rwa [haccepted.sole found hmem guiding hguiding hpurpose hother]

/-- The refocus plan of a train: the focusers in order, each once, the train's own last; each run
where it is terminal; a guide step where no imaging train holds the focuser and a camera elsewhere;
coupled to the guider where a capture step moves one of its devices. -/
structure WellFormed (model : TrainModel) (train : Train) (sequence : List AfStep)
    (plan : RefocusPlan) : Prop where
  once : (sequence.map (·.focuserId)).Nodup
  ordered : (sequence.map (·.focuserId)).Sublist train.ids
  focusers : ∀ step ∈ sequence, train.Holds step.focuserId
  terminal : (sequence.map (·.focuserId)).getLast? = train.terminalFocuser
  run : ∀ step ∈ sequence, ∃ run, model.train step.trainId = some run ∧
    run.terminalFocuser = some step.focuserId
  steps : plan.steps.map (fun step => (⟨step.focuserId, step.runTrainId⟩ : AfStep)) = sequence
  guide : ∀ step ∈ plan.steps, step.metric = .guide ↔
    ¬ ∃ other ∈ model.trains, other.purpose = .imaging ∧ other.Holds step.focuserId
  camera : ∀ step ∈ plan.steps, step.metric = .capture → ∃ run, ∃ camera ∈ run.devices,
    model.train step.runTrainId = some run ∧ camera.kind = .camera ∧
    step.cameraId = some camera.id
  coupled : plan.guideCoupled = true ↔ ∃ step ∈ plan.steps, step.metric = .capture ∧
    ∃ guiding ∈ model.trains, guiding.purpose = .guiding ∧ step.focuserId ∈ guiding.ids

theorem refocusPlan_wellFormed {iteration : Iteration} {equipment : EquipmentConfig}
    {model : TrainModel} (h : tryFromEquipment iteration equipment = .ok model) {train : Train}
    (htrain : train ∈ model.trains) :
    ∃ sequence plan, model.afSequence train.id = some sequence ∧
      model.refocusPlan train.id = some plan ∧ WellFormed model train sequence plan := by
  have haccepted := tryFromEquipment_accepted h
  obtain ⟨kinds, hshaped⟩ := haccepted.shaped
  obtain ⟨focusers, hsub, hfocusers, hlast, hsequence⟩ := afSequence_eq haccepted htrain
  have hids : (focusers.map fun device =>
      (⟨device.id, model.runTrain train device.id⟩ : AfStep)).map (·.focuserId) =
        focusers.map (·.id) := by simp
  -- what each step of the sequence and of the plan is
  have hstep : ∀ device ∈ focusers, ∃ run ∈ model.trains,
      model.runTrain train device.id = run.id ∧ run.terminalFocuser = some device.id ∧
      (run.purpose = .guiding ↔
        ¬ ∃ other ∈ model.trains, other.purpose = .imaging ∧ other.Holds device.id) := by
    intro device hdevice
    exact runTrain_terminal haccepted htrain
      ⟨device, hsub.subset hdevice, rfl, (hfocusers device hdevice).1⟩ (hfocusers device hdevice).2
  refine ⟨_, _, hsequence, by rw [TrainModel.refocusPlan, hsequence]; rfl, ?_⟩
  refine ⟨?_, ?_, ?_, ?_, ?_, ?_, ?_, ?_, ?_⟩
  · rw [hids]
    exact (hshaped train htrain).nodup.sublist (hsub.map _)
  · rw [hids]
    exact hsub.map _
  · intro step hmem
    obtain ⟨device, hdevice, rfl⟩ := List.mem_map.mp hmem
    exact ⟨device, hsub.subset hdevice, rfl, (hfocusers device hdevice).1⟩
  · rw [hids, hlast]
  · intro step hmem
    obtain ⟨device, hdevice, rfl⟩ := List.mem_map.mp hmem
    obtain ⟨run, hrun, hid, hterminal, -⟩ := hstep device hdevice
    exact ⟨run, by rw [hid]; exact train_of_mem haccepted hrun, hterminal⟩
  · simp [TrainModel.planStep, Function.comp_def]
  · intro step hmem
    obtain ⟨afStep, hafStep, rfl⟩ := List.mem_map.mp hmem
    obtain ⟨device, hdevice, rfl⟩ := List.mem_map.mp hafStep
    obtain ⟨run, hrun, hid, -, hguide⟩ := hstep device hdevice
    rw [hid]
    rcases planStep_spec haccepted hrun device.id with ⟨hpurpose, heq⟩ | ⟨hpurpose, _, _, _, heq⟩
    · rw [heq]
      exact ⟨fun _ => hguide.mp hpurpose, fun _ => rfl⟩
    · rw [heq]
      refine ⟨nofun, fun hnone => ?_⟩
      rw [hguide.mpr hnone] at hpurpose
      cases hpurpose
  · intro step hmem hcapture
    obtain ⟨afStep, hafStep, rfl⟩ := List.mem_map.mp hmem
    obtain ⟨device, hdevice, rfl⟩ := List.mem_map.mp hafStep
    obtain ⟨run, hrun, hid, -, -⟩ := hstep device hdevice
    rw [hid] at hcapture ⊢
    rcases planStep_spec haccepted hrun device.id with ⟨_, heq⟩ | ⟨_, camera, hmem, hkind, heq⟩
    · rw [heq] at hcapture
      cases hcapture
    · rw [heq]
      exact ⟨run, camera, hmem, train_of_mem haccepted hrun, hkind, rfl⟩
  · simp only [List.any_eq_true, Bool.and_eq_true, decide_eq_true_eq]
    constructor
    · rintro ⟨step, hmem, hcapture, hguiding⟩
      exact ⟨step, hmem, hcapture, (mem_guidingMembers haccepted).mp hguiding⟩
    · rintro ⟨step, hmem, hcapture, hguiding⟩
      exact ⟨step, hmem, hcapture, (mem_guidingMembers haccepted).mpr hguiding⟩

/-! ## A rig that shares a focuser -/

namespace Evaluation

def rig : EquipmentConfig where
  cameras := ["main-cam", "guide-cam"]
  focusers := ["main-focuser", "oag-focuser"]
  rotators := []
  filterWheels := []
  coverCalibrators := []
  safetyMonitors := []
  switches := []
  observingConditions := []
  domes := []
  mount := some ⟨true⟩
  opticalTrains :=
    [⟨"main", .imaging, ["main-focuser", "main-cam"], none⟩,
      ⟨"oag", .guiding, ["main-focuser", "oag-focuser", "guide-cam"], none⟩]

def mainTrain : Train := ⟨"main", .imaging, [⟨"main-focuser", .focuser⟩, ⟨"main-cam", .camera⟩]⟩

def oagTrain : Train :=
  ⟨"oag", .guiding, [⟨"main-focuser", .focuser⟩, ⟨"oag-focuser", .focuser⟩, ⟨"guide-cam", .camera⟩]⟩

theorem refocusPlan_oag : ∃ sequence plan,
    (⟨[mainTrain, oagTrain]⟩ : TrainModel).afSequence "oag" = some sequence ∧
      (⟨[mainTrain, oagTrain]⟩ : TrainModel).refocusPlan "oag" = some plan ∧
      WellFormed ⟨[mainTrain, oagTrain]⟩ oagTrain sequence plan :=
  @refocusPlan_wellFormed Equipment.Evaluation.inOrder rig ⟨[mainTrain, oagTrain]⟩ rfl oagTrain
    (by decide)

end Evaluation

end RustyPhoton.Rp.Equipment.Model
