import RustyPhoton.Rp.TrainLease.Reservations

/-!
# Leases do not disturb each other

What a call under one lease may move is in no train whose camera another live lease holds, and no
other live lease holds it still. It follows from the cameras a plan drains and from the reservations
being disjoint, for every train model.
-/

namespace RustyPhoton.Rp.TrainLease

open Lib

namespace Lease

variable {lease lease' : Lease} {input : LeaseInput} {events : List LeaseEvent}

/-- A call that runs under a lease is a capture through a camera it holds or a move of a device it
moves. -/
def CallsAllowed (lease : Lease) : Prop :=
  ∀ call ∈ lease.live, if call.capture then call.device ∈ lease.plan.cameras
    else lease.plan.moves call.device = true

theorem CallsAllowed.step (h : lease.CallsAllowed) (heffect : Effect lease input lease' events) :
    lease'.CallsAllowed := by
  cases heffect with
  | frame frame | facadeTaken _ _ frame =>
    intro call hcall
    rw [frame.live] at hcall
    rw [frame.plan]
    exact h call hcall
  | acquireReturned _ plan _ live | ended _ _ plan _ live =>
    intro call hcall
    rw [live] at hcall
    rw [plan]
    exact h call hcall
  | permitHeld _ _ becomes | granted _ _ _ becomes | decided _ _ _ _ becomes | settling _ _ becomes
  | quiet _ _ becomes | holdingsTaken _ becomes | left _ _ becomes =>
    subst becomes
    exact h
  | admitted _ _ _ started _ _ _ mayRun becomes =>
    subst becomes
    intro call hcall
    rcases List.mem_cons.mp hcall with heq | hold
    · rw [heq]
      exact mayRun
    · exact h call hold
  | marked call live _ becomes =>
    subst becomes
    intro other hother
    rcases List.mem_cons.mp hother with heq | hold
    · rw [heq]
      exact h call live
    · exact h other (List.mem_of_mem_erase hold)
  | dropped call now live becomes =>
    subst becomes
    intro other hother
    exact h other (List.mem_of_mem_erase hother)

/-- A call under the lease may move the device: one would be admitted, or one is in flight. -/
def MayMove (lease : Lease) (device : String) : Prop :=
  (∃ now kind lease' call, lease.admitCall now (.move kind device) = .ok (lease', call)) ∨
    ∃ call ∈ lease.live, call.capture = false ∧ call.device = device

theorem moves_of_mayMove (h : lease.CallsAllowed) {device : String} (hmoves : lease.MayMove device) :
    lease.plan.moves device = true := by
  rcases hmoves with ⟨now, kind, after, call, hadmit⟩ | ⟨call, hcall, hcapture, rfl⟩
  · obtain ⟨_, hcalled, _⟩ := admitCall_eq_ok hadmit
    rw [LeasePlan.called] at hcalled
    split at hcalled
    · cases hcalled
    · split at hcalled
      · next hmoves => exact hmoves
      · cases hcalled
  · have hallowed := h call hcall
    rw [hcapture] at hallowed
    exact hallowed

end Lease

namespace TrainLeases

variable {s s' : TrainLeases} {log : List BookEvent} {events : List BookEvent} {input : BookInput}
  {trains : TrainModel}

/-- The plans that are reserved are those of trains. -/
def PlansOf (trains : TrainModel) (_ : List BookEvent) (_ : TrainLeases) (input : BookInput) : Prop :=
  ∀ now leaseId plan, input = .reserve now leaseId plan →
    ∃ trainId, LeasePlan.forTrain trains trainId = .ok plan

/-- Every lease has the plan of a train and only calls that its plan allows. -/
def Planned (trains : TrainModel) (s : TrainLeases) : Prop :=
  ∀ lease ∈ s.leases, (∃ trainId, LeasePlan.forTrain trains trainId = .ok lease.plan) ∧
    lease.CallsAllowed

theorem Planned.step (h : s.Planned trains) (ok : PlansOf trains log s input)
    (heffect : Effect s input s' events) : s'.Planned trains := by
  cases heffect with
  | ticked _ _ becomes | unchanged becomes | forgot _ _ becomes | releasedFirst _ _ _ _ _ becomes
  | sweepEntered _ _ _ _ _ becomes | sweepDropped _ _ becomes =>
    subst becomes
    exact h
  | reserved now leaseId plan input _ _ _ _ _ becomes =>
    subst becomes
    intro lease hlease
    rcases List.mem_append.mp hlease with hold | hnew
    · exact h lease hold
    · cases List.mem_singleton.mp hnew
      refine ⟨ok now leaseId plan input, ?_⟩
      intro call hcall
      cases hcall
  | onLease k lease lease' inner told found effect _ becomes =>
    subst becomes
    obtain ⟨hplanned, hcalls⟩ := h lease (List.mem_of_getElem? found)
    intro other hother
    rcases List.mem_or_eq_of_mem_set hother with hold | heq
    · exact h other hold
    · subst heq
      rw [effect.plan.2]
      exact ⟨hplanned, hcalls.step effect⟩
  | left k lease lease' told found holdingsTaken becomes becomes' =>
    subst becomes becomes'
    intro other hother
    rcases List.mem_or_eq_of_mem_set hother with hold | heq
    · exact h other hold
    · subst heq
      exact h lease (List.mem_of_getElem? found)

/-- Nothing that a call under the first lease may move is in a train whose camera the second holds,
and the second holds none of it still: no move under the first is in the light path of an exposure
under the second. -/
structure Isolated (trains : TrainModel) (a b : Lease) : Prop where
  cameras : ∀ device, a.MayMove device → ∀ train ∈ trains.trains,
    (∃ d ∈ train.devices, d.id = device) → ∀ camera ∈ b.plan.cameras, train.cameraId ≠ some camera
  still : ∀ device, a.MayMove device → b.plan.holdsStill device = false
  exposures : ∀ device, a.MayMove device → ∀ train ∈ trains.trains,
    (∃ d ∈ train.devices, d.id = device) → ∀ exposure ∈ b.live, exposure.capture = true →
    train.cameraId ≠ some exposure.device

/-- Two leases that live at the same time are isolated from each other. -/
theorem leases_isolated {start : Nat} {inputs : List BookInput}
    (h : History step (PlansOf trains) (opened start) inputs log s) {k l : Nat} {a b : Lease}
    (ha : s.Live k a) (hb : s.Live l b) (hne : k ≠ l) : Isolated trains a b := by
  have hinv : Booked log s ∧ s.Apart ∧ s.Planned trains := by
    refine h.invariant (fun log s => Booked log s ∧ s.Apart ∧ s.Planned trains) ?_ ?_
    · refine ⟨Booked.opened start, Apart.opened start, ?_⟩
      intro lease hlease
      cases hlease
    · intro log s input s' events hinv ok hstep
      obtain ⟨hbooked, hapart, hplanned⟩ := hinv
      have heffect := step_effect hstep
      exact ⟨hbooked.step heffect, Apart.step hbooked hapart heffect, hplanned.step ok heffect⟩
  obtain ⟨_, hapart, hplanned⟩ := hinv
  obtain ⟨⟨trainId, hplan⟩, hcalls⟩ := hplanned a (List.mem_of_getElem? ha.1)
  have hisolated : ∀ device, a.MayMove device → _ := fun device hmoves =>
    LeasePlan.isolated_of_disjoint hplan (hapart ha hb hne) (Lease.moves_of_mayMove hcalls hmoves)
  constructor
  case cameras => exact fun device hmoves => (hisolated device hmoves).1
  case still => exact fun device hmoves => (hisolated device hmoves).2
  case exposures =>
    intro device hmoves train htrain hdevice exposure hexposure hcapture
    have hheld := (hplanned b (List.mem_of_getElem? hb.1)).2 exposure hexposure
    rw [hcapture] at hheld
    exact (hisolated device hmoves).1 train htrain hdevice exposure.device hheld

end TrainLeases

/-! ## Two trains beside each other -/

namespace Evaluation

open TrainLeases

/-- A train with a focuser, a wheel and a camera. -/
def sideTrain (side : String) : Train where
  id := side
  purpose := .imaging
  devices := [{ id := side ++ "-focuser", kind := .focuser },
    { id := side ++ "-wheel", kind := .filterWheel }, { id := side ++ "-cam", kind := .camera }]

def sideTrains : TrainModel where
  trains := [sideTrain "east", sideTrain "west"]

def sidePlan (side : String) : LeasePlan where
  trainId := side
  guiding := false
  cameraId := side ++ "-cam"
  focuserId := side ++ "-focuser"
  filterWheelIds := [side ++ "-wheel"]
  heldFocuserIds := []
  heldRotatorIds := []
  drainedCameraIds := []

theorem east_forTrain : LeasePlan.forTrain sideTrains "east" = .ok (sidePlan "east") := by
  have hdrained : LeasePlan.drainedCameras sideTrains ["east-focuser", "east-wheel"] "east-cam" =
      [] := List.mergeSort_nil
  exact congrArg (fun drained => Except.ok { sidePlan "east" with drainedCameraIds := drained })
    hdrained

theorem west_forTrain : LeasePlan.forTrain sideTrains "west" = .ok (sidePlan "west") := by
  have hdrained : LeasePlan.drainedCameras sideTrains ["west-focuser", "west-wheel"] "west-cam" =
      [] := List.mergeSort_nil
  exact congrArg (fun drained => Except.ok { sidePlan "west" with drainedCameraIds := drained })
    hdrained

/-- Only the plans of the two trains are reserved. -/
def onSides : BookInput → Bool
  | .reserve _ _ plan => plan = sidePlan "east" || plan = sidePlan "west"
  | _ => true

/-- A lease on each train, a move under one and an exposure under the other. -/
def sideInputs : List BookInput :=
  [.reserve 0 "a" (sidePlan "east"), .reserve 0 "b" (sidePlan "west"),
    .onLease 0 (.grant 0 300000000000), .onLease 1 (.grant 0 300000000000),
    .onLease 0 (.admitCall 1000000000 (.move "focuser" "east-focuser")),
    .onLease 1 (.admitCall 1000000000 (.capture "west-cam"))]

theorem plansOf_of_onSides (log : List BookEvent) (s : TrainLeases) (input : BookInput)
    (h : onSides input = true) : PlansOf sideTrains log s input := by
  intro now leaseId plan hinput
  subst hinput
  rw [onSides, Bool.or_eq_true, decide_eq_true_eq, decide_eq_true_eq] at h
  rcases h with rfl | rfl
  · exact ⟨"east", east_forTrain⟩
  · exact ⟨"west", west_forTrain⟩

theorem sides_isolated :
    ∃ log s a b, History step (PlansOf sideTrains) (opened 0) sideInputs log s ∧
      s.Live 0 a ∧ s.Live 1 b ∧ a.MayMove "east-focuser" ∧ b.live.length = 1 ∧
      Isolated sideTrains a b := by
  have hrun : History step (fun _ _ input => onSides input = true) (opened 0) sideInputs _ _ :=
    History.of_play rfl
  have hplans := hrun.mono plansOf_of_onSides
  refine ⟨_, _, _, _, hplans, ⟨rfl, Keeper.noConfusion⟩, ⟨rfl, Keeper.noConfusion⟩,
    .inr ⟨_, List.mem_singleton_self _, rfl, rfl⟩, rfl, ?_⟩
  exact leases_isolated (k := 0) (l := 1) hplans ⟨rfl, Keeper.noConfusion⟩
    ⟨rfl, Keeper.noConfusion⟩ Nat.zero_ne_one

end Evaluation

end RustyPhoton.Rp.TrainLease
