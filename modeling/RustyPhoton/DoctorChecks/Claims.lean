import Mathlib.Data.Finset.Sort
import RustyPhoton.DoctorChecks.Ports

/-!
# Device claims

The passive join that places each SDK camera on a port, and what a listed port resolves to. An index of
a list is a `Fin` of its length.
-/

namespace RustyPhoton.DoctorChecks

/-! ## The scan -/

structure UsbDevice where
  vendor : String
  product : String
  model : Option String
  port : Option String
  serial : Option String

/-- A record the scan found but could not count as a working device. -/
structure UsbFault where
  record : String
  vendor : Option String
  product : Option String
  location : Option String
  reason : String

structure UsbScan where
  devices : List UsbDevice
  faults : List UsbFault

/-! ## What one driver knows -/

structure Normalizer where
  sdk : String
  vendor : String
  /-- Each SDK model this driver has observed, with its product id. -/
  models : List (String × String)
  notCameras : List String
  sdkCheck : Option (String → Bool)

namespace Normalizer

variable (n : Normalizer)

def productFor (model : String) : Option String :=
  (n.models.find? fun known => known.1 = model).map Prod.snd

def assignsProduct (product : String) : Bool := n.models.any fun known => known.2 = product

/-- Whether one of this vendor's product ids can be a camera's. -/
def isCameraProduct (product : String) : Bool :=
  if n.assignsProduct product then true
  else !n.notCameras.contains product && n.sdkCheck.all fun check => check product

def isOwnRecord (record : UsbDevice) : Bool :=
  record.vendor = n.vendor && n.isCameraProduct record.product

/-- The working records that can be one of this driver's cameras. -/
def cameraRecords (scan : UsbScan) : List UsbDevice := scan.devices.filter n.isOwnRecord

/-- Whether a fault could be this driver's camera. -/
def couldBeCamera (fault : UsbFault) : Bool :=
  match fault.vendor with
  | none => true
  | some vendor =>
      if vendor = "0000" then true
      else if vendor = n.vendor then fault.product.all n.isCameraProduct
      else false

end Normalizer

/-- One camera the SDK enumerated. -/
structure SdkCamera where
  model : String
  serial : Option String

/-- Where the join put one SDK camera. -/
inductive CameraPlace (cameras : ℕ) where
  | Port (port : String)
  /-- The ports of the records it could be, and the other SDK cameras that match them too. -/
  | LookAlike (ports : List String) (rivals : List (Fin cameras))
  | Unrecognised
  | NoRecord
  deriving DecidableEq

/-- The join's result: one place per SDK camera. -/
structure Placement (cameras : ℕ) where
  cameras : Fin cameras → CameraPlace cameras

/-- The SDK camera placed on a port. -/
def Placement.cameraOn {cameras : ℕ} (p : Placement cameras) (port : String) : Option (Fin cameras) :=
  (List.finRange cameras).find? fun c => p.cameras c = .Port port

/-- The cameras on ports, with them, in enumeration order. -/
def Placement.onPorts {cameras : ℕ} (p : Placement cameras) : List (Fin cameras × String) :=
  (List.finRange cameras).filterMap fun c => match p.cameras c with
    | .Port port => some (c, port)
    | _ => none

/-- Whether a camera and a record are each other's on the strongest signal both carry. -/
def keyedMatch (n : Normalizer) (camera : SdkCamera) (record : UsbDevice) : Bool :=
  match camera.serial, record.serial with
  | some sdk, some bus => sdk = bus
  | _, _ => n.productFor camera.model = some record.product

/-! ## The join -/

section Join

variable (n : Normalizer) (sdk : List SdkCamera) (scan : UsbScan)

/-- An SDK camera by its enumeration index. -/
abbrev CameraIndex := Fin sdk.length

/-- A camera record of the scan by its place among them. -/
abbrev RecordIndex := Fin (n.cameraRecords scan).length

def recordAt (r : RecordIndex n scan) : UsbDevice := (n.cameraRecords scan).get r

/-- The records a camera matches. -/
def matching (c : CameraIndex sdk) : List (RecordIndex n scan) :=
  (List.finRange _).filter fun r => keyedMatch n (sdk.get c) (recordAt n scan r)

/-- The cameras that match a record. -/
def matchedBy (r : RecordIndex n scan) : List (CameraIndex sdk) :=
  (List.finRange _).filter fun c => (matching n sdk scan c).contains r

/-- The record of a one-to-one match. -/
def keyedPlace (c : CameraIndex sdk) : Option (RecordIndex n scan) :=
  match matching n sdk scan c with
  | [r] => if (matchedBy n sdk scan r).length = 1 then some r else none
  | _ => none

def unpairedCameras : List (CameraIndex sdk) :=
  (List.finRange _).filter fun c => (keyedPlace n sdk scan c).isNone

def unpairedRecords : List (RecordIndex n scan) :=
  (List.finRange _).filter fun r => !(List.finRange _).any fun c => keyedPlace n sdk scan c = some r

/-- Whether a leftover camera and a leftover record pair by elimination: no fault could be the camera, its
model is unknown, the record's product is no known model's, and their serials agree. -/
def eliminates (camera : SdkCamera) (record : UsbDevice) : Bool :=
  let suspectFault := scan.faults.any n.couldBeCamera
  let modelKnown := (n.productFor camera.model).isSome
  let productKnown := n.assignsProduct record.product
  let serialsDisagree := match camera.serial, record.serial with
    | some sdk, some bus => decide (sdk ≠ bus)
    | _, _ => false
  !suspectFault && !modelKnown && !productKnown && !serialsDisagree

/-- The record a camera is placed on. -/
def placedOn (c : CameraIndex sdk) : Option (RecordIndex n scan) :=
  match unpairedCameras n sdk scan, unpairedRecords n sdk scan with
  | [camera], [record] =>
      if eliminates n scan (sdk.get camera) (recordAt n scan record) then
        Function.update (keyedPlace n sdk scan) camera (some record) c
      else keyedPlace n sdk scan c
  | _, _ => keyedPlace n sdk scan c

/-- The port of a record. -/
def portOf (r : RecordIndex n scan) : String := (recordAt n scan r).port.getD ""

/-- The other cameras that match a record this camera matches. -/
def rivalsOf (c : CameraIndex sdk) : List (CameraIndex sdk) :=
  ((((matching n sdk scan c).flatMap (matchedBy n sdk scan)).filter fun other => other ≠ c).insertionSort
    (· ≤ ·)).dedup

/-- Where one camera is put. -/
def cameraPlace (c : CameraIndex sdk) : CameraPlace sdk.length :=
  match placedOn n sdk scan c with
  | some r => .Port (portOf n scan r)
  | none =>
      let own := matching n sdk scan c
      if own.isEmpty then
        if (n.productFor (sdk.get c).model).isSome then .NoRecord else .Unrecognised
      else .LookAlike ((own.map (portOf n scan)).insertionSort PortLe) (rivalsOf n sdk scan c)

/-- Place each SDK camera on a port. -/
def place : Placement sdk.length := ⟨cameraPlace n sdk scan⟩

end Join

/-! ## What a listed port resolves to -/

inductive Resolution (cameras : ℕ) where
  | Camera (index : Fin cameras)
  | Placeholder (reason : String)
  deriving DecidableEq

/-- A scan that ran, and where the join put each camera on it. -/
structure Joined (cameras : ℕ) where
  scan : UsbScan
  placement : Placement cameras

/-- One driver's claims for one start or reload. -/
structure Claims where
  normalizer : Normalizer
  service : String
  sdk : List SdkCamera
  /-- The scan and its placement, or why the scan could not run. -/
  joined : Except String (Joined sdk.length)

namespace Claims

/-- Join the cameras with the scan, for a service's messages. -/
def new (n : Normalizer) (service : String) (scan : Except String UsbScan) (sdk : List SdkCamera) :
    Claims :=
  ⟨n, service, sdk, scan.map fun scan => ⟨scan, place n sdk scan⟩⟩

variable (claims : Claims)

/-- Every reason but a failed scan's ends with the way back. -/
def withTheWayBack (reason : String) : String :=
  s!"{reason}. Once the camera is fixed, restart {claims.service}, which re-opens every camera it serves"

/-- The models of the cameras nothing recognised, each once. -/
def unrecognisedModels (placement : Placement claims.sdk.length) : List String :=
  ((((List.finRange _).filter fun c => placement.cameras c = .Unrecognised).map fun c =>
    (claims.sdk.get c).model).insertionSort (· ≤ ·)).dedup

/-- The look-alike whose record is on a port. -/
def lookAlikeOn (placement : Placement claims.sdk.length) (port : String) :
    Option (Fin claims.sdk.length × List String × List (Fin claims.sdk.length)) :=
  (List.finRange _).findSome? fun c => match placement.cameras c with
    | .LookAlike ports rivals => if port ∈ ports then some (c, ports, rivals) else none
    | _ => none

/-- Why a placeholder holds a listed port. -/
def reasonOn (scan : UsbScan) (placement : Placement claims.sdk.length) (port : String) : String :=
  let sdk := claims.normalizer.sdk
  match scan.faults.find? fun fault => fault.location = some port with
  | some fault => s!"{port} holds a USB record that is not a working device ({fault.record}): {fault.reason}"
  | none =>
      match claims.lookAlikeOn placement port with
      | some (c, ports, rivals) =>
          s!"the {sdk} SDK reports {rivals.length + 1} {(claims.sdk.get c).model} camera(s) for the " ++
          "record(s) on " ++ ", ".intercalate ports ++
          ", and no serial both the bus and the SDK carry pairs " ++
          "them: they cannot be told apart, so none of them is served while they are all connected to " ++
          "this host"
      | none =>
          match scan.devices.find? fun device => device.port = some port with
          | some record =>
              let product := record.model.getD "a device"
              let id := s!"{record.vendor}:{record.product}"
              let unrecognised := claims.unrecognisedModels placement
              let models := ", ".intercalate unrecognised
              if claims.normalizer.isOwnRecord record && !unrecognised.isEmpty then
                -- a record under a known model's product id is that model's, not an unrecognised one's
                if claims.normalizer.assignsProduct record.product then
                  s!"{port} holds {product} ({id}), a model this driver knows, but the {sdk} SDK " ++
                  "reports none of that model; it reports camera(s) this driver knows no product id for " ++
                  s!"({models}). Either the SDK does not see this device, or it names it as one of " ++
                  "those, and the driver's normalizer needs that name"
                else
                  s!"{port} holds {product} ({id}), and the {sdk} SDK reports camera(s) this driver " ++
                  s!"knows no product id for ({models}), so nothing pairs them; the driver's normalizer " ++
                  s!"needs an entry for each of {models}"
              else s!"{port} holds {product} ({id}), which the {sdk} SDK does not report as a camera"
          | none =>
              let suspects := scan.faults.countP fun fault =>
                fault.location ≠ some port && claims.normalizer.couldBeCamera fault
              if suspects = 0 then s!"no working camera is enumerated on {port}"
              else
                s!"no working camera is enumerated on {port}; the scan also found {suspects} record(s) " ++
                s!"that are not working devices and could be the camera — {sdk} records, or ones whose " ++
                "vendor id could not be read — see doctor's hardware.usb-fault"

/-- What a listed port resolves to. -/
def resolve (port : String) : Resolution claims.sdk.length :=
  match claims.joined with
  | .ok joined =>
      match joined.placement.cameraOn port with
      | some camera => .Camera camera
      | none => .Placeholder (claims.withTheWayBack (claims.reasonOn joined.scan joined.placement port))
  | .error error => .Placeholder
      (s!"the USB scan failed: {error}. {claims.service} re-scans on its own and rebuilds once a scan " ++
        "succeeds; nothing needs fixing or restarting for it")

/-- The SDK cameras the join placed, with their ports, in port order. -/
def placed : List (Fin claims.sdk.length × String) :=
  match claims.joined with
  | .error _ => []
  | .ok joined =>
      joined.placement.onPorts.insertionSort fun a b => PortLe a.2 b.2

end Claims

end RustyPhoton.DoctorChecks
