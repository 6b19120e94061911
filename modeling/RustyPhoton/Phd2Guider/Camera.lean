import RustyPhoton.Lib.Transition
import RustyPhoton.Phd2Guider.GuiderOps

/-!
# The facade camera and its exposures

One session behind one mutex, and the tasks that change it: the captures, which run apart from the
requests that start them, and the aborts, connects and disconnects. A task takes a step at each await
and each time it locks the session; what PHD2 and the disk yield is an input. A request may be dropped
where it awaits. `humantime` is the text of a duration, and `checks` is the verdict of `StartExposure`
on its arguments and on the session's subframe.
-/

namespace RustyPhoton.Phd2Guider.Facade

open RustyPhoton.Lib

structure Geometry where
  width : ℕ
  height : ℕ
  sensorName : String

structure Subframe where
  startX : ℕ
  startY : ℕ
  numX : ℕ
  numY : ℕ

/-- A frame as PHD2 saved it, row-major. -/
structure Frame where
  width : ℕ
  height : ℕ
  pixels : List ℕ

/-- A served image, cropped to the subframe, row-major. -/
structure Image where
  width : ℕ
  height : ℕ
  pixels : List ℕ

/-- The columns of an image. -/
abbrev ImageArray := List (List ℕ)

def imageArrayOf (image : Image) : Except String ImageArray :=
  if image.pixels.length = image.height * image.width then
    .ok ((List.range image.width).map fun x =>
      (List.range image.height).map fun y => image.pixels.getD (y * image.width + x) 0)
  else .error "image shape: incompatible shapes"

/-- The pixels of a row of the subframe. -/
def cropRow (frame : Frame) (subframe : Subframe) (row : ℕ) : Except String (List ℕ) :=
  let start := (subframe.startY + row) * frame.width + subframe.startX
  if start + subframe.numX ≤ frame.pixels.length then
    .ok ((frame.pixels.drop start).take subframe.numX)
  else .error "subframe does not fit PHD2's frame"

/-- Cut `subframe` out of a full frame. -/
def crop (frame : Frame) (subframe : Subframe) : Except String Image := do
  let rows ← (List.range subframe.numY).mapM (cropRow frame subframe)
  pure ⟨subframe.numX, subframe.numY, rows.flatten⟩

inductive Exposure where
  | idle
  /-- Accepted by this device, not yet by PHD2. -/
  | starting (generation : ℕ) (aborting : Bool)
  /-- PHD2 is exposing the frame. -/
  | inFlight (generation : ℕ) (path : String) (aborting : Bool)
  /-- PHD2 saved the frame; the facade is reading it. -/
  | reading (generation : ℕ) (aborting : Bool)
  | ready (image : ImageArray)
  | failed (message : String)

/-- The exposure that is under way, and whether it was aborted. -/
def Exposure.current : Exposure → Option (ℕ × Bool)
  | starting generation aborting | inFlight generation _ aborting | reading generation aborting =>
      some (generation, aborting)
  | idle | ready _ | failed _ => none

structure Session where
  connected : Bool
  geometry : Option Geometry
  subframe : Subframe
  exposure : Exposure
  generation : ℕ
  lastStart : Option ℕ
  lastDuration : Option ℕ

/-- What is noted in the log: only proofs read it. -/
inductive Note where
  | started (generation : ℕ)
  | aborted (generation : ℕ)
  | ready (generation : ℕ)
  | failed (generation : ℕ)
  /-- The exposure is no longer starting, in flight or being read. -/
  | left (generation : ℕ)
  | ended
  /-- `exposure_ended` fired. -/
  | notified
  deriving DecidableEq

/-- An exposure marked as aborted, with PHD2's frame file once PHD2 has accepted the frame. -/
structure Aborted where
  generation : ℕ
  path : Option String

namespace Session

def new : Session := ⟨false, none, ⟨0, 0, 0, 0⟩, .idle, 0, none, none⟩

variable (s : Session)

/-- The note that the exposure under way leaves the session. -/
def leaving : List Note :=
  match s.exposure.current with
  | some (generation, _) => [.left generation]
  | none => []

def beginAbort : Option Aborted × Session × List Note :=
  match s.exposure with
  | .starting generation _ =>
      (some ⟨generation, none⟩, { s with exposure := .starting generation true },
        [.aborted generation])
  | .reading generation _ =>
      (some ⟨generation, none⟩, { s with exposure := .reading generation true },
        [.aborted generation])
  | .inFlight generation path _ =>
      (some ⟨generation, some path⟩, { s with exposure := .inFlight generation path true },
        [.aborted generation])
  | .idle | .ready _ | .failed _ => (none, s, [])

/-- The acceptance in `begin_capture`: none once a disconnect replaced the session, and whether the
exposure was aborted otherwise. -/
def accept (generation now exposureMs : ℕ) (path : String) : Option Bool × Session :=
  match s.exposure with
  | .starting current aborting =>
      if current = generation then
        (some aborting, { s with
          exposure := .inFlight generation path aborting
          lastStart := some now
          lastDuration := some exposureMs })
      else (none, s)
  | _ => (none, s)

def startReading (generation : ℕ) : Bool × Session :=
  match s.exposure with
  | .inFlight current _ false =>
      if current = generation then (true, { s with exposure := .reading generation false })
      else (false, s)
  | _ => (false, s)

/-- What becomes of the exposure that leaves with the outcome of its capture. -/
def publish (generation : ℕ) (aborting : Bool) (outcome : Except String Image) :
    Session × List Note :=
  if aborting then ({ s with exposure := .idle }, [.left generation])
  else
    match outcome.bind imageArrayOf with
    | .ok image => ({ s with exposure := .ready image }, [.ready generation, .left generation])
    | .error message => ({ s with exposure := .failed message }, [.failed generation, .left generation])

/-- None where the session is not the one the capture started in. -/
def commit (generation : ℕ) (outcome : Except String Image) : Option (Session × List Note) :=
  match s.exposure with
  | .inFlight current _ aborting | .reading current aborting =>
      if current = generation then some (s.publish generation aborting outcome) else none
  | _ => none

def beginSession (geometry : Geometry) : Session :=
  { s with
    subframe := ⟨0, 0, geometry.width, geometry.height⟩
    geometry := some geometry
    connected := true }

def endSession : Session :=
  { s with
    connected := false
    generation := s.generation + 1
    exposure := .idle
    lastStart := none
    lastDuration := none }

/-- None where something has replaced the start that PHD2 refused. -/
def cancelStart (generation : ℕ) : Option (Session × List Note) :=
  match s.exposure with
  | .starting current _ =>
      if current = generation then some ({ s with exposure := .idle }, [.left generation]) else none
  | _ => none

end Session

/-- Where the capture behind a `StartExposure` is. -/
inductive CaptureStage where
  /-- At `engine.start`. -/
  | asking
  | cancelling
  | accepting (path : String)
  /-- At `sweep_orphans`. -/
  | sweeping (path : String)
  /-- At `engine.wait`. -/
  | waiting (path : String)
  | saved (path : String)
  | reading (path : String)
  | committing (outcome : Except String Image)

/-- Where an abort, or the end of the exposure before a disconnect, is. -/
inductive AbortStage where
  | beginning
  /-- At `engine.abort`. -/
  | stopping (aborted : Aborted)
  /-- At `wait_exposure_left`. -/
  | settling (generation : ℕ)

inductive Task where
  | capture (generation exposureMs : ℕ) (geometry : Geometry) (subframe : Subframe)
      (stage : CaptureStage)
  /-- `AbortExposure` before it finds the camera connected. -/
  | abortCall
  | abort (stage : AbortStage)
  /-- `set_connected` before it has the lifecycle lock. -/
  | setConnected (connected : Bool)
  | connect
  /-- At `read_phd2_camera`. -/
  | readCamera
  | disconnect (stage : AbortStage)
  | endSession
  /-- Before `notify_waiters`, with the exposure that left. -/
  | notify (exposure : Option ℕ)

/-- Whether a request awaits here, so that it can be dropped. -/
def Task.awaits : Task → Bool
  | .abort (.stopping _) | .abort (.settling _) | .setConnected _ | .readCamera
  | .disconnect (.stopping _) | .disconnect (.settling _) => true
  | _ => false

/-- What a step finds out, where it finds out something. -/
inductive Input where
  | go
  | answer (answer : Except String String)
  | frameEnd (frameEnd : FrameEnd)
  /-- The frame file as it was read; none where the read took too long. -/
  | read (frame : Option (Except String Frame))
  /-- Whether PHD2 reported the frame that was stopped. -/
  | stopped (reported : Bool)
  | geometry (geometry : Except String Geometry)
  | timeout

structure Camera where
  session : Session
  /-- The task that has the lifecycle lock. -/
  lifecycle : Option ℕ
  tasks : ℕ → Option Task

/-- A step of a task: the session after it, what the task becomes, and what is noted. -/
structure Advance where
  session : Session
  next : Option Task
  notes : List Note

namespace Session

variable (s : Session)

def go (next : Task) : Option Advance := some ⟨s, some next, []⟩

def finish : Option Advance := some ⟨s, none, []⟩

/-- An exposure left with the notes, or nothing was done. -/
def leave (generation : ℕ) (change : Option (Session × List Note)) : Option Advance :=
  match change with
  | some (session, notes) => some ⟨session, some (.notify (some generation)), notes⟩
  | none => s.finish

variable (humantime : ℕ → String)

/-- The text of a capture that ended without a frame. -/
def endText : FrameEnd → String
  | .saved => "the frame is no longer wanted"
  | .failed message true =>
      "the exposure was aborted: PHD2's frame was stopped (" ++ message ++ ")"
  | .failed message false => "PHD2 failed the frame: " ++ message
  | .notReported waited => "PHD2 did not report the frame within " ++ humantime waited

/-- `begin_capture` and `run_capture`. `grace` bounds the read. -/
def capture (grace now generation exposureMs : ℕ) (geometry : Geometry) (subframe : Subframe)
    (stage : CaptureStage) (input : Input) : Option Advance :=
  let task := Task.capture generation exposureMs geometry subframe
  match stage, input with
  | .asking, .answer (.ok path) => s.go (task (.accepting path))
  | .asking, .answer (.error _) => s.go (task .cancelling)
  | .cancelling, .go => s.leave generation (s.cancelStart generation)
  | .accepting path, .go =>
      let accepted := s.accept generation now exposureMs path
      -- one aborted or disconnected meanwhile is stopped, and waited for like another
      if accepted.1 = some false then accepted.2.go (task (.sweeping path))
      else accepted.2.go (task (.waiting path))
  | .sweeping path, .go => s.go (task (.waiting path))
  | .waiting path, .frameEnd .saved => s.go (task (.saved path))
  | .waiting _, .frameEnd frameEnd =>
      s.go (task (.committing (.error (endText humantime frameEnd))))
  | .saved path, .go =>
      let started := s.startReading generation
      if started.1 then started.2.go (task (.reading path))
      else started.2.go (task (.committing (.error (endText humantime .saved))))
  | .reading path, .read none =>
      s.go (task (.committing (.error ("PHD2's frame " ++ path ++ " could not be read within " ++
        humantime grace))))
  | .reading _, .read (some frame) => s.go (task (.committing (frame.bind (crop · subframe))))
  | .committing outcome, .go => s.leave generation (s.commit generation outcome)
  | _, _ => none

/-- `begin_abort` and `finish_abort`, on the way of an abort or of a disconnect, to what comes then. -/
def abort (task : AbortStage → Task) (next : Option Task) (stage : AbortStage) (input : Input) :
    Option Advance :=
  match stage, input with
  | .beginning, .go =>
      match s.beginAbort with
      | (none, session, notes) => some ⟨session, next, notes⟩
      | (some aborted, session, notes) =>
          match aborted.path with
          | some _ => some ⟨session, some (task (.stopping aborted)), notes⟩
          | none => some ⟨session, some (task (.settling aborted.generation)), notes⟩
  | .stopping aborted, .stopped true => s.go (task (.settling aborted.generation))
  | .stopping _, .stopped false => some ⟨s, next, []⟩
  | .settling generation, .go =>
      if s.exposure.current.any (·.1 = generation) then none else some ⟨s, next, []⟩
  | .settling _, .timeout => some ⟨s, next, []⟩
  | _, _ => none

/-- The step of a task on an input, where the input is one for it. -/
def advance (grace now : ℕ) (task : Task) (input : Input) : Option Advance :=
  match task, input with
  | .capture generation exposureMs geometry subframe stage, input =>
      s.capture humantime grace now generation exposureMs geometry subframe stage input
  | .abortCall, .go => if s.connected then s.go (.abort .beginning) else s.finish
  | .abort stage, input => s.abort .abort none stage input
  | .connect, .go => if s.connected then s.finish else s.go .readCamera
  | .readCamera, .geometry (.ok geometry) => (s.beginSession geometry).finish
  | .readCamera, .geometry (.error _) => s.finish
  | .disconnect stage, input => s.abort .disconnect (some .endSession) stage input
  | .endSession, .go =>
      some ⟨s.endSession, some (.notify (s.exposure.current.map (·.1))), s.leaving ++ [.ended]⟩
  | .notify _, .go => some ⟨s, none, [.notified]⟩
  | _, _ => none

end Session

/-- What a client asks for. -/
inductive Call where
  | startExposure (duration : ℕ) (light : Bool)
  | abortExposure
  | setConnected (connected : Bool)

inductive Move where
  | call (number : ℕ) (call : Call)
  | step (number now : ℕ) (input : Input)
  /-- The handler's future is dropped where it awaits. -/
  | drop (number : ℕ)

section

variable (checks : ℕ → Bool → Subframe → Geometry → Except String ℕ)

/-- `start_exposure` up to the spawn of its capture. -/
def Session.startExposure (s : Session) (duration : ℕ) (light : Bool) :
    Option (Session × Task × List Note) :=
  match s.connected, s.geometry with
  | true, some geometry =>
      match checks duration light s.subframe geometry with
      | .error _ => none
      | .ok exposureMs =>
          if s.exposure.current.isSome then none
          else
            let generation := s.generation + 1
            some ({ s with generation := generation, exposure := .starting generation false },
              .capture generation exposureMs geometry s.subframe .asking, [.started generation])
  | _, _ => none

variable (humantime : ℕ → String) (grace : ℕ)

namespace Camera

def new : Camera := ⟨.new, none, fun _ => none⟩

/-- The lock is let go of with the last step of its holder. -/
def unlock (lifecycle : Option ℕ) (number : ℕ) (next : Option Task) : Option ℕ :=
  if next.isNone ∧ lifecycle = some number then none else lifecycle

/-- A client's call; an exposure that is not accepted leaves everything. -/
def start (s : Camera) (number : ℕ) : Call → Camera × List Note
  | .startExposure duration light =>
      match s.session.startExposure checks duration light with
      | some (session, task, notes) =>
          (⟨session, s.lifecycle, Function.update s.tasks number (some task)⟩, notes)
      | none => (s, [])
  | .abortExposure => ({ s with tasks := Function.update s.tasks number (some .abortCall) }, [])
  | .setConnected connected =>
      ({ s with tasks := Function.update s.tasks number (some (.setConnected connected)) }, [])

def step (s : Camera) : Move → Option (Camera × List Note)
  | .call number call =>
      match s.tasks number with
      | some _ => none
      | none => some (s.start checks number call)
  | .step number now input =>
      match s.tasks number with
      | none => none
      | some (.setConnected connected) =>
          match s.lifecycle with
          | some _ => none
          | none =>
              let task := if connected then .connect else .disconnect .beginning
              some (⟨s.session, some number, Function.update s.tasks number (some task)⟩, [])
      | some task =>
          match s.session.advance humantime grace now task input with
          | none => none
          | some after =>
              some (⟨after.session, unlock s.lifecycle number after.next,
                Function.update s.tasks number after.next⟩, after.notes)
  | .drop number =>
      match s.tasks number with
      | none => none
      | some task =>
          if task.awaits then
            some (⟨s.session, unlock s.lifecycle number none,
              Function.update s.tasks number none⟩, [])
          else none

/-- The moves of a camera, in any interleaving. -/
abbrev Run (moves : List Move) (log : List Note) (s : Camera) : Prop :=
  Lib.History (Camera.step checks humantime grace) (fun _ _ _ => True) .new moves log s

end Camera

end

end RustyPhoton.Phd2Guider.Facade
