import RustyPhoton.Lib.Transition
import RustyPhoton.SessionRunner.Engine.Session
import RustyPhoton.SessionRunner.Runs.Files
import RustyPhoton.SessionRunner.Runs.Registry

/-!
# The service

After `runs.rs` and `start_run` and `stop_run` in `routes.rs`. The service is a process over the
state directory: its registry, the tasks it has spawned and the manifests that the startup resume
still has to go through. A task is one `POST /runs` handler from its registration on, which
becomes the supervisor of its run, or a supervisor spawned by the resume. It is a point of control
between two awaits; what the awaited call answers is an input, so that every order of the tasks'
steps, the requests, the crashes and the restarts is a history.

What rp, the file system and the clocks answer is left open, and so is what the document parser
and `bind_parameters` answer on a resume. One pass of the engine is one step; a crash during it
leaves any content that the pass may have persisted.
-/

namespace RustyPhoton.SessionRunner.Runs

open Lib Engine

/-- A `std::time::Instant`, as the time since a common origin. -/
abbrev Instant := Duration

/-- The configuration the supervisor reads. -/
structure Config where
  mcpServerUrl : Option String
  rpOutageGrace : Duration
  resumeOnStart : Bool

def initialBackoff : Duration := Duration.ofSecs 1
def maxBackoff : Duration := Duration.ofSecs 30

/-- The delay after a backoff. -/
def nextDelay (delay : Duration) : Duration :=
  Nat.min (Nat.min (delay * 2) Duration.max) maxBackoff

/-! ## Texts and payloads -/

/-- The `_recovery.reason` of a resume. -/
inductive Recovery where
  | engineRestart
  | safetyInterruption
  | rpOutage
  deriving DecidableEq

def Recovery.name : Recovery → String
  | engineRestart => "engine_restart"
  | safetyInterruption => "safety_interruption"
  | rpOutage => "rp_outage"

def pauseName : PauseReason → String
  | .safety _ => "safety"
  | .rpOutage _ => "rp_outage"

def pauseDetail : PauseReason → String
  | .safety message => message
  | .rpOutage message => message

def pauseRecovery : PauseReason → Recovery
  | .safety _ => .safetyInterruption
  | .rpOutage _ => .rpOutage

def RunState.outcomeText : RunState → String
  | .complete => "complete"
  | .failed => "failed"
  | .stopped => "stopped"
  | .running => "running"
  | .paused => "paused"

/-- `completion_result`: fixed keys win over the report's. -/
def completionResult (workflow outcome : String) (error : Option String)
    (report : Option Value) : Value :=
  let fixed := [("workflow", .string workflow), ("outcome", .string outcome)] ++
    (error.map fun e => ("error", Value.string e)).toList
  let more := ((report.bind Value.asObject).getD []).filter fun entry =>
    !Assoc.contains entry.1 fixed
  .object (fixed ++ more)

def monitorText (m : Value) : Option String := do
  let id ← (m.get "id").bind Value.asStr
  let state ← (m.get "state").bind Value.asStr
  some (id ++ "=" ++ state)

/-- A one-line description of an unsafe `get_safety_status` result. -/
def unsafeDetail (status : Value) : String :=
  let overall := ((status.get "overall").bind Value.asStr).getD "unknown"
  let monitors :=
    match status.get "monitors" with
    | some (.array items) => ", ".intercalate (items.filterMap monitorText)
    | _ => ""
  if monitors = "" then "rp reports " ++ overall
  else "rp reports " ++ overall ++ " (monitors: " ++ monitors ++ ")"

def isSafe (status : Value) : Bool :=
  (status.get "overall").bind Value.asStr = some "safe"

/-- A `safety_changed` event with `new_state: "safe"`. -/
def announcesSafe (e : EngineEvent) : Bool :=
  e.event = "safety_changed" && (e.payload.get "new_state").bind Value.asStr = some "safe"

/-- The bound parameters of a pass, with the recovery reason on a resume. -/
def withRecovery (recovery : Option Recovery) (params : Value) : Value :=
  match recovery, params with
  | some reason, .object members =>
      .object (Assoc.insert "_recovery" (.object [("reason", .string reason.name)]) members)
  | _, params => params

/-! ## Tasks -/

/-- Where a task is. -/
inductive Control where
  /-- The request handler writes the manifest of a run it has registered. -/
  | writeManifest (doc : Document)
  | connect (delay : Duration)
  /-- The select of the connect loop. -/
  | backoff (delay sleepFor : Duration)
  | readSafety (doc : Document)
  /-- The select of the safety wait. -/
  | awaitSafe (doc : Document)
  /-- Bind the parameters, then load or replace the blackboard. -/
  | prepare (doc : Document)
  | subscribe (doc : Document) (params : Value) (file : Option Value)
  /-- A pass runs, started with the stop token cancelled or not. -/
  | execute (doc : Document) (params : Value) (file : Option Value) (cancelled : Bool)
  /-- `report_for` reads the persisted report. -/
  | report (state : EndState) (error : Option String)
  | unlinkManifest (state : EndState) (outcome : Value)
  | unlinkBlackboard (state : EndState) (outcome : Value)
  | record (state : EndState) (outcome : Value)

/-- The task that owns a run. -/
structure Task where
  manifest : RunManifest
  recovery : Option Recovery
  graceDeadline : Option Instant
  control : Control

def Task.runId (t : Task) : String := t.manifest.runId
def Task.sessionId (t : Task) : String := t.manifest.sessionId

/-- How one connection attempt ended. -/
inductive Attempt where
  | connected (doc : Document)
  | unreachable (message : String)
  | invalid (message : String)

/-- Which branch of a select was taken. -/
inductive Branch where
  | stop
  | timer
  | event (e : EngineEvent)

/-- What a task was waiting for. -/
inductive Answered where
  | manifestWrite (result : WriteResult) (now : DateTime)
  | attempt (answer : Attempt) (now : Instant)
  | select (branch : Branch)
  | safetyStatus (answer : Answer) (now : Instant)
  /-- The bound parameters or the issues, and the error of the blackboard's I/O. -/
  | bound (params : Except String Value) (io : Option String)
  | subscribed
  /-- A pass that returned, against this outside. -/
  | passed (p : Pass) (now : Instant)
  | reportRead (io : Option String)
  /-- Whether the file is gone; a failed unlink is only logged. -/
  | unlinked (gone : Bool)
  | recorded (now : DateTime)

/-- What a history records. -/
inductive Event where
  /-- A run was registered by a request. -/
  | posted (m : RunManifest)
  /-- A pass of a run got its blackboard, from this file. -/
  | began (runId : String) (found : Option File)
  /-- A pass of a run left this trace. -/
  | ran (runId : String) (trace : Trace)
  /-- A run's manifest was unlinked by `end`. -/
  | unlinked (runId : String)
  /-- A stop request was answered. -/
  | stopAnswered (runId : String) (answer : Except StopError Unit)

/-- A change of the record of the task's run. -/
inductive Note where
  | running
  | paused (reason detail : String)
  | ended (state : EndState) (outcome : Value) (at_ : DateTime)

/-- What one step of a task does: where it goes on, none when it returns; the change of its
record; the file it writes or deletes. -/
structure Move where
  task : Option Task
  note : Option Note := none
  file : Option (String × Option File) := none
  events : List Event := []

namespace Task

variable [Crates]

/-- Go on elsewhere. -/
def goto (t : Task) (control : Control) : Task := { t with control }

/-- `end_failed` and `end_stopped` without a report in memory. -/
def fail (t : Task) (error : String) : Task := t.goto (.report .failed (some error))
def stopHere (t : Task) : Task := t.goto (.report .stopped none)

/-- The end of a run with a report, in memory or read back. -/
def finish (t : Task) (state : EndState) (error : Option String) (report : Option Value) : Task :=
  t.goto (.unlinkManifest state
    (completionResult t.manifest.workflow state.1.outcomeText error report))

/-- The start of `supervise`. -/
def supervise (config : Config) (manifest : RunManifest) (launch : Option Document) : Task :=
  match config.mcpServerUrl, launch with
  | none, _ =>
      fail ⟨manifest, none, none, .connect initialBackoff⟩
        "no mcp_server_url configured; the run cannot reach rp"
  | some _, some doc => ⟨manifest, none, none, .prepare doc⟩
  | some _, none => ⟨manifest, some .engineRestart, none, .connect initialBackoff⟩

/-- Reconnect within the grace after rp was lost or refused a call. -/
def pauseFor (config : Config) (t : Task) (recovery : Recovery) (now : Instant) : Task :=
  { t with
    recovery := some recovery
    graceDeadline := Duration.checkedAdd now config.rpOutageGrace
    control := .connect initialBackoff }

def onManifestWrite (config : Config) (t : Task) (doc : Document) (result : WriteResult)
    (now : DateTime) : Move :=
  let name := manifestName t.sessionId
  match result with
  | .written =>
      { task := some (supervise config t.manifest (some doc))
        file := some (name, some (.manifest t.manifest)) }
  | .failed message replaced =>
      { task := none
        note := some (.ended .failed
          (completionResult t.manifest.workflow "failed" (some message) none) now)
        file := if replaced then some (name, some (.manifest t.manifest)) else none }

def onAttempt (config : Config) (t : Task) (delay : Duration) (answer : Attempt)
    (now : Instant) : Move :=
  match answer with
  | .connected doc =>
      -- a resume never re-executes into a closed gate
      { task := some (t.goto (if t.recovery.isSome then .readSafety doc else .prepare doc)) }
  | .invalid message => { task := some (t.fail message) }
  | .unreachable message =>
      { task := some <|
          match t.graceDeadline with
          | none => t.goto (.backoff delay delay)
          | some d =>
              if d ≤ now then
                t.fail ("rp unreachable for " ++ Crates.formatDuration config.rpOutageGrace ++
                  ": " ++ message)
              else t.goto (.backoff delay (Nat.min delay (d - now)))
        note := some (.paused "rp_outage" message) }

/-- The select of the connect loop; the stop branch needs the token. -/
def onBackoff (t : Task) (delay : Duration) (cancelled : Bool) (branch : Branch) : Option Move :=
  match branch with
  | .stop => if cancelled then some { task := some t.stopHere } else none
  | .timer =>
      some { task := some (t.goto (.connect (nextDelay delay))) }
  | .event _ => none

def onSafetyStatus (config : Config) (t : Task) (doc : Document) (answer : Answer)
    (now : Instant) : Move :=
  match answer with
  | .ok status =>
      if isSafe status then { task := some (t.goto (.prepare doc)) }
      else
        { task := some (t.goto (.awaitSafe doc))
          note := some (.paused "safety" (unsafeDetail status)) }
  | .error (.unavailable message) =>
      { task := some (t.pauseFor config .rpOutage now), note := some (.paused "rp_outage" message) }
  | .error _ => { task := some (t.goto (.awaitSafe doc)) }

/-- The select of the safety wait. -/
def onAwaitSafe (t : Task) (doc : Document) (cancelled : Bool) (branch : Branch) : Option Move :=
  match branch with
  | .stop => if cancelled then some { task := some t.stopHere } else none
  | .timer => some { task := some (t.goto (.readSafety doc)) }
  | .event e => some { task := some (if announcesSafe e then t.goto (.readSafety doc) else t) }

/-- `Blackboard::load` on a resume, `Blackboard::replace` on a fresh start. -/
def onBound (t : Task) (doc : Document) (dir : Dir) (params : Except String Value)
    (io : Option String) : Move :=
  let name := blackboardName t.sessionId
  match params with
  | .error issues => { task := some (t.fail ("parameter validation failed: " ++ issues)) }
  | .ok params =>
      if t.recovery.isSome then
        match dir.load name io with
        | .error message => { task := some (t.fail message) }
        | .ok file =>
            { task := some (t.goto (.subscribe doc (withRecovery t.recovery params) file))
              events := [.began t.runId (dir.lookup name)] }
      else
        match io with
        | some message =>
            { task := some (t.fail
                ("blackboard write failed: cannot delete leftover blackboard: " ++ message)) }
        | none =>
            { task := some (t.goto (.subscribe doc params none))
              file := some (name, none)
              events := [.began t.runId none] }

/-- An outside that knows the stop token: cancelled before the pass, by its end, or not at all. -/
def underToken {σ : Type} (host : Host σ) (before by_ : Bool) : Host σ :=
  if before then { host with stop := fun h => (true, (host.stop h).2) }
  else if by_ then host
  else
    { host with
      stop := fun h => (false, (host.stop h).2)
      wait := fun enabled d h =>
        match host.wait enabled d h with
        | (.stop, h) => (.slept, h)
        | woken => woken }

/-- The file left by a pass: its own where the pass has changed it. -/
def fileAfter (t : Task) (before after : Option Value) : Option (String × Option File) :=
  if after = before then none
  else some (blackboardName t.sessionId, after.map (File.blackboard t.runId))

/-- The end of a pass; nothing for one that the fuel of the model cut. -/
def onPass (config : Config) (t : Task) (doc : Document) (params : Value) (file : Option Value)
    (before cancelled : Bool) (p : Pass) (now : Instant) : Option Move :=
  let r := runWithStop p.fuel doc params (underToken p.host before cancelled) file p.start
  let report := r.st.session.get "report"
  let ending := fun (state : EndState) (error : Option String) =>
    match report with
    | some report => t.finish state error (some report)
    | none => t.goto (.report state error)
  (runOutcome r.out).map fun outcome =>
    { task := some <|
        match outcome with
        | .completed => t.finish .complete none report
        | .failed e => ending .failed (some e.message)
        | .stopped => ending .stopped none
        | .paused reason => t.pauseFor config (pauseRecovery reason) now
      note :=
        match outcome with
        | .paused reason => some (.paused (pauseName reason) (pauseDetail reason))
        | _ => none
      file := t.fileAfter file r.st.file
      events := [.ran t.runId r.log] }

def onReportRead (t : Task) (state : EndState) (error : Option String) (dir : Dir)
    (io : Option String) : Move :=
  let report :=
    match dir.load (blackboardName t.sessionId) io with
    | .ok (some session) => session.get "report"
    | _ => none
  { task := some (t.finish state error report) }

/-- One step of a task; nothing where the answer is not one it waits for. -/
def step (config : Config) (registry : RunRegistry) (dir : Dir) (t : Task) (answer : Answered) :
    Option Move :=
  match t.control, answer with
  | .writeManifest doc, .manifestWrite result now => some (t.onManifestWrite config doc result now)
  | .connect delay, .attempt answer now => some (t.onAttempt config delay answer now)
  | .backoff delay _, .select branch => t.onBackoff delay (registry.cancelled t.runId) branch
  | .readSafety doc, .safetyStatus answer now => some (t.onSafetyStatus config doc answer now)
  | .awaitSafe doc, .select branch => t.onAwaitSafe doc (registry.cancelled t.runId) branch
  | .prepare doc, .bound params io => some (t.onBound doc dir params io)
  | .subscribe doc params file, .subscribed =>
      some
        { task := some (t.goto (.execute doc params file (registry.cancelled t.runId)))
          note := some .running }
  | .execute doc params file before, .passed p now =>
      t.onPass config doc params file before (registry.cancelled t.runId) p now
  | .report state error, .reportRead io => some (t.onReportRead state error dir io)
  | .unlinkManifest state outcome, .unlinked gone =>
      some
        { task := some (t.goto (.unlinkBlackboard state outcome))
          file := if gone then some (manifestName t.sessionId, none) else none
          events := if gone then [.unlinked t.runId] else [] }
  | .unlinkBlackboard state outcome, .unlinked gone =>
      some
        { task := some (t.goto (.record state outcome))
          file := if gone then some (blackboardName t.sessionId, none) else none }
  | .record state outcome, .recorded now =>
      some { task := none, note := some (.ended state outcome now) }
  | _, _ => none

end Task

/-! ## The process and its histories -/

/-- The running process. -/
structure Process where
  config : Config
  registry : RunRegistry
  tasks : List Task
  /-- What the startup resume still has to go through; the server serves after it. -/
  resuming : List RunManifest

/-- The state directory and the process, none while it is down. -/
structure Service where
  dir : Dir
  process : Option Process

/-- A service that has never run. -/
def Service.initial : Service := ⟨[], none⟩

/-- A `POST /runs` request, with the id minted for its run and the validated document. -/
structure Request where
  runId : String
  sessionId : String
  workflow : String
  params : Value
  now : DateTime
  document : Option Document

def Request.manifest (r : Request) : RunManifest :=
  ⟨r.runId, r.sessionId, r.workflow, r.params, r.now⟩

/-- What happens to the service. -/
inductive Input where
  | post (r : Request)
  | stop (runId : String)
  /-- The task at an index gets the answer it waits for. -/
  | advance (index : Nat) (answer : Answered)
  /-- The startup resume takes the next manifest. -/
  | resume
  /-- The process dies; a pass that was running has persisted this, if anything. -/
  | crash (written : Option Value)
  /-- The process starts, and lists these names of the state directory. -/
  | restart (config : Config) (listing : List String)

def Note.apply (runId : String) : Note → RunRegistry → RunRegistry
  | running => RunRegistry.markRunning runId
  | paused reason detail => RunRegistry.markPaused runId reason detail
  | ended state outcome at_ => RunRegistry.markEnded runId state.1 outcome at_

def Process.serving (p : Process) : Bool := p.resuming.isEmpty

/-- Register a run and start its task. -/
def Process.register (p : Process) (m : RunManifest) (task : Task) : Except String Process :=
  (p.registry.start m.runId m.sessionId m.workflow m.startedAt).map fun registry =>
    { p with registry, tasks := p.tasks ++ [task] }

/-- `start_run`. The responses are left out: a refused request changes nothing. -/
def Process.post (p : Process) (r : Request) : Process × List Event :=
  match r.document with
  | none => (p, [])
  | some doc =>
      if p.registry.active.isNone && p.config.mcpServerUrl.isSome && validSessionId r.sessionId &&
          r.params.asObject.isSome then
        match p.register r.manifest ⟨r.manifest, none, none, .writeManifest doc⟩ with
        | .ok p => (p, [.posted r.manifest])
        | .error _ => (p, [])
      else (p, [])

/-- `stop_run`. -/
def Process.stop (p : Process) (runId : String) : Process × List Event :=
  match p.registry.stop runId with
  | .ok registry => ({ p with registry }, [.stopAnswered runId (.ok ())])
  | .error e => (p, [.stopAnswered runId (.error e)])

/-- The process and the directory after a move of the task at an index. -/
def Service.apply (dir : Dir) (p : Process) (index : Nat) (t : Task) (m : Move) : Service :=
  { dir := (m.file.map fun (name, file) => dir.put name file).getD dir
    process := some
      { p with
        registry := (m.note.map (Note.apply t.runId)).elim p.registry (· p.registry)
        tasks := p.tasks.take index ++ m.task.toList ++ p.tasks.drop (index + 1) } }

/-- What a pass that was running has left in the directory. -/
def Process.cut (p : Process) (written : Option Value) (dir : Dir) : Dir :=
  match written, p.tasks.find? fun t => t.control matches .execute .. with
  | some session, some t => dir.put (blackboardName t.sessionId) (some (.blackboard t.runId session))
  | _, _ => dir

/-- One step of the service; nothing where the input cannot happen. -/
def Service.step [Crates] (s : Service) (input : Input) : Option (Service × List Event) :=
  match s.process, input with
  | none, .restart config listing =>
      if listing.Nodup then
        some (⟨s.dir, some ⟨config, [], [],
          if config.resumeOnStart then s.dir.scan listing else []⟩⟩, [])
      else none
  | some p, .crash written => some (⟨p.cut written s.dir, none⟩, [])
  | some p, .resume =>
      match p.resuming with
      | [] => none
      | m :: rest =>
          let p := { p with resuming := rest }
          some (⟨s.dir, some ((p.register m (Task.supervise p.config m none)).toOption.getD p)⟩, [])
  | some p, .post r =>
      if p.serving then some (⟨s.dir, some (p.post r).1⟩, (p.post r).2) else none
  | some p, .stop runId =>
      if p.serving then some (⟨s.dir, some (p.stop runId).1⟩, (p.stop runId).2) else none
  | some p, .advance index answer => do
      let t ← p.tasks[index]?
      let m ← t.step p.config p.registry s.dir answer
      some (Service.apply s.dir p index t m, m.events)
  | _, _ => none

/-! ## What a step can do -/

/-- The steps of a task, by where it is and what it was answered. -/
inductive Task.Goes [Crates] (config : Config) (registry : RunRegistry) (dir : Dir) (t : Task) :
    Answered → Move → Prop where
  | launched {doc : Document} {now : DateTime} (at_ : t.control = .writeManifest doc) :
      Goes config registry dir t (.manifestWrite .written now)
        { task := some (supervise config t.manifest (some doc))
          file := some (manifestName t.sessionId, some (.manifest t.manifest)) }
  | notLaunched {doc : Document} {message : String} {replaced : Bool} {now : DateTime}
      (at_ : t.control = .writeManifest doc) :
      Goes config registry dir t (.manifestWrite (.failed message replaced) now)
        { task := none
          note := some (.ended .failed
            (completionResult t.manifest.workflow "failed" (some message) none) now)
          file := if replaced then some (manifestName t.sessionId, some (.manifest t.manifest))
            else none }
  | connected {delay : Duration} {doc : Document} {now : Instant}
      (at_ : t.control = .connect delay) :
      Goes config registry dir t (.attempt (.connected doc) now)
        { task := some (t.goto (if t.recovery.isSome then .readSafety doc else .prepare doc)) }
  | invalid {delay : Duration} {message : String} {now : Instant}
      (at_ : t.control = .connect delay) :
      Goes config registry dir t (.attempt (.invalid message) now)
        { task := some (t.fail message) }
  | graceSpent {delay deadline : Duration} {message error : String} {now : Instant}
      (at_ : t.control = .connect delay) (spent : t.graceDeadline = some deadline)
      (late : deadline ≤ now) :
      Goes config registry dir t (.attempt (.unreachable message) now)
        { task := some (t.fail error), note := some (.paused "rp_outage" message) }
  | unreachable {delay sleepFor : Duration} {message : String} {now : Instant}
      (at_ : t.control = .connect delay)
      (inTime : ∀ deadline, t.graceDeadline = some deadline → now < deadline) :
      Goes config registry dir t (.attempt (.unreachable message) now)
        { task := some (t.goto (.backoff delay sleepFor))
          note := some (.paused "rp_outage" message) }
  | stoppedBackoff {delay sleepFor : Duration} (at_ : t.control = .backoff delay sleepFor)
      (cancelled : registry.cancelled t.runId = true) :
      Goes config registry dir t (.select .stop) { task := some t.stopHere }
  | slept {delay sleepFor : Duration} (at_ : t.control = .backoff delay sleepFor) :
      Goes config registry dir t (.select .timer)
        { task := some (t.goto (.connect (nextDelay delay))) }
  | safe {doc : Document} {status : Value} {now : Instant} (at_ : t.control = .readSafety doc)
      (safe : isSafe status = true) :
      Goes config registry dir t (.safetyStatus (.ok status) now)
        { task := some (t.goto (.prepare doc)) }
  | notSafe {doc : Document} {status : Value} {now : Instant} (at_ : t.control = .readSafety doc)
      (notSafe : isSafe status = false) :
      Goes config registry dir t (.safetyStatus (.ok status) now)
        { task := some (t.goto (.awaitSafe doc))
          note := some (.paused "safety" (unsafeDetail status)) }
  | unavailable {doc : Document} {message : String} {now : Instant}
      (at_ : t.control = .readSafety doc) :
      Goes config registry dir t (.safetyStatus (.error (.unavailable message)) now)
        { task := some (t.pauseFor config .rpOutage now)
          note := some (.paused "rp_outage" message) }
  | noStatus {doc : Document} {e : ToolCallError} {now : Instant}
      (at_ : t.control = .readSafety doc) :
      Goes config registry dir t (.safetyStatus (.error e) now)
        { task := some (t.goto (.awaitSafe doc)) }
  | stoppedWait {doc : Document} (at_ : t.control = .awaitSafe doc)
      (cancelled : registry.cancelled t.runId = true) :
      Goes config registry dir t (.select .stop) { task := some t.stopHere }
  | reread {doc : Document} {branch : Branch} (at_ : t.control = .awaitSafe doc)
      (other : branch ≠ .stop) :
      Goes config registry dir t (.select branch) { task := some (t.goto (.readSafety doc)) }
  | ignored {doc : Document} {e : EngineEvent} (at_ : t.control = .awaitSafe doc) :
      Goes config registry dir t (.select (.event e)) { task := some t }
  | notBegun {doc : Document} {params : Except String Value} {io : Option String} {error : String}
      (at_ : t.control = .prepare doc) :
      Goes config registry dir t (.bound params io) { task := some (t.fail error) }
  | loaded {doc : Document} {params : Value} {io : Option String} {file : Option Value}
      (at_ : t.control = .prepare doc) (resume : t.recovery.isSome = true)
      (load : dir.load (blackboardName t.sessionId) io = .ok file) :
      Goes config registry dir t (.bound (.ok params) io)
        { task := some (t.goto (.subscribe doc (withRecovery t.recovery params) file))
          events := [.began t.runId (dir.lookup (blackboardName t.sessionId))] }
  | replaced {doc : Document} {params : Value} (at_ : t.control = .prepare doc)
      (fresh : t.recovery.isSome = false) :
      Goes config registry dir t (.bound (.ok params) none)
        { task := some (t.goto (.subscribe doc params none))
          file := some (blackboardName t.sessionId, none)
          events := [.began t.runId none] }
  | began {doc : Document} {params : Value} {file : Option Value}
      (at_ : t.control = .subscribe doc params file) :
      Goes config registry dir t .subscribed
        { task := some (t.goto (.execute doc params file (registry.cancelled t.runId)))
          note := some .running }
  | ended {doc : Document} {params : Value} {file after : Option Value} {before : Bool} {p : Pass}
      {now : Instant} {trace : Trace} {control : Control}
      (at_ : t.control = .execute doc params file before)
      (ending : (∃ state outcome, control = .unlinkManifest state outcome) ∨
        ∃ state error, control = .report state error) :
      Goes config registry dir t (.passed p now)
        { task := some (t.goto control)
          file := t.fileAfter file after
          events := [.ran t.runId trace] }
  | paused {doc : Document} {params : Value} {file after : Option Value} {before : Bool} {p : Pass}
      {now : Instant} {trace : Trace} {reason : PauseReason}
      (at_ : t.control = .execute doc params file before) :
      Goes config registry dir t (.passed p now)
        { task := some (t.pauseFor config (pauseRecovery reason) now)
          note := some (.paused (pauseName reason) (pauseDetail reason))
          file := t.fileAfter file after
          events := [.ran t.runId trace] }
  | reported {state : EndState} {error : Option String} {io : Option String} {outcome : Value}
      (at_ : t.control = .report state error) :
      Goes config registry dir t (.reportRead io)
        { task := some (t.goto (.unlinkManifest state outcome)) }
  | manifestGone {state : EndState} {outcome : Value}
      (at_ : t.control = .unlinkManifest state outcome) :
      Goes config registry dir t (.unlinked true)
        { task := some (t.goto (.unlinkBlackboard state outcome))
          file := some (manifestName t.sessionId, none)
          events := [.unlinked t.runId] }
  | manifestKept {state : EndState} {outcome : Value}
      (at_ : t.control = .unlinkManifest state outcome) :
      Goes config registry dir t (.unlinked false)
        { task := some (t.goto (.unlinkBlackboard state outcome)) }
  | blackboardGone {state : EndState} {outcome : Value}
      (at_ : t.control = .unlinkBlackboard state outcome) :
      Goes config registry dir t (.unlinked true)
        { task := some (t.goto (.record state outcome))
          file := some (blackboardName t.sessionId, none) }
  | blackboardKept {state : EndState} {outcome : Value}
      (at_ : t.control = .unlinkBlackboard state outcome) :
      Goes config registry dir t (.unlinked false)
        { task := some (t.goto (.record state outcome)) }
  | recorded {state : EndState} {outcome : Value} {now : DateTime}
      (at_ : t.control = .record state outcome) :
      Goes config registry dir t (.recorded now)
        { task := none, note := some (.ended state outcome now) }

namespace Task

variable [Crates] {config : Config} {registry : RunRegistry} {dir : Dir} {t : Task}
  {doc : Document} {m : Move}

theorem onManifestWrite_cases {result : WriteResult} {now : DateTime}
    (at_ : t.control = .writeManifest doc) : Goes config registry dir t (.manifestWrite result now)
      (t.onManifestWrite config doc result now) := by
  cases result with
  | written => exact .launched at_
  | failed message replaced => exact .notLaunched at_

variable {now : Instant} {delay : Duration}

theorem onAttempt_cases {answer : Attempt}
    (at_ : t.control = .connect delay) : Goes config registry dir t (.attempt answer now)
      (t.onAttempt config delay answer now) := by
  cases answer with
  | connected doc => exact .connected at_
  | invalid message => exact .invalid at_
  | unreachable message =>
    simp only [onAttempt]
    split
    · next hnone => exact .unreachable at_ (by simp [hnone])
    · next d hsome =>
        split
        · next hlate => exact .graceSpent at_ hsome hlate
        · next hlate =>
            refine .unreachable at_ fun deadline hdeadline => ?_
            obtain rfl := Option.some.inj (hsome.symm.trans hdeadline)
            exact Nat.lt_of_not_le hlate

variable {branch : Branch}

theorem onBackoff_cases {sleepFor : Duration} (at_ : t.control = .backoff delay sleepFor)
    (h : t.onBackoff delay (registry.cancelled t.runId) branch = some m) :
    Goes config registry dir t (.select branch) m := by
  cases branch with
  | stop =>
    simp only [onBackoff] at h
    split at h
    · next hcancelled =>
        obtain rfl := Option.some.inj h
        exact .stoppedBackoff at_ hcancelled
    · cases h
  | timer =>
    obtain rfl := Option.some.inj h
    exact .slept at_
  | event e => cases h

theorem onSafetyStatus_cases {answer : Answer}
    (at_ : t.control = .readSafety doc) : Goes config registry dir t (.safetyStatus answer now)
      (t.onSafetyStatus config doc answer now) := by
  unfold onSafetyStatus
  split
  · split
    · next hsafe => exact .safe at_ hsafe
    · next hsafe => exact .notSafe at_ (Bool.eq_false_iff.mpr hsafe)
  · exact .unavailable at_
  · exact .noStatus at_

theorem onAwaitSafe_cases (at_ : t.control = .awaitSafe doc)
    (h : t.onAwaitSafe doc (registry.cancelled t.runId) branch = some m) :
    Goes config registry dir t (.select branch) m := by
  cases branch with
  | stop =>
    simp only [onAwaitSafe] at h
    split at h
    · next hcancelled =>
        obtain rfl := Option.some.inj h
        exact .stoppedWait at_ hcancelled
    · cases h
  | timer =>
    obtain rfl := Option.some.inj h
    exact .reread at_ (by simp)
  | event e =>
    simp only [onAwaitSafe] at h
    obtain rfl := Option.some.inj h
    cases announcesSafe e with
    | true => exact .reread at_ (by simp)
    | false => exact .ignored at_

theorem onBound_cases {params : Except String Value} {io : Option String}
    (at_ : t.control = .prepare doc) : Goes config registry dir t (.bound params io)
      (t.onBound doc dir params io) := by
  cases params with
  | error issues => exact .notBegun at_
  | ok params =>
    simp only [onBound]
    cases hrecovery : t.recovery.isSome with
    | true =>
      cases hload : dir.load (blackboardName t.sessionId) io with
      | error message => exact .notBegun at_
      | ok file => exact .loaded at_ hrecovery hload
    | false =>
      cases io with
      | some message => exact .notBegun at_
      | none => exact .replaced at_ hrecovery

theorem onPass_cases {params : Value} {file : Option Value} {before : Bool} {p : Pass}
    (at_ : t.control = .execute doc params file before)
    (h : t.onPass config doc params file before (registry.cancelled t.runId) p now = some m) :
    Goes config registry dir t (.passed p now) m := by
  obtain ⟨outcome, -, rfl⟩ := Option.map_eq_some_iff.mp h
  cases outcome with
  | completed => exact .ended at_ (.inl ⟨_, _, rfl⟩)
  | paused reason => exact .paused at_
  | failed e =>
    dsimp only
    split
    · exact .ended at_ (.inl ⟨_, _, rfl⟩)
    · exact .ended at_ (.inr ⟨_, _, rfl⟩)
  | stopped =>
    dsimp only
    split
    · exact .ended at_ (.inl ⟨_, _, rfl⟩)
    · exact .ended at_ (.inr ⟨_, _, rfl⟩)

/-- Every step of a task is one of these. -/
theorem step_cases {answer : Answered} (h : t.step config registry dir answer = some m) :
    Goes config registry dir t answer m := by
  unfold step at h
  split at h
  · next at_ =>
      obtain rfl := Option.some.inj h
      exact onManifestWrite_cases at_
  · next at_ =>
      obtain rfl := Option.some.inj h
      exact onAttempt_cases at_
  · next at_ => exact onBackoff_cases at_ h
  · next at_ =>
      obtain rfl := Option.some.inj h
      exact onSafetyStatus_cases at_
  · next at_ => exact onAwaitSafe_cases at_ h
  · next at_ =>
      obtain rfl := Option.some.inj h
      exact onBound_cases at_
  · next at_ =>
      obtain rfl := Option.some.inj h
      exact .began at_
  · next at_ => exact onPass_cases at_ h
  · next at_ =>
      obtain rfl := Option.some.inj h
      exact .reported at_
  · next gone at_ =>
      obtain rfl := Option.some.inj h
      cases gone with
      | true => exact .manifestGone at_
      | false => exact .manifestKept at_
  · next gone at_ =>
      obtain rfl := Option.some.inj h
      cases gone with
      | true => exact .blackboardGone at_
      | false => exact .blackboardKept at_
  · next at_ =>
      obtain rfl := Option.some.inj h
      exact .recorded at_
  · cases h

end Task

/-- The steps of the service. -/
inductive Transition [Crates] : Service → Input → Service → List Event → Prop where
  | restarted {dir : Dir} {config : Config} {listing : List String} (nodup : listing.Nodup) :
      Transition ⟨dir, none⟩ (.restart config listing)
        ⟨dir, some ⟨config, [], [], if config.resumeOnStart then dir.scan listing else []⟩⟩ []
  | crashed {dir : Dir} {p : Process} {written : Option Value} :
      Transition ⟨dir, some p⟩ (.crash written) ⟨p.cut written dir, none⟩ []
  | resumed {dir : Dir} {p : Process} {m : RunManifest} {rest : List RunManifest}
      {registry : RunRegistry} (next : p.resuming = m :: rest)
      (started : p.registry.start m.runId m.sessionId m.workflow m.startedAt = .ok registry) :
      Transition ⟨dir, some p⟩ .resume
        ⟨dir, some { p with
          registry
          tasks := p.tasks ++ [Task.supervise p.config m none]
          resuming := rest }⟩ []
  | passedOver {dir : Dir} {p : Process} {m : RunManifest} {rest : List RunManifest}
      (next : p.resuming = m :: rest) :
      Transition ⟨dir, some p⟩ .resume ⟨dir, some { p with resuming := rest }⟩ []
  | posted {dir : Dir} {p : Process} {r : Request} {doc : Document} {registry : RunRegistry}
      (serving : p.resuming = []) (valid : validSessionId r.sessionId = true)
      (started : p.registry.start r.runId r.sessionId r.workflow r.now = .ok registry) :
      Transition ⟨dir, some p⟩ (.post r)
        ⟨dir, some { p with
          registry
          tasks := p.tasks ++ [⟨r.manifest, none, none, .writeManifest doc⟩] }⟩
        [.posted r.manifest]
  | refused {dir : Dir} {p : Process} {r : Request} :
      Transition ⟨dir, some p⟩ (.post r) ⟨dir, some p⟩ []
  | stopped {dir : Dir} {p : Process} {runId : String} {registry : RunRegistry}
      (fired : p.registry.stop runId = .ok registry) :
      Transition ⟨dir, some p⟩ (.stop runId) ⟨dir, some { p with registry }⟩
        [.stopAnswered runId (.ok ())]
  | stopRefused {dir : Dir} {p : Process} {runId : String} {e : StopError}
      (notFired : p.registry.stop runId = .error e) :
      Transition ⟨dir, some p⟩ (.stop runId) ⟨dir, some p⟩ [.stopAnswered runId (.error e)]
  | advanced {dir : Dir} {p : Process} {index : Nat} {answer : Answered} {t : Task} {m : Move}
      (at_ : p.tasks[index]? = some t) (moved : t.step p.config p.registry dir answer = some m) :
      Transition ⟨dir, some p⟩ (.advance index answer) (Service.apply dir p index t m) m.events

variable {dir : Dir} {p : Process}

theorem Process.resume_cases [Crates] {m : RunManifest}
    {rest : List RunManifest} (next : p.resuming = m :: rest) :
    Transition ⟨dir, some p⟩ .resume
      ⟨dir, some ((({ p with resuming := rest } : Process).register m
        (Task.supervise p.config m none)).toOption.getD { p with resuming := rest })⟩ [] := by
  unfold Process.register
  cases hstart : p.registry.start m.runId m.sessionId m.workflow m.startedAt with
  | error busy => exact .passedOver next
  | ok registry => exact .resumed next hstart

theorem Process.post_cases [Crates] {r : Request}
    (serving : p.resuming = []) :
    Transition ⟨dir, some p⟩ (.post r) ⟨dir, some (p.post r).1⟩ (p.post r).2 := by
  unfold Process.post
  split
  · exact .refused
  · split
    · next doc _ hchecks =>
        simp only [Bool.and_eq_true] at hchecks
        unfold Process.register
        cases hstart : p.registry.start r.manifest.runId r.manifest.sessionId r.manifest.workflow
            r.manifest.startedAt with
        | error busy => exact .refused
        | ok registry => exact .posted serving hchecks.1.2 hstart
    · exact .refused

theorem Process.stop_cases [Crates] {runId : String} :
    Transition ⟨dir, some p⟩ (.stop runId) ⟨dir, some (p.stop runId).1⟩ (p.stop runId).2 := by
  unfold Process.stop
  split
  · next registry hstop => exact .stopped hstop
  · next e hstop => exact .stopRefused hstop

/-- Every step of the service is one of these. -/
theorem Service.step_cases [Crates] {s s' : Service} {i : Input} {events : List Event}
    (h : s.step i = some (s', events)) : Transition s i s' events := by
  obtain ⟨dir, process⟩ := s
  unfold Service.step at h
  split at h
  · next config listing hprocess =>
      obtain rfl := hprocess
      split at h
      · next hnodup =>
          obtain ⟨rfl, rfl⟩ := Prod.mk.inj (Option.some.inj h)
          exact .restarted hnodup
      · cases h
  · next p written hprocess =>
      obtain rfl := hprocess
      obtain ⟨rfl, rfl⟩ := Prod.mk.inj (Option.some.inj h)
      exact .crashed
  · next p hprocess =>
      obtain rfl := hprocess
      split at h
      · cases h
      · next m rest hresuming =>
          obtain ⟨rfl, rfl⟩ := Prod.mk.inj (Option.some.inj h)
          exact Process.resume_cases hresuming
  · next p r hprocess =>
      obtain rfl := hprocess
      split at h
      · next hserving =>
          obtain ⟨rfl, rfl⟩ := Prod.mk.inj (Option.some.inj h)
          exact Process.post_cases (List.isEmpty_iff.mp hserving)
      · cases h
  · next p runId hprocess =>
      obtain rfl := hprocess
      split at h
      · obtain ⟨rfl, rfl⟩ := Prod.mk.inj (Option.some.inj h)
        exact Process.stop_cases
      · cases h
  · next p index answer hprocess =>
      obtain rfl := hprocess
      obtain ⟨t, ht, h⟩ := Option.bind_eq_some_iff.mp h
      obtain ⟨m, hm, h⟩ := Option.bind_eq_some_iff.mp h
      obtain ⟨rfl, rfl⟩ := Prod.mk.inj (Option.some.inj h)
      exact .advanced ht hm
  · cases h

end RustyPhoton.SessionRunner.Runs
