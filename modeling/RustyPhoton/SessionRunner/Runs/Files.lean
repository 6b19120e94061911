import RustyPhoton.SessionRunner.Blackboard

/-!
# The state directory

After `RunManifest` in `runs.rs` and the constructors of `blackboard.rs`: the files a run keeps in
`state_dir`, under two names made from its session id. A blackboard file also carries the id of the
run whose pass wrote it, which the service does not see.
-/

namespace RustyPhoton.SessionRunner.Runs

open Lib

/-- What a run needs to resume after a restart of the service. -/
structure RunManifest where
  runId : String
  sessionId : String
  workflow : String
  /-- The raw `params` object of the request. -/
  params : Value
  startedAt : DateTime
  deriving DecidableEq

/-- The suffix of a manifest's file name. -/
def manifestSuffix : String := ".run.json"

/-- The name of a session's manifest in `state_dir`. -/
def manifestName (sessionId : String) : String := sessionId ++ manifestSuffix

/-- The name of a session's blackboard in `state_dir`. -/
def blackboardName (sessionId : String) : String := sessionId ++ ".json"

/-- The session id names the blackboard file: it must not traverse. -/
def validSessionId (sessionId : String) : Bool :=
  !(sessionId.toList.isEmpty || sessionId.toList.any (fun c => c = '/' || c = '\\') ||
    sessionId = "." || sessionId = "..")

/-- A file of the state directory. -/
inductive File where
  | manifest (m : RunManifest)
  /-- A blackboard, and the run whose pass wrote it. -/
  | blackboard (owner : String) (session : Value)
  deriving DecidableEq

/-- The state directory. -/
abbrev Dir := List (String × File)

namespace RunManifest

def fields : List String := ["run_id", "session_id", "workflow", "params", "started_at"]

variable [Crates]

def toValue (m : RunManifest) : Value :=
  .object [("run_id", .string m.runId), ("session_id", .string m.sessionId),
    ("workflow", .string m.workflow), ("params", m.params),
    ("started_at", .string (Crates.toRfc3339 m.startedAt))]

/-- Deserialization: every field present, of its type, and no other. -/
def ofValue (v : Value) : Option RunManifest := do
  let members ← v.asObject
  if members.all fun entry => entry.1 ∈ fields then
    let runId ← (v.get "run_id").bind Value.asStr
    let sessionId ← (v.get "session_id").bind Value.asStr
    let workflow ← (v.get "workflow").bind Value.asStr
    let params ← v.get "params"
    let text ← (v.get "started_at").bind Value.asStr
    let startedAt ← (Crates.parseRfc3339 text).toOption
    some ⟨runId, sessionId, workflow, params, startedAt⟩
  else none

end RunManifest

namespace File

variable [Crates]

/-- The JSON of a file. -/
def content : File → Value
  | manifest m => m.toValue
  | blackboard _ session => session

/-- The manifest in a file; a manifest written by the service is read back. -/
def asManifest : File → Option RunManifest
  | manifest m => some m
  | blackboard _ session => RunManifest.ofValue session

end File

namespace Dir

variable [Crates]

/-- Write or delete a file. -/
def put (name : String) (file : Option File) (dir : Dir) : Dir :=
  match file with
  | some file => Assoc.insert name file dir
  | none => Assoc.erase name dir

/-- `RunManifest::scan`, for the names that were listed and could be read, in the order of the
listing. -/
def scan (listing : List String) (dir : Dir) : List RunManifest :=
  ((listing.filter fun name => manifestSuffix.toList.isSuffixOf name.toList).filterMap fun name =>
    (dir.lookup name).bind File.asManifest).insertionSort fun a b => a.startedAt ≤ b.startedAt

/-- `Blackboard::load`: the content of the file, nothing for a missing one. An I/O error is its
text. -/
def load (name : String) (io : Option String) (dir : Dir) : Except String (Option Value) :=
  match io, dir.lookup name with
  | some message, _ => .error ("blackboard read failed: " ++ message)
  | none, none => .ok none
  | none, some file =>
      match file.content with
      | .object members => .ok (some (.object members))
      | _ => .error "blackboard file is corrupt: top level is not a JSON object"

end Dir

/-! ## Names -/

theorem manifestName_injective {s t : String} (h : manifestName s = manifestName t) : s = t := by
  have := congrArg String.toList h
  simp only [manifestName, String.toList_append, List.append_cancel_right_eq] at this
  exact String.toList_injective this

theorem blackboardName_injective {s t : String} (h : blackboardName s = blackboardName t) :
    s = t := by
  have := congrArg String.toList h
  simp only [blackboardName, String.toList_append, List.append_cancel_right_eq] at this
  exact String.toList_injective this

/-- A blackboard has the name of a manifest exactly where its session id is the other one followed
by `.run`. -/
theorem blackboardName_eq_manifestName {s t : String} :
    blackboardName s = manifestName t ↔ s = t ++ ".run" := by
  have hsuffix : manifestSuffix = ".run" ++ ".json" := by decide
  rw [blackboardName, manifestName, hsuffix, ← String.append_assoc]
  constructor
  · intro h
    exact blackboardName_injective h
  · rintro rfl
    rfl

theorem lookup_put_self (name : String) (file : Option File) (dir : Dir) :
    (Dir.put name file dir).lookup name = file := by
  cases file with
  | none => exact Assoc.lookup_erase_self name dir
  | some f => exact Assoc.lookup_insert_self name f dir

theorem lookup_put_of_ne {name other : String} (file : Option File) (dir : Dir)
    (hne : other ≠ name) : (Dir.put name file dir).lookup other = dir.lookup other := by
  cases file with
  | none => exact Assoc.lookup_erase_of_ne dir hne
  | some f => exact Assoc.lookup_insert_of_ne f dir hne

/-- What a scan finds stands in the directory, under a name with the manifest suffix. -/
theorem mem_scan [Crates] {listing : List String} {dir : Dir} {m : RunManifest}
    (h : m ∈ dir.scan listing) : ∃ name ∈ listing,
      manifestSuffix.toList <:+ name.toList ∧ (dir.lookup name).bind File.asManifest = some m := by
  rw [Dir.scan, List.mem_insertionSort, List.mem_filterMap] at h
  obtain ⟨name, hname, hm⟩ := h
  obtain ⟨hlisted, hsuffix⟩ := List.mem_filter.mp hname
  exact ⟨name, hlisted, List.isSuffixOf_iff_suffix.mp hsuffix, hm⟩

end RustyPhoton.SessionRunner.Runs
