import RustyPhoton.SessionRunner.Document.Validate
import RustyPhoton.SessionRunner.Engine.Scopes

/-!
# A scripted outside

A host that plays lists: each use of the outside takes the next entry, and an exhausted list gives
the quiet answer. With it a document runs, and a run is evaluated.
-/

namespace RustyPhoton.SessionRunner.Engine

open Lib

/-- What the outside will say. -/
structure Script where
  answers : List Answer := []
  stops : List Bool := []
  arrivals : List (Option EngineEvent) := []
  wakes : List Wake := []
  clock : List DateTime := []
  time : List Duration := []
  writes : List WriteResult := []

/-- The next entry of a list, or the quiet answer. -/
def next {α : Type} (quiet : α) : List α → α × List α
  | [] => (quiet, [])
  | a :: rest => (a, rest)

/-- The host that plays a script. -/
def scripted : Host Script where
  call _ _ h := ((next (.ok .null) h.answers).1, { h with answers := h.answers.tail })
  now h := ((next 0 h.clock).1, { h with clock := h.clock.tail })
  monotonic h := ((next 0 h.time).1, { h with time := h.time.tail })
  sleep _ h := h
  tryNext h := ((next none h.arrivals).1, { h with arrivals := h.arrivals.tail })
  stop h := ((next false h.stops).1, { h with stops := h.stops.tail })
  wait _ _ h := ((next .slept h.wakes).1, { h with wakes := h.wakes.tail })
  write _ h := ((next .written h.writes).1, { h with writes := h.writes.tail })

/-- The same with a file system that does not fail. -/
def reliable : Host Script := { scripted with write := fun _ h => (.written, h) }

theorem reliable_writesSucceed : reliable.WritesSucceed := fun _ _ => rfl

/-- The pass of an accepted document against a script. -/
def passOf (fuel : Nat) (document : Value) (file : Option Value) (script : Script) :
    Option (Run (State Script) Halt Node Unit) :=
  letI := Crates.wholeSeconds
  (build document).toOption.map fun doc => runWithStop fuel doc .null scripted file script

/-- The calls of a trace: the tool, its answer, whether the stop was honoured. -/
def callsOf (l : Trace) : List (String × Answer × Bool) :=
  (steps l).filterMap fun
    | .mark (.call tool _ answer honoured) => some (tool, answer, honoured)
    | _ => none

/-- The JSON document of these triggers and this root. -/
def documentWith (triggers : List Value) (root : List (String × Value)) : Value :=
  .object [("version", .nat 1), ("name", .string "sample"), ("max_duration", .string "30s"),
    ("triggers", .array triggers), ("root", .object root)]

def documentOf (root : List (String × Value)) : Value := documentWith [] root

def toolStep (tool : String) : Value := .object [("tool", .string tool)]

/-- The document of this root, and the instruction that calls a tool. -/
def rootDocument (root : Instruction) : Document :=
  ⟨1, "sample", none, [], none, none, [], root⟩

def callTo (tool : String) : Instruction := .mk none none (.tool ⟨tool, [], none⟩)

end RustyPhoton.SessionRunner.Engine
