import RustyPhoton.SessionRunner.Engine.Rules

/-!
# Sessions

A session is a sequence of passes over one document. Each pass has its own outside and starts from
the blackboard that the passes before it left in the file.
-/

namespace RustyPhoton.SessionRunner.Engine

open Lib

/-- What one pass of a session meets. -/
structure Pass where
  σ : Type
  fuel : Nat
  params : Value
  host : Host σ
  start : σ

variable [Crates]

def Pass.run (p : Pass) (doc : Document) (file : Option Value) :
    Run (State p.σ) Halt Node Unit :=
  runWithStop p.fuel doc p.params p.host file p.start

/-- The passes of a session from a file on: the whole trace and the file left. -/
def runSession (doc : Document) : Option Value → List Pass → Trace × Option Value
  | file, [] => ([], file)
  | file, p :: rest =>
      let r := p.run doc file
      let s := runSession doc r.st.file rest
      (r.log ++ s.1, s.2)

end RustyPhoton.SessionRunner.Engine
