import RustyPhoton.SessionRunner.Expr.Eval

/-!
# The typed workflow document

After `document/model.rs`. The validation walk is the only producer of these values; the engine
holds them and never re-checks their shape. `nodes` lists the instructions of a tree in document
order.
-/

namespace RustyPhoton.SessionRunner

open Lib Expr

/-- A tool argument: literal JSON, or an expression evaluated at the call. -/
inductive ArgValue where
  | literal (v : Value)
  | expr (e : Expression)

/-- The retry policy of a tool call: total attempts and the delay between two of them. -/
structure Retry where
  maxAttempts : Nat
  backoff : Duration

/-- A tool call; the arguments are in key order. -/
structure ToolCall where
  tool : String
  args : List (String × ArgValue)
  retry : Option Retry

/-- A loop bound: a literal, or an expression evaluated once at loop entry. -/
inductive Bound where
  | literal (n : Nat)
  | expr (e : Expression)

/-- The loop mode. The conditional modes carry an iteration bound; `count` may carry one. -/
inductive RepeatMode where
  | until_ (condition : Expression) (maxIterations : Bound)
  | while_ (condition : Expression) (maxIterations : Bound)
  | count (count : Bound) (maxIterations : Option Bound)

/-- The document form `session.a.b` of a path. -/
def documentKey (path : List String) : String :=
  path.foldl (fun key seg => key ++ "." ++ seg) "session"

/-- One `set` entry: the path after the `session` root and the value expression. -/
structure SetEntry where
  path : List String
  value : Expression

def SetEntry.key (entry : SetEntry) : String :=
  documentKey entry.path

inductive Wait where
  | duration (d : Duration)
  | untilEvent (event : String) (timeout : Duration)
  | until_ (condition : Expression) (pollInterval timeout : Duration)

inductive LogLevel where
  | debug
  | info
  deriving DecidableEq

/-- A log instruction; the values are in key order. -/
structure Log where
  level : LogLevel
  message : String
  values : List (String × Expression)

mutual
/-- One instruction node: the common `id` and `once` fields and the payload. -/
inductive Instruction where
  | mk (id once : Option String) (kind : InstructionKind)

inductive InstructionKind where
  | tool (call : ToolCall)
  | sequence (body : List Instruction)
  | repeat_ (mode : RepeatMode) (body : List Instruction)
  | if_ (condition : Expression) (then_ : List Instruction)
      (otherwise : Option (List Instruction))
  | set (entries : List SetEntry)
  | try_ (body : List Instruction) (catch_ finally_ : Option (List Instruction))
  | fail (message : Expression)
  | wait (wait : Wait)
  | log (log : Log)
end

namespace Instruction

def id : Instruction → Option String
  | mk id _ _ => id

def once : Instruction → Option String
  | mk _ once _ => once

def kind : Instruction → InstructionKind
  | mk _ _ kind => kind

end Instruction

mutual
/-- An instruction and everything below it, in document order. -/
def Instruction.nodes : Instruction → List Instruction
  | .mk id once kind => .mk id once kind :: kind.nodes

def InstructionKind.nodes : InstructionKind → List Instruction
  | .tool _ | .set _ | .fail _ | .wait _ | .log _ => []
  | .sequence body => blockNodes body
  | .repeat_ _ body => blockNodes body
  | .if_ _ then_ otherwise => blockNodes then_ ++ optionNodes otherwise
  | .try_ body catch_ finally_ => blockNodes body ++ optionNodes catch_ ++ optionNodes finally_

def blockNodes : List Instruction → List Instruction
  | [] => []
  | ins :: rest => ins.nodes ++ blockNodes rest

def optionNodes : Option (List Instruction) → List Instruction
  | none => []
  | some block => blockNodes block
end

/-! What is below an instruction of a tree is part of the tree's list. -/

mutual
theorem Instruction.nodes_sublist {m : Instruction} :
    ∀ n : Instruction, m ∈ n.nodes → m.nodes.Sublist n.nodes
  | .mk id once kind, h => by
    rcases List.mem_cons.mp h with rfl | h
    · exact List.Sublist.refl _
    · exact (InstructionKind.nodes_sublist kind h).cons _

theorem InstructionKind.nodes_sublist {m : Instruction} :
    ∀ kind : InstructionKind, m ∈ kind.nodes → m.nodes.Sublist kind.nodes
  | .tool _, h | .set _, h | .fail _, h | .wait _, h | .log _, h => by cases h
  | .sequence body, h => blockNodes_sublist body h
  | .repeat_ _ body, h => blockNodes_sublist body h
  | .if_ _ then_ otherwise, h => by
    rcases List.mem_append.mp h with h | h
    · exact (blockNodes_sublist then_ h).trans (List.sublist_append_left _ _)
    · exact (optionNodes_sublist otherwise h).trans (List.sublist_append_right _ _)
  | .try_ body catch_ finally_, h => by
    have hbody := List.sublist_append_left (blockNodes body ++ optionNodes catch_)
      (optionNodes finally_)
    rcases List.mem_append.mp h with h | h
    · rcases List.mem_append.mp h with h | h
      · exact ((blockNodes_sublist body h).trans (List.sublist_append_left _ _)).trans hbody
      · exact ((optionNodes_sublist catch_ h).trans (List.sublist_append_right _ _)).trans hbody
    · exact (optionNodes_sublist finally_ h).trans (List.sublist_append_right _ _)

theorem blockNodes_sublist {m : Instruction} :
    ∀ block : List Instruction, m ∈ blockNodes block → m.nodes.Sublist (blockNodes block)
  | [], h => by cases h
  | ins :: rest, h => by
    rcases List.mem_append.mp h with h | h
    · exact (Instruction.nodes_sublist ins h).trans (List.sublist_append_left _ _)
    · exact (blockNodes_sublist rest h).trans (List.sublist_append_right _ _)

theorem optionNodes_sublist {m : Instruction} :
    ∀ block : Option (List Instruction), m ∈ optionNodes block →
      m.nodes.Sublist (optionNodes block)
  | none, h => by cases h
  | some block, h => blockNodes_sublist block h
end

/-- The idempotency keys of these instructions. -/
def onceKeys (nodes : List Instruction) : List String :=
  nodes.filterMap Instruction.once

/-- Where a trigger's firings come from: an event name, or a tool called on an interval. -/
inductive TriggerSource where
  | event (name : String)
  | poll (tool : String) (args : List (String × ArgValue)) (interval : Duration)

/-- A document-global trigger. -/
structure Trigger where
  id : String
  on : TriggerSource
  when_ : Option Expression
  whileGate : Option Expression
  cooldown : Option Duration
  once : Bool
  actions : List Instruction

inductive ParameterType where
  | string | integer | number | boolean | duration | array
  deriving DecidableEq

def ParameterType.name : ParameterType → String
  | string => "string"
  | integer => "integer"
  | number => "number"
  | boolean => "boolean"
  | duration => "duration"
  | array => "array"

/-- A declared run parameter: required without a default, optional with one. -/
structure ParameterDecl where
  ty : ParameterType
  default : Option Value

/-- A validated workflow document. -/
structure Document where
  version : Nat
  name : String
  description : Option String
  parameters : List (String × ParameterDecl)
  estimatedDuration : Option Duration
  maxDuration : Option Duration
  triggers : List Trigger
  root : Instruction

/-- Every instruction of a document: the procedure tree, then the trigger actions. -/
def Document.nodes (doc : Document) : List Instruction :=
  doc.root.nodes ++ doc.triggers.flatMap fun t => blockNodes t.actions

theorem Document.nodes_sublist {doc : Document} {m : Instruction} (h : m ∈ doc.nodes) :
    m.nodes.Sublist doc.nodes := by
  rcases List.mem_append.mp h with h | h
  · exact (Instruction.nodes_sublist doc.root h).trans (List.sublist_append_left _ _)
  · obtain ⟨t, ht, h⟩ := List.mem_flatMap.mp h
    have hflat : (blockNodes t.actions).Sublist
        (doc.triggers.flatMap fun t => blockNodes t.actions) :=
      List.sublist_flatten_of_mem (List.mem_map_of_mem ht)
    exact ((blockNodes_sublist t.actions h).trans hflat).trans (List.sublist_append_right _ _)

/-- One validation finding: a JSON Pointer, a message and the span within an expression. -/
structure ValidationIssue where
  pointer : String
  message : String
  exprSpan : Option Span
  deriving DecidableEq

end RustyPhoton.SessionRunner
