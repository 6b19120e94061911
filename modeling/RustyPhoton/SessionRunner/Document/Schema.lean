import RustyPhoton.Lib.JsonSchema
import RustyPhoton.Lib.Pattern
import RustyPhoton.SessionRunner.Document.Duration

/-!
# The published document schema

`schema/workflow-v1.schema.json`, definition by definition. The annotations (`title`,
`description`) assert nothing and are left out.
-/

namespace RustyPhoton.SessionRunner.WorkflowSchema

open Lib Lib.Schema Pattern

/-! ## Shapes the file repeats -/

/-- An object with these properties and no others. -/
def closedObject (named : List (String × Schema)) (keys : List String) : List Schema :=
  [type .object, properties named (always false), required keys]

def nonEmptyString : Schema := allOf [type .string, minLength 1]

def blockSchema : Schema := allOf [type .array, items (ref "instruction"), minItems 1]

/-- An instruction's own properties, then the common `id` and `once`. -/
def instructionObject (named : List (String × Schema)) (keys : List String) : Schema :=
  allOf (closedObject
    (named ++ [("id", ref "instructionId"), ("once", ref "onceKey")]) keys)

/-! ## The definitions -/

def letters : List Char := range 'A' 'Z' ++ range 'a' 'z'

def digits : List Char := range '0' '9'

/-- `[A-Za-z][A-Za-z0-9_]*` -/
def namePattern : RegularExpression Char :=
  chars letters * (chars (letters ++ digits ++ ['_'])).star

def identifier : Schema := allOf [type .string, pattern namePattern]

def expression : Schema := nonEmptyString

def exprWrapper : Schema := allOf (closedObject [("$expr", ref "expression")] ["$expr"])

def countBound : Schema :=
  oneOf [allOf [type .integer, minimum 0], ref "exprWrapper"]

def positiveBound : Schema :=
  oneOf [allOf [type .integer, minimum 1], ref "exprWrapper"]

/-- `[0-9]+(\.[0-9]+)?(ns|us|µs|ms|s|m|h|d|w|y)\s*`, reading `\s` as `White_Space`. -/
def componentPattern : RegularExpression Char :=
  plus (chars digits) *
    (opt (literal ['.'] * plus (chars digits)) *
      (oneOf [['n', 's'], ['u', 's'], ['µ', 's'], ['m', 's'], ['s'], ['m'], ['h'], ['d'],
          ['w'], ['y']] *
        (chars whiteSpace).star))

def humantime : Schema := allOf [type .string, pattern (plus componentPattern)]

def instructionId : Schema := nonEmptyString

def onceKey : Schema := nonEmptyString

/-- A default of the given declared type. -/
def defaultOf (name : String) (value : Schema) : Schema :=
  ifThen (properties [("type", const (.string name))] (always true))
    (properties [("default", value)] (always true))

def parameterDeclaration : Schema :=
  allOf (closedObject
    [("type", enum [.string "string", .string "integer", .string "number", .string "boolean",
        .string "duration", .string "array"]),
     ("required", const (.bool true)),
     ("default", always true)] ["type"] ++
    [oneOf [required ["required"], required ["default"]],
     allOf [defaultOf "string" (type .string), defaultOf "integer" (type .integer),
       defaultOf "number" (type .number), defaultOf "boolean" (type .boolean),
       defaultOf "duration" (ref "humantime"), defaultOf "array" (type .array)]])

def instruction : Schema :=
  oneOf [ref "toolInstruction", ref "sequenceInstruction", ref "repeatInstruction",
    ref "ifInstruction", ref "setInstruction", ref "tryInstruction", ref "failInstruction",
    ref "waitInstruction", ref "logInstruction", ref "scriptInstructionReserved"]

def retry : Schema :=
  allOf (closedObject
    [("max_attempts", allOf [type .integer, minimum 1]), ("backoff", ref "humantime")]
    ["max_attempts", "backoff"])

def toolInstruction : Schema :=
  instructionObject [("tool", nonEmptyString), ("args", type .object), ("retry", retry)] ["tool"]

def sequenceInstruction : Schema :=
  instructionObject [("sequence", allOf [type .array, items (ref "instruction")])] ["sequence"]

/-- The keys present, and the other mode keys absent. -/
def mode (keys others : List String) : Schema :=
  allOf [required keys, not_ (anyOf (others.map fun key => required [key]))]

def repeatOptions : Schema :=
  allOf [type .object,
    properties [("until", ref "expression"), ("while", ref "expression"),
      ("count", ref "countBound"), ("max_iterations", ref "positiveBound")] (always false),
    oneOf [mode ["until", "max_iterations"] ["while", "count"],
      mode ["while", "max_iterations"] ["until", "count"],
      mode ["count"] ["until", "while"]]]

def repeatInstruction : Schema :=
  instructionObject [("repeat", ref "repeatOptions"), ("body", blockSchema)] ["repeat", "body"]

def ifInstruction : Schema :=
  instructionObject [("if", ref "expression"), ("then", blockSchema), ("else", blockSchema)]
    ["if", "then"]

/-- `session(\.[A-Za-z][A-Za-z0-9_]*)+` -/
def setKeyPattern : RegularExpression Char :=
  literal ['s', 'e', 's', 's', 'i', 'o', 'n'] *
    plus (literal ['.'] * namePattern)

def setInstruction : Schema :=
  instructionObject
    [("set", allOf [type .object, minProperties 1, propertyNames (pattern setKeyPattern),
      properties [] (ref "expression")])] ["set"]

def tryInstruction : Schema :=
  instructionObject [("try", blockSchema), ("catch", blockSchema), ("finally", blockSchema)]
    ["try"]

def failInstruction : Schema :=
  instructionObject [("fail", allOf (closedObject [("message", ref "expression")] ["message"]))]
    ["fail"]

def waitInstruction : Schema :=
  instructionObject [("wait", ref "waitOptions")] ["wait"]

def waitOptions : Schema :=
  allOf [type .object,
    properties [("duration", ref "humantime"), ("until_event", nonEmptyString),
      ("until", ref "expression"), ("timeout", ref "humantime"),
      ("poll_interval", ref "humantime")] (always false),
    oneOf [mode ["duration"] ["until_event", "until", "timeout", "poll_interval"],
      mode ["until_event", "timeout"] ["duration", "until", "poll_interval"],
      mode ["until", "timeout"] ["duration", "until_event"]]]

def logInstruction : Schema :=
  instructionObject
    [("log", allOf (closedObject
      [("level", enum [.string "debug", .string "info"]), ("message", nonEmptyString),
       ("values", allOf [type .object, properties [] (ref "expression")])] ["message"]))]
    ["log"]

def scriptInstructionReserved : Schema :=
  instructionObject [("script", always true)] ["script"]

def trigger : Schema :=
  allOf (closedObject
    [("id", ref "instructionId"),
     ("on", oneOf
       [allOf (closedObject [("event", nonEmptyString)] ["event"]),
        allOf (closedObject
          [("poll", allOf (closedObject
            [("tool", nonEmptyString), ("args", type .object), ("interval", ref "humantime")]
            ["tool", "interval"]))] ["poll"])]),
     ("when", ref "expression"), ("while", ref "expression"), ("cooldown", ref "humantime"),
     ("once", type .boolean), ("do", blockSchema)]
    ["id", "on", "do"])

/-- `$defs`. -/
def defs : List (String × Schema) :=
  [("identifier", identifier), ("expression", expression), ("exprWrapper", exprWrapper),
   ("countBound", countBound), ("positiveBound", positiveBound), ("humantime", humantime),
   ("instructionId", instructionId), ("onceKey", onceKey),
   ("parameterDeclaration", parameterDeclaration), ("instruction", instruction),
   ("toolInstruction", toolInstruction), ("sequenceInstruction", sequenceInstruction),
   ("repeatOptions", repeatOptions), ("repeatInstruction", repeatInstruction),
   ("ifInstruction", ifInstruction), ("setInstruction", setInstruction),
   ("tryInstruction", tryInstruction), ("failInstruction", failInstruction),
   ("waitInstruction", waitInstruction), ("waitOptions", waitOptions),
   ("logInstruction", logInstruction),
   ("scriptInstructionReserved", scriptInstructionReserved), ("trigger", trigger)]

/-- The schema of a document. -/
def document : Schema :=
  allOf (closedObject
    [("version", const (.nat 1)), ("name", nonEmptyString), ("description", type .string),
     ("parameters", allOf [type .object, propertyNames (ref "identifier"),
       properties [] (ref "parameterDeclaration")]),
     ("estimated_duration", ref "humantime"), ("max_duration", ref "humantime"),
     ("triggers", allOf [type .array, items (ref "trigger")]), ("root", ref "instruction")]
    ["version", "name", "root"])

end RustyPhoton.SessionRunner.WorkflowSchema
