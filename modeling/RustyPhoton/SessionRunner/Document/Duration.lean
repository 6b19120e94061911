import RustyPhoton.SessionRunner.Document.Model

/-!
# Duration strings and parameter types

After `document/duration.rs` and `type_check` of `document/params.rs`. A document duration must
parse with `humantime`, have the published surface form and not exceed a day.
-/

namespace RustyPhoton.SessionRunner

open Lib

variable [Crates]

/-- `MAX_DOCUMENT_DURATION`: a day. -/
def maxDocumentDuration : Duration := Duration.ofSecs (24 * 60 * 60)

/-- The units of the surface form; the scan takes the first that matches. -/
def units : List (List Char) :=
  [['n', 's'], ['u', 's'], ['µ', 's'], ['m', 's'], ['s'], ['m'], ['h'], ['d'], ['w'], ['y']]

/-- The characters with the Unicode `White_Space` property. -/
def whiteSpace : List Char :=
  ['\t', '\n', '\x0b', '\x0c', '\r', ' ', '\u0085', '\u00a0', '\u1680', '\u2000', '\u2001',
   '\u2002', '\u2003', '\u2004', '\u2005', '\u2006', '\u2007', '\u2008', '\u2009', '\u200a',
   '\u2028', '\u2029', '\u202f', '\u205f', '\u3000']

def isWhiteSpace (c : Char) : Bool := whiteSpace.contains c

def stripUnit (rest : List Char) : Option (List Char) :=
  units.findSome? fun u => u.isPrefixOf? rest

/-- The optional `.<digits>` of a component. -/
def fraction : List Char → Option (List Char)
  | '.' :: afterDot =>
      if (afterDot.dropWhile Char.isDigit).length = afterDot.length then none
      else some (afterDot.dropWhile Char.isDigit)
  | rest => some rest

/-- One `<digits>[.<digits>]<unit>` component and the white space after it. -/
def component (rest : List Char) : Option (List Char) :=
  let afterDigits := rest.dropWhile Char.isDigit
  if afterDigits.length = rest.length then none
  else do
    let afterNumber ← fraction afterDigits
    let afterUnit ← stripUnit afterNumber
    pure (afterUnit.dropWhile isWhiteSpace)

/-- The scan over the components of a nonempty string. A component consumes a digit, so the
characters left bound the rounds. -/
def components : Nat → List Char → Bool
  | _, [] => true
  | 0, _ :: _ => false
  | fuel + 1, c :: rest =>
      match component (c :: rest) with
      | some after => components fuel after
      | none => false

/-- Whether a string has the published surface form: one or more components. -/
def surfaceOk (s : String) : Bool :=
  s.toList ≠ [] && components s.toList.length s.toList

/-- Parse a document duration; the error is the message. -/
def parseDuration (s : String) : Except String Duration :=
  match Crates.parseDuration s with
  | .error e => .error ("`" ++ s ++ "` is not a valid duration: " ++ e)
  | .ok parsed =>
      if !surfaceOk s then
        .error ("`" ++ s ++ "` is not in the document duration format — write durations with " ++
          "the units ns/us/µs/ms/s/m/h/d/w/y and no space before the unit " ++
          "(e.g. \"90m\", \"1h30m\")")
      else if maxDocumentDuration < parsed then
        .error ("`" ++ s ++ "` exceeds the maximum document duration of 24h — a session " ++
          "is a single night")
      else .ok parsed

/-- An accepted duration has the surface form. -/
theorem surfaceOk_of_parseDuration {s : String} {d : Duration} (h : parseDuration s = .ok d) :
    surfaceOk s = true := by
  unfold parseDuration at h
  cases hp : Crates.parseDuration s with
  | error e => simp [hp] at h
  | ok parsed =>
    cases hs : surfaceOk s with
    | true => rfl
    | false => simp [hp, hs] at h

def ParameterType.matches_ (ty : ParameterType) (v : Value) : Bool :=
  match ty, v with
  | .string, .string _ => true
  | .integer, .number n => n.isI64 || n.isU64
  | .number, .number _ => true
  | .boolean, .bool _ => true
  | .array, .array _ => true
  | _, _ => false

/-- Whether a value inhabits a declared parameter type; the error is a message fragment. -/
def typeCheck (ty : ParameterType) (v : Value) : Except String Unit :=
  match ty, v with
  | .duration, .string s => (parseDuration s).map fun _ => ()
  | ty, v =>
      if ty.matches_ v then .ok ()
      else
        let article := if ty = .integer || ty = .array then "an" else "a"
        .error ("expected " ++ article ++ " `" ++ ty.name ++ "` value")

end RustyPhoton.SessionRunner
