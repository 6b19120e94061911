import RustyPhoton.Lib.Json

/-!
# What the session runner takes from its third-party crates

The service parses and prints durations with `humantime`, timestamps with `chrono` and JSON text
with `serde_json`. Their sources are not part of the repository, so the model takes these
functions as the class `Crates` and says nothing about them; a result that relies on their
documented behaviour states it as a hypothesis.
-/

namespace RustyPhoton.SessionRunner

open Lib

/-- A `std::time::Duration`: a number of nanoseconds, at most `Duration.max`. -/
abbrev Duration := Nat

namespace Duration

/-- `Duration::MAX`. -/
def max : Duration := (2 ^ 64 - 1) * 10 ^ 9 + 999999999

def ofSecs (secs : Nat) : Duration := secs * 10 ^ 9

def checkedAdd (a b : Duration) : Option Duration :=
  if a + b ≤ max then some (a + b) else none

def saturatingAdd (a b : Duration) : Duration :=
  Nat.min (a + b) max

/-- `Duration::as_secs_f64`: the whole seconds and the nanoseconds are converted separately. -/
def asSecsF64 (d : Duration) : Binary64 :=
  Binary64.add (Binary64.ofInt (d / 10 ^ 9 : Nat))
    (Binary64.div (Binary64.ofInt (d % 10 ^ 9 : Nat)) (Binary64.ofInt (10 ^ 9)))

/-- `Duration::try_from_secs_f64`: rounded to the nearest nanosecond, refused when negative, not
finite or out of range. -/
def tryFromSecsF64 (x : Binary64) : Option Duration :=
  if !x.isFinite || Binary64.lt x (Binary64.ofInt 0) then none
  else
    let nanos := (Binary64.roundHalfEven (x.toRat * 10 ^ 9)).toNat
    if nanos ≤ max then some nanos else none

end Duration

/-- A `chrono::DateTime<Utc>`: nanoseconds since the epoch. -/
abbrev DateTime := Int

/-- The third-party functions the service calls. -/
class Crates where
  /-- `humantime::parse_duration`, with the error's text. -/
  parseDuration : String → Except String Duration
  /-- `humantime::format_duration`. -/
  formatDuration : Duration → String
  /-- `DateTime::to_rfc3339`. -/
  toRfc3339 : DateTime → String
  /-- `DateTime::parse_from_rfc3339`, with the error's text. -/
  parseRfc3339 : String → Except String DateTime
  /-- `TimeDelta::as_seconds_f64` of a span of nanoseconds. -/
  asSecondsF64 : Int → Binary64
  /-- The compact JSON text of a value. -/
  jsonText : Value → String

/-! ## Evaluation

The crates on a small part of their domain, enough to run the model: durations of whole seconds
below a minute, timestamps of whole seconds in the first minute of the epoch. -/

namespace Crates

/-- A number below a hundred as two digits. -/
def twoDigits (n : Nat) : String :=
  String.ofList [Nat.digitChar (n / 10 % 10), Nat.digitChar (n % 10)]

/-- The value of a string of digits. -/
def digitsValue (cs : List Char) : Nat :=
  cs.foldl (fun n c => n * 10 + (c.toNat - '0'.toNat)) 0

def parseSeconds (s : String) : Except String Duration :=
  match s.toList.reverse with
  | 's' :: digits =>
      if !digits.isEmpty && digits.all Char.isDigit then
        .ok (Duration.ofSecs (digitsValue digits.reverse))
      else .error "invalid character"
  | _ => .error "time unit needed, for example 1sec or 1ms"

def secondOfEpoch (t : DateTime) : String :=
  "1970-01-01T00:00:" ++ twoDigits (t / 10 ^ 9).toNat ++ "+00:00"

def parseSecondOfEpoch (s : String) : Except String DateTime :=
  if s.length = 25 then .ok (digitsValue ((s.toList.drop 17).take 2) * 10 ^ 9)
  else .error "input contains invalid characters"

/-- The crates on whole seconds. -/
@[reducible] def wholeSeconds : Crates where
  parseDuration := parseSeconds
  formatDuration d := toString (d / 10 ^ 9) ++ "s"
  toRfc3339 := secondOfEpoch
  parseRfc3339 := parseSecondOfEpoch
  asSecondsF64 t := Binary64.div (Binary64.ofInt t) (Binary64.ofInt (10 ^ 9))
  jsonText v :=
    match v with
    | .null => "null"
    | .bool b => toString b
    | .string s => "\"" ++ s ++ "\""
    | .number _ => "0"
    | .array _ => "[]"
    | .object _ => "\x7b\x7d"

end Crates

end RustyPhoton.SessionRunner
