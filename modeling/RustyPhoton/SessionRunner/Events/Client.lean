import Mathlib.Data.List.DropRight
import RustyPhoton.Lib.Utf8
import RustyPhoton.SessionRunner.Engine.State

/-!
# The event-stream client

After `events.rs`: the tail of one connection. Each chunk of the response is decoded by itself and
appended to a text buffer, complete frames are taken off the buffer, and every frame moves the
replay cursor and is forwarded unless it is a control frame or malformed. Texts are lists of
characters. The JSON reader is a parameter. The intake stays open: a run that ends closes the
stream with it.
-/

namespace RustyPhoton.SessionRunner.Events

open Lib Engine

/-- One parsed frame. -/
structure SseFrame where
  id : Option Nat
  event : Option (List Char)
  data : List Char
  deriving DecidableEq

/-! ## Texts -/

/-- The lines of a text. The carriage return before a line feed goes with the trimming of the
line. -/
def lines : List Char → List (List Char)
  | [] => []
  | c :: cs =>
      if c = '\n' then [] :: lines cs
      else match lines cs with
        | [] => [[c]]
        | line :: rest => (c :: line) :: rest

/-- The text before and after the first occurrence of a character. -/
def splitOnce (c : Char) : List Char → Option (List Char × List Char)
  | [] => none
  | x :: xs => if x = c then some ([], xs) else (splitOnce c xs).map fun (a, b) => (x :: a, b)

/-- One leading blank taken off. -/
def stripBlank : List Char → List Char
  | ' ' :: rest => rest
  | text => text

def isWhitespace (c : Char) : Bool :=
  let n := c.toNat
  (0x9 ≤ n && n ≤ 0xD) || n = 0x20 || n = 0x85 || n = 0xA0 || n = 0x1680 ||
    (0x2000 ≤ n && n ≤ 0x200A) || n = 0x2028 || n = 0x2029 || n = 0x202F || n = 0x205F || n = 0x3000

def trim (text : List Char) : List Char :=
  (text.dropWhile isWhitespace).rdropWhile isWhitespace

/-- An unsigned 64-bit number in decimal digits, with an optional plus. -/
def parseU64 (text : List Char) : Option Nat :=
  let digits := match text with
    | '+' :: rest => rest
    | _ => text
  if digits ≠ [] ∧ digits.all Char.isDigit then
    let n := digits.foldl (fun n c => n * 10 + (c.toNat - '0'.toNat)) 0
    if n < 2 ^ 64 then some n else none
  else none

/-! ## Frames -/

/-- What the lines of a block have set so far. -/
structure Fields where
  id : Option Nat
  event : Option (List Char)
  dataLines : List (List Char)

def fieldOf (line : List Char) : List Char × List Char :=
  match splitOnce ':' line with
  | some (field, value) => (field, stripBlank value)
  | none => (line, [])

def parseLine (fields : Fields) (line : List Char) : Fields :=
  let line := line.rdropWhile (· = '\r')
  if line = [] ∨ line.head? = some ':' then fields
  else
    let (field, value) := fieldOf line
    if field = "id".toList then { fields with id := parseU64 (trim value) }
    else if field = "event".toList then { fields with event := some value }
    else if field = "data".toList then { fields with dataLines := fields.dataLines ++ [value] }
    else fields

/-- Parse one block; a block with no `event` and no `data` yields nothing. -/
def parseFrame (block : List Char) : Option SseFrame :=
  let fields := (lines block).foldl parseLine ⟨none, none, []⟩
  if fields.event = none ∧ fields.dataLines = [] then none
  else some ⟨fields.id, fields.event, ['\n'].intercalate fields.dataLines⟩

/-- The text up to and with the first empty line, and the rest. -/
def findBlock : List Char → Option (List Char × List Char)
  | '\n' :: '\n' :: rest => some (['\n', '\n'], rest)
  | c :: rest => (findBlock rest).map fun (block, rest) => (c :: block, rest)
  | [] => none

/-- Take the complete blocks off the front of the buffer; a block has at least two characters, so
this many rounds are enough. -/
def drainBlocks : Nat → List Char → List (List Char) × List Char
  | 0, buffer => ([], buffer)
  | rounds + 1, buffer =>
      match findBlock buffer with
      | none => ([], buffer)
      | some (block, rest) =>
          let (blocks, left) := drainBlocks rounds rest
          (block :: blocks, left)

/-- Extract every complete frame from the buffer, and leave a partial one for the next chunk. -/
def drainFrames (buffer : List Char) : List SseFrame × List Char :=
  let (blocks, left) := drainBlocks buffer.length buffer
  (blocks.filterMap parseFrame, left)

/-! ## Events -/

section

variable (fromStr : List Char → Option Value)

/-- An engine event from a frame, or nothing for control frames and anything malformed. -/
def engineEvent (frame : SseFrame) : Option EngineEvent :=
  match frame.event with
  | none => none
  | some event =>
      if event = "stream_gap".toList ∨ event = "stream_error".toList then none
      else (fromStr frame.data).map fun envelope =>
        ⟨String.ofList event, (envelope.get "payload").getD .null⟩

/-- The state of the loop over the chunks of one response. -/
structure Reader where
  buffer : List Char
  lastSeq : Option Nat
  forwarded : List EngineEvent

def Reader.frame (r : Reader) (frame : SseFrame) : Reader :=
  { r with
    lastSeq := frame.id.or r.lastSeq
    forwarded := r.forwarded ++ (engineEvent fromStr frame).toList }

def Reader.chunk (r : Reader) (chunk : List UInt8) : Reader :=
  let (frames, left) := drainFrames (r.buffer ++ Utf8.fromUtf8Lossy chunk)
  frames.foldl (Reader.frame fromStr) { r with buffer := left }

/-- Tail one connection to its end: the events forwarded and the replay cursor. -/
def readStream (lastSeq : Option Nat) (chunks : List (List UInt8)) :
    List EngineEvent × Option Nat :=
  let r := chunks.foldl (Reader.chunk fromStr) ⟨[], lastSeq, []⟩
  (r.forwarded, r.lastSeq)

end

example : drainFrames "id: 7\r\nevent: drift\ndata: [1,\ndata:2]\n\n: keep\n\nid:".toList =
    ([⟨some 7, some "drift".toList, "[1,\n2]".toList⟩], "id:".toList) := by decide +kernel

end RustyPhoton.SessionRunner.Events
