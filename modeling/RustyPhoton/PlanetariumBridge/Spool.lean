import RustyPhoton.Lib.Lines

/-!
# The import spool

`Spool` of `spool.rs` and the file it is kept in. An operation is given as what it does to the
queue and the writes it makes, a byte at a time, so that a crash is a stop after any number of them;
a rename is one write. Reading and writing do not fail.
-/

namespace RustyPhoton.PlanetariumBridge

open Lib.Lines

/-- `char::is_whitespace`. -/
def isWhitespace (c : Char) : Bool :=
  let n := c.toNat
  (0x9 ≤ n && n ≤ 0xD) || n = 0x20 || n = 0x85 || n = 0xA0 || n = 0x1680 ||
    (0x2000 ≤ n && n ≤ 0x200A) || n = 0x2028 || n = 0x2029 || n = 0x202F || n = 0x205F || n = 0x3000

/-- Whether `trim` leaves nothing of a line. -/
def isBlank (line : List Char) : Bool := line.all isWhitespace

/-- What an import request is serialized to: one line that is not blank, with no control
character. -/
structure Line where
  text : List Char
  feed : '\n' ∉ text
  carriage : '\r' ∉ text
  blank : isBlank text = false
  deriving DecidableEq

structure SpoolEntry where
  line : List Char
  sourceLineNo : Option Nat
  deriving DecidableEq

/-- The durable queue, without its path. -/
structure Spool where
  entries : List SpoolEntry
  maxEntries : Nat
  deriving DecidableEq

/-- The spool file and the file it is rewritten through. -/
structure Disk where
  file : Option (List UInt8)
  tmp : Option (List UInt8)
  deriving DecidableEq

inductive DiskWrite where
  /-- Opening to append creates the file. -/
  | openAppend
  | append (byte : UInt8)
  | createTmp
  | writeTmp (byte : UInt8)
  | rename
  deriving DecidableEq

namespace Disk

def empty : Disk := ⟨none, none⟩

def write (disk : Disk) : DiskWrite → Disk
  | .openAppend => { disk with file := some (disk.file.getD []) }
  | .append byte => { disk with file := some (disk.file.getD [] ++ [byte]) }
  | .createTmp => { disk with tmp := some [] }
  | .writeTmp byte => { disk with tmp := some (disk.tmp.getD [] ++ [byte]) }
  | .rename =>
      match disk.tmp with
      | none => disk
      | some content => ⟨some content, none⟩

def writes (disk : Disk) (all : List DiskWrite) : Disk := all.foldl write disk

/-- `std::fs::read_to_string`, where a missing file reads as an empty one. -/
def text (disk : Disk) : Option (List Char) :=
  match disk.file with
  | none => some []
  | some content => decode content

end Disk

namespace Spool

/-- What the lines of a text become. -/
def read (content : List Char) : List SpoolEntry :=
  ((lines content).zipIdx 1).filterMap fun (line, number) =>
    if isBlank line then none else some ⟨line, some number⟩

/-- `append_to_file`. -/
def appendToFile (line : List Char) : List DiskWrite :=
  .openAppend :: (encode line ++ encode ['\n']).map .append

def rewrite (spool : Spool) : List DiskWrite :=
  .createTmp :: (encode (unlines (spool.entries.map (·.line)))).map .writeTmp ++ [.rename]

/-- The entries found in the file. One that cannot be read counts as empty. -/
def readFile (disk : Disk) : List SpoolEntry :=
  match disk.text with
  | some content => read content
  | none => []

/-- The oldest entries go until the bound holds. Returns how many went. -/
def load (disk : Disk) (maxEntries : Nat) : Spool × Nat × List DiskWrite :=
  let entries := readFile disk
  let dropped := entries.length - maxEntries
  let spool : Spool := ⟨entries.drop dropped, maxEntries⟩
  (spool, dropped, if 0 < dropped then spool.rewrite else [])

/-- Returns whether the bound forced a drop. -/
def append (spool : Spool) (line : List Char) : Spool × Bool × List DiskWrite :=
  if spool.maxEntries ≤ spool.entries.length then
    let spool := { spool with entries := spool.entries.tail ++ [⟨line, none⟩] }
    (spool, true, spool.rewrite)
  else
    ({ spool with entries := spool.entries ++ [⟨line, none⟩] }, false, appendToFile line)

def popHead (spool : Spool) : Spool × List DiskWrite :=
  match spool.entries with
  | [] => (spool, [])
  | _ :: rest =>
      let spool := { spool with entries := rest }
      (spool, spool.rewrite)

def texts (spool : Spool) : List (List Char) := spool.entries.map (·.line)

end Spool

/-! ## Runs with crashes -/

inductive SpoolOp where
  | load (maxEntries : Nat)
  | append (line : Line)
  | popHead

/-- An operation, and how many of its writes were made if the process died in it. -/
structure SpoolEvent where
  op : SpoolOp
  crash : Option Nat

/-- The disk with the queue of the process that runs, if one does. -/
structure Bridge where
  disk : Disk
  spool : Option Spool
  deriving DecidableEq

namespace Bridge

def start : Bridge := ⟨.empty, none⟩

/-- What an operation leaves in memory, and its writes. Without a process there is nothing to append
or to pop. -/
def perform (bridge : Bridge) : SpoolOp → Option Spool × List DiskWrite
  | .load maxEntries =>
      let (spool, _, all) := Spool.load bridge.disk maxEntries
      (some spool, all)
  | .append line =>
      match bridge.spool with
      | none => (none, [])
      | some spool =>
          let (spool, _, all) := spool.append line.text
          (some spool, all)
  | .popHead =>
      match bridge.spool with
      | none => (none, [])
      | some spool =>
          let (spool, all) := spool.popHead
          (some spool, all)

def step (bridge : Bridge) (event : SpoolEvent) : Bridge :=
  match event.crash with
  | none => ⟨bridge.disk.writes (bridge.perform event.op).2, (bridge.perform event.op).1⟩
  | some made => ⟨bridge.disk.writes ((bridge.perform event.op).2.take made), none⟩

end Bridge

end RustyPhoton.PlanetariumBridge
