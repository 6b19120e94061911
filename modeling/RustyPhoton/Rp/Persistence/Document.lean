import Mathlib.Data.String.Basic
import RustyPhoton.Lib.Json

/-!
# Exposure documents on disk

After `document.rs`, `fits.rs` and the lookup helpers of `cache.rs`: a document's record lives in a
sidecar beside its FITS file, and a lookup finds the pair by the file name's suffix and confirms both
files. A disk says what a read gives; the bytes of the files are left to their readers.
-/

namespace RustyPhoton.Rp.Persistence

open Lib

/-- A captured exposure. The fields that no lookup and no section update reads are one value. -/
structure ExposureDocument where
  id : String
  maxAdu : Option Nat
  sections : List (String × Value)
  rest : Value
  deriving DecidableEq

/-- Bytes an allocation may take. -/
def isizeMax : Nat := 2 ^ 63 - 1

abbrev Uuid := BitVec 128

/-- What the third-party crates decide: which texts are a UUID, and the length of a document's JSON. -/
class Crates where
  parseUuid : String → Option Uuid
  jsonLen : ExposureDocument → Nat
  jsonLen_le : ∀ document, jsonLen document ≤ isizeMax

/-- A path, by its components. -/
abbrev Path := List String

/-- `strip_suffix`. -/
def stripSuffix (s suffix : String) : Option (List Char) := List.dropSuffix? s.toList suffix.toList

def hexDigit (value position : Nat) : Char := Nat.digitChar (value / 16 ^ position % 16)

/-- A document's UUID-8: its UUID's `time_low` field as eight lowercase hex digits. -/
def uuid8Of (document : Uuid) : String :=
  String.ofList ((List.range 8).reverse.map (hexDigit (document.toNat / 2 ^ 96)))

/-- A `.fits` name whose stem is the UUID-8, or ends in a separator and the UUID-8. -/
def frameNameCarriesUuid8 (fileName uuid8 : String) : Bool :=
  match stripSuffix fileName ".fits" with
  | none => false
  | some stem =>
      stem == uuid8.toList ||
        match List.dropSuffix? stem uuid8.toList with
        | some base => base.getLast? == some '_'
        | none => false

/-- The sidecar beside a FITS file: the extension `fits` replaced; any other path has none. -/
def sidecarPathFor (fitsPath : Path) : Option Path :=
  match fitsPath.getLast?.bind fun name => stripSuffix name ".fits" with
  | none | some [] => none
  | some stem => some (fitsPath.dropLast ++ [String.ofList (stem ++ ".json".toList)])

structure DirEntry where
  name : String
  isDir : Bool

/-- The pixels of a primary HDU, row by row: an allocation of 32-bit integers. -/
structure FitsPixels where
  pixels : List Int
  width : Nat
  height : Nat
  fits : pixels.length * 4 ≤ isizeMax

/-- What reads of a disk give. `realPath` follows the links; a read that fails has its error. -/
structure Disk where
  realPath : Path → Path
  fileExists : Path → Bool
  readDir : Path → Except String (List DirEntry)
  readFitsDocId : Path → Except String (Option String)
  readFitsPixels : Path → Except String FitsPixels
  sidecars : Path → Except String ExposureDocument

/-- `read_sidecar_sync`. -/
def Disk.readSidecar (disk : Disk) (path : Path) : Except String ExposureDocument :=
  disk.sidecars (disk.realPath path)

variable (disk : Disk)

/-- The matching files of one directory, and the directories to descend into. -/
def scanDir (current : Path) (uuid8 : String) (descend : Bool) : List Path × List Path :=
  match disk.readDir current with
  | .error _ => ([], [])
  | .ok entries =>
      ((entries.filter fun e => frameNameCarriesUuid8 e.name uuid8).map fun e => current ++ [e.name],
        (entries.filter fun e => !frameNameCarriesUuid8 e.name uuid8 && descend && e.isDir).map
          fun e => current ++ [e.name])

/-- The walk, level by level, `levels` of them below the frontier. -/
def walk (uuid8 : String) : Nat → List Path → List Path
  | 0, frontier => frontier.flatMap fun current => (scanDir disk current uuid8 false).1
  | levels + 1, frontier =>
      (frontier.flatMap fun current => (scanDir disk current uuid8 true).1) ++
        walk uuid8 levels (frontier.flatMap fun current => (scanDir disk current uuid8 true).2)

/-- `find_candidates_by_suffix`: only a UUID names a document. -/
def findCandidatesBySuffix [Crates] (dir : Path) (depth : Nat) (fullUuid : String) : List Path :=
  match Crates.parseUuid fullUuid with
  | none => []
  | some document => (walk disk (uuid8Of document) depth [dir]).mergeSort (· ≤ ·)

/-- Both files name the same document, and the wanted one when one is wanted. -/
def confirmPair (fitsPath : Path) (wanted : Option String) : Option ExposureDocument :=
  match sidecarPathFor fitsPath with
  | none => none
  | some sidecarPath =>
      match disk.readFitsDocId fitsPath with
      | .error _ | .ok none => none
      | .ok (some docId) =>
          if wanted.any (· ≠ docId) then none
          else
            match disk.readSidecar sidecarPath with
            | .error _ => none
            | .ok document => if document.id ≠ docId then none else some document

/-- `same_file`: the same path, or paths that lead to the same file. -/
def Disk.sameFile (a b : Path) : Bool :=
  a == b || disk.fileExists a && disk.fileExists b && disk.realPath a == disk.realPath b

/-! ## What a lookup finds -/

variable {disk} {uuid8 : String}

/-- A confirmed pair holds the document that was asked for, and its sidecar is that record. -/
theorem confirmPair_eq_some {fitsPath : Path} {wanted : String} {document : ExposureDocument} :
    confirmPair disk fitsPath (some wanted) = some document ↔
      ∃ sidecarPath, sidecarPathFor fitsPath = some sidecarPath ∧
        disk.readFitsDocId fitsPath = .ok (some wanted) ∧
        disk.readSidecar sidecarPath = .ok document ∧ document.id = wanted := by
  rw [confirmPair]
  cases sidecarPathFor fitsPath with
  | none => simp
  | some sidecarPath =>
    cases disk.readFitsDocId fitsPath with
    | error _ => simp
    | ok docId =>
      cases docId with
      | none => simp
      | some docId =>
        by_cases hwanted : wanted = docId
        · subst hwanted
          cases hread : disk.readSidecar sidecarPath with
          | error _ => simp [hread]
          | ok found =>
            by_cases hid : found.id = wanted
            · simp only [hread, hid]
              grind
            · simp only [hread, hid]
              grind
        · simp [hwanted, Ne.symm hwanted]

end RustyPhoton.Rp.Persistence
