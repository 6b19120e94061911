import Mathlib.Data.String.Basic
import RustyPhoton.FocusModel.Workflow
import RustyPhoton.Lib.Circle

/-!
# The predicted start

Where a sweep should begin: the most recent confirmed focus, moved by the filter offset and by the
temperature term. Temperatures and the coefficient are rational, rounded half away from zero.
-/

namespace RustyPhoton.FocusModel

open Lib

/-- The most recent confirmed focus on one filter. -/
structure LastGood where
  filter : Option String
  position : I32
  temperatureC : Option ℚ
  /-- RFC 3339, UTC. -/
  takenAt : String

/-- The record of a train, as far as a prediction reads it. -/
structure FocusRecord where
  temperatureCoefficient : Option ℚ
  offsets : List (String × I32)
  lastGood : List LastGood

/-! ## The record -/

/-- The later of two entries, the second one when they are as late. -/
def later (held entry : LastGood) : LastGood :=
  if entry.takenAt < held.takenAt then held else entry

namespace FocusRecord

/-- The most recent confirmed focus, whatever its filter. -/
def mostRecentLastGood (record : FocusRecord) : Option LastGood :=
  match record.lastGood with
  | [] => none
  | first :: rest => some (rest.foldl later first)

def lastGoodFor (record : FocusRecord) (filter : Option String) : Option LastGood :=
  record.lastGood.find? fun entry => entry.filter = filter

def offsetFor (record : FocusRecord) (filter : Option String) : Option I32 :=
  filter.bind fun name => record.offsets.lookup name

end FocusRecord

/-! ## The prediction -/

/-- A sum or a difference, unless it does not fit. -/
def checkedI32 (n : ℤ) : Option I32 :=
  if h : -2147483648 ≤ n ∧ n ≤ 2147483647 then some ⟨n, h.1, h.2⟩ else none

def checkedI64 (n : ℤ) : Option ℤ :=
  if -9223372036854775808 ≤ n ∧ n ≤ 9223372036854775807 then some n else none

def roundSteps (value : ℚ) : I32 := I32.clamp (Circle.roundAway value)

def Bounds.contains (bounds : Bounds) (position : I32) : Bool :=
  bounds.1.all (· ≤ position) && bounds.2.all (position ≤ ·)

def Bounds.describe (bounds : Bounds) : String :=
  let text (bound : Option I32) := (bound.map fun v => toString v.val).getD "-"
  "[" ++ text bounds.1 ++ ", " ++ text bounds.2 ++ "]"

/-- The net offset between the anchor's filter and the target one. -/
def filterTerm (record : FocusRecord) (anchor : LastGood) (filter : Option String) : Option I32 :=
  if anchor.filter = filter then some (I32.clamp 0)
  else do
    let target ← record.offsetFor filter
    let anchorOffset ← record.offsetFor anchor.filter
    checkedI32 (target.val - anchorOffset.val)

/-- The temperature term before rounding, and the term that is missing where there is none. -/
def temperatureTerm (record : FocusRecord) (anchor : LastGood) (now : Option ℚ) :
    Option ℚ × List String :=
  match record.temperatureCoefficient, now, anchor.temperatureC with
  | some coefficient, some now, some before => (some (coefficient * (now - before)), [])
  | none, _, _ => (none, ["temperature_coefficient"])
  | _, _, _ => (none, ["temperature"])

/-- The anchor and the net offset: the most recent focus if its filter reaches the target one, and the
target's own focus otherwise. -/
def anchorFor (record : FocusRecord) (filter : Option String) : Except String (LastGood × I32) :=
  match record.mostRecentLastGood with
  | none => .error "last_good"
  | some recent =>
    match filterTerm record recent filter, record.lastGoodFor filter with
    | some term, _ => .ok (recent, term)
    | none, some own => .ok (own, I32.clamp 0)
    | none, none => .error "offset"

/-- No record, no prediction: the sweep starts where the focuser is. -/
def Prediction.noneFrom (fromPosition : I32) (missing : List String) : Prediction ℚ :=
  ⟨fromPosition, none, ⟨none, none, none⟩, missing, false, none⟩

def satAbs (n : I32) : I32 := I32.clamp |n.val|

/-- Why the focuser is not moved to a start. -/
def skippedFor (fromPosition : I32) (bounds : Bounds) (minMove start : I32) : Option String :=
  if bounds.contains start = false then some ("outside the focuser's bounds " ++ bounds.describe)
  else if satAbs (start.satSub fromPosition) < max minMove (I32.clamp 1) then
    some s!"within {minMove.val} steps of the current position"
  else none

def predict (record : Option FocusRecord) (filter : Option String) (fromPosition : I32)
    (temperatureNow : Option ℚ) (bounds : Bounds) (minMove : I32) : Prediction ℚ :=
  match record with
  | none => .noneFrom fromPosition ["last_good"]
  | some record =>
    match anchorFor record filter with
    | .error missing => .noneFrom fromPosition [missing]
    | .ok (anchor, offset) =>
      let (temperature, missing) := temperatureTerm record anchor temperatureNow
      let terms := ⟨some anchor.position, some offset, temperature⟩
      -- a rounded term stops at the limits of 32 bits, and the sum is made in 64
      let sum := (checkedI64 (anchor.position.val + offset.val)).bind fun sum =>
        (checkedI64 (sum + (temperature.map roundSteps).elim 0 I32.val)).bind checkedI32
      match sum with
      | none =>
        ⟨fromPosition, none, terms, missing, false,
          some "the predicted start is outside the focuser's range"⟩
      | some start =>
        let skipped := skippedFor fromPosition bounds minMove start
        ⟨fromPosition, some start, terms, missing, skipped.isNone, skipped⟩

/-! ## The most recent focus -/

/-- An entry that none is later than, and the last of those. -/
def MostRecent (entries : List LastGood) (recent : LastGood) : Prop :=
  ∃ i, entries[i]? = some recent ∧ ∀ (j : ℕ) (entry : LastGood), entries[j]? = some entry →
    (j < i → entry.takenAt ≤ recent.takenAt) ∧ (i < j → entry.takenAt < recent.takenAt)

variable {entries : List LastGood} {recent other : LastGood}

theorem MostRecent.unique (h : MostRecent entries recent) (h' : MostRecent entries other) :
    recent = other := by
  obtain ⟨i, hi, hall⟩ := h
  obtain ⟨j, hj, hall'⟩ := h'
  rcases Nat.lt_trichotomy i j with hlt | rfl | hlt
  · exact absurd ((hall j other hj).2 hlt) (not_lt.mpr ((hall' i recent hi).1 hlt))
  · rw [hi] at hj
    exact Option.some.inj hj
  · exact absurd ((hall' i recent hi).2 hlt) (not_lt.mpr ((hall j other hj).1 hlt))

theorem MostRecent.snoc (h : MostRecent entries recent) (entry : LastGood) :
    MostRecent (entries ++ [entry]) (later recent entry) := by
  obtain ⟨i, hi, hall⟩ := h
  have hlength : i < entries.length := (List.getElem?_eq_some_iff.mp hi).1
  have hlast : ∀ j e, (entries ++ [entry])[j]? = some e →
      entries[j]? = some e ∧ j < entries.length ∨ j = entries.length ∧ e = entry := by
    intro j e he
    rcases Nat.lt_or_ge j entries.length with hj | hj
    · rw [List.getElem?_append_left hj] at he
      exact .inl ⟨he, hj⟩
    · rw [List.getElem?_append_right hj] at he
      obtain ⟨hzero, rfl⟩ := List.getElem?_eq_some_iff.mp he
      simp only [List.length_singleton] at hzero
      exact .inr ⟨by omega, List.getElem_singleton _⟩
  unfold later
  split
  · next hearlier =>
    refine ⟨i, by rw [List.getElem?_append_left hlength, hi], fun j e he => ?_⟩
    rcases hlast j e he with ⟨he, -⟩ | ⟨rfl, rfl⟩
    · exact hall j e he
    · exact ⟨fun hj => absurd hj (by omega), fun _ => hearlier⟩
  · next hlater =>
    refine ⟨entries.length, by simp, fun j e he => ?_⟩
    rcases hlast j e he with ⟨he, hj⟩ | ⟨rfl, rfl⟩
    · refine ⟨fun _ => ?_, fun hlt => absurd hlt (by omega)⟩
      have hle : e.takenAt ≤ recent.takenAt := by
        rcases Nat.lt_trichotomy j i with hlt | rfl | hlt
        · exact (hall j e he).1 hlt
        · rw [hi] at he
          rw [Option.some.inj he]
        · exact ((hall j e he).2 hlt).le
      exact hle.trans (not_lt.mp hlater)
    · exact ⟨fun hj => absurd hj (lt_irrefl _), fun hj => absurd hj (lt_irrefl _)⟩

theorem mostRecent_foldl (h : MostRecent entries recent) (rest : List LastGood) :
    MostRecent (entries ++ rest) (rest.foldl later recent) := by
  induction rest generalizing entries recent with
  | nil => simpa using h
  | cons entry rest ih =>
    have hsnoc := ih (h.snoc entry)
    rwa [List.append_assoc, List.singleton_append] at hsnoc

namespace FocusRecord

variable {record : FocusRecord} {filter : Option String}

/-- The entry that the scan keeps is the most recent one. -/
theorem mostRecentLastGood_iff : record.mostRecentLastGood = some recent ↔
    MostRecent record.lastGood recent := by
  unfold mostRecentLastGood
  cases hentries : record.lastGood with
  | nil => simp [MostRecent]
  | cons first rest =>
    have hfirst : MostRecent [first] first := by
      refine ⟨0, rfl, fun j e he => ⟨fun hj => absurd hj (by omega), fun hj => ?_⟩⟩
      rw [List.getElem?_eq_none (by rw [List.length_singleton]; omega)] at he
      cases he
    have hkept := mostRecent_foldl hfirst rest
    exact ⟨fun h => Option.some.inj h ▸ hkept, fun h => congrArg some (hkept.unique h)⟩

end FocusRecord

/-! ## The anchor -/

section

variable {record : FocusRecord} {anchor : LastGood} {filter : Option String} {net : I32}

/-- A position on the anchor's filter is taken to the target filter: by nothing on the filter itself,
and otherwise by the difference of the two offsets. -/
def Reaches (record : FocusRecord) (anchor : LastGood) (filter : Option String) (net : I32) : Prop :=
  anchor.filter = filter ∧ net.val = 0 ∨
    anchor.filter ≠ filter ∧ ∃ target own, record.offsetFor filter = some target ∧
      record.offsetFor anchor.filter = some own ∧ net.val = target.val - own.val

/-- The anchor of a prediction, and the net offset from it. -/
def Anchored (record : FocusRecord) (filter : Option String) (anchor : LastGood) (net : I32) : Prop :=
  ∃ recent, MostRecent record.lastGood recent ∧
    (Reaches record recent filter net ∧ anchor = recent ∨
      (∀ net, ¬ Reaches record recent filter net) ∧ record.lastGoodFor filter = some anchor ∧
        net.val = 0)

theorem checkedI32_iff {n : ℤ} {a : I32} : checkedI32 n = some a ↔ a.val = n := by
  unfold checkedI32
  split
  · next hfits => exact ⟨fun h => Option.some.inj h ▸ rfl, fun h => congrArg some (I32.ext h.symm)⟩
  · next hfits => exact iff_of_false (by simp) fun h => hfits ⟨h ▸ a.low, h ▸ a.high⟩

theorem val_eq_zero_iff : net.val = 0 ↔ I32.clamp 0 = net :=
  ⟨fun h => I32.ext h.symm, fun h => h ▸ rfl⟩

theorem filterTerm_iff : filterTerm record anchor filter = some net ↔
    Reaches record anchor filter net := by
  unfold filterTerm Reaches
  split
  · next hsame => simp [hsame, val_eq_zero_iff]
  · next hother =>
    simp only [Option.bind_eq_bind, Option.bind_eq_some_iff, checkedI32_iff, hother, false_and,
      false_or, not_false_eq_true, true_and, ne_eq]
    constructor
    · rintro ⟨target, htarget, own, hown, hnet⟩
      exact ⟨target, own, htarget, hown, hnet⟩
    · rintro ⟨target, own, htarget, hown, hnet⟩
      exact ⟨target, htarget, own, hown, hnet⟩

theorem anchorFor_iff : anchorFor record filter = .ok (anchor, net) ↔
    Anchored record filter anchor net := by
  unfold anchorFor Anchored
  cases hrecent : record.mostRecentLastGood with
  | none =>
    refine iff_of_false (by simp) fun ⟨recent, h, _⟩ => ?_
    rw [FocusRecord.mostRecentLastGood_iff.mpr h] at hrecent
    cases hrecent
  | some recent =>
    have hmost := FocusRecord.mostRecentLastGood_iff.mp hrecent
    have honly : ∀ P : LastGood → Prop, (∃ r, MostRecent record.lastGood r ∧ P r) ↔ P recent :=
      fun P => ⟨fun ⟨r, h, hP⟩ => h.unique hmost ▸ hP, fun h => ⟨recent, hmost, h⟩⟩
    rw [honly]
    cases hterm : filterTerm record recent filter with
    | some term =>
      have hreach : ∀ net, Reaches record recent filter net ↔ term = net := fun net => by
        rw [← filterTerm_iff, hterm, Option.some.injEq]
      simpa [hterm, hreach, eq_comm] using and_comm
    | none =>
      have hreach : ∀ net, ¬ Reaches record recent filter net := fun net h => by
        rw [← filterTerm_iff, hterm] at h
        cases h
      cases hown : record.lastGoodFor filter <;> simp [hterm, hreach, val_eq_zero_iff]

/-! ## The start -/

/-- The temperature term in whole steps, nothing where it is missing. -/
def roundedTerm (record : FocusRecord) (anchor : LastGood) (now : Option ℚ) : ℤ :=
  match record.temperatureCoefficient, now, anchor.temperatureC with
  | some coefficient, some now, some before => (roundSteps (coefficient * (now - before))).val
  | _, _, _ => 0

theorem roundedTerm_eq (now : Option ℚ) : roundedTerm record anchor now =
    ((temperatureTerm record anchor now).1.map roundSteps).elim 0 I32.val := by
  unfold roundedTerm temperatureTerm
  cases record.temperatureCoefficient <;> cases now <;> cases anchor.temperatureC <;> rfl

/-- A sum of three 32-bit terms fits 64 bits on its way. -/
theorem sum_eq (a b : I32) (term : Option I32) :
    ((checkedI64 (a.val + b.val)).bind fun sum =>
      (checkedI64 (sum + term.elim 0 I32.val)).bind checkedI32) =
    checkedI32 (a.val + b.val + term.elim 0 I32.val) := by
  have hlowA := a.low
  have hhighA := a.high
  have hlowB := b.low
  have hhighB := b.high
  have hterm : -2147483648 ≤ term.elim 0 I32.val ∧ term.elim 0 I32.val ≤ 2147483647 := by
    cases term with
    | none => decide
    | some t => exact ⟨t.low, t.high⟩
  have hfirst : checkedI64 (a.val + b.val) = some (a.val + b.val) := if_pos (by omega)
  rw [hfirst, Option.bind_some, checkedI64, if_pos (by omega), Option.bind_some]

/-- A distance that stops at the limit is short of a move as the true one is. -/
theorem satAbs_lt_iff (start fromPosition minMove : I32) :
    satAbs (start.satSub fromPosition) < max minMove (I32.clamp 1) ↔
      |start.val - fromPosition.val| < max minMove.val 1 := by
  have hone : (I32.clamp 1).val = 1 := rfl
  have hhigh := minMove.high
  rw [I32.lt_iff, I32.max_val, hone, satAbs, I32.clamp_val, I32.satSub_val, abs_eq_max_neg,
    abs_eq_max_neg]
  omega

theorem Bounds.contains_iff {bounds : Bounds} {start : I32} : bounds.contains start = true ↔
    (∀ lowest ∈ bounds.1, lowest ≤ start) ∧ ∀ highest ∈ bounds.2, start ≤ highest := by
  obtain ⟨lowest, highest⟩ := bounds
  cases lowest <;> cases highest <;> simp [Bounds.contains]

variable {fromPosition minMove : I32} {now : Option ℚ} {bounds : Bounds}

theorem skippedFor_isNone (start : I32) :
    (skippedFor fromPosition bounds minMove start).isNone = true ↔
      ((∀ lowest ∈ bounds.1, lowest ≤ start) ∧ ∀ highest ∈ bounds.2, start ≤ highest) ∧
        max minMove.val 1 ≤ |start.val - fromPosition.val| := by
  rw [← Bounds.contains_iff, ← not_lt, ← satAbs_lt_iff, skippedFor]
  split
  · next hout => simp [hout]
  · next hin =>
    rw [Bool.not_eq_false] at hin
    split <;> simp_all

/-- What is predicted from an anchor. -/
theorem predict_anchored (h : anchorFor record filter = .ok (anchor, net)) :
    let prediction := predict (some record) filter fromPosition now bounds minMove
    prediction.start =
      checkedI32 (anchor.position.val + net.val + roundedTerm record anchor now) ∧
    (prediction.moved = true ↔ ∃ start, prediction.start = some start ∧
      (skippedFor fromPosition bounds minMove start).isNone = true) := by
  simp only [predict, h, sum_eq]
  simp only [← roundedTerm_eq]
  cases checkedI32 (anchor.position.val + net.val + roundedTerm record anchor now) <;> simp

end

/-- The predicted start is exact or absent. It is the anchor's position with the net offset and the
rounded temperature term, there is none where the sum does not fit or there is no anchor, and the
focuser is moved to it if it lies in the bounds and far enough. -/
theorem prediction_exact (record : Option FocusRecord) (filter : Option String) (fromPosition : I32)
    (now : Option ℚ) (bounds : Bounds) (minMove : I32) :
    let prediction := predict record filter fromPosition now bounds minMove
    (∀ start, prediction.start = some start ↔ ∃ held anchor net, record = some held ∧
      Anchored held filter anchor net ∧
        start.val = anchor.position.val + net.val + roundedTerm held anchor now) ∧
    (prediction.start = none ↔ ∀ held anchor net, record = some held →
      Anchored held filter anchor net →
        ∀ start : I32, start.val ≠ anchor.position.val + net.val + roundedTerm held anchor now) ∧
    (prediction.moved = true ↔ ∃ start, prediction.start = some start ∧
      ((∀ lowest ∈ bounds.1, lowest ≤ start) ∧ ∀ highest ∈ bounds.2, start ≤ highest) ∧
        max minMove.val 1 ≤ |start.val - fromPosition.val|) := by
  intro prediction
  have hstart : ∀ start, prediction.start = some start ↔ ∃ held anchor net, record = some held ∧
      Anchored held filter anchor net ∧
        start.val = anchor.position.val + net.val + roundedTerm held anchor now := by
    intro start
    cases record with
    | none => simp [prediction, predict, Prediction.noneFrom]
    | some held =>
      cases hanchor : anchorFor held filter with
      | error missing =>
        refine iff_of_false (by simp [prediction, predict, hanchor, Prediction.noneFrom]) ?_
        rintro ⟨_, anchor, net, hheld, hanchored, -⟩
        cases hheld
        rw [anchorFor_iff.mpr hanchored] at hanchor
        cases hanchor
      | ok found =>
        obtain ⟨anchor, net⟩ := found
        rw [(predict_anchored hanchor).1, checkedI32_iff]
        refine ⟨fun h => ⟨held, anchor, net, rfl, anchorFor_iff.mp hanchor, h⟩, ?_⟩
        rintro ⟨_, anchor', net', hheld, hanchored, h⟩
        cases hheld
        rw [anchorFor_iff.mpr hanchored] at hanchor
        cases hanchor
        exact h
  refine ⟨hstart, ?_, ?_⟩
  · rw [Option.eq_none_iff_forall_ne_some]
    refine ⟨fun h held anchor net hheld hanchored start hsum => h start ?_, fun h start hsome => ?_⟩
    · exact (hstart start).mpr ⟨held, anchor, net, hheld, hanchored, hsum⟩
    · obtain ⟨held, anchor, net, hheld, hanchored, hsum⟩ := (hstart start).mp hsome
      exact h held anchor net hheld hanchored start hsum
  · simp only [← skippedFor_isNone]
    cases record with
    | none => simp [prediction, predict, Prediction.noneFrom]
    | some held =>
      cases hanchor : anchorFor held filter with
      | error missing => simp [prediction, predict, hanchor, Prediction.noneFrom]
      | ok found => exact (predict_anchored hanchor).2

end RustyPhoton.FocusModel
