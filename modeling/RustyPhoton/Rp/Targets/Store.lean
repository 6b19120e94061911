import RustyPhoton.Lib.Interaction
import RustyPhoton.Rp.Targets.Model

/-!
# The target store

After `redb_store.rs`: a table from slugs to rows, and the five operations, each one transaction.
Opening the database and its errors are left out: a read or a write that fails changes nothing.
-/

namespace RustyPhoton.Rp.Targets

open Lib

/-- The rows, in the order of their slugs. -/
structure Store where
  rows : List (String × Target)
  keyed : ∀ row ∈ rows, row.2.slug.text = row.1
  sorted : rows.Pairwise fun a b => a.1 < b.1

namespace Store

def empty : Store := ⟨[], by simp, by simp⟩

theorem ext {s t : Store} (h : s.rows = t.rows) : s = t := by
  cases s
  cases t
  cases h
  rfl

def getTarget (s : Store) (slug : TargetSlug) : Option Target := s.rows.lookup slug.text

def listTargets (s : Store) : List Target := s.rows.map Prod.snd

/-- `table.insert` under the row's slug. -/
def insert (s : Store) (target : Target) : Store where
  rows := Assoc.insertSorted target.slug.text target s.rows
  keyed row hrow := by
    rcases Assoc.mem_of_mem_insertSorted hrow with rfl | hrow
    · rfl
    · exact s.keyed row hrow
  sorted := Assoc.sorted_insertSorted _ _ s.sorted

/-- `table.remove`. -/
def remove (s : Store) (slug : TargetSlug) : Store where
  rows := Assoc.erase slug.text s.rows
  keyed row hrow := s.keyed row (List.mem_of_mem_filter hrow)
  sorted := s.sorted.filter _

/-- What a slug that is taken keeps from the row it names. -/
def keepCreation (existing : Option Target) (target : Target) : Target :=
  match existing with
  | none => target
  | some existing =>
      { target with createdAt := existing.createdAt, createdBy := existing.createdBy }

@[simp] theorem keepCreation_slug (existing : Option Target) (target : Target) :
    (keepCreation existing target).slug = target.slug := by
  cases existing <;> rfl

variable [Crates]

/-- `upsert_target`. -/
def upsertTarget (s : Store) (target : Target) : Except TargetStoreError Unit × Store :=
  match validateGoals target.goals with
  | .error e => (.error e, s)
  | .ok () => (.ok (), s.insert (keepCreation (s.getTarget target.slug) target))

/-- `delete_target`. -/
def deleteTarget (s : Store) (slug : TargetSlug) : Bool × Store :=
  ((s.getTarget slug).isSome, s.remove slug)

/-- `set_goals`. -/
def setGoals (s : Store) (slug : TargetSlug) (goals : List AcquisitionGoal) (stamp : WriteStamp) :
    Except TargetStoreError Unit × Store :=
  match validateGoals goals with
  | .error e => (.error e, s)
  | .ok () =>
      match s.getTarget slug with
      | none => (.error (.notFound slug.text), s)
      | some target =>
          (.ok (), s.insert { target with
            goals := goals, updatedAt := stamp.updatedAt, updatedBy := stamp.updatedBy })

end Store

/-! ## Reading back -/

namespace Store

variable {s : Store} {slug other : TargetSlug} {target : Target}

theorem text_inj : slug.text = other.text ↔ slug = other := by
  constructor
  · intro h
    cases slug
    cases other
    cases h
    rfl
  · exact congrArg TargetSlug.text

theorem getTarget_insert (s : Store) (target : Target) (slug : TargetSlug) :
    (s.insert target).getTarget slug = if slug = target.slug then some target else s.getTarget slug := by
  rw [getTarget, insert, Assoc.lookup_insertSorted]
  by_cases h : slug = target.slug
  · rw [if_pos h, if_pos (congrArg TargetSlug.text h)]
  · rw [if_neg h, if_neg fun ht => h (text_inj.mp ht)]
    rfl

theorem getTarget_remove (s : Store) (slug other : TargetSlug) :
    (s.remove slug).getTarget other = if other = slug then none else s.getTarget other := by
  rw [getTarget, remove]
  by_cases h : other = slug
  · rw [if_pos h, h, Assoc.lookup_erase_self]
  · rw [if_neg h, Assoc.lookup_erase_of_ne _ fun ht => h (text_inj.mp ht)]
    rfl

/-- A row is stored under its own slug. -/
theorem slug_of_getTarget (h : s.getTarget slug = some target) : target.slug = slug :=
  text_inj.mp (s.keyed _ (Assoc.mem_of_lookup h))

theorem keys_nodup (s : Store) : (Assoc.keys s.rows).Nodup :=
  List.pairwise_map.mpr (s.sorted.imp fun hlt heq => by
    rw [heq] at hlt
    exact String.lt_irrefl _ hlt)

/-- A listed row is what its slug reads. -/
theorem getTarget_of_mem (h : target ∈ s.listTargets) : s.getTarget target.slug = some target := by
  obtain ⟨row, hrow, rfl⟩ := List.mem_map.mp h
  rw [getTarget, s.keyed row hrow]
  exact Assoc.lookup_of_mem s.keys_nodup hrow

end Store

/-! ## The operations of the tools -/

inductive StoreOp where
  | get (slug : TargetSlug)
  | list
  | upsert (target : Target)
  | delete (slug : TargetSlug)
  | setGoals (slug : TargetSlug) (goals : List AcquisitionGoal) (stamp : WriteStamp)
  deriving DecidableEq

namespace StoreOp

abbrev Answer : StoreOp → Type
  | get _ => Option Target
  | list => List Target
  | upsert _ => Except TargetStoreError Unit
  | delete _ => Bool
  | setGoals _ _ _ => Except TargetStoreError Unit

def writes : StoreOp → Bool
  | get _ | list => false
  | upsert _ | delete _ | setGoals _ _ _ => true

/-- Whether a write was done: it answered `Ok`. A deletion that found nothing is done, too. -/
def took : (op : StoreOp) → Answer op → Bool
  | get _, _ | list, _ => false
  | delete _, _ => true
  | upsert _, .ok () => true
  | upsert _, .error _ => false
  | setGoals _ _ _, .ok () => true
  | setGoals _ _ _, .error _ => false

variable [Crates]

def perform : (op : StoreOp) → Store → Answer op × Store
  | get slug, s => (s.getTarget slug, s)
  | list, s => (s.listTargets, s)
  | upsert target, s => s.upsertTarget target
  | delete slug, s => s.deleteTarget slug
  | setGoals slug goals stamp, s => s.setGoals slug goals stamp

/-- A write that is refused changes nothing. -/
theorem kept (op : StoreOp) (s : Store) (h : took op (perform op s).1 = false) :
    (perform op s).2 = s := by
  cases op with
  | get slug => rfl
  | list => rfl
  | delete slug => cases h
  | upsert target =>
    cases hvalid : validateGoals target.goals with
    | error e => simp [perform, Store.upsertTarget, hvalid]
    | ok u => simp [perform, Store.upsertTarget, hvalid, took] at h
  | setGoals slug goals stamp =>
    cases hvalid : validateGoals goals with
    | error e => simp [perform, Store.setGoals, hvalid]
    | ok u =>
      cases hget : s.getTarget slug with
      | none => simp [perform, Store.setGoals, hvalid, hget]
      | some target => simp [perform, Store.setGoals, hvalid, hget, took] at h

end StoreOp

/-- The store as the tools see it. -/
@[reducible] def targetStore [Crates] : Interface Store where
  Op := StoreOp
  Answer := StoreOp.Answer
  perform := StoreOp.perform
  writes := StoreOp.writes
  took := StoreOp.took
  writes_of_took op _ h := by
    cases op with
    | get slug => cases h
    | list => cases h
    | upsert target => rfl
    | delete slug => rfl
    | setGoals slug goals stamp => rfl
  kept := StoreOp.kept

end RustyPhoton.Rp.Targets
