import RustyPhoton.SessionRunner.Document.Model

/-!
# The blackboard

After `blackboard.rs`: the `session.*` object of a workflow session and the engine's bookkeeping
under its reserved keys. The functions here are the in-memory reads and writes; the engine
persists the whole object after each of them.

A failing `set_path` has not created anything: an intermediate that is created is empty, and below
it the walk cannot meet a value that is not an object.
-/

namespace RustyPhoton.SessionRunner

open Lib

/-- Root key of the completed `once` markers. -/
def onceKey : String := "_once"

/-- Root key of the trigger bookkeeping. -/
def triggersKey : String := "_triggers"

/-- A new session. -/
def emptySession : Value := .object []

/-- `Blackboard::load` of the file's content; a missing file is an empty session. -/
def loadSession (file : Option Value) : Value :=
  file.getD emptySession

inductive SetPathError where
  | reserved (key : String)
  | notAnObject (key ancestor : String)
  | emptyPath
  deriving DecidableEq

def SetPathError.toText : SetPathError → String
  | reserved key =>
      "`" ++ key ++ "` writes reserved engine state — `session._*` keys " ++
        "(`session._once`, `session._triggers`) cannot be set by a document"
  | notAnObject key ancestor => "cannot set `" ++ key ++ "`: `" ++ ancestor ++ "` is not an object"
  | emptyPath => "cannot set the `session` root itself"

/-- The members a write descends into: those of an object, none for `null`. -/
def membersFor (current : Value) : Option (List (String × Value)) :=
  match current with
  | .null => some []
  | .object members => some members
  | _ => none

/-- The walk of a write below `current`; `walked` names the ancestor for the error. -/
def setIn (key : String) (value : Value) : List String → String → Value →
    Except SetPathError Value
  | [], _, _ => .error .emptyPath
  | [last], walked, current =>
      match membersFor current with
      | some members => .ok (.object (Assoc.insert last value members))
      | none => .error (.notAnObject key walked)
  | seg :: rest, walked, current =>
      match membersFor current with
      | some members =>
          match setIn key value rest (walked ++ "." ++ seg)
              ((members.lookup seg).getD (.object [])) with
          | .ok inner => .ok (.object (Assoc.insert seg inner members))
          | .error e => .error e
      | none => .error (.notAnObject key walked)

/-- `Blackboard::set_path`. -/
def setPath (segments : List String) (value : Value) (session : Value) :
    Except SetPathError Value :=
  if segments.head?.any fun seg => seg.toList.head? = some '_' then
    .error (.reserved (documentKey segments))
  else setIn (documentKey segments) value segments "session" session

/-- Writes in order, up to the first that fails: the session left and the failure. -/
def writeAll : List (List String × Value) → Value → Value × Option SetPathError
  | [], session => (session, none)
  | (path, value) :: rest, session =>
      match setPath path value session with
      | .ok session => writeAll rest session
      | .error e => (session, some e)

/-- `Blackboard::once_done`. -/
def onceDone (session : Value) (key : String) : Bool :=
  (((session.get onceKey).bind fun m => m.get key).bind Value.asBool).getD false

/-- The members of a bookkeeping value; a corrupt one is replaced. -/
def healed (entry : Option Value) : List (String × Value) :=
  (entry.bind Value.asObject).getD []

/-- Rewrite the bookkeeping object under a root key. -/
def updateRoot (root : String) (f : List (String × Value) → List (String × Value))
    (session : Value) : Value :=
  match session with
  | .object members =>
      .object (Assoc.insert root (.object (f (healed (members.lookup root)))) members)
  | other => other

/-- The in-memory part of `Blackboard::mark_once`. -/
def markOnce (key : String) (session : Value) : Value :=
  updateRoot onceKey (Assoc.insert key (.bool true)) session

def triggerEntry (session : Value) (id : String) : Option Value :=
  (session.get triggersKey).bind fun m => m.get id

/-- `Blackboard::trigger_fired_once`. -/
def triggerFiredOnce (session : Value) (id : String) : Bool :=
  (((triggerEntry session id).bind fun t => t.get "fired_once").bind Value.asBool).getD false

/-- `Blackboard::trigger_last_fired`: an unreadable time counts as none. -/
def triggerLastFired [Crates] (session : Value) (id : String) : Option DateTime :=
  ((triggerEntry session id).bind fun t => t.get "last_fired").bind fun v =>
    v.asStr.bind fun text => (Crates.parseRfc3339 text).toOption

/-- The bookkeeping of a completed firing. -/
def firedEntry [Crates] (at_ : DateTime) (once : Bool) (entry : List (String × Value)) :
    List (String × Value) :=
  let dated := Assoc.insert "last_fired" (.string (Crates.toRfc3339 at_)) entry
  if once then Assoc.insert "fired_once" (.bool true) dated else dated

/-- The in-memory part of `Blackboard::mark_trigger_fired`. -/
def markTriggerFired [Crates] (id : String) (at_ : DateTime) (once : Bool) (session : Value) :
    Value :=
  updateRoot triggersKey (fun byId =>
    Assoc.insert id (.object (firedEntry at_ once (healed (byId.lookup id)))) byId) session

/-! ## What a write leaves alone -/

/-- A session is an object. -/
def IsSession (session : Value) : Prop := ∃ members, session = .object members

variable {key head : String} {rest : List String} {session session' : Value}

theorem setIn_root {value : Value}
    {walked : String} (h : setIn key value (head :: rest) walked session = .ok session') :
    ∃ members inner, membersFor session = some members ∧
      session' = .object (Assoc.insert head inner members) := by
  cases rest with
  | nil =>
    cases hm : membersFor session with
    | none => simp [setIn, hm] at h
    | some members =>
      refine ⟨members, value, rfl, ?_⟩
      simpa [setIn, hm, eq_comm] using h
  | cons seg rest =>
    cases hm : membersFor session with
    | none => simp [setIn, hm] at h
    | some members =>
      simp only [setIn, hm] at h
      split at h
      · next inner _ =>
          refine ⟨members, inner, rfl, ?_⟩
          simpa [eq_comm] using h
      · cases h

variable {root : String}

/-- A `set` write keeps every other root key of a session. -/
theorem get_setPath {value : Value} (hsession : IsSession session) (hne : root ≠ head)
    (h : setPath (head :: rest) value session = .ok session') :
    IsSession session' ∧ session'.get root = session.get root := by
  obtain ⟨members, rfl⟩ := hsession
  unfold setPath at h
  split at h
  · cases h
  · obtain ⟨found, inner, hmembers, rfl⟩ := setIn_root h
    obtain rfl : members = found := by simpa [membersFor] using hmembers
    exact ⟨⟨_, rfl⟩, Assoc.lookup_insert_of_ne _ _ hne⟩

/-- The writes of a `set` keep the engine's root keys, also where one of them fails. -/
theorem get_writeAll (hroot : root.toList.head? = some '_')
    (writes : List (List String × Value)) (hsession : IsSession session) :
    IsSession (writeAll writes session).1 ∧
      (writeAll writes session).1.get root = session.get root := by
  induction writes generalizing session with
  | nil => exact ⟨hsession, rfl⟩
  | cons write rest ih =>
    obtain ⟨path, value⟩ := write
    unfold writeAll
    split
    · next session' h =>
        cases path with
        | nil => simp [setPath, setIn] at h
        | cons head tail =>
          -- a reserved root is refused, so the head of a path that was written is another key
          have hne : root ≠ head := by
            rintro rfl
            simp [setPath, hroot] at h
          obtain ⟨hkept, hget⟩ := get_setPath hsession hne h
          obtain ⟨hkept', hget'⟩ := ih hkept
          exact ⟨hkept', hget'.trans hget⟩
    · exact ⟨hsession, rfl⟩

variable {f : List (String × Value) → List (String × Value)}

theorem updateRoot_isSession (h : IsSession session) : IsSession (updateRoot root f session) := by
  obtain ⟨members, rfl⟩ := h
  exact ⟨_, rfl⟩

theorem get_updateRoot_self (h : IsSession session) :
    (updateRoot root f session).get root = some (.object (f (healed (session.get root)))) := by
  obtain ⟨members, rfl⟩ := h
  exact Assoc.lookup_insert_self _ _ _

theorem get_updateRoot_of_ne {other : String} (hne : other ≠ root) :
    (updateRoot root f session).get other = session.get other := by
  cases session with
  | object members => exact Assoc.lookup_insert_of_ne _ _ hne
  | _ => rfl

theorem lookup_healed (entry : Option Value) (key : String) :
    (healed entry).lookup key = entry.bind fun m => m.get key := by
  cases entry with
  | none => rfl
  | some v => cases v <;> rfl

/-- A recorded marker is read back, and the other markers stay. -/
theorem onceDone_markOnce (h : IsSession session) (key other : String) :
    onceDone (markOnce key session) other = (decide (other = key) || onceDone session other) := by
  rw [onceDone, markOnce, get_updateRoot_self h]
  by_cases hk : other = key
  · subst hk
    simp [Value.asBool]
  · simp only [Option.bind_some, Value.get_object, Assoc.lookup_insert_of_ne _ _ hk, hk,
      decide_false, Bool.false_or, lookup_healed, onceDone]

/-- Markers depend on the marker object only. -/
theorem onceDone_congr (h : session'.get onceKey = session.get onceKey)
    (key : String) : onceDone session' key = onceDone session key := by
  rw [onceDone, onceDone, h]

theorem triggerEntry_congr (h : session'.get triggersKey = session.get triggersKey) (id : String) :
    triggerEntry session' id = triggerEntry session id := by
  rw [triggerEntry, triggerEntry, h]

variable {id : String} {at_ : DateTime} {once : Bool}

theorem onceDone_markTriggerFired [Crates]
    (key : String) :
    onceDone (markTriggerFired id at_ once session) key = onceDone session key :=
  onceDone_congr (get_updateRoot_of_ne (by decide)) key

theorem triggerEntry_markOnce (id : String) :
    triggerEntry (markOnce key session) id = triggerEntry session id :=
  triggerEntry_congr (get_updateRoot_of_ne (by decide)) id

/-- The bookkeeping of another trigger stays. -/
theorem triggerEntry_markTriggerFired_of_ne [Crates] {other : String}
    (h : IsSession session) (hne : other ≠ id) :
    triggerEntry (markTriggerFired id at_ once session) other = triggerEntry session other := by
  rw [triggerEntry, markTriggerFired, get_updateRoot_self h]
  rw [Option.bind_some, Value.get_object, Assoc.lookup_insert_of_ne _ _ hne, lookup_healed,
    triggerEntry]

theorem triggerEntry_markTriggerFired_self [Crates]
    (h : IsSession session) :
    ∃ entry, triggerEntry (markTriggerFired id at_ once session) id =
      some (.object (firedEntry at_ once entry)) := by
  refine ⟨healed ((healed (session.get triggersKey)).lookup id), ?_⟩
  rw [triggerEntry, markTriggerFired, get_updateRoot_self h, Option.bind_some, Value.get_object,
    Assoc.lookup_insert_self]

end RustyPhoton.SessionRunner
