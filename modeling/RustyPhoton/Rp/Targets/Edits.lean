import RustyPhoton.Rp.Targets.Protection
import RustyPhoton.Rp.Targets.Readd

/-!
# Edits that do not get lost

Every tool reads, decides and writes, and the store is atomic operation by operation only. When the
writes are up to date the calls leave the store they leave one after another.
-/

namespace RustyPhoton.Rp.Targets

open Lib
open Turns (turn UpToDate writers oneByOne)

variable [Crates] {handler : Handler}

/-! ## The shape of a call -/

theorem ToolCall.program_writesOnce (handler : Handler) (call : ToolCall) :
    (call.program handler).WritesOnce := by
  cases call with
  | addTarget params now => exact addTarget_writesOnce handler params now
  | updateTarget params now => exact updateTarget_writesOnce params now
  | deleteTarget slug => exact deleteTarget_writesOnce slug
  | setGoals params now => exact setGoals_writesOnce handler params now

/-- A call that wrote a row finds it when it reads it back. -/
def findsBack (wrote : Bool) : (op : StoreOp) → op.Answer → Prop
  | .get _, none => wrote = false
  | _, _ => True

/-- A call whose reply is right however it is answered says `Ok` exactly if its write took. -/
abbrev Honest (p : Program targetStore ToolReply) : Prop :=
  p.Reports ToolReply.isOk findsBack false

variable {target : Target} {reply : ToolReply}

theorem upsertAndReply_honest (h : reply.isOk = true) :
    Honest (upsertAndReply target reply) := by
  intro (answer : Except TargetStoreError Unit) _
  cases answer with
  | error e => rfl
  | ok u => exact h

theorem addResolved_honest (params : AddTargetParams) (now : String) (prepared : Prepared)
    (resolved : Except String (TargetSlug × Bool)) :
    Honest (addResolved handler params now prepared resolved) := by
  unfold addResolved
  split
  · rfl
  · split
    · rfl
    · split
      · rfl
      · exact upsertAndReply_honest rfl

theorem importListed_honest (params : AddTargetParams) (source : SourceWire) (now : String)
    (coord : IcrsCoord) (goals : List AcquisitionGoal) (all : List Target) :
    Honest (importListed handler params source now coord goals all) := by
  unfold importListed
  split
  · exact upsertAndReply_honest rfl
  · simp only [importBeside]
    split
    · rfl
    · refine (freeSlug_readsOnly _).reports_bind fun allocated => ?_
      cases allocated with
      | error e => rfl
      | ok slug => exact upsertAndReply_honest rfl

theorem addTarget_honest (params : AddTargetParams) (now : String) :
    Honest (addTarget handler params now) := by
  rw [addTarget]
  split
  · rw [addTargetImport]
    split
    · next hrefused => exact prepareImport_error hrefused
    · intro all _
      exact importListed_honest _ _ _ _ _ all
  · rw [addTargetOperator]
    split
    · next hrefused => exact prepare_error hrefused
    · exact (resolveSlug_readsOnly _ _).reports_bind fun resolved => addResolved_honest _ _ _ resolved

theorem updateTarget_honest (params : UpdateTargetParams) (now : String) :
    Honest (updateTarget params now) := by
  rw [updateTarget]
  split
  · rfl
  · intro (found : Option Target) _
    cases found with
    | none => rfl
    | some target =>
      dsimp only
      split
      · rfl
      · exact upsertAndReply_honest rfl

theorem setGoals_honest (params : SetGoalsParams) (now : String) :
    Honest (setGoals handler params now) := by
  rw [setGoals]
  split
  · rfl
  · split
    · rfl
    · intro (answer : Except TargetStoreError Unit) _
      cases answer with
      | error e => rfl
      | ok u =>
        intro (found : Option Target) hfinds
        cases found with
        | none => cases hfinds
        | some target => rfl

theorem ToolCall.program_honest (handler : Handler) (call : ToolCall) :
    Honest (call.program handler) := by
  cases call with
  | addTarget params now => exact addTarget_honest params now
  | updateTarget params now => exact updateTarget_honest params now
  | deleteTarget slug =>
    show Honest (Targets.deleteTarget slug)
    rw [Targets.deleteTarget]
    split
    · rfl
    · exact fun _ _ => rfl
  | setGoals params now => exact setGoals_honest params now

/-! ## What an answer tells of the row -/

variable {told : List ((op : StoreOp) × op.Answer)} {slug : TargetSlug} {created : Bool}
  {row : Target} {s : Store}

/-- What a tool that ends in a write says of its row comes after the write. -/
theorem added_of_upsertAndReply
    (h : Program.Trace (upsertAndReply target reply) told (.done (.added slug created row))) :
    told = [⟨.upsert target, .ok ()⟩] ∧ reply = .added slug created row := by
  rw [upsertAndReply] at h
  rcases h.cases_cons with ⟨_, hdone⟩ | ⟨op, next, answer, rest, hcall, rfl, hrest⟩
  · cases hdone
  · cases hcall
    cases answer with
    | error e => cases (Program.Trace.done_iff.mp hrest).2
    | ok u =>
      obtain ⟨rfl, hreply⟩ := Program.Trace.done_iff.mp hrest
      cases hreply
      exact ⟨rfl, rfl⟩

variable {params : AddTargetParams} {now : String} {prepared : Prepared}
  {resolved : Except String (TargetSlug × Bool)}

theorem added_of_addResolved
    (h : Program.Trace (addResolved handler params now prepared resolved) told
      (.done (.added slug created row))) : told = [⟨.upsert row, .ok ()⟩] ∧ row.slug = slug := by
  unfold addResolved at h
  split at h
  · cases (Program.Trace.done_iff.mp h).2
  · split at h
    · cases (Program.Trace.done_iff.mp h).2
    · split at h
      · cases (Program.Trace.done_iff.mp h).2
      · obtain ⟨htold, hreply⟩ := added_of_upsertAndReply h
        cases hreply
        exact ⟨htold, rfl⟩

variable {source : SourceWire} {coord : IcrsCoord} {goals : List AcquisitionGoal}
  {all : List Target}

theorem added_of_importListed
        (h : Program.Trace (importListed handler params source now coord goals all) told
      (.done (.added slug created row))) :
    ∃ rest, told = rest ++ [⟨.upsert row, .ok ()⟩] ∧ row.slug = slug := by
  unfold importListed at h
  split at h
  · obtain ⟨htold, hreply⟩ := added_of_upsertAndReply h
    cases hreply
    exact ⟨[], htold, rfl⟩
  · simp only [importBeside] at h
    split at h
    · cases (Program.Trace.done_iff.mp h).2
    · obtain ⟨first, second, allocated, rfl, _, hsecond⟩ := h.of_bind_done
      cases allocated with
      | error e => cases (Program.Trace.done_iff.mp hsecond).2
      | ok slug' =>
        obtain ⟨rfl, hreply⟩ := added_of_upsertAndReply hsecond
        cases hreply
        exact ⟨first, rfl, rfl⟩

variable {call : ToolCall}

/-- A call that says it added a row has just written it. -/
theorem ToolCall.added_of_trace
    (h : Program.Trace (call.program handler) told (.done (.added slug created row))) :
    ∃ rest, told = rest ++ [⟨.upsert row, .ok ()⟩] ∧ row.slug = slug := by
  cases call with
  | addTarget params now =>
    simp only [ToolCall.program, Targets.addTarget] at h
    split at h
    · rw [addTargetImport] at h
      split at h
      · next hrefused =>
          cases (Program.Trace.done_iff.mp h).2
          cases prepareImport_error hrefused
      · rcases h.cases_cons with ⟨_, hdone⟩ | ⟨op, next, all, rest, hcall, rfl, hrest⟩
        · cases hdone
        · cases hcall
          obtain ⟨before, rfl, hslug⟩ := added_of_importListed hrest
          exact ⟨⟨.list, all⟩ :: before, rfl, hslug⟩
    · rw [addTargetOperator] at h
      split at h
      · next hrefused =>
          cases (Program.Trace.done_iff.mp h).2
          cases prepare_error hrefused
      · obtain ⟨first, second, resolved, rfl, _, hsecond⟩ := h.of_bind_done
        obtain ⟨rfl, hslug⟩ := added_of_addResolved hsecond
        exact ⟨first, rfl, hslug⟩
  | updateTarget params now =>
    simp only [ToolCall.program, Targets.updateTarget] at h
    split at h
    · cases (Program.Trace.done_iff.mp h).2
    · rcases h.cases_cons with ⟨_, hdone⟩ | ⟨op, next, found, rest, hcall, rfl, hrest⟩
      · cases hdone
      · cases hcall
        cases found with
        | none => cases (Program.Trace.done_iff.mp hrest).2
        | some target =>
          simp only at hrest
          split at hrest
          · cases (Program.Trace.done_iff.mp hrest).2
          · cases (added_of_upsertAndReply hrest).2
  | deleteTarget slug' =>
    simp only [ToolCall.program, Targets.deleteTarget] at h
    split at h
    · cases (Program.Trace.done_iff.mp h).2
    · rcases h.cases_cons with ⟨_, hdone⟩ | ⟨op, next, deleted, rest, hcall, rfl, hrest⟩
      · cases hdone
      · cases hcall
        cases (Program.Trace.done_iff.mp hrest).2
  | setGoals params now =>
    simp only [ToolCall.program, Targets.setGoals] at h
    split at h
    · cases (Program.Trace.done_iff.mp h).2
    · split at h
      · cases (Program.Trace.done_iff.mp h).2
      · rcases h.cases_cons with ⟨_, hdone⟩ | ⟨op, next, answer, rest, hcall, rfl, hrest⟩
        · cases hdone
        · cases hcall
          cases answer with
          | error e => cases (Program.Trace.done_iff.mp hrest).2
          | ok u =>
            rcases hrest.cases_cons with ⟨_, hdone⟩ | ⟨op, next, found, rest', hcall, rfl, hread⟩
            · cases hdone
            · cases hcall
              cases found with
              | none => cases (Program.Trace.done_iff.mp hread).2
              | some target => cases (Program.Trace.done_iff.mp hread).2

/-! ## What a call decides on a store that stays -/

variable {base : TargetSlug}

theorem probeSuffix_free {n left : Nat}
    (h : ((probeSuffix base n left).alone s).1 = .ok slug) : s.getTarget slug = none := by
  induction left generalizing n with
  | zero => cases h
  | succ left ih =>
    rw [probeSuffix] at h
    split at h
    · cases h
    · next candidate _ =>
        cases hget : s.getTarget candidate with
        | none =>
          simp only [Program.alone_call, StoreOp.perform, hget, Program.alone_done] at h
          cases h
          exact hget
        | some target =>
          simp only [Program.alone_call, StoreOp.perform, hget] at h
          exact ih h

/-- A new slug is free. -/
theorem resolveSlug_free {name : Named}
    (h : ((resolveSlug name base).alone s).1 = .ok (slug, true)) : s.getTarget slug = none := by
  rw [resolveSlug] at h
  simp only [Program.alone_call, StoreOp.perform] at h
  cases hget : s.getTarget base with
  | none =>
    rw [hget] at h
    cases h
    exact hget
  | some existing =>
    simp only [hget] at h
    split at h
    · cases h
    · rw [Program.alone_bind] at h
      cases hallocated : ((allocateSuffix base).alone s).1 with
      | error e =>
        rw [hallocated] at h
        cases h
      | ok suffix =>
        rw [hallocated] at h
        cases h
        exact probeSuffix_free hallocated

theorem freeSlug_free (h : ((freeSlug base).alone s).1 = .ok slug) :
    s.getTarget slug = none := by
  rw [freeSlug] at h
  simp only [Program.alone_call, StoreOp.perform] at h
  cases hget : s.getTarget base with
  | none =>
    rw [hget] at h
    cases h
    exact hget
  | some existing =>
    rw [hget] at h
    exact probeSuffix_free h

variable {op : StoreOp} {next : op.Answer → Program targetStore ToolReply} {answer : op.Answer}

theorem upsertAndReply_settle (h : (upsertAndReply target reply).settle s = .call op next)
    (hnext : next answer = .done (.added slug created row)) : reply = .added slug created row := by
  rw [upsertAndReply, Program.settle_write rfl] at h
  cases h
  cases answer with
  | error e => cases hnext
  | ok u =>
    cases hnext
    rfl

theorem addResolved_settle
    (h : (addResolved handler params now prepared resolved).settle s = .call op next)
    (hnext : next answer = .done (.added slug created row)) : resolved = .ok (slug, created) := by
  unfold addResolved at h
  split at h
  · cases h
  · split at h
    · cases h
    · split at h
      · cases h
      · have hreply := upsertAndReply_settle h hnext
        cases hreply
        rfl

theorem importListed_settle
        (h : (importListed handler params source now coord goals all).settle s = .call op next)
    (hnext : next answer = .done (.added slug true row)) : s.getTarget slug = none := by
  unfold importListed at h
  split at h
  · cases upsertAndReply_settle h hnext
  · simp only [importBeside] at h
    split at h
    · cases h
    · next base _ =>
        rw [(freeSlug_readsOnly base).settle_bind] at h
        cases hallocated : ((freeSlug base).alone s).1 with
        | error e =>
          rw [hallocated] at h
          cases h
        | ok slug' =>
          rw [hallocated] at h
          have hreply := upsertAndReply_settle h hnext
          cases hreply
          exact freeSlug_free hallocated

/-- A call that would now say it created a row finds its slug free. -/
theorem ToolCall.free_of_settle (h : (call.program handler).settle s = .call op next)
    (hnext : next answer = .done (.added slug true row)) : s.getTarget slug = none := by
  cases call with
  | addTarget params now =>
    simp only [ToolCall.program, Targets.addTarget] at h
    split at h
    · rw [addTargetImport] at h
      split at h
      · cases h
      · rw [Program.settle_read rfl] at h
        exact importListed_settle h hnext
    · rw [addTargetOperator] at h
      split at h
      · cases h
      · rw [(resolveSlug_readsOnly _ _).settle_bind] at h
        exact resolveSlug_free (addResolved_settle h hnext)
  | updateTarget params now =>
    simp only [ToolCall.program, Targets.updateTarget] at h
    split at h
    · cases h
    · rw [Program.settle_read rfl] at h
      split at h
      · cases h
      · split at h
        · cases h
        · cases upsertAndReply_settle h hnext
  | deleteTarget slug' =>
    simp only [ToolCall.program, Targets.deleteTarget] at h
    split at h
    · cases h
    · rw [Program.settle_write rfl] at h
      cases h
      cases hnext
  | setGoals params now =>
    simp only [ToolCall.program, Targets.setGoals] at h
    split at h
    · cases h
    · split at h
      · cases h
      · rw [Program.settle_write rfl] at h
        cases h
        cases answer with
        | error e => cases hnext
        | ok u => cases hnext

/-- An edit keeps the slug and the goals of the row. -/
theorem edit_keeps {params : UpdateTargetParams} {edited : Target}
    (h : edit params now target = .ok edited) :
    edited.slug = target.slug ∧ edited.goals = target.goals := by
  simp only [edit, bind, Except.bind] at h
  split at h
  · cases h
  · split at h
    · cases h
    · split at h
      · cases h
      · split at h
        · cases h
        · cases h
          exact ⟨rfl, rfl⟩

/-- An update would now write the row that is there, with its goals. -/
theorem updateTarget_settle {params : UpdateTargetParams}
    (h : (updateTarget params now).settle s = .call op next) :
    ∃ target row, op = .upsert target ∧ s.getTarget target.slug = some row ∧
      target.goals = row.goals := by
  rw [updateTarget] at h
  split at h
  · cases h
  · next slug _ =>
      rw [Program.settle_read rfl] at h
      have hperform : (targetStore.perform (StoreOp.get slug) s).1 = s.getTarget slug := rfl
      rw [hperform] at h
      cases hget : s.getTarget slug with
      | none =>
        rw [hget] at h
        cases h
      | some row =>
        rw [hget] at h
        simp only at h
        split at h
        · cases h
        · next edited hedit =>
            rw [upsertAndReply, Program.settle_write rfl] at h
            cases h
            obtain ⟨hslug, hgoals⟩ := edit_keeps hedit
            refine ⟨edited, row, rfl, ?_, hgoals⟩
            rw [hslug, Store.slug_of_getTarget hget, hget]

/-! ## Interleaved calls -/

/-- A turn that loses nothing: a write is up to date, and a call that wrote a row and reads it back
finds it, so that it does not report a failure. -/
structure Orderly (handler : Handler) (calls : List ToolCall) (log : List (Event targetStore))
    (t : Turns targetStore ToolReply) (i : Nat) : Prop where
  upToDate : UpToDate (calls.map (ToolCall.program handler)) t i
  findsBack : ∀ slug next, t.calls[i]? = some (.call (.get slug) next) → i ∈ writers log →
    t.store.getTarget slug ≠ none

/-- Nothing is lost. Once all calls are done, those that report success, in some order, leave the
store they leave one after another; an update changes the goals of no row; and two calls create the
same slug only when it is deleted. -/
structure NothingLost (handler : Handler) (calls : List ToolCall) (store : Store)
    (log : List (Event targetStore)) (t : Turns targetStore ToolReply) : Prop where
  serial : (∀ i, i < calls.length → ∃ reply, t.calls[i]? = some (.done reply)) →
    ∃ order : List Nat, order.Nodup ∧
      (∀ i, i ∈ order ↔ ∃ reply, t.calls[i]? = some (.done reply) ∧ reply.isOk = true) ∧
      t.store = oneByOne (calls.map (ToolCall.program handler)) order store
  goals : ∀ i t' events params now, Orderly handler calls log t i → turn t i = some (t', events) →
    calls[i]? = some (.updateTarget params now) → ∀ slug row, t.store.getTarget slug = some row →
    ∃ row', t'.store.getTarget slug = some row' ∧ row'.goals = row.goals
  created : ∀ (i j : Nat) (slug : TargetSlug) (first second : Target), i ≠ j →
    t.calls[i]? = some (.done (.added slug true first)) →
    t.calls[j]? = some (.done (.added slug true second)) → ∃ e ∈ log, e.op = .delete slug

variable {calls : List ToolCall} {store : Store} {log events : List (Event targetStore)}
  {t t' : Turns targetStore ToolReply} {inputs : List Nat} {i : Nat}

theorem expects_of_orderly {next : op.Answer → Program targetStore ToolReply}
    (h : Orderly handler calls log t i) (hcall : t.calls[i]? = some (.call op next)) :
    findsBack (decide (i ∈ writers log)) op (StoreOp.perform op t.store).1 := by
  cases op with
  | get slug =>
    simp only [StoreOp.perform]
    cases hget : t.store.getTarget slug with
    | none =>
      refine decide_eq_false fun hwrote => ?_
      exact h.findsBack slug next hcall hwrote hget
    | some row => trivial
  | list => trivial
  | upsert target => trivial
  | delete slug => trivial
  | setGoals slug goals stamp => trivial

/-- The calls that wrote are an order of those that report success. -/
theorem serial_of_history
    (h : History turn (Orderly handler calls) (opened handler calls store) inputs log t)
    (hdone : ∀ i, i < calls.length → ∃ reply, t.calls[i]? = some (.done reply)) :
    ∃ order : List Nat, order.Nodup ∧
      (∀ i, i ∈ order ↔ ∃ reply, t.calls[i]? = some (.done reply) ∧ reply.isOk = true) ∧
      t.store = oneByOne (calls.map (ToolCall.program handler)) order store := by
  have honce : ∀ p ∈ calls.map (ToolCall.program handler), p.WritesOnce := by
    intro p hp
    obtain ⟨call, _, rfl⟩ := List.mem_map.mp hp
    exact call.program_writesOnce handler
  have hhonest : ∀ p ∈ calls.map (ToolCall.program handler), Honest p := by
    intro p hp
    obtain ⟨call, _, rfl⟩ := List.mem_map.mp hp
    exact call.program_honest handler
  have hreports : ∀ i reply, t.calls[i]? = some (.done reply) →
      reply.isOk = decide (i ∈ writers log) := by
    intro i reply hreply
    exact Turns.reports_of_history hhonest
      (fun _ horderly hcall => expects_of_orderly horderly hcall) h hreply
  refine ⟨writers log, Turns.nodup_writers honce h, fun i => ?_,
    Turns.store_eq_oneByOne honce (fun _ _ _ horderly => horderly.upToDate) h⟩
  constructor
  · intro hwrote
    obtain ⟨e, he, rfl⟩ := List.mem_map.mp hwrote
    have hlt := (Turns.callers_of_history h).2 e (List.mem_of_mem_filter he)
    rw [List.length_map] at hlt
    obtain ⟨reply, hreply⟩ := hdone e.caller hlt
    exact ⟨reply, hreply, by rw [hreports _ _ hreply]; exact decide_eq_true hwrote⟩
  · intro hok
    obtain ⟨reply, hreply, hok⟩ := hok
    rw [hreports i reply hreply] at hok
    exact of_decide_eq_true hok

theorem program_of_getElem? {p : Program targetStore ToolReply}
    (h : (calls.map (ToolCall.program handler))[i]? = some p) :
    ∃ call, calls[i]? = some call ∧ p = call.program handler := by
  rw [List.getElem?_map] at h
  obtain ⟨call, hcall, hp⟩ := Option.map_eq_some_iff.mp h
  exact ⟨call, hcall, hp.symm⟩

/-- An update that is up to date changes the goals of no row. -/
theorem goals_of_update {params : UpdateTargetParams}
    (h : History turn (Orderly handler calls) (opened handler calls store) inputs log t)
    (horderly : Orderly handler calls log t i) (taken : turn t i = some (t', events))
    (hcall : calls[i]? = some (.updateTarget params now)) (hrow : t.store.getTarget slug = some row) :
    ∃ row', t'.store.getTarget slug = some row' ∧ row'.goals = row.goals := by
  obtain ⟨op, next, hnext, hstore, _, _⟩ := Turns.turn_cases taken
  obtain ⟨p, hp, _⟩ := Turns.trace_of_history h hnext
  obtain ⟨call, hat, rfl⟩ := program_of_getElem? hp
  rw [hcall] at hat
  cases hat
  rw [hstore]
  cases hwrites : op.writes with
  | false =>
    rw [Program.perform_read hwrites]
    exact ⟨row, hrow, rfl⟩
  | true =>
    have hsettled := horderly.upToDate _ _ op hp hnext rfl hwrites
    obtain ⟨target, existing, rfl, hexisting, hgoals⟩ := updateTarget_settle hsettled
    simp only [StoreOp.perform, Store.upsertTarget]
    cases validateGoals target.goals with
    | error e => exact ⟨row, hrow, rfl⟩
    | ok u =>
      show ∃ row', (t.store.insert _).getTarget slug = some row' ∧ _
      rw [Store.getTarget_insert, Store.keepCreation_slug]
      by_cases hslug : slug = target.slug
      · rw [if_pos hslug]
        rw [hslug, hexisting] at hrow
        cases hrow
        refine ⟨_, rfl, ?_⟩
        rw [hexisting, ← hgoals]
        rfl
      · rw [if_neg hslug]
        exact ⟨row, hrow, rfl⟩

/-- Only a deletion of its slug takes a row away. -/
theorem getTarget_perform (op : StoreOp) (h : s.getTarget slug ≠ none) (hop : op ≠ .delete slug) :
    (StoreOp.perform op s).2.getTarget slug ≠ none := by
  have hinsert : ∀ target, (s.insert target).getTarget slug ≠ none := by
    intro target
    rw [Store.getTarget_insert]
    split
    · exact Option.some_ne_none _
    · exact h
  cases op with
  | get other => exact h
  | list => exact h
  | upsert target =>
    simp only [StoreOp.perform, Store.upsertTarget]
    split
    · exact h
    · exact hinsert _
  | delete other =>
    show (s.remove other).getTarget slug ≠ none
    rw [Store.getTarget_remove, if_neg fun heq => hop (by rw [heq])]
    exact h
  | setGoals other goals stamp =>
    simp only [StoreOp.perform, Store.setGoals]
    split
    · exact h
    · split
      · exact h
      · exact hinsert _

/-- What the calls that say they created a row have in common with the store. -/
structure Created (log : List (Event targetStore)) (t : Turns targetStore ToolReply) : Prop where
  stored : ∀ (i : Nat) (slug : TargetSlug) (row : Target),
    t.calls[i]? = some (.done (.added slug true row)) →
    (∃ e ∈ log, e.op = .delete slug) ∨ t.store.getTarget slug ≠ none
  distinct : ∀ (i j : Nat) (slug : TargetSlug) (first second : Target), i ≠ j →
    t.calls[i]? = some (.done (.added slug true first)) →
    t.calls[j]? = some (.done (.added slug true second)) → ∃ e ∈ log, e.op = .delete slug

theorem opened_not_added {row : Target}
    (h : (opened handler calls store).calls[i]? = some (.done (.added slug true row))) : False := by
  obtain ⟨call, _, hprogram⟩ := program_of_getElem? h
  have htrace : Program.Trace (call.program handler) [] (.done (.added slug true row)) := by
    rw [← hprogram]
    exact .nil _
  obtain ⟨rest, hrest, _⟩ := ToolCall.added_of_trace htrace
  simp at hrest

/-- A call that says it created a row by this turn wrote it, and found its slug free. -/
theorem created_by_turn {op : StoreOp} {next : op.Answer → Program targetStore ToolReply}
    (h : History turn (Orderly handler calls) (opened handler calls store) inputs log t)
    (horderly : Orderly handler calls log t i) (hcall : t.calls[i]? = some (.call op next))
    (hnext : next (StoreOp.perform op t.store).1 = .done (.added slug true row)) :
    t.store.getTarget slug = none ∧ (StoreOp.perform op t.store).2.getTarget slug ≠ none := by
  obtain ⟨p, hp, htrace⟩ := Turns.trace_of_history h hcall
  obtain ⟨call, _, rfl⟩ := program_of_getElem? hp
  have hdone := htrace.snoc (StoreOp.perform op t.store).1
  rw [hnext] at hdone
  obtain ⟨rest, hrest, hslug⟩ := ToolCall.added_of_trace hdone
  have hlast := (List.append_inj' hrest rfl).2
  have hop : op = .upsert row := congrArg Sigma.fst (List.cons.inj hlast).1
  subst hop
  have hanswer : (StoreOp.perform (.upsert row) t.store).1 = .ok () :=
    eq_of_heq (Sigma.mk.inj (List.cons.inj hlast).1).2
  have hsettled := horderly.upToDate _ _ _ hp hcall rfl rfl
  refine ⟨call.free_of_settle hsettled hnext, ?_⟩
  simp only [StoreOp.perform, Store.upsertTarget] at hanswer ⊢
  cases hvalid : validateGoals row.goals with
  | error e =>
    rw [hvalid] at hanswer
    cases hanswer
  | ok u =>
    show (t.store.insert _).getTarget slug ≠ none
    rw [Store.getTarget_insert, Store.keepCreation_slug, hslug, if_pos rfl]
    exact Option.some_ne_none _

theorem created_of_history
    (h : History turn (Orderly handler calls) (opened handler calls store) inputs log t) :
    Created log t := by
  induction h with
  | nil =>
    exact ⟨fun i slug row hi => (opened_not_added hi).elim,
      fun i j slug first second _ hi _ => (opened_not_added hi).elim⟩
  | @snoc _ log t k t' events hbefore horderly taken ih =>
    obtain ⟨op, next, hcall, hstore, hcalls, rfl⟩ := Turns.turn_cases taken
    constructor
    · intro i slug row hi
      rcases Turns.calls_turn hcall hcalls hi with ⟨rfl, hnext⟩ | ⟨_, hold⟩
      · right
        rw [hstore]
        exact (created_by_turn hbefore horderly hcall hnext.symm).2
      · rcases ih.stored i slug row hold with ⟨e, he, hdelete⟩ | hthere
        · exact .inl ⟨e, List.mem_append_left _ he, hdelete⟩
        · by_cases hop : op = .delete slug
          · exact .inl ⟨_, List.mem_append_right _ List.mem_cons_self, hop⟩
          · right
            rw [hstore]
            exact getTarget_perform op hthere hop
    · -- the call that has just created the row found no row of the other
      have hlate : ∀ (j : Nat) (slug : TargetSlug) (first second : Target), j ≠ k →
          t'.calls[k]? = some (.done (.added slug true first)) →
          t.calls[j]? = some (.done (.added slug true second)) →
          ∃ e ∈ log, e.op = .delete slug := by
        intro j slug first second _ hk hj
        rcases Turns.calls_turn hcall hcalls hk with ⟨_, hnext⟩ | ⟨hne, _⟩
        · rcases ih.stored j slug second hj with hdeleted | hthere
          · exact hdeleted
          · exact absurd (created_by_turn hbefore horderly hcall hnext.symm).1 hthere
        · exact absurd rfl hne
      intro i j slug first second hij hi hj
      have hdeleted : ∃ e ∈ log, e.op = .delete slug := by
        rcases Turns.calls_turn hcall hcalls hi with ⟨rfl, _⟩ | ⟨hik, hiold⟩
        · rcases Turns.calls_turn hcall hcalls hj with ⟨hji, _⟩ | ⟨hji, hjold⟩
          · exact absurd hji.symm hij
          · exact hlate j slug first second hji hi hjold
        · rcases Turns.calls_turn hcall hcalls hj with ⟨rfl, _⟩ | ⟨_, hjold⟩
          · exact hlate i slug second first hik hj hiold
          · exact ih.distinct i j slug first second hij hiold hjold
      obtain ⟨e, he, hdelete⟩ := hdeleted
      exact ⟨e, List.mem_append_left _ he, hdelete⟩

/-- A run whose turns are orderly loses nothing. -/
theorem nothing_lost (handler : Handler) (calls : List ToolCall) (store : Store)
    {inputs : List Nat} {log : List (Event targetStore)} {t : Turns targetStore ToolReply}
    (h : History turn (Orderly handler calls) (opened handler calls store) inputs log t) :
    NothingLost handler calls store log t where
  serial := serial_of_history h
  goals _ _ _ _ _ horderly taken hcall _ _ hrow := goals_of_update h horderly taken hcall hrow
  created := (created_of_history h).distinct

/-! ## Answers that still stand -/

/-- A read that would be answered as it was. -/
def stands (s : Store) : (op : StoreOp) × op.Answer → Bool
  | ⟨.get slug, found⟩ => s.getTarget slug = found
  | ⟨.list, all⟩ => s.listTargets = all
  | _ => false

/-- A write at a moment when all that the call was told still stands, and a row that is found when it
is read back. -/
def standing (log : List (Event targetStore)) (t : Turns targetStore ToolReply) (i : Nat) : Bool :=
  match t.calls[i]? with
  | some (.call (.get slug) _) => !(writers log).contains i || (t.store.getTarget slug).isSome
  | some (.call _ _) => (Turns.told log i).all (stands t.store)
  | _ => true

theorem read_of_stands {e : (op : StoreOp) × op.Answer} (h : stands s e = true) :
    e.1.writes = false ∧ (StoreOp.perform e.1 s).1 = e.2 := by
  obtain ⟨op, answer⟩ := e
  cases op with
  | get slug => exact ⟨rfl, of_decide_eq_true h⟩
  | list => exact ⟨rfl, of_decide_eq_true h⟩
  | upsert target => cases h
  | delete slug => cases h
  | setGoals slug goals stamp => cases h

/-- A run in which every call writes while what it was told still stands is orderly. -/
theorem orderly_of_standing
    (h : History turn (fun log t i => standing log t i = true) (opened handler calls store) inputs log
      t) :
    History turn (Orderly handler calls) (opened handler calls store) inputs log t := by
  induction h with
  | nil => exact .nil
  | @snoc _ log t i t' events hbefore hstanding taken ih =>
    refine ih.snoc ⟨?_, ?_⟩ taken
    · intro p q op hp hq hop hwrites
      obtain ⟨p', hp', htrace⟩ := Turns.trace_of_history hbefore hq
      have hsame : p' = p := Option.some.inj (hp'.symm.trans hp)
      subst hsame
      cases q with
      | done reply => cases hop
      | call op' next =>
        cases hop
        have htold : ∀ e ∈ Turns.told log i, stands t.store e = true := by
          simp only [standing, hq] at hstanding
          cases op with
          | get slug => cases hwrites
          | _ => exact List.all_eq_true.mp hstanding
        rw [htrace.settle_eq fun e he => read_of_stands (htold e he), Program.settle_write hwrites]
    · intro slug next hcall hwrote hget
      simp only [standing, hcall, hget] at hstanding
      simp [hwrote] at hstanding

end RustyPhoton.Rp.Targets

/-! ## Evaluation -/

namespace RustyPhoton.Rp.Targets.Evaluation

open Lib

/-- A rename of a target and new goals for it. -/
def renameAndGoals : List ToolCall :=
  [.updateTarget ⟨"veil-nebula", some "Veil", none, none, none, none, none, none, .keep, .keep⟩ "22:01",
    .setGoals ⟨"veil-nebula", [⟨"L", "1x1", "60s", 10⟩]⟩ "22:02"]

def goalCount (s : Store) : Option Nat := (s.getTarget veil).map fun row => row.goals.length

def successes (calls : List (Program (@targetStore Crates.plain) ToolReply)) : List Bool :=
  calls.map fun p => match p with
    | .done reply => reply.isOk
    | .call _ _ => false

/-- Turns of the two calls, by what they leave. -/
theorem reached (allowed : List (Event (@targetStore Crates.plain)) →
      Turns (@targetStore Crates.plain) ToolReply → Nat → Prop)
    [∀ log t i, Decidable (allowed log t i)] (inputs : List Nat) (goals : Nat)
    (h : (History.play (Turns.turn (I := @targetStore Crates.plain)) allowed []
      (@opened Crates.plain bareRig renameAndGoals framed) inputs).map (fun r =>
        (successes r.2.calls, goalCount r.2.store)) = some ([true, true], some goals)) :
    ∃ log t, History (Turns.turn (I := @targetStore Crates.plain)) allowed
        (@opened Crates.plain bareRig renameAndGoals framed) inputs log t ∧
      successes t.calls = [true, true] ∧ goalCount t.store = some goals := by
  obtain ⟨r, hplay, heq⟩ := Option.map_eq_some_iff.mp h
  obtain ⟨hsuccesses, hgoals⟩ := Prod.mk.inj heq
  exact ⟨r.1, r.2, .of_play hplay, hsuccesses, hgoals⟩

theorem success_iff {calls : List (Program (@targetStore Crates.plain) ToolReply)}
    (h : successes calls = [true, true]) (i : Nat) :
    (∃ reply, calls[i]? = some (.done reply) ∧ reply.isOk = true) ↔ i = 0 ∨ i = 1 := by
  have hat : (successes calls)[i]? = [true, true][i]? := by rw [h]
  rw [successes, List.getElem?_map] at hat
  constructor
  · intro hok
    obtain ⟨reply, hreply, hok⟩ := hok
    rw [hreply, Option.map_some] at hat
    obtain ⟨hlt, _⟩ := List.getElem?_eq_some_iff.mp hat.symm
    have hlength : [true, true].length = 2 := rfl
    omega
  · intro hi
    have htrue : [true, true][i]? = some true := by rcases hi with rfl | rfl <;> rfl
    rw [htrue] at hat
    obtain ⟨p, hp, hok⟩ := Option.map_eq_some_iff.mp hat
    cases p with
    | done reply => exact ⟨reply, hp, hok⟩
    | call op next => cases hok

theorem in_turn_nothing_lost : ∃ log t,
    History (Turns.turn (I := @targetStore Crates.plain))
      (fun log t i => @standing Crates.plain log t i = true)
      (@opened Crates.plain bareRig renameAndGoals framed) [0, 0, 1, 1] log t ∧
    goalCount t.store = some 1 ∧
    @NothingLost Crates.plain bareRig renameAndGoals framed log t := by
  obtain ⟨log, t, hrun, _, hgoals⟩ :=
    reached (fun log t i => @standing Crates.plain log t i = true) [0, 0, 1, 1] 1 (by decide +kernel)
  exact ⟨log, t, hrun, hgoals, @nothing_lost Crates.plain bareRig renameAndGoals framed _ _ _
    (@orderly_of_standing Crates.plain bareRig renameAndGoals framed _ _ _ hrun)⟩

/-- The rename reads the row, the goals are set and read back, and the rename writes its row: both calls
succeed, and neither order of them leaves the row without goals. -/
theorem rename_undoes_goals : ∃ log t,
    History (Turns.turn (I := @targetStore Crates.plain)) (fun _ _ _ => True)
      (@opened Crates.plain bareRig renameAndGoals framed) [0, 1, 1, 0] log t ∧
    ¬ @NothingLost Crates.plain bareRig renameAndGoals framed log t := by
  obtain ⟨log, t, hrun, hsuccesses, hgoals⟩ :=
    reached (fun _ _ _ => True) [0, 1, 1, 0] 0 (by decide +kernel)
  refine ⟨log, t, hrun, fun hlost => ?_⟩
  have hdone : ∀ i, i < renameAndGoals.length → ∃ reply, t.calls[i]? = some (.done reply) := by
    intro i hi
    have hlength : renameAndGoals.length = 2 := rfl
    obtain ⟨reply, hreply, _⟩ := (success_iff hsuccesses i).mpr (by omega)
    exact ⟨reply, hreply⟩
  obtain ⟨order, hnodup, hmem, hstore⟩ := @NothingLost.serial Crates.plain _ _ _ _ _ hlost hdone
  have hperm : order.Perm [0, 1] := by
    refine (List.perm_ext_iff_of_nodup hnodup (by decide)).mpr fun i => ?_
    rw [hmem i, success_iff hsuccesses]
    simp
  have hboth : order ∈ [[0, 1], [1, 0]] := by
    obtain ⟨a, b, rfl⟩ := List.length_eq_two.mp hperm.length_eq
    have ha : a = 0 ∨ a = 1 := by simpa using hperm.subset (List.mem_cons_self (a := a))
    have hb : b = 0 ∨ b = 1 := by simpa using hperm.subset (List.mem_cons_of_mem a List.mem_cons_self)
    have hne : a ≠ b := by simpa using hnodup
    rcases ha with rfl | rfl <;> rcases hb with rfl | rfl <;> simp_all
  have hleft : ∀ order ∈ [[0, 1], [1, 0]],
      goalCount (Turns.oneByOne (I := @targetStore Crates.plain)
        (renameAndGoals.map (@ToolCall.program Crates.plain bareRig)) order framed) = some 1 := by
    decide +kernel
  rw [hstore, hleft order hboth] at hgoals
  cases hgoals

end RustyPhoton.Rp.Targets.Evaluation
