import RustyPhoton.Rp.Targets.Allocation

/-!
# What an import leaves alone

An import decides from a listing and writes a whole row. The rule of `rp-targets.md` is that it never
writes over a row that is active or that somebody else wrote last. It holds of a write whose row
nobody took over since the import last looked.
-/

namespace RustyPhoton.Rp.Targets

open Lib Program
open Turns (turn told since)

/-! ## Rows that are guarded -/

/-- A row an import leaves alone: active, or last written by another. -/
def guarded (kind : String) (row : Target) : Bool := row.active || row.updatedBy != kind

/-- The writer an import claims. -/
def ToolCall.importer : ToolCall → Option String
  | .addTarget params _ => params.source.map SourceWire.kind
  | _ => none

theorem importer_eq {call : ToolCall} {kind : String} (h : call.importer = some kind) :
    ∃ params now source, call = .addTarget params now ∧ params.source = some source ∧
      source.kind = kind := by
  cases call with
  | addTarget params now =>
    obtain ⟨source, hsource, hkind⟩ := Option.map_eq_some_iff.mp h
    exact ⟨params, now, source, rfl, hsource, hkind⟩
  | _ => cases h

variable [Crates]

/-- Whether an operation leaves the row under a slug to the imports of a writer. -/
def leavesOpen (kind : String) (slug : TargetSlug) (free : Bool) : Event targetStore → Bool
  | ⟨_, .upsert target, .ok ()⟩ => if target.slug = slug then !guarded kind target else free
  | ⟨_, .delete other, _⟩ => if other = slug then true else free
  | ⟨_, .setGoals other _ stamp, .ok ()⟩ =>
      if other = slug then free && stamp.updatedBy == kind else free
  | _ => free

/-- Whether a series of operations leaves the row to the imports of a writer, where it was theirs. -/
def staysOpen (kind : String) (slug : TargetSlug) (events : List (Event targetStore)) : Bool :=
  events.foldl (leavesOpen kind slug) true

/-- The row under a slug, if there is one, is not guarded. -/
def OpenRow (s : Store) (kind : String) (slug : TargetSlug) : Prop :=
  ∀ row, s.getTarget slug = some row → guarded kind row = false

variable {s : Store} {kind : String} {slug : TargetSlug}

theorem guarded_keepCreation (existing : Option Target) (target : Target) :
    guarded kind (Store.keepCreation existing target) = guarded kind target := by
  cases existing <;> rfl

variable {i : Nat} {op : StoreOp}

/-- What one operation makes of an open row. -/
theorem openRow_perform {free : Bool} (h : free = true → OpenRow s kind slug)
    (hleaves : leavesOpen kind slug free ⟨i, op, (StoreOp.perform op s).1⟩ = true) :
    OpenRow (StoreOp.perform op s).2 kind slug := by
  cases op with
  | get other => exact h hleaves
  | list => exact h hleaves
  | upsert target =>
    simp only [StoreOp.perform, Store.upsertTarget] at hleaves ⊢
    cases hvalid : validateGoals target.goals with
    | error e =>
      rw [hvalid] at hleaves
      exact h hleaves
    | ok u =>
      rw [hvalid] at hleaves
      simp only [leavesOpen] at hleaves
      intro row hrow
      rw [Store.getTarget_insert, Store.keepCreation_slug] at hrow
      by_cases hslug : target.slug = slug
      · rw [if_pos hslug, Bool.not_eq_true'] at hleaves
        rw [if_pos hslug.symm] at hrow
        cases hrow
        rwa [guarded_keepCreation]
      · rw [if_neg hslug] at hleaves
        rw [if_neg (Ne.symm hslug)] at hrow
        exact h hleaves row hrow
  | delete other =>
    simp only [StoreOp.perform, Store.deleteTarget, leavesOpen] at hleaves ⊢
    intro row hrow
    rw [Store.getTarget_remove] at hrow
    by_cases hslug : other = slug
    · rw [if_pos hslug.symm] at hrow
      cases hrow
    · rw [if_neg hslug] at hleaves
      rw [if_neg (Ne.symm hslug)] at hrow
      exact h hleaves row hrow
  | setGoals other goals stamp =>
    simp only [StoreOp.perform, Store.setGoals] at hleaves ⊢
    cases hvalid : validateGoals goals with
    | error e =>
      rw [hvalid] at hleaves
      exact h hleaves
    | ok u =>
      cases hget : s.getTarget other with
      | none =>
        rw [hvalid, hget] at hleaves
        exact h hleaves
      | some target =>
        rw [hvalid, hget] at hleaves
        simp only [leavesOpen] at hleaves
        intro row hrow
        have hother : target.slug = other := Store.slug_of_getTarget hget
        simp only [Store.getTarget_insert, hother] at hrow
        by_cases hslug : other = slug
        · rw [if_pos hslug, Bool.and_eq_true] at hleaves
          rw [if_pos hslug.symm] at hrow
          cases hrow
          -- the goals change and the writer, which is the importer here; the row stays paused
          have hopen := h hleaves.1 target (by rw [← hslug]; exact hget)
          rw [guarded, Bool.or_eq_false_iff] at hopen ⊢
          exact ⟨hopen.1, by simpa using hleaves.2⟩
        · rw [if_neg hslug] at hleaves
          rw [if_neg (Ne.symm hslug)] at hrow
          exact h hleaves row hrow

/-! ## What an import has seen -/

/-- An answer that shows a row open: it is listed so, or its slug is free. -/
def Sighted (kind : String) (slug : TargetSlug) : (op : StoreOp) × op.Answer → Prop
  | ⟨.list, all⟩ => ∃ existing ∈ all, existing.slug = slug ∧ guarded kind existing = false
  | ⟨.get other, found⟩ => other = slug ∧ found = none
  | _ => False

theorem openRow_of_sighted (h : Sighted kind slug ⟨op, (StoreOp.perform op s).1⟩) :
    OpenRow (StoreOp.perform op s).2 kind slug := by
  cases op with
  | list =>
    obtain ⟨existing, hmem, hslug, hopen⟩ := h
    intro row hrow
    have hget := Store.getTarget_of_mem hmem
    rw [hslug] at hget
    have hrow' : s.getTarget slug = some row := hrow
    rw [hget] at hrow'
    cases hrow'
    exact hopen
  | get other =>
    obtain ⟨rfl, hnone⟩ := h
    intro row hrow
    have hrow' : s.getTarget other = some row := hrow
    have hnone' : s.getTarget other = none := hnone
    rw [hnone'] at hrow'
    cases hrow'
  | upsert target => exact h.elim
  | delete other => exact h.elim
  | setGoals other goals stamp => exact h.elim

/-- A row a call has seen open is open as long as the operations of the others leave it so. -/
theorem openRow_of_history {programs : List (Program targetStore ToolReply)} {store : Store}
    {allowed : List (Event targetStore) → Turns targetStore ToolReply → Nat → Prop}
    {inputs : List Nat} {log : List (Event targetStore)} {t : Turns targetStore ToolReply}
    (h : History turn allowed ⟨store, programs⟩ inputs log t)
    {rest : List ((op : StoreOp) × op.Answer)} {last : (op : StoreOp) × op.Answer}
    (hlast : told log i = rest ++ [last]) (hsighted : Sighted kind slug last)
    (hopen : staysOpen kind slug (since log i) = true) : OpenRow t.store kind slug := by
  induction h generalizing rest with
  | nil => exact absurd hlast (by simp [told])
  | @snoc _ log t j t' events hbefore ok taken ih =>
    obtain ⟨op, next, hcall, hstore, _, rfl⟩ := Turns.turn_cases taken
    rw [hstore]
    by_cases hji : j = i
    · subst hji
      rw [Turns.told_append_self] at hlast
      have heq := (List.append_inj' hlast rfl).2
      cases heq
      exact openRow_of_sighted hsighted
    · rw [Turns.told_append_other log hji] at hlast
      rw [Turns.since_append_other log hji, staysOpen, List.foldl_append] at hopen
      exact openRow_perform (fun hbefore => ih hlast hbefore) hopen

/-! ## What an import writes -/

theorem foldl_least_mem (best : Target × Binary64) (rest : List (Target × Binary64)) :
    rest.foldl (fun best next => if totalKey next.2 < totalKey best.2 then next else best) best ∈
      best :: rest := by
  induction rest generalizing best with
  | nil => exact List.mem_singleton_self best
  | cons next rest ih =>
    rw [List.foldl_cons]
    by_cases hless : totalKey next.2 < totalKey best.2
    · rw [if_pos hless]
      exact List.mem_cons_of_mem best (ih next)
    · rw [if_neg hless]
      rcases List.mem_cons.mp (ih best) with hbest | hrest
      · rw [hbest]
        exact List.mem_cons_self
      · exact List.mem_cons_of_mem best (List.mem_cons_of_mem next hrest)

variable {target : Target}

theorem leastBy_mem {entries : List (Target × Binary64)}
    (h : leastBy entries = some target) : ∃ distance, (target, distance) ∈ entries := by
  cases entries with
  | nil => cases h
  | cons first rest =>
    cases h
    exact ⟨_, foldl_least_mem first rest⟩

variable {all : List Target}

theorem neighbor_mem {config : ImportConfig} {raHours decDegrees : Binary64}
    (h : neighbor config raHours decDegrees all = some target) : target ∈ all := by
  obtain ⟨distance, hmem⟩ := leastBy_mem h
  obtain ⟨row, hrow, heq⟩ := List.mem_map.mp (List.mem_of_mem_filter hmem)
  cases heq
  exact hrow

theorem trace_upsertAndReply {reply : ToolReply} {told : List ((op : StoreOp) × op.Answer)}
    {next : op.Answer → Program targetStore ToolReply}
    (h : Trace (upsertAndReply target reply) told (.call op next)) :
    told = [] ∧ op = .upsert target := by
  rw [upsertAndReply] at h
  rcases h.cases_cons with ⟨hnil, hcall⟩ | ⟨op', next', answer, rest, hcall, _, hrest⟩
  · cases hcall
    exact ⟨hnil, rfl⟩
  · cases hcall
    cases answer with
    | error e => cases (Trace.done_iff.mp hrest).2
    | ok u => cases (Trace.done_iff.mp hrest).2

variable {told : List ((op : StoreOp) × op.Answer)}

/-- The slug that `allocate_suffix` returns is the one it last found free. -/
theorem trace_probeSuffix {base slug : TargetSlug} {n left : Nat}
    (h : Trace (probeSuffix base n left) told (.done (.ok slug))) :
    ∃ rest, told = rest ++ [⟨.get slug, none⟩] := by
  induction left generalizing n told with
  | zero => cases (Trace.done_iff.mp h).2
  | succ left ih =>
    rw [probeSuffix] at h
    split at h
    · cases (Trace.done_iff.mp h).2
    · next candidate _ =>
        rcases h.cases_cons with ⟨_, hdone⟩ | ⟨op, next, found, rest, hcall, htold, hrest⟩
        · cases hdone
        · cases hcall
          cases found with
          | none =>
            obtain ⟨rfl, hdone⟩ := Trace.done_iff.mp hrest
            cases hdone
            exact ⟨[], htold⟩
          | some row =>
            obtain ⟨before, rfl⟩ := ih hrest
            exact ⟨⟨.get candidate, some row⟩ :: before, htold⟩

theorem trace_freeSlug {base slug : TargetSlug}
    (h : Trace (freeSlug base) told (.done (.ok slug))) :
    ∃ rest, told = rest ++ [⟨.get slug, none⟩] := by
  rw [freeSlug] at h
  rcases h.cases_cons with ⟨_, hdone⟩ | ⟨op, next, found, rest, hcall, htold, hrest⟩
  · cases hdone
  · cases hcall
    cases found with
    | none =>
      obtain ⟨rfl, hdone⟩ := Trace.done_iff.mp hrest
      cases hdone
      exact ⟨[], htold⟩
    | some row =>
      obtain ⟨before, rfl⟩ := trace_probeSuffix hrest
      exact ⟨⟨.get base, some row⟩ :: before, htold⟩

variable {handler : Handler} {params : AddTargetParams} {source : SourceWire} {now : String}

variable {coord : IcrsCoord} {goals : List AcquisitionGoal}

/-- An import that found no row of its own writes under the slug it last found free. -/
theorem trace_importBeside {told : List ((op : StoreOp) × op.Answer)}
    {next : op.Answer → Program targetStore ToolReply}
    (h : Trace (importBeside handler params source now coord goals all) told (.call op next))
    (hwrites : op.writes = true) :
    ∃ target rest, op = .upsert target ∧ told = rest ++ [⟨.get target.slug, none⟩] := by
  simp only [importBeside] at h
  split at h
  · cases (Trace.done_iff.mp h).2
  · next base _ =>
      rcases h.of_bind with ⟨reading, htrace, hcall⟩ | ⟨first, second, allocated, rfl, htrace, hsecond⟩
      · cases reading with
        | done allocated =>
          cases allocated with
          | error e => cases hcall
          | ok slug =>
            cases hcall
            obtain ⟨rest, hrest⟩ := trace_freeSlug htrace
            exact ⟨_, rest, rfl, hrest⟩
        | call op' next' =>
          cases hcall
          have hread : op.writes = false := (htrace.readsOnly (freeSlug_readsOnly base)).1
          rw [hread] at hwrites
          cases hwrites
      · cases allocated with
        | error e => cases (Trace.done_iff.mp hsecond).2
        | ok slug =>
          obtain ⟨rfl, rfl⟩ := trace_upsertAndReply hsecond
          obtain ⟨rest, hrest⟩ := trace_freeSlug htrace
          exact ⟨_, rest, rfl, by rw [List.append_nil]; exact hrest⟩

/-- After its listing an import writes into a row that was listed open, or under a slug it found
free. -/
theorem trace_importListed {told : List ((op : StoreOp) × op.Answer)}
    {next : op.Answer → Program targetStore ToolReply}
    (h : Trace (importListed handler params source now coord goals all) told (.call op next))
    (hwrites : op.writes = true) :
    ∃ target rest last, op = .upsert target ∧ ⟨.list, all⟩ :: told = rest ++ [last] ∧
      Sighted source.kind target.slug last := by
  rw [importListed] at h
  split at h
  · next existing hexisting =>
      obtain ⟨rfl, rfl⟩ := trace_upsertAndReply h
      obtain ⟨hneighbor, hrefreshable⟩ := Option.filter_eq_some_iff.mp hexisting
      refine ⟨_, [], _, rfl, rfl, existing, neighbor_mem hneighbor, rfl, ?_⟩
      rw [refreshable, Bool.and_eq_true, Bool.not_eq_true', decide_eq_true_eq] at hrefreshable
      rw [guarded, hrefreshable.1, hrefreshable.2]
      simp
  · obtain ⟨target, before, rfl, rfl⟩ := trace_importBeside h hwrites
    exact ⟨target, ⟨.list, all⟩ :: before, _, rfl, rfl, rfl, rfl⟩

/-- The write of an import goes to a row that its last look showed open. -/
theorem trace_import {told : List ((op : StoreOp) × op.Answer)}
    {next : op.Answer → Program targetStore ToolReply} (hsource : params.source = some source)
    (h : Trace (addTarget handler params now) told (.call op next))
    (hwrites : op.writes = true) :
    ∃ target rest last, op = .upsert target ∧ told = rest ++ [last] ∧
      Sighted source.kind target.slug last := by
  rw [addTarget, hsource] at h
  simp only [addTargetImport] at h
  split at h
  · cases (Trace.done_iff.mp h).2
  · rcases h.cases_cons with ⟨_, hcall⟩ | ⟨op', next', all, rest, hcall, rfl, hrest⟩
    · cases hcall
      cases hwrites
    · cases hcall
      exact trace_importListed hrest hwrites

/-! ## Interleaved calls -/

/-- The row an import is about to write was not taken over since the import last looked: the last of
the others' writes to it, if there was one, left it pending and in the importer's name, or removed
it. -/
def undisturbed (calls : List ToolCall) (log : List (Event targetStore))
    (t : Turns targetStore ToolReply) (i : Nat) : Bool :=
  match calls[i]?.bind ToolCall.importer, t.calls[i]? with
  | some kind, some (.call (.upsert target) _) => staysOpen kind target.slug (since log i)
  | _, _ => true

/-- A turn of an import changes no row that is active or was last written by another. -/
def LeavesGuarded (calls : List ToolCall) (i : Nat) (s s' : Store) : Prop :=
  ∀ kind slug row, calls[i]?.bind ToolCall.importer = some kind → s.getTarget slug = some row →
    guarded kind row = true → s'.getTarget slug = some row

/-- In a run whose imports write undisturbed, no turn of an import changes a guarded row. -/
theorem imports_leave_guarded (handler : Handler) (calls : List ToolCall) (store : Store)
    {inputs : List Nat} {log events : List (Event targetStore)}
    {t t' : Turns targetStore ToolReply} {i : Nat}
    (h : History turn (fun log t i => undisturbed calls log t i = true) (opened handler calls store)
      inputs log t)
    (ok : undisturbed calls log t i = true) (taken : turn t i = some (t', events)) :
    LeavesGuarded calls i t.store t'.store := by
  intro kind slug row himporter hrow hguarded
  obtain ⟨op, next, hcall, hstore, _, _⟩ := Turns.turn_cases taken
  obtain ⟨call, hat, hkind⟩ := Option.bind_eq_some_iff.mp himporter
  obtain ⟨params, now, source, rfl, hsource, rfl⟩ := importer_eq hkind
  obtain ⟨program, hprogram, htrace⟩ := Turns.trace_of_history h hcall
  have hadd : program = addTarget handler params now := by
    rw [List.getElem?_map, hat] at hprogram
    exact (Option.some.inj hprogram).symm
  rw [hadd] at htrace
  rw [hstore]
  cases hwrites : op.writes with
  | false => rw [perform_read hwrites]; exact hrow
  | true =>
    obtain ⟨target, rest, last, rfl, hlast, hsighted⟩ := trace_import hsource htrace hwrites
    rw [undisturbed, himporter, hcall] at ok
    have hopen := openRow_of_history h hlast hsighted ok
    simp only [StoreOp.perform, Store.upsertTarget]
    cases validateGoals target.goals with
    | error e => exact hrow
    | ok u =>
      show Store.getTarget (t.store.insert _) slug = some row
      rw [Store.getTarget_insert, Store.keepCreation_slug]
      by_cases hslug : slug = target.slug
      · rw [hslug] at hrow
        rw [hopen row hrow] at hguarded
        cases hguarded
      · rw [if_neg hslug]
        exact hrow

end RustyPhoton.Rp.Targets

/-! ## Evaluation -/

namespace RustyPhoton.Rp.Targets.Evaluation

open Lib

/-- The import of the pointing at the origin, the same import again, and an activation of its row. -/
def importsAndActivation : List ToolCall :=
  [.addTarget { bare with source := some bridge } "22:00",
    .addTarget { bare with source := some bridge } "22:01",
    .updateTarget ⟨"j0000p0000", none, none, none, some true, none, none, none, .keep, .keep⟩ "22:02"]

theorem unnamed_nonempty : "j0000p0000".toList ≠ [] := by decide

theorem unnamed_canonical : "j0000p0000".toList.all isSlugChar = true := by decide

/-- Whether the imported row is active. -/
def activity (s : Store) : Option Bool :=
  (s.getTarget ⟨"j0000p0000", unnamed_nonempty, unnamed_canonical⟩).map Target.active

example : activity Store.empty = none := by decide +kernel

/-- Turns that end with one of the call `i`, by what they leave of the imported row before and after
it. -/
theorem played (allowed : List (Event (@targetStore Crates.plain)) →
      Turns (@targetStore Crates.plain) ToolReply → Nat → Prop)
    [∀ log t i, Decidable (allowed log t i)] (inputs : List Nat) (i : Nat)
    (before after : Option Bool)
    (h : ((History.play (Turns.turn (I := @targetStore Crates.plain)) allowed []
      (@opened Crates.plain bareRig importsAndActivation Store.empty) inputs).bind fun reached =>
        if allowed reached.1 reached.2 i then
          (Turns.turn reached.2 i).map fun next =>
            (activity reached.2.store, activity next.1.store)
        else none) = some (before, after)) :
    ∃ log t t' events, History (Turns.turn (I := @targetStore Crates.plain)) allowed
        (@opened Crates.plain bareRig importsAndActivation Store.empty) inputs log t ∧
      allowed log t i ∧ Turns.turn t i = some (t', events) ∧ activity t.store = before ∧
      activity t'.store = after := by
  obtain ⟨reached, hplay, hlast⟩ := Option.bind_eq_some_iff.mp h
  split at hlast
  · next ok =>
      obtain ⟨next, hturn, heq⟩ := Option.map_eq_some_iff.mp hlast
      cases heq
      exact ⟨reached.1, reached.2, next.1, next.2, .of_play hplay, ok, hturn, rfl, rfl⟩
  · cases hlast

/-- The second import finds the row activated and leaves it. -/
theorem activated_row_left : ∃ log t t' events,
    History (Turns.turn (I := @targetStore Crates.plain))
      (fun log t i => @undisturbed Crates.plain importsAndActivation log t i = true)
      (@opened Crates.plain bareRig importsAndActivation Store.empty) [0, 0, 0, 2, 2, 1, 1, 1] log t ∧
    Turns.turn t 1 = some (t', events) ∧ activity t.store = some true ∧
    LeavesGuarded importsAndActivation 1 t.store t'.store := by
  obtain ⟨log, t, t', events, hrun, ok, hturn, hbefore, _⟩ :=
    played (fun log t i => @undisturbed Crates.plain importsAndActivation log t i = true)
      [0, 0, 0, 2, 2, 1, 1, 1] 1 (some true) (some true) (by decide +kernel)
  exact ⟨log, t, t', events, hrun, hturn, hbefore,
    @imports_leave_guarded Crates.plain bareRig importsAndActivation Store.empty _ _ _ _ _ _ hrun ok
      hturn⟩

/-- The row is activated after the second import listed it, and is paused again. -/
theorem activated_row_paused : ∃ log t t' events,
    History (Turns.turn (I := @targetStore Crates.plain)) (fun _ _ _ => True)
      (@opened Crates.plain bareRig importsAndActivation Store.empty) [0, 0, 0, 1, 2, 2] log t ∧
    Turns.turn t 1 = some (t', events) ∧
    ¬ LeavesGuarded importsAndActivation 1 t.store t'.store := by
  obtain ⟨log, t, t', events, hrun, _, hturn, hbefore, hafter⟩ :=
    played (fun _ _ _ => True) [0, 0, 0, 1, 2, 2] 1 (some true) (some false) (by decide +kernel)
  refine ⟨log, t, t', events, hrun, hturn, fun hleaves => ?_⟩
  obtain ⟨row, hrow, hactive⟩ := Option.map_eq_some_iff.mp hbefore
  have hkept := hleaves "planetarium-bridge" _ row rfl hrow (by rw [guarded, hactive, Bool.true_or])
  rw [activity, hkept] at hafter
  rw [Option.map_some, hactive] at hafter
  cases hafter

end RustyPhoton.Rp.Targets.Evaluation
