import RustyPhoton.Rp.Targets.Allocation

/-!
# The validator and the writer

`plan_validation.rs` promises that a payload which passes `validate_add_target` does not surprise
`add_target`, in either direction. Each side is reduced to conditions on the payload and the store,
and the two agree exactly where these do.
-/

namespace RustyPhoton.Rp.Targets

open Lib

section Forms

variable {params : AddTargetParams} {source : SourceWire}

/-! ## The two forms -/

/-- The operator form names its object once, with the coordinates that go with the name. -/
def OperatorForm (params : AddTargetParams) : Prop :=
  match params.catalogRef, params.displayName with
  | some _, none => params.raHours.isSome = params.decDegrees.isSome
  | none, some _ => params.raHours.isSome = true ∧ params.decDegrees.isSome = true
  | _, _ => False

/-- The import form has bare coordinates. -/
structure ImportForm (params : AddTargetParams) : Prop where
  catalogRef : params.catalogRef = none
  displayName : params.displayName = none
  active : params.active = none
  notes : params.notes = none
  positionAngleDegrees : params.positionAngleDegrees = none
  grading : params.grading = none
  raHours : params.raHours.isSome = true
  decDegrees : params.decDegrees.isSome = true

def CoordSound (params : AddTargetParams) : Prop :=
  ∀ ra dec, params.raHours = some ra → params.decDegrees = some dec →
    raInRange ra = true ∧ decInRange dec = true

theorem formErrors_operator (h : params.source = none) :
    formErrors params = [] ↔ OperatorForm params := by
  rw [formErrors, h, OperatorForm]
  cases params.catalogRef <;> cases params.displayName <;> cases params.raHours <;>
    cases params.decDegrees <;> simp

theorem formErrors_import (h : params.source = some source) :
    formErrors params = [] ↔ ImportForm params := by
  rw [formErrors, h, Option.isSome_some, if_pos rfl, List.append_eq_nil_iff, importFormErrors,
    List.filterMap_eq_nil_iff]
  constructor
  · intro h
    obtain ⟨habsent, hcoord⟩ := h
    simp only [List.mem_cons, List.not_mem_nil, or_false, forall_eq_or_imp, forall_eq,
      ite_eq_right_iff, reduceCtorEq, imp_false, Bool.not_eq_true, Option.isSome_eq_false_iff,
      Option.isNone_iff_eq_none] at habsent
    obtain ⟨hcat, hname, hactive, hnotes, hangle, hgrading⟩ := habsent
    split at hcoord
    · cases hcoord
    · next hboth =>
        rw [Bool.or_eq_true, not_or, Bool.not_eq_true, Bool.not_eq_true,
          Option.isNone_eq_false_iff, Option.isNone_eq_false_iff] at hboth
        exact ⟨hcat, hname, hactive, hnotes, hangle, hgrading, hboth.1, hboth.2⟩
  · intro hform
    constructor
    · simp [hform.catalogRef, hform.displayName, hform.active, hform.notes,
        hform.positionAngleDegrees, hform.grading]
    · have hra := hform.raHours
      have hdec := hform.decDegrees
      simp [Option.isNone_iff_eq_none, Option.isSome_iff_ne_none.mp hra,
        Option.isSome_iff_ne_none.mp hdec]

theorem IcrsCoord.tryNew_ok {ra dec : Binary64} (hra : raInRange ra = true)
    (hdec : decInRange dec = true) : IcrsCoord.tryNew ra dec = .ok ⟨ra, dec, hra, hdec⟩ := by
  rw [tryNew, dif_pos hra, dif_pos hdec]

theorem validateCoord_eq_nil {ra dec : Binary64} :
    validateCoord ra dec = [] ↔ raInRange ra = true ∧ decInRange dec = true := by
  rw [validateCoord, IcrsCoord.tryNew]
  by_cases hra : raInRange ra = true
  · by_cases hdec : decInRange dec = true
    · simp [hra, hdec]
    · simp [hra, hdec]
  · simp [hra]

theorem coordErrors_eq_nil :
    coordErrors params.raHours params.decDegrees = [] ↔ CoordSound params := by
  unfold coordErrors CoordSound
  cases params.raHours with
  | none => simp
  | some ra =>
    cases params.decDegrees with
    | none => simp
    | some dec =>
      rw [validateCoord_eq_nil]
      constructor
      · intro h ra' dec' hra hdec
        cases hra
        cases hdec
        exact h
      · exact fun h => h ra dec rfl rfl

end Forms

variable [Crates] {handler : Handler} {params : AddTargetParams} {source : SourceWire} {now : String}
  {s : Store}

/-! ## What a payload is checked for -/

def AngleSound (params : AddTargetParams) : Prop :=
  validatePositionAngle params.positionAngleDegrees "position_angle_degrees" = []

def SchedulingSound (params : AddTargetParams) : Prop :=
  ∀ wire, params.scheduling = some wire → validateScheduling wire "scheduling" = []

def GradingSound (params : AddTargetParams) : Prop :=
  ∀ wire, params.grading = some wire → validateGrading wire "grading" = []

def GoalsSound (handler : Handler) (params : AddTargetParams) : Prop :=
  ∀ wire, params.goals = some wire →
    ∃ goals, validateGoalsWire wire (filterRoster handler.equipment) "goals" = .ok goals

/-- A payload without goals gets the default goals, whose filters must be in the roster. -/
def DefaultsListed (handler : Handler) (params : AddTargetParams) : Prop :=
  params.goals = none → filterRoster handler.equipment ≠ [] →
    ∀ goal ∈ handler.defaultGoals, goal.filter ∈ filterRoster handler.equipment

variable {roster : List String}

theorem defaultGoalErrors_eq_nil {defaults : List AcquisitionGoal} :
    defaultGoalErrors defaults roster = [] ↔
      (roster ≠ [] → ∀ goal ∈ defaults, goal.filter ∈ roster) := by
  rw [defaultGoalErrors]
  cases roster with
  | nil => simp
  | cons first rest =>
    rw [List.isEmpty_cons, if_neg Bool.false_ne_true, List.filterMap_eq_nil_iff]
    constructor
    · intro h _ goal hgoal
      obtain ⟨i, hi, hget⟩ := List.getElem_of_mem hgoal
      have hentry := h (i, goal) (List.mem_mapIdx.mpr ⟨i, hi, by rw [hget]⟩)
      split at hentry
      · next hlisted => exact List.contains_iff_mem.mp hlisted
      · cases hentry
    · intro h entry hentry
      obtain ⟨i, hi, rfl⟩ := List.mem_mapIdx.mp hentry
      rw [if_pos (List.contains_iff_mem.mpr (h (List.cons_ne_nil _ _) _ (List.getElem_mem hi)))]

variable {wire : List GoalWire} {pathPrefix : String}

theorem validateGoalsWire_error
    {errors : List FieldError} (h : validateGoalsWire wire roster pathPrefix = .error errors) :
    errors ≠ [] := by
  simp only [validateGoalsWire] at h
  split at h
  · split at h
    · cases h
    · cases h
      exact List.cons_ne_nil _ _
  · split at h
    · cases h
    · next hsome =>
        cases h
        intro hnil
        exact hsome (by rw [hnil]; rfl)

theorem goalErrors_eq_nil :
    goalErrors params.goals handler.defaultGoals (filterRoster handler.equipment) = [] ↔
      GoalsSound handler params ∧ DefaultsListed handler params := by
  unfold goalErrors GoalsSound DefaultsListed
  cases params.goals with
  | none => simp [defaultGoalErrors_eq_nil]
  | some wire =>
    cases hwire : validateGoalsWire wire (filterRoster handler.equipment) "goals" with
    | ok goals => simp [hwire]
    | error errors => simp [hwire, validateGoalsWire_error hwire]

theorem validateAddTarget_eq_nil :
    validateAddTarget params handler.defaultGoals handler.equipment = [] ↔
      formErrors params = [] ∧ CoordSound params ∧ AngleSound params ∧ SchedulingSound params ∧
        GradingSound params ∧ GoalsSound handler params ∧ DefaultsListed handler params := by
  have hscheduling : (params.scheduling.map fun s => validateScheduling s "scheduling").getD [] = [] ↔
      SchedulingSound params := by
    unfold SchedulingSound
    cases params.scheduling <;> simp
  have hgrading : (params.grading.map fun g => validateGrading g "grading").getD [] = [] ↔
      GradingSound params := by
    unfold GradingSound
    cases params.grading <;> simp
  rw [validateAddTarget, List.append_eq_nil_iff, List.append_eq_nil_iff, List.append_eq_nil_iff,
    List.append_eq_nil_iff, List.append_eq_nil_iff, coordErrors_eq_nil, goalErrors_eq_nil,
    hscheduling, hgrading, and_assoc, and_assoc, and_assoc, and_assoc]
  rfl

/-- An import that has its form has no angle and no thresholds to check. -/
theorem validateAddTarget_import (h : params.source = some source) :
    validateAddTarget params handler.defaultGoals handler.equipment = [] ↔
      ImportForm params ∧ CoordSound params ∧ GoalsSound handler params ∧
        SchedulingSound params ∧ DefaultsListed handler params := by
  rw [validateAddTarget_eq_nil, formErrors_import h]
  constructor
  · intro h
    obtain ⟨hform, hcoord, _, hscheduling, _, hgoals, hdefaults⟩ := h
    exact ⟨hform, hcoord, hgoals, hscheduling, hdefaults⟩
  · intro h
    obtain ⟨hform, hcoord, hgoals, hscheduling, hdefaults⟩ := h
    have hangle : AngleSound params := by
      rw [AngleSound, hform.positionAngleDegrees]
      rfl
    have hgrading : GradingSound params := by
      intro wire hwire
      rw [hform.grading] at hwire
      cases hwire
    exact ⟨hform, hcoord, hangle, hscheduling, hgrading, hgoals, hdefaults⟩

/-! ## Goals that the store takes -/

/-- A goal without failures is parsed. -/
theorem checkGoal_parsed {index : Nat} {goal : GoalWire}
    (h : (checkGoal roster pathPrefix index goal).1 = []) :
    (checkGoal roster pathPrefix index goal).2.isSome = true := by
  simp only [checkGoal, List.append_eq_nil_iff] at h ⊢
  obtain ⟨⟨⟨hbinning, hexposure⟩, _⟩, _⟩ := h
  cases hb : Binning.fromStr goal.binning with
  | error e =>
    rw [hb] at hbinning
    cases hbinning
  | ok binning =>
    cases hd : Crates.parseDuration goal.exposureDuration with
    | error e =>
      rw [hd] at hexposure
      cases hexposure
    | ok exposure =>
      rw [hd] at hexposure
      simp only at hexposure ⊢
      split at hexposure
      · cases hexposure
      · next hpositive =>
          rw [if_neg hpositive]
          rfl

variable {goals : List AcquisitionGoal}

/-- Goals that the payload check accepts pass the rule of the store. -/
theorem validateGoalsWire_ok (h : validateGoalsWire wire roster pathPrefix = .ok goals) :
    validateGoals goals = .ok () := by
  simp only [validateGoalsWire] at h
  split at h
  · split at h
    · next hvalid =>
        cases h
        exact hvalid
    · cases h
  · next hnot =>
      split at h
      · next hnone =>
          -- without failures every goal is parsed, so this branch is never taken
          refine absurd ?_ hnot
          have hall : ∀ checked ∈ wire.mapIdx (checkGoal roster pathPrefix),
              (Prod.snd checked).isSome = true := by
            intro checked hmem
            obtain ⟨i, hi, rfl⟩ := List.mem_mapIdx.mp hmem
            exact checkGoal_parsed
              (List.flatMap_eq_nil_iff.mp (List.isEmpty_iff.mp hnone) _ hmem)
          rw [hnone, Bool.true_and, decide_eq_true_eq, List.length_filterMap_eq_countP,
            List.countP_eq_length.mpr hall, List.length_mapIdx]
      · cases h

/-- The default goals, where a payload falls back to them, pass the rule of the store. -/
def DefaultsStorable (handler : Handler) (params : AddTargetParams) : Prop :=
  params.goals = none → validateGoals handler.defaultGoals = .ok ()

theorem parseGoals_ok (h : GoalsSound handler params) :
    ∃ goals, parseGoals params.goals handler.defaultGoals handler.equipment = .ok goals ∧
      (validateGoals goals = .ok () ↔ DefaultsStorable handler params) := by
  unfold DefaultsStorable
  cases hgoals : params.goals with
  | none => exact ⟨handler.defaultGoals, rfl, by simp⟩
  | some wire =>
    obtain ⟨goals, hwire⟩ := h wire hgoals
    refine ⟨goals, ?_, by simp [validateGoalsWire_ok hwire]⟩
    rw [parseGoals, hwire]

theorem goalsSound_of_parseGoals
    (h : parseGoals params.goals handler.defaultGoals handler.equipment = .ok goals) :
    GoalsSound handler params := by
  intro wire hwire
  rw [hwire, parseGoals] at h
  split at h
  · next goals hgoals => exact ⟨goals, hgoals⟩
  · cases h

/-! ## What the writer does -/

/-- A program adds a row: it says so, and the row is in the store it leaves. -/
def AddsRow (p : Program targetStore ToolReply) (s : Store) : Prop :=
  ∃ slug created target, (p.alone s).1 = .added slug created target ∧
    (p.alone s).2.getTarget slug = some (Store.keepCreation (s.getTarget slug) target)

theorem not_addsRow_of_isOk {p : Program targetStore ToolReply} (h : (p.alone s).1.isOk = false) :
    ¬ AddsRow p s := by
  intro hadds
  obtain ⟨slug, created, target, hreply, _⟩ := hadds
  rw [hreply] at h
  cases h

/-- The write at the end of a tool is done exactly where the store takes its goals. -/
theorem upsertAndReply_adds {target : Target} {created : Bool} :
    AddsRow (upsertAndReply target (.added target.slug created target)) s ↔
      validateGoals target.goals = .ok () := by
  cases hvalid : validateGoals target.goals with
  | error e =>
    refine iff_of_false (not_addsRow_of_isOk ?_) (by simp)
    simp only [upsertAndReply, Program.alone_call, StoreOp.perform, Store.upsertTarget, hvalid]
    rfl
  | ok u =>
    have halone : (upsertAndReply target (.added target.slug created target)).alone s =
        (.added target.slug created target,
          s.insert (Store.keepCreation (s.getTarget target.slug) target)) := by
      simp only [upsertAndReply, Program.alone_call, StoreOp.perform, Store.upsertTarget, hvalid]
      rfl
    refine iff_of_true ⟨target.slug, created, target, by rw [halone], ?_⟩ rfl
    rw [halone]
    show Store.getTarget (s.insert _) target.slug = _
    rw [Store.getTarget_insert, Store.keepCreation_slug, if_pos rfl]

theorem bind_adds {ρ : Type} {p : Program targetStore ρ} {f : ρ → Program targetStore ToolReply}
    (h : p.ReadsOnly) : AddsRow (p.bind f) s ↔ AddsRow (f (p.alone s).1) s := by
  rw [AddsRow, Program.alone_bind, h.alone]
  rfl

/-! ## The operator form -/

/-- The base slug is free, names the same object, or leaves a suffix. -/
def SlugAvailable (s : Store) (name : Named) (base : TargetSlug) : Prop :=
  ∀ row, s.getTarget base = some row →
    sameObject name.raHours name.decDegrees row.coord.raHours row.coord.decDegrees = true ∨
      FreeSuffix s base

variable {name : Named} {base : TargetSlug}

theorem resolveSlug_ok_iff (crates : Crates.Lawful) :
    (∃ resolved, ((resolveSlug name base).alone s).1 = .ok resolved) ↔ SlugAvailable s name base := by
  rw [resolveSlug]
  simp only [Program.alone_call, StoreOp.perform, SlugAvailable]
  cases hget : s.getTarget base with
  | none => simp
  | some row =>
    simp only [Option.some.injEq, forall_eq']
    split
    · next hsame => simp [hsame]
    · next hother =>
        rw [Program.alone_bind, (allocateSuffix_readsOnly base).alone, ← allocateSuffix_iff crates]
        cases ((allocateSuffix base).alone s).1 with
        | error e => simp [hother]
        | ok slug => simp

/-- The object a payload names has a slug, and it is available. -/
def OperatorLands (params : AddTargetParams) (s : Store) : Prop :=
  ∀ name, named params = .ok name →
    ∃ base, TargetSlug.fromDisplayName name.baseSlugInput = .ok base ∧ SlugAvailable s name base

/-- What is named is in range: the coordinates of the payload, or those of the catalog. -/
theorem named_coord (h : named params = .ok name) (hcoord : CoordSound params) :
    ∃ coord, IcrsCoord.tryNew name.raHours name.decDegrees = .ok coord := by
  unfold named at h
  split at h
  · cases h
  · cases h
  · split at h
    · cases h
    · next resolved _ =>
        split at h
        · next ra dec hra hdec =>
            cases h
            exact ⟨_, IcrsCoord.tryNew_ok (hcoord ra dec hra hdec).1 (hcoord ra dec hra hdec).2⟩
        · cases h
          exact ⟨_, IcrsCoord.tryNew_self resolved.coord⟩
        · cases h
  · split at h
    · next ra dec hra hdec =>
        cases h
        exact ⟨_, IcrsCoord.tryNew_ok (hcoord ra dec hra hdec).1 (hcoord ra dec hra hdec).2⟩
    · cases h

/-- A payload in its form, whose catalog name resolves, names something. -/
theorem named_ok (hform : OperatorForm params)
    (hresolves : ∀ cat, params.catalogRef = some cat → ∃ t, Crates.resolve cat = .ok t) :
    ∃ name, named params = .ok name := by
  unfold OperatorForm at hform
  unfold named
  cases hcat : params.catalogRef with
  | none =>
    rw [hcat] at hform
    cases hname : params.displayName with
    | none => simp [hname] at hform
    | some name =>
      simp only [hname] at hform
      obtain ⟨ra, hra⟩ := Option.isSome_iff_exists.mp hform.1
      obtain ⟨dec, hdec⟩ := Option.isSome_iff_exists.mp hform.2
      rw [hra, hdec]
      exact ⟨_, rfl⟩
  | some cat =>
    rw [hcat] at hform
    obtain ⟨resolved, hresolved⟩ := hresolves cat hcat
    cases hname : params.displayName with
    | some name => simp [hname] at hform
    | none =>
      simp only [hname] at hform
      simp only [hresolved]
      cases hra : params.raHours with
      | none =>
        cases hdec : params.decDegrees with
        | some dec => simp [hra, hdec] at hform
        | none => exact ⟨_, rfl⟩
      | some ra =>
        cases hdec : params.decDegrees with
        | none => simp [hra, hdec] at hform
        | some dec => exact ⟨_, rfl⟩

variable {reply : ToolReply}

theorem named_error (h : named params = .error reply) : reply.isOk = false := by
  unfold named at h
  split at h
  · cases h
    rfl
  · cases h
    rfl
  · split at h
    · cases h
      rfl
    · split at h
      · cases h
      · cases h
      · cases h
        rfl
  · split at h
    · cases h
    · cases h
      rfl

theorem prepare_error (h : prepare handler params = .error reply) :
    reply.isOk = false := by
  rw [prepare] at h
  split at h
  · cases h
    rfl
  · split at h
    · next hnamed =>
        cases h
        exact named_error hnamed
    · split at h
      · cases h
        rfl
      · split at h
        · cases h
          rfl
        · cases h

variable {coord : IcrsCoord}

theorem prepare_of_valid
    (hvalid : validateAddTarget params handler.defaultGoals handler.equipment = [])
    (hnamed : named params = .ok name)
    (hcoord : IcrsCoord.tryNew name.raHours name.decDegrees = .ok coord) :
    prepare handler params = match TargetSlug.fromDisplayName name.baseSlugInput with
      | .error e => .error (.error e.text)
      | .ok base => .ok ⟨name, coord, base⟩ := by
  cases hslug : TargetSlug.fromDisplayName name.baseSlugInput with
  | error e => simp only [prepare, hvalid, hnamed, hcoord, hslug]
  | ok base => simp only [prepare, hvalid, hnamed, hcoord, hslug]

/-- An operator's payload is written exactly where the validator passes it, its slug can be had and
the default goals it falls back to can be stored. -/
theorem addTarget_operator_adds (crates : Crates.Lawful) (hsource : params.source = none)
    (hresolves : ∀ cat, params.catalogRef = some cat → ∃ t, Crates.resolve cat = .ok t) :
    AddsRow (addTarget handler params now) s ↔
      validateAddTarget params handler.defaultGoals handler.equipment = [] ∧
        OperatorLands params s ∧ DefaultsStorable handler params := by
  rw [addTarget, hsource]
  simp only [addTargetOperator]
  cases hvalid : validateAddTarget params handler.defaultGoals handler.equipment with
  | cons e errors =>
    refine iff_of_false (not_addsRow_of_isOk ?_) (by simp)
    simp [prepare, hvalid, ToolReply.isOk]
  | nil =>
    have hrules := validateAddTarget_eq_nil.mp hvalid
    rw [formErrors_operator hsource] at hrules
    obtain ⟨hform, hcoord, hangle, _, _, hgoals, _⟩ := hrules
    obtain ⟨name, hnamed⟩ := named_ok hform hresolves
    obtain ⟨coord, hpointing⟩ := named_coord hnamed hcoord
    have hlands : OperatorLands params s ↔ ∃ base,
        TargetSlug.fromDisplayName name.baseSlugInput = .ok base ∧ SlugAvailable s name base := by
      simp [OperatorLands, hnamed]
    rw [prepare_of_valid hvalid hnamed hpointing, hlands]
    cases TargetSlug.fromDisplayName name.baseSlugInput with
    | error e =>
      refine iff_of_false (not_addsRow_of_isOk rfl) (by simp)
    | ok base =>
      have hbase : (∃ base', (.ok base : Except TargetSlugError TargetSlug) = .ok base' ∧
          SlugAvailable s name base') ↔ SlugAvailable s name base := by simp
      simp only [hbase, true_and]
      rw [bind_adds (resolveSlug_readsOnly name base), ← resolveSlug_ok_iff crates]
      cases ((resolveSlug name base).alone s).1 with
      | error e => exact iff_of_false (not_addsRow_of_isOk rfl) (by simp)
      | ok resolved =>
        obtain ⟨goals, hparsed, hstorable⟩ := parseGoals_ok hgoals
        have hchecked : checkPositionAngle params.positionAngleDegrees =
            .ok params.positionAngleDegrees := by
          rw [checkPositionAngle, hangle]
        simp only [addResolved, hparsed, hchecked]
        rw [upsertAndReply_adds]
        show validateGoals goals = .ok () ↔ _
        rw [hstorable]
        simp

/-! ## The import form -/

theorem rejectImportFields_eq_none :
    rejectImportFields params source = none ↔
      (params.catalogRef = none ∧ params.displayName = none ∧ params.active = none ∧
        params.positionAngleDegrees = none ∧ params.notes = none ∧ params.grading = none) ∧
      refusedKind source.kind = false := by
  have hstep {c : Prop} [Decidable c] {reply : ToolReply} {rest : Option ToolReply} :
      (if c then some reply else rest) = none ↔ ¬ c ∧ rest = none := by
    split <;> simp [*]
  simp only [rejectImportFields, hstep, Bool.or_eq_true, not_or, Bool.not_eq_true, and_true, and_assoc,
    Option.isSome_eq_false_iff, Option.isNone_iff_eq_none]

/-- Where an import goes: into a pending row of its own, whose goals the store still takes, or beside
the others, under a free slug and with goals the store takes. -/
def ImportLands (handler : Handler) (params : AddTargetParams) (source : SourceWire) (s : Store) :
    Prop :=
  ∀ ra dec coord, params.raHours = some ra → params.decDegrees = some dec →
    IcrsCoord.tryNew ra dec = .ok coord →
    match (neighbor handler.importConfig coord.raHours coord.decDegrees s.listTargets).filter
        (refreshable source) with
    | some existing => validateGoals existing.goals = .ok ()
    | none =>
        (∃ base, TargetSlug.fromDisplayName (importNaming handler.importConfig coord coord.raHours
            coord.decDegrees s.listTargets).baseSlugInput = .ok base ∧
          (s.getTarget base = none ∨ FreeSuffix s base)) ∧
        DefaultsStorable handler params

theorem freeSlug_ok_iff (crates : Crates.Lawful) :
    (∃ slug, ((freeSlug base).alone s).1 = .ok slug) ↔
      (s.getTarget base = none ∨ FreeSuffix s base) := by
  rw [freeSlug]
  simp only [Program.alone_call, StoreOp.perform]
  cases hget : s.getTarget base with
  | none => simp
  | some row => simp [← allocateSuffix_iff crates]

theorem importListed_adds (crates : Crates.Lawful) {all : List Target} :
    AddsRow (importListed handler params source now coord goals all) s ↔
      match (neighbor handler.importConfig coord.raHours coord.decDegrees all).filter
          (refreshable source) with
      | some existing => validateGoals existing.goals = .ok ()
      | none =>
        (∃ base, TargetSlug.fromDisplayName (importNaming handler.importConfig coord coord.raHours
            coord.decDegrees all).baseSlugInput = .ok base ∧
          (s.getTarget base = none ∨ FreeSuffix s base)) ∧
        validateGoals goals = .ok () := by
  rw [importListed]
  cases (neighbor handler.importConfig coord.raHours coord.decDegrees all).filter
      (refreshable source) with
  | some existing => exact upsertAndReply_adds
  | none =>
    simp only [importBeside]
    cases TargetSlug.fromDisplayName (importNaming handler.importConfig coord coord.raHours
        coord.decDegrees all).baseSlugInput with
    | error e => exact iff_of_false (not_addsRow_of_isOk rfl) (by simp)
    | ok base =>
      simp only [Except.ok.injEq, exists_eq_left']
      rw [bind_adds (freeSlug_readsOnly base), ← freeSlug_ok_iff crates]
      cases ((freeSlug base).alone s).1 with
      | error e => exact iff_of_false (not_addsRow_of_isOk rfl) (by simp)
      | ok slug =>
        show AddsRow (upsertAndReply _ _) s ↔ _
        rw [upsertAndReply_adds]
        show validateGoals goals = .ok () ↔ _
        simp

theorem prepareImport_ok (h : prepareImport handler params source = .ok (coord, goals)) :
    ∃ ra dec, params.raHours = some ra ∧ params.decDegrees = some dec ∧
      IcrsCoord.tryNew ra dec = .ok coord ∧
      parseGoals params.goals handler.defaultGoals handler.equipment = .ok goals ∧
      rejectImportFields params source = none := by
  rw [prepareImport] at h
  split at h
  · cases h
  · next hkept =>
      split at h
      · next ra dec hra hdec =>
          split at h
          · cases h
          · next coord' hcoord =>
              split at h
              · cases h
              · next goals' hgoals =>
                  cases h
                  exact ⟨ra, dec, hra, hdec, hcoord, hgoals, hkept⟩
      · cases h

theorem prepareImport_error
    (h : prepareImport handler params source = .error reply) : reply.isOk = false := by
  rw [prepareImport] at h
  split at h
  · next rejected hrejected =>
      cases h
      rw [rejectImportFields] at hrejected
      repeat' split at hrejected
      all_goals cases hrejected
      all_goals rfl
  · split at h
    · split at h
      · cases h
        rfl
      · split at h
        · cases h
          rfl
        · cases h
    · cases h
      rfl

/-- What an import passes before it reads the store. -/
theorem prepareImport_ok_iff :
    (∃ prepared, prepareImport handler params source = .ok prepared) ↔
      ImportForm params ∧ CoordSound params ∧ GoalsSound handler params ∧
        refusedKind source.kind = false := by
  constructor
  · intro h
    obtain ⟨⟨coord, goals⟩, hprepared⟩ := h
    obtain ⟨ra, dec, hra, hdec, hcoord, hgoals, hkept⟩ := prepareImport_ok hprepared
    obtain ⟨⟨hcat, hname, hactive, hangle, hnotes, hgrading⟩, hkind⟩ :=
      rejectImportFields_eq_none.mp hkept
    refine ⟨⟨hcat, hname, hactive, hnotes, hangle, hgrading, ?_, ?_⟩, ?_,
      goalsSound_of_parseGoals hgoals, hkind⟩
    · rw [hra]
      rfl
    · rw [hdec]
      rfl
    · intro ra' dec' hra' hdec'
      rw [hra] at hra'
      rw [hdec] at hdec'
      cases hra'
      cases hdec'
      obtain ⟨rfl, rfl⟩ := IcrsCoord.tryNew_eq_ok hcoord
      exact ⟨coord.raOk, coord.decOk⟩
  · intro h
    obtain ⟨hform, hcoord, hgoals, hkind⟩ := h
    obtain ⟨ra, hra⟩ := Option.isSome_iff_exists.mp hform.raHours
    obtain ⟨dec, hdec⟩ := Option.isSome_iff_exists.mp hform.decDegrees
    obtain ⟨hrange, hrange'⟩ := hcoord ra dec hra hdec
    obtain ⟨goals, hparsed, _⟩ := parseGoals_ok hgoals
    have hkept : rejectImportFields params source = none :=
      rejectImportFields_eq_none.mpr ⟨⟨hform.catalogRef, hform.displayName, hform.active,
        hform.positionAngleDegrees, hform.notes, hform.grading⟩, hkind⟩
    refine ⟨(⟨ra, dec, hrange, hrange'⟩, goals), ?_⟩
    simp only [prepareImport, hkept, hra, hdec, IcrsCoord.tryNew_ok hrange hrange', hparsed]

/-- An import is written exactly where it has its form, a writer it may claim, sound coordinates and
goals, and a place to go. Neither its overrides nor the roster of the default goals matter. -/
theorem addTarget_import_adds (crates : Crates.Lawful) (hsource : params.source = some source) :
    AddsRow (addTarget handler params now) s ↔
      ImportForm params ∧ CoordSound params ∧ GoalsSound handler params ∧
        refusedKind source.kind = false ∧ ImportLands handler params source s := by
  have hsplit : (ImportForm params ∧ CoordSound params ∧ GoalsSound handler params ∧
      refusedKind source.kind = false ∧ ImportLands handler params source s) ↔
      (∃ prepared, prepareImport handler params source = .ok prepared) ∧
        ImportLands handler params source s := by
    rw [prepareImport_ok_iff, and_assoc, and_assoc, and_assoc]
  rw [hsplit, addTarget, hsource]
  simp only [addTargetImport]
  cases hprepared : prepareImport handler params source with
  | error reply =>
    exact iff_of_false (not_addsRow_of_isOk (prepareImport_error hprepared)) (by simp)
  | ok prepared =>
    obtain ⟨coord, goals⟩ := prepared
    obtain ⟨ra, dec, hra, hdec, hcoord, hparsed, _⟩ := prepareImport_ok hprepared
    have hstorable : validateGoals goals = .ok () ↔ DefaultsStorable handler params := by
      obtain ⟨goals', hparsed', hiff⟩ := parseGoals_ok (goalsSound_of_parseGoals hparsed)
      rw [hparsed] at hparsed'
      cases hparsed'
      exact hiff
    have hlands : ImportLands handler params source s ↔
        AddsRow (importListed handler params source now coord goals s.listTargets) s := by
      rw [importListed_adds crates, hstorable]
      constructor
      · exact fun h => h ra dec coord hra hdec hcoord
      · intro h ra' dec' coord' hra' hdec' hcoord'
        rw [hra] at hra'
        rw [hdec] at hdec'
        cases hra'
        cases hdec'
        rw [hcoord] at hcoord'
        cases hcoord'
        exact h
    rw [hlands]
    simp only [Except.ok.injEq, exists_eq', true_and]
    rfl

/-! ## The agreement -/

/-- Where the validator and the writer say the same. An operator's payload whose fields pass must get
a slug and storable goals. An import that passes what both check must fail what only the validator
checks, its overrides and the roster of the default goals, exactly where it fails what only the writer
checks, the writer it claims and a place to go. -/
def Agreeable (handler : Handler) (params : AddTargetParams) (s : Store) : Prop :=
  match params.source with
  | none =>
      OperatorForm params → CoordSound params → AngleSound params → SchedulingSound params →
        GradingSound params → GoalsSound handler params → DefaultsListed handler params →
        OperatorLands params s ∧ DefaultsStorable handler params
  | some source =>
      ImportForm params → CoordSound params → GoalsSound handler params →
        (SchedulingSound params ∧ DefaultsListed handler params ↔
          refusedKind source.kind = false ∧ ImportLands handler params source s)

/-- The validator passes exactly the payloads that are written, where it does. -/
theorem validate_iff_add (crates : Crates.Lawful) (handler : Handler) (params : AddTargetParams)
    (now : String) (s : Store)
    (hresolves : ∀ cat, params.catalogRef = some cat → ∃ t, Crates.resolve cat = .ok t) :
    (validateAddTarget params handler.defaultGoals handler.equipment = [] ↔
        AddsRow (addTarget handler params now) s) ↔
      Agreeable handler params s := by
  unfold Agreeable
  cases hsource : params.source with
  | none =>
    rw [addTarget_operator_adds crates hsource hresolves, validateAddTarget_eq_nil,
      formErrors_operator hsource, iff_self_and]
    simp only [and_imp]
  | some source =>
    rw [addTarget_import_adds crates hsource, validateAddTarget_import hsource, and_congr_right_iff]
    simp only [and_congr_right_iff]

/-! ## Evaluation -/

end RustyPhoton.Rp.Targets

namespace RustyPhoton.Rp.Targets.Evaluation

open Lib

def nebula : AddTargetParams := { bare with displayName := some "Veil Nebula" }

def exclaimed : AddTargetParams := { bare with displayName := some "Veil!" }

/-- An import whose override asks for an altitude above the zenith. -/
def tilted : AddTargetParams :=
  { bare with scheduling := some ⟨some (Binary64.ofInt 91), none, none, none⟩, source := some bridge }

def veil : TargetSlug := ⟨"veil-nebula", by decide, by decide⟩

def unnamedField : TargetSlug := ⟨"j0000p0000", by decide, by decide⟩

theorem nebula_agrees :
    @validateAddTarget Crates.plain nebula bareRig.defaultGoals bareRig.equipment = [] ↔
      @AddsRow Crates.plain (@addTarget Crates.plain bareRig nebula "") Store.empty := by
  refine (@validate_iff_add Crates.plain Crates.lawful_plain bareRig nebula "" Store.empty
    (fun cat hcat => by cases hcat)).mpr ?_
  intro _ _ _ _ _ _ _
  refine ⟨fun name hname => ?_, fun _ => rfl⟩
  cases hname
  have hslug : @TargetSlug.fromDisplayName Crates.plain "Veil Nebula" = .ok veil := by
    decide +kernel
  exact ⟨veil, hslug, fun row hrow => by cases hrow⟩

/-- The validator passes a name without a slug, and refuses an override that the import stores. -/
theorem validator_differs :
    (@validateAddTarget Crates.plain exclaimed bareRig.defaultGoals bareRig.equipment = [] ∧
      ¬ @AddsRow Crates.plain (@addTarget Crates.plain bareRig exclaimed "") Store.empty) ∧
    (@validateAddTarget Crates.plain tilted bareRig.defaultGoals bareRig.equipment ≠ [] ∧
      @AddsRow Crates.plain (@addTarget Crates.plain bareRig tilted "") Store.empty) := by
  refine ⟨⟨by decide +kernel, ?_⟩, ⟨by decide +kernel, ?_⟩⟩
  · refine @not_addsRow_of_isOk Crates.plain Store.empty _ ?_
    decide +kernel
  · refine ⟨unnamedField, true, @importRow tilted bridge "" origin (@importNaming Crates.plain
      bareRig.importConfig origin origin.raHours origin.decDegrees []) unnamedField [], ?_, ?_⟩
    · decide +kernel
    · decide +kernel

end RustyPhoton.Rp.Targets.Evaluation
