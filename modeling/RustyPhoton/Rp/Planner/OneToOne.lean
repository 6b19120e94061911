import RustyPhoton.Rp.Planner.ProgressScan

/-!
# Which goal a frame counts toward

`allocate` gives every goal the bucket its key names. The keys of the goals are the triples that the
target store keeps distinct, but for the filter: the scan reads `NA` as the unfiltered slot, and the
store does not.
-/

namespace RustyPhoton.Rp.Planner

open Lib Targets

/-! ## Keys -/

theorem normalizeFilter_eq_iff {x y : String} :
    normalizeFilter x = normalizeFilter y ↔
      x = y ∨ (x = "" ∧ y = unfilteredToken) ∨ (x = unfilteredToken ∧ y = "") := by
  have hne : unfilteredToken ≠ "" := by decide
  rw [normalizeFilter, normalizeFilter]
  by_cases hx : x = unfilteredToken <;> by_cases hy : y = unfilteredToken
  · simp [hx, hy]
  · simp [hx, hy, hne, eq_comm]
  · simp [hx, hy, hne]
  · simp [hx, hy]

/-- Goals that the store tells apart have one bucket key only when one names the unfiltered slot `NA`
and the other leaves it empty. -/
theorem SubSpec.fromGoal_eq_iff {a b : AcquisitionGoal} :
    fromGoal a = fromGoal b ↔
      a.sameKey b = true ∨
        ((a.filter = "" ∧ b.filter = unfilteredToken ∨ a.filter = unfilteredToken ∧ b.filter = "") ∧
          a.binning = b.binning ∧ a.exposureDuration = b.exposureDuration) := by
  rw [fromGoal, fromGoal, SubSpec.mk.injEq, normalizeFilter_eq_iff, AcquisitionGoal.sameKey]
  simp only [Bool.and_eq_true, decide_eq_true_eq]
  tauto

/-- Both spellings of the unfiltered slot, for the same binning and exposure. -/
def SpellsUnfilteredTwice (goals : List AcquisitionGoal) : Prop :=
  ∃ a ∈ goals, ∃ b ∈ goals, a.filter = "" ∧ b.filter = unfilteredToken ∧
    a.binning = b.binning ∧ a.exposureDuration = b.exposureDuration

instance (goals : List AcquisitionGoal) : Decidable (SpellsUnfilteredTwice goals) :=
  inferInstanceAs (Decidable (∃ a ∈ goals, ∃ b ∈ goals, _))

theorem nodup_keys_iff [Crates] {goals : List AcquisitionGoal} (h : validateGoals goals = .ok ()) :
    (goals.map SubSpec.fromGoal).Nodup ↔ ¬ SpellsUnfilteredTwice goals := by
  constructor
  · intro hnodup htwice
    obtain ⟨a, ha, b, hb, hempty, htoken, hkey⟩ := htwice
    have hsame : SubSpec.fromGoal a = SubSpec.fromGoal b :=
      SubSpec.fromGoal_eq_iff.mpr (.inr ⟨.inl ⟨hempty, htoken⟩, hkey⟩)
    have hab : a = b := List.inj_on_of_nodup_map hnodup ha hb hsame
    rw [← hab, hempty] at htoken
    exact absurd htoken (by decide)
  · intro hcond
    have hkeys : goals.Pairwise fun a b => SubSpec.fromGoal a ≠ SubSpec.fromGoal b := by
      refine (validateGoals_pairwise h).imp_of_mem ?_
      intro a b ha hb hdiffer hsame
      rcases SubSpec.fromGoal_eq_iff.mp hsame with hkey | ⟨hspelled | hspelled, hrest⟩
      · rw [hdiffer] at hkey
        cases hkey
      · exact hcond ⟨a, ha, b, hb, hspelled.1, hspelled.2, hrest⟩
      · exact hcond ⟨b, hb, a, ha, hspelled.2, hspelled.1, hrest.1.symm, hrest.2.symm⟩
    exact List.pairwise_map.mpr hkeys

/-! ## Frames -/

section Frames

variable {disk : Disk} {templates : NamingTemplates} {slug : TargetSlug}

theorem frameOf_eq_some {dir : CandidateDir} {entry : DirEntry} {frame : Frame}
    (h : frameOf templates slug dir entry = some frame) :
    frame.fields.target.or frame.dir.fields.target = some slug ∧
      SubSpec.fromFields frame.fields = some frame.spec := by
  rw [frameOf] at h
  split at h
  · cases h
  split at h
  · cases h
  split at h
  · cases h
  next fields _ =>
    split at h
    · cases h
    split at h
    · cases h
    next htarget =>
      obtain ⟨spec, hspec, rfl⟩ := Option.map_eq_some_iff.mp h
      refine ⟨?_, hspec⟩
      -- a frame without a target is left out, so there is one and it is this target's
      cases hor : fields.target.or dir.fields.target with
      | none => simp [hor] at htarget
      | some parsed =>
        rw [hor] at htarget
        have hparsed : parsed = slug := by simpa using htarget
        rw [hparsed]

theorem frames_mem {frame : Frame} (h : frame ∈ frames disk templates slug) :
    frame.fields.target.or frame.dir.fields.target = some slug ∧
      SubSpec.fromFields frame.fields = some frame.spec := by
  obtain ⟨dir, _, hmem⟩ := List.mem_flatMap.mp h
  obtain ⟨entry, _, hframe⟩ := List.mem_filterMap.mp hmem
  exact frameOf_eq_some hframe

theorem SubSpec.fromFields_eq_some {fields : TemplateFields} {spec : SubSpec}
    (h : fromFields fields = some spec) :
    (∃ filter, fields.filter = some filter ∧ spec.filter = normalizeFilter filter) ∧
      fields.binning = some spec.binning ∧ fields.exposureDuration = some spec.exposureDuration := by
  rw [fromFields] at h
  obtain ⟨filter, hfilter, h⟩ := Option.bind_eq_some_iff.mp h
  obtain ⟨binning, hbinning, h⟩ := Option.bind_eq_some_iff.mp h
  obtain ⟨exposure, hexposure, h⟩ := Option.bind_eq_some_iff.mp h
  cases h
  exact ⟨⟨filter, hfilter, rfl⟩, hbinning, hexposure⟩

end Frames

/-! ## Counters -/

section Counters

variable (disk : Disk) (thresholds : GradingThresholds)

theorem bump_min (n k : Nat) : min (bump (min n (2 ^ 32 - 1)) + k) (2 ^ 32 - 1) =
    min (n + (k + 1)) (2 ^ 32 - 1) := by
  rw [bump]
  split <;> omega

/-- What a bucket holds, zero when it was never counted in. -/
def bucket (buckets : List (SubSpec × GoalProgress)) (spec : SubSpec) : GoalProgress :=
  (buckets.lookup spec).getD .zero

theorem bucket_countFrame_self (buckets : List (SubSpec × GoalProgress)) (frame : Frame) :
    (bucket (countFrame disk thresholds buckets frame) frame.spec).total =
      bump (bucket buckets frame.spec).total := by
  simp [bucket, countFrame]

theorem bucket_countFrame_of_ne {buckets : List (SubSpec × GoalProgress)} {frame : Frame}
    {spec : SubSpec} (h : frame.spec ≠ spec) :
    bucket (countFrame disk thresholds buckets frame) spec = bucket buckets spec := by
  rw [bucket, countFrame, Assoc.lookup_insert_of_ne _ _ (Ne.symm h)]
  rfl

/-- A bucket's total is the number of its frames, as far as 32 bits count. -/
theorem total_foldl (found : List Frame) (spec : SubSpec) (n : Nat)
    (buckets : List (SubSpec × GoalProgress))
    (h : (bucket buckets spec).total = min n (2 ^ 32 - 1)) :
    (bucket (found.foldl (countFrame disk thresholds) buckets) spec).total =
      min (n + found.countP fun frame => frame.spec = spec) (2 ^ 32 - 1) := by
  induction found generalizing n buckets with
  | nil => simpa using h
  | cons frame rest ih =>
    rw [List.foldl_cons]
    by_cases hspec : frame.spec = spec
    · have hone : (bucket (countFrame disk thresholds buckets frame) spec).total =
          min (n + 1) (2 ^ 32 - 1) := by
        rw [← hspec, bucket_countFrame_self, hspec, h]
        have hbump := bump_min n 0
        have hle : bump (min n (2 ^ 32 - 1)) ≤ 2 ^ 32 - 1 := by
          rw [bump]
          split <;> omega
        omega
      rw [ih (n + 1) _ hone, List.countP_cons_of_pos (by simpa using hspec)]
      congr 1
      omega
    · have hsame : (bucket (countFrame disk thresholds buckets frame) spec).total =
          min n (2 ^ 32 - 1) := by
        rw [bucket_countFrame_of_ne disk thresholds hspec, h]
      rw [ih n _ hsame, List.countP_cons_of_neg (by simpa using hspec)]

theorem bump_le_bump {a b : Nat} (h : a ≤ b) : bump a ≤ bump b := by
  rw [bump, bump]
  split <;> split <;> omega

theorem le_bump (n : Nat) : n ≤ bump n := by
  rw [bump]
  split <;> omega

/-- One frame keeps a bucket's good count within its total. -/
theorem good_countFrame {buckets : List (SubSpec × GoalProgress)} (frame : Frame)
    (h : ∀ spec, (bucket buckets spec).good ≤ (bucket buckets spec).total) (spec : SubSpec) :
    (bucket (countFrame disk thresholds buckets frame) spec).good ≤
      (bucket (countFrame disk thresholds buckets frame) spec).total := by
  by_cases hspec : frame.spec = spec
  · have hle : (bucket buckets frame.spec).good ≤ (bucket buckets frame.spec).total :=
      h frame.spec
    subst hspec
    rw [bucket_countFrame_self]
    simp only [bucket, countFrame, Assoc.lookup_insert_self, Option.getD_some]
    split
    · exact Nat.le_trans hle (le_bump _)
    · exact bump_le_bump hle
  · rw [bucket_countFrame_of_ne disk thresholds hspec]
    exact h spec

theorem good_foldl (found : List Frame) (buckets : List (SubSpec × GoalProgress))
    (h : ∀ spec, (bucket buckets spec).good ≤ (bucket buckets spec).total) (spec : SubSpec) :
    (bucket (found.foldl (countFrame disk thresholds) buckets) spec).good ≤
      (bucket (found.foldl (countFrame disk thresholds) buckets) spec).total := by
  induction found generalizing buckets with
  | nil => exact h spec
  | cons frame rest ih =>
    exact ih (countFrame disk thresholds buckets frame) (good_countFrame disk thresholds frame h)

end Counters

/-! ## One goal a frame -/

/-- The frames a scan of a target counts. -/
def scanned (disk : Disk) (templates : Option NamingTemplates) (target : Target) : List Frame :=
  match templates with
  | none => []
  | some templates => frames disk templates target.slug

/-- What the names of a frame say is what the goal is for. -/
structure Frame.IsFor (frame : Frame) (target : Target) (goal : AcquisitionGoal) : Prop where
  target : frame.fields.target.or frame.dir.fields.target = some target.slug
  filter : ∃ filter, frame.fields.filter = some filter ∧
    normalizeFilter filter = normalizeFilter goal.filter
  binning : frame.fields.binning = some goal.binning
  exposure : frame.fields.exposureDuration = some goal.exposureDuration

/-- The counts of a scan are one-to-one: `frame.spec = SubSpec.fromGoal goal` is what counts a frame
toward a goal. -/
structure OneToOne (disk : Disk) (templates : Option NamingTemplates) (target : Target)
    (thresholds : GradingThresholds) : Prop where
  keys : (target.goals.map SubSpec.fromGoal).Nodup
  once : ∀ frame ∈ scanned disk templates target, ∀ (i j : Nat) (a b : AcquisitionGoal),
    target.goals[i]? = some a → target.goals[j]? = some b →
    frame.spec = SubSpec.fromGoal a → frame.spec = SubSpec.fromGoal b → i = j
  isFor : ∀ frame ∈ scanned disk templates target, ∀ goal ∈ target.goals,
    frame.spec = SubSpec.fromGoal goal → frame.IsFor target goal
  counts : (scanTarget disk templates target thresholds).map GoalProgress.total =
    target.goals.map fun goal => min ((scanned disk templates target).countP fun frame =>
      frame.spec = SubSpec.fromGoal goal) (2 ^ 32 - 1)
  good : ∀ progress ∈ scanTarget disk templates target thresholds, progress.good ≤ progress.total

section Scan

variable {disk : Disk} {templates : Option NamingTemplates} {target : Target}
  {thresholds : GradingThresholds}

theorem scanTarget_eq : scanTarget disk templates target thresholds =
    target.goals.map fun goal => bucket ((scanned disk templates target).foldl
      (countFrame disk thresholds) []) (SubSpec.fromGoal goal) := by
  cases templates with
  | none => rfl
  | some _ => rfl

theorem isFor_of_spec {frame : Frame} {goal : AcquisitionGoal}
    (h : frame ∈ scanned disk templates target) (hspec : frame.spec = SubSpec.fromGoal goal) :
    frame.IsFor target goal := by
  cases templates with
  | none => cases h
  | some templates =>
    obtain ⟨htarget, hfields⟩ := frames_mem h
    obtain ⟨⟨filter, hfilter, hnormal⟩, hbinning, hexposure⟩ := SubSpec.fromFields_eq_some hfields
    rw [hspec] at hnormal hbinning hexposure
    exact ⟨htarget, ⟨filter, hfilter, hnormal.symm⟩, hbinning, hexposure⟩

theorem OneToOne.of_keys (h : (target.goals.map SubSpec.fromGoal).Nodup) :
    OneToOne disk templates target thresholds where
  keys := h
  once frame _ i j a b ha hb hspecA hspecB := by
    have hi : (target.goals.map SubSpec.fromGoal)[i]? = some frame.spec := by
      rw [List.getElem?_map, ha, hspecA]
      rfl
    have hj : (target.goals.map SubSpec.fromGoal)[j]? = some frame.spec := by
      rw [List.getElem?_map, hb, hspecB]
      rfl
    obtain ⟨hlt, _⟩ := List.getElem?_eq_some_iff.mp hi
    exact (List.getElem?_inj hlt h).mp (hi.trans hj.symm)
  isFor _ hmem _ _ hspec := isFor_of_spec hmem hspec
  counts := by
    rw [scanTarget_eq, List.map_map]
    refine List.map_congr_left ?_
    intro goal _
    have htotal := total_foldl disk thresholds (scanned disk templates target)
      (SubSpec.fromGoal goal) 0 [] rfl
    rwa [Nat.zero_add] at htotal
  good progress hmem := by
    rw [scanTarget_eq] at hmem
    obtain ⟨goal, _, rfl⟩ := List.mem_map.mp hmem
    exact good_foldl disk thresholds _ [] (fun _ => Nat.le_refl _) _

/-- For the goals a store accepts, the counts are one-to-one just when the unfiltered slot is not
spelled in both ways. -/
theorem oneToOne_iff [Crates] (disk : Disk) (templates : Option NamingTemplates)
    (target : Target) (thresholds : GradingThresholds) (h : validateGoals target.goals = .ok ()) :
    OneToOne disk templates target thresholds ↔ ¬ SpellsUnfilteredTwice target.goals := by
  rw [← nodup_keys_iff h]
  exact ⟨fun hone => hone.keys, .of_keys⟩

end Scan

/-! ## Evaluation -/

namespace Evaluation

def m31 : TargetSlug := ⟨"m31", by decide, by decide⟩

def origin : IcrsCoord := ⟨Binary64.ofInt 0, Binary64.ofInt 0, raInRange_zero, decInRange_zero⟩

/-- A goal of ten frames of two minutes, unbinned. -/
def goal (filter : String) : AcquisitionGoal := ⟨filter, ⟨1, 1⟩, 120 * 10 ^ 9, 10⟩

def target (goals : List AcquisitionGoal) : Target where
  slug := m31
  displayName := "M31"
  coord := origin
  catalogRef := none
  objectType := none
  magnitude := none
  sizeArcmin := none
  positionAngleDegrees := none
  priority := 0
  active := true
  goals := goals
  scheduling := none
  grading := none
  notes := none
  createdAt := ""
  updatedAt := ""
  createdBy := operatorWriter
  updatedBy := operatorWriter

/-- The patterns `{target}` and `{target}_{filter}_{binning}_{frame_number}_{exposure_duration}`, on
the names that occur below. -/
def patterns : NamingTemplates where
  directoryComponents := 1
  parseDirectory name := if name = "m31" then some ⟨some m31, none, none, none, none⟩ else none
  parseFile stem :=
    if stem = "m31_NA_1x1_0001_2m_0a1b2c3d" then
      some ⟨some m31, some "NA", some ⟨1, 1⟩, some (120 * 10 ^ 9), none⟩
    else none

/-- A disk with one frame of `m31`, without a filter wheel. -/
def oneFrame : Disk where
  readDir path :=
    if path = [] then some [⟨some "m31", some true⟩]
    else if path = ["m31"] then some [⟨some "m31_NA_1x1_0001_2m_0a1b2c3d.fits", some false⟩]
    else none
  readJson _ := none

def nothingJudged : GradingThresholds := ⟨none, none, none, none⟩

theorem unfiltered_oneToOne :
    OneToOne oneFrame (some patterns) (target [goal "", goal "Ha"]) nothingJudged :=
  (@oneToOne_iff Crates.plain oneFrame (some patterns) (target [goal "", goal "Ha"]) nothingJudged
    (by decide)).mpr (by decide)

/-- The one frame counts toward both spellings of the unfiltered slot. -/
theorem unfiltered_counted_twice :
    @validateGoals Crates.plain (target [goal "", goal "NA"]).goals = .ok () ∧
      (scanned oneFrame (some patterns) (target [goal "", goal "NA"])).length = 1 ∧
      scanTarget oneFrame (some patterns) (target [goal "", goal "NA"]) nothingJudged =
        [⟨1, 1⟩, ⟨1, 1⟩] ∧
      ¬ OneToOne oneFrame (some patterns) (target [goal "", goal "NA"]) nothingJudged := by
  refine ⟨by decide, by decide +kernel, by decide +kernel, fun h => ?_⟩
  exact absurd h.keys (by decide)

end Evaluation

end RustyPhoton.Rp.Planner
