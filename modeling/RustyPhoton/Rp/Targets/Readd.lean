import RustyPhoton.Lib.Rounding
import RustyPhoton.Rp.Targets.Preflight

/-!
# Adding a target twice

The rule of `rp-targets.md` for a slug that is taken: the same object is updated in place, another
object gets a suffix. The lookup reads the base slug alone, so an object that lives under a suffix
is not found again.
-/

namespace RustyPhoton.Rp.Targets

open Lib

section Pointings

/-! ## A pointing and itself -/

theorem natAbs_key (x : Binary64) : x.key.natAbs = x.magnitude := by
  rw [Binary64.key]
  split <;> omega

theorem le_iff {x y : Binary64} : Binary64.le x y = true ↔
    x.isNaN = false ∧ y.isNaN = false ∧ x.key ≤ y.key := by
  simp [Binary64.le, and_assoc]

/-- The bounds of a pointing, the factor of `to_radians` and the distance of nothing, as words. -/
structure PointingWords : Prop where
  ra : (Binary64.ofInt 0).key = 0 ∧ (Binary64.ofInt 24).key < Binary64.infMagnitude
  dec : (Binary64.ofInt (-90)).key = -((Binary64.ofInt 90).magnitude : Int) ∧
    (Binary64.ofInt 90).key = ((Binary64.ofInt 90).magnitude : Int) ∧
    (Binary64.ofInt 90).magnitude < Binary64.infMagnitude ∧
    (Binary64.ofInt 90).magnitude / 2 ^ 52 = 1029
  factor : (Binary64.div piWord (Binary64.ofInt 180)).isFinite = true ∧
    (Binary64.div piWord (Binary64.ofInt 180)).magnitude / 2 ^ 52 ≤ 1022
  nothing : remEuclid (Binary64.ofMagnitude false 0) (Binary64.ofInt 24) =
      Binary64.ofMagnitude false 0 ∧
    Binary64.lt (Binary64.ofInt 12) (Binary64.ofMagnitude false 0) = false ∧
    Binary64.mul (Binary64.ofMagnitude false 0) (Binary64.ofInt 15) = Binary64.ofMagnitude false 0

theorem pointing_words : PointingWords := by
  constructor <;> decide +kernel

example : raInRange (Binary64.ofInt 24) = false := by decide +kernel

theorem raHours_isFinite (coord : IcrsCoord) : coord.raHours.isFinite = true := by
  have hrange := coord.raOk
  rw [raInRange, Bool.and_eq_true] at hrange
  have hlow : (0 : Int) ≤ coord.raHours.key := by
    rw [← pointing_words.ra.1]
    exact (le_iff.mp hrange.1).2.2
  have hhigh : coord.raHours.key < (Binary64.ofInt 24).key := by
    have hlt := hrange.2
    simp only [Binary64.lt, Bool.and_eq_true, decide_eq_true_eq] at hlt
    exact hlt.2
  have hbound : (Binary64.ofInt 24).key < Binary64.infMagnitude := pointing_words.ra.2
  have habs := natAbs_key coord.raHours
  exact decide_eq_true (by omega)

/-- The magnitude of a declination is at most that of 90. -/
theorem decDegrees_magnitude (coord : IcrsCoord) :
    coord.decDegrees.magnitude ≤ (Binary64.ofInt 90).magnitude := by
  have hrange := coord.decOk
  rw [decInRange, Bool.and_eq_true] at hrange
  have hlow := (le_iff.mp hrange.1).2.2
  have hhigh := (le_iff.mp hrange.2).2.2
  obtain ⟨hneg, hpos, -⟩ := pointing_words.dec
  rw [hneg] at hlow
  rw [hpos] at hhigh
  have habs := natAbs_key coord.decDegrees
  omega

theorem decDegrees_isFinite (coord : IcrsCoord) : coord.decDegrees.isFinite = true := by
  have hbound : (Binary64.ofInt 90).magnitude < Binary64.infMagnitude := pointing_words.dec.2.2.1
  exact decide_eq_true (Nat.lt_of_le_of_lt (decDegrees_magnitude coord) hbound)

theorem toRadians_isFinite (coord : IcrsCoord) : (toRadians coord.decDegrees).isFinite = true := by
  obtain ⟨hfactor, hexponent⟩ := pointing_words.factor
  have hsmall : |(Binary64.div piWord (Binary64.ofInt 180)).toRat| < (2 : Rat) ^ ((1022 : Int) - 1022) :=
    Binary64.abs_toRat_lt (e := 1022) (by decide) hexponent
  have hdec : |coord.decDegrees.toRat| < (2 : Rat) ^ ((1029 : Int) - 1022) := by
    refine Binary64.abs_toRat_lt (e := 1029) (by decide) ?_
    rw [← pointing_words.dec.2.2.2]
    exact Nat.div_le_div_right (decDegrees_magnitude coord)
  refine Binary64.isFinite_mul (decDegrees_isFinite coord) hfactor ?_
  rw [abs_mul]
  calc |coord.decDegrees.toRat| * |(Binary64.div piWord (Binary64.ofInt 180)).toRat|
      ≤ (2 : Rat) ^ ((1029 : Int) - 1022) * (2 : Rat) ^ ((1022 : Int) - 1022) :=
        mul_le_mul hdec.le hsmall.le (abs_nonneg _) (by positivity)
    _ < 2 ^ 64 := by norm_num

variable [Crates]

/-- A pointing is no distance from itself. -/
theorem flatSeparationDegrees_self (crates : Crates.Lawful) (coord : IcrsCoord) :
    flatSeparationDegrees coord.raHours coord.decDegrees coord.raHours coord.decDegrees =
      Binary64.ofInt 0 := by
  obtain ⟨hzero, hnear, hdegrees⟩ := pointing_words.nothing
  simp only [flatSeparationDegrees]
  rw [Binary64.sub_self (raHours_isFinite coord), Binary64.sub_self (decDegrees_isFinite coord),
    hzero, hnear, if_neg Bool.false_ne_true, hdegrees]
  refine crates.hypot _ _ ?_ (by decide)
  exact Binary64.isZero_mul (by decide) (Binary64.toRat_ofMagnitude_zero false)
    (crates.cos _ (toRadians_isFinite coord))

theorem sameObject_self (crates : Crates.Lawful) (coord : IcrsCoord) :
    sameObject coord.raHours coord.decDegrees coord.raHours coord.decDegrees = true := by
  rw [sameObject, flatSeparationDegrees_self crates]
  decide +kernel

end Pointings

variable [Crates] {handler : Handler} {params : AddTargetParams} {first second now : String}
  {s : Store}

/-! ## One call -/

variable {prepared : Prepared}

/-- What a payload that is prepared has passed. -/
theorem prepare_ok (h : prepare handler params = .ok prepared) :
    validateAddTarget params handler.defaultGoals handler.equipment = [] ∧
      named params = .ok prepared.name ∧
      IcrsCoord.tryNew prepared.name.raHours prepared.name.decDegrees = .ok prepared.coord ∧
      TargetSlug.fromDisplayName prepared.name.baseSlugInput = .ok prepared.base := by
  rw [prepare] at h
  split at h
  · cases h
  · next hvalid =>
      split at h
      · cases h
      · next name hnamed =>
          split at h
          · cases h
          · next coord hcoord =>
              split at h
              · cases h
              · next base hbase =>
                  cases h
                  exact ⟨hvalid, hnamed, hcoord, hbase⟩

variable {base : TargetSlug} {created : Bool}

/-- Where a prepared payload goes: the base slug when it is free or names the same object, and a free
suffix when the base slug names another. -/
theorem resolveSlug_ok (crates : Crates.Lawful) {name : Named} {slug : TargetSlug}
    (h : ((resolveSlug name base).alone s).1 = .ok (slug, created)) :
    (slug = base ∧ ∀ row, s.getTarget base = some row →
      sameObject name.raHours name.decDegrees row.coord.raHours row.coord.decDegrees = true) ∨
    (created = true ∧ slug ≠ base ∧ FreeSuffix s base ∧ ∃ row, s.getTarget base = some row ∧
      sameObject name.raHours name.decDegrees row.coord.raHours row.coord.decDegrees = false) := by
  rw [resolveSlug] at h
  simp only [Program.alone_call, StoreOp.perform] at h
  cases hget : s.getTarget base with
  | none =>
    rw [hget] at h
    cases h
    exact .inl ⟨rfl, fun row hrow => by cases hrow⟩
  | some row =>
    simp only [hget] at h
    split at h
    · next hsame =>
        cases h
        refine .inl ⟨rfl, fun other hother => ?_⟩
        cases hother
        exact hsame
    · next hother =>
        rw [Program.alone_bind] at h
        cases hallocated : ((allocateSuffix base).alone s).1 with
        | error e =>
          rw [hallocated] at h
          cases h
        | ok suffix =>
          rw [hallocated] at h
          cases h
          obtain ⟨n, hlow, hhigh, rfl, hfree⟩ := allocateSuffix_ok crates hallocated
          exact .inr ⟨rfl, suffixSlug_ne base n, ⟨n, hlow, hhigh, hfree⟩, row, rfl,
            Bool.eq_false_iff.mpr hother⟩

variable {row : Target}

/-- The base slug of a row with the same pointing is found again. -/
theorem resolveSlug_again (name : Named) (hget : s.getTarget base = some row)
    (hsame : sameObject name.raHours name.decDegrees row.coord.raHours row.coord.decDegrees = true) :
    ((resolveSlug name base).alone s).1 = .ok (base, false) := by
  rw [resolveSlug]
  simp only [Program.alone_call, StoreOp.perform, hget, hsame, if_true, Program.alone_done]

/-- A call with a prepared payload: it is refused and leaves the store, or its row is written under
the slug that was resolved. -/
theorem addTarget_run (now : String) (s : Store) (hsource : params.source = none)
    (hprepared : prepare handler params = .ok prepared) :
    ((addTarget handler params now).alone s).1.isOk = false ∧
        ((addTarget handler params now).alone s).2 = s ∧
        ((∀ slug, ((resolveSlug prepared.name prepared.base).alone s).1 ≠ .ok slug) ∨
          ¬ DefaultsStorable handler params) ∨
      ∃ slug created target, ((resolveSlug prepared.name prepared.base).alone s).1 = .ok (slug, created) ∧
        DefaultsStorable handler params ∧ target.slug = slug ∧ target.coord = prepared.coord ∧
        (addTarget handler params now).alone s =
          (.added slug created target, s.insert (Store.keepCreation (s.getTarget slug) target)) := by
  obtain ⟨hvalid, _, _, _⟩ := prepare_ok hprepared
  obtain ⟨_, _, hangle, _, _, hgoals, _⟩ := validateAddTarget_eq_nil.mp hvalid
  obtain ⟨goals, hparsed, hstorable⟩ := parseGoals_ok hgoals
  have hchecked : checkPositionAngle params.positionAngleDegrees =
      .ok params.positionAngleDegrees := by
    rw [checkPositionAngle, hangle]
  have halone : (addTarget handler params now).alone s =
      (addResolved handler params now prepared
        ((resolveSlug prepared.name prepared.base).alone s).1).alone s := by
    rw [addTarget, hsource]
    simp only [addTargetOperator, hprepared]
    rw [Program.alone_bind, (resolveSlug_readsOnly _ _).alone]
  rw [halone]
  cases hresolved : ((resolveSlug prepared.name prepared.base).alone s).1 with
  | error e => exact .inl ⟨rfl, rfl, .inl fun slug h => by cases h⟩
  | ok resolved =>
    obtain ⟨slug, created⟩ := resolved
    simp only [addResolved, hparsed, hchecked]
    rw [upsertAndReply]
    simp only [Program.alone_call, StoreOp.perform, Store.upsertTarget]
    cases hgoals' : validateGoals goals with
    | error e =>
      left
      simp only [operatorRow, hgoals']
      refine ⟨rfl, rfl, .inr ?_⟩
      rw [← hstorable, hgoals']
      exact fun h => by cases h
    | ok u =>
      right
      refine ⟨slug, created, operatorRow params now prepared slug goals params.positionAngleDegrees,
        rfl, hstorable.mp hgoals', rfl, rfl, ?_⟩
      simp only [operatorRow, hgoals']
      rfl

/-! ## Two calls -/

/-- The store after a call with the payload. -/
def after (handler : Handler) (params : AddTargetParams) (now : String) (s : Store) : Store :=
  ((addTarget handler params now).alone s).2

/-- The same payload twice in a row: the second call answers the slug of the first and does not create
it, and no other slug changes. -/
structure Idempotent (handler : Handler) (params : AddTargetParams) (first second : String)
    (s : Store) : Prop where
  again : ∀ slug created target,
    ((addTarget handler params first).alone s).1 = .added slug created target →
    ∃ target', ((addTarget handler params second).alone (after handler params first s)).1 =
      .added slug false target'
  gain : ∃ slug, ∀ other, other ≠ slug →
    (after handler params second (after handler params first s)).getTarget other = s.getTarget other

/-- The base slug of the payload is free or names the same object, or the payload is refused. -/
def SettledBase (handler : Handler) (params : AddTargetParams) (s : Store) : Prop :=
  ∀ name base row, named params = .ok name →
    TargetSlug.fromDisplayName name.baseSlugInput = .ok base → s.getTarget base = some row →
    sameObject name.raHours name.decDegrees row.coord.raHours row.coord.decDegrees = true ∨
      ¬ (validateAddTarget params handler.defaultGoals handler.equipment = [] ∧
        DefaultsStorable handler params ∧ FreeSuffix s base)

/-- A refused payload is refused again. -/
theorem idempotent_of_refused (hreply : ((addTarget handler params first).alone s).1.isOk = false)
    (hfirst : after handler params first s = s) (hsecond : after handler params second s = s) :
    Idempotent handler params first second s where
  again slug created target h := by
    rw [h] at hreply
    cases hreply
  gain := ⟨⟨"-", by decide, by decide⟩, fun other _ => by rw [hfirst, hsecond]⟩

theorem after_of_error {reply : ToolReply} (hsource : params.source = none)
    (h : prepare handler params = .error reply) :
    (addTarget handler params now).alone s = (reply, s) := by
  rw [addTarget, hsource]
  simp only [addTargetOperator, h, Program.alone_done]

/-- A row that is written under its base slug is written there again. -/
theorem idempotent_of_base (crates : Crates.Lawful)
    {target : Target} (hsource : params.source = none)
    (hprepared : prepare handler params = .ok prepared) (hstorable : DefaultsStorable handler params)
    (hslug : target.slug = prepared.base) (hcoord : target.coord = prepared.coord)
    (hfirst : (addTarget handler params first).alone s = (.added prepared.base created target,
      s.insert (Store.keepCreation (s.getTarget prepared.base) target))) :
    Idempotent handler params first second s := by
  have hafter : after handler params first s =
      s.insert (Store.keepCreation (s.getTarget prepared.base) target) := by rw [after, hfirst]
  have hkept : (Store.keepCreation (s.getTarget prepared.base) target).coord = prepared.coord := by
    rw [← hcoord]
    cases s.getTarget prepared.base <;> rfl
  have hread : (after handler params first s).getTarget prepared.base =
      some (Store.keepCreation (s.getTarget prepared.base) target) := by
    rw [hafter, Store.getTarget_insert, Store.keepCreation_slug, hslug, if_pos rfl]
  obtain ⟨_, _, hpointing, _⟩ := prepare_ok hprepared
  obtain ⟨hra, hdec⟩ := IcrsCoord.tryNew_eq_ok hpointing
  have hagain := resolveSlug_again prepared.name hread (by
    rw [hkept, ← hra, ← hdec]
    exact sameObject_self crates prepared.coord)
  rcases addTarget_run second (after handler params first s) hsource hprepared with
    ⟨_, _, hrefused⟩ | ⟨slug, created', target', hresolved, _, hslug', _, hrun⟩
  · rcases hrefused with hrefused | hrefused
    · exact absurd hagain (hrefused _)
    · exact absurd hstorable hrefused
  · rw [hagain] at hresolved
    cases hresolved
    refine ⟨?_, prepared.base, ?_⟩
    · intro slug created'' target'' h
      rw [hfirst] at h
      cases h
      exact ⟨target', by rw [hrun]⟩
    · intro other hother
      rw [after, hrun, Store.getTarget_insert, Store.keepCreation_slug, hslug', if_neg hother, hafter,
        Store.getTarget_insert, Store.keepCreation_slug, hslug, if_neg hother]

/-- A row that is written under a suffix is not found again: the second call looks at the base slug,
which names another object still. -/
theorem not_idempotent (crates : Crates.Lawful)
    (hsource : params.source = none) (hprepared : prepare handler params = .ok prepared)
    (hstorable : DefaultsStorable handler params) (hrow : s.getTarget prepared.base = some row)
    (hother : sameObject prepared.name.raHours prepared.name.decDegrees row.coord.raHours
      row.coord.decDegrees = false)
    (hfree : FreeSuffix s prepared.base) : ¬ Idempotent handler params first second s := by
  intro h
  rcases addTarget_run first s hsource hprepared with
    ⟨_, _, hrefused⟩ | ⟨slug, created, target, hresolved, _, hslug, _, hrun⟩
  · rcases hrefused with hrefused | hrefused
    · have havailable : SlugAvailable s prepared.name prepared.base := fun _ _ => .inr hfree
      obtain ⟨slug, hslug⟩ := (resolveSlug_ok_iff crates).mpr havailable
      exact hrefused slug hslug
    · exact hrefused hstorable
  · have hmoved : slug ≠ prepared.base := by
      rcases resolveSlug_ok crates hresolved with ⟨_, hsame⟩ | ⟨_, hne, _⟩
      · rw [hsame row hrow] at hother
        cases hother
      · exact hne
    have hstill : (after handler params first s).getTarget prepared.base = some row := by
      rw [after, hrun, Store.getTarget_insert, Store.keepCreation_slug, hslug, if_neg hmoved.symm,
        hrow]
    obtain ⟨target', hreply⟩ := h.again slug created target (by rw [hrun])
    rcases addTarget_run second (after handler params first s) hsource hprepared with
      ⟨hrefused, _⟩ | ⟨slug', created', target'', hresolved', _, _, _, hrun'⟩
    · rw [hreply] at hrefused
      cases hrefused
    · rw [hrun'] at hreply
      cases hreply
      rcases resolveSlug_ok crates hresolved' with ⟨_, hsame⟩ | ⟨hcreated, _⟩
      · rw [hsame row hstill] at hother
        cases hother
      · cases hcreated

/-- Adding the same payload again updates the row it added, where the base slug does not name
another object. -/
theorem readd_iff (crates : Crates.Lawful) (handler : Handler) (params : AddTargetParams)
    (first second : String) (s : Store) (hsource : params.source = none) :
    Idempotent handler params first second s ↔ SettledBase handler params s := by
  constructor
  · intro h name base row hnamed hbase hrow
    cases hsame : sameObject name.raHours name.decDegrees row.coord.raHours row.coord.decDegrees with
    | true => exact .inl rfl
    | false =>
      refine .inr fun haccepted => ?_
      obtain ⟨hvalid, hstorable, hfree⟩ := haccepted
      obtain ⟨_, hcoord, _⟩ := validateAddTarget_eq_nil.mp hvalid
      obtain ⟨coord, hpointing⟩ := named_coord hnamed hcoord
      have hprepared : prepare handler params = .ok ⟨name, coord, base⟩ := by
        rw [prepare_of_valid hvalid hnamed hpointing, hbase]
      exact not_idempotent crates hsource hprepared hstorable hrow hsame hfree h
  · intro h
    cases hprepared : prepare handler params with
    | error reply =>
      refine idempotent_of_refused ?_ ?_ ?_
      · rw [after_of_error hsource hprepared]
        exact prepare_error hprepared
      · rw [after, after_of_error hsource hprepared]
      · rw [after, after_of_error hsource hprepared]
    | ok prepared =>
      rcases addTarget_run first s hsource hprepared with
        ⟨hreply, hstay, hrefused⟩ | ⟨slug, created, target, hresolved, hstorable, hslug, hcoord, hrun⟩
      · refine idempotent_of_refused hreply hstay ?_
        -- what refused the first call does not depend on its clock reading
        rcases addTarget_run second s hsource hprepared with
          ⟨_, hstay', _⟩ | ⟨slug, created, target, hresolved, hstorable, _⟩
        · exact hstay'
        · rcases hrefused with hrefused | hrefused
          · exact absurd hresolved (hrefused _)
          · exact absurd hstorable hrefused
      · obtain ⟨hvalid, hnamed, _, hbase⟩ := prepare_ok hprepared
        rcases resolveSlug_ok crates hresolved with ⟨rfl, _⟩ | ⟨_, _, hfree, row, hrow, hother⟩
        · exact idempotent_of_base crates hsource hprepared hstorable hslug hcoord hrun
        · rcases h _ _ row hnamed hbase hrow with hsame | hrefused
          · rw [hother] at hsame
            cases hsame
          · exact absurd ⟨hvalid, hstorable, hfree⟩ hrefused

end RustyPhoton.Rp.Targets

/-! ## Evaluation -/

namespace RustyPhoton.Rp.Targets.Evaluation

open Lib

/-- A framing of the Veil Nebula on the equator, at the given declination. -/
def framing (decDegrees : Int) : AddTargetParams :=
  { bare with displayName := some "Veil Nebula", decDegrees := some (Binary64.ofInt decDegrees) }

/-- The store that holds the framing at the origin. -/
def framed : Store := @after Crates.plain bareRig (framing 0) "22:00" Store.empty

theorem first_framing_readded :
    @Idempotent Crates.plain bareRig (framing 0) "22:00" "22:01" Store.empty := by
  refine (@readd_iff Crates.plain Crates.lawful_plain bareRig (framing 0) "22:00" "22:01" Store.empty
    rfl).mpr ?_
  intro name base row _ _ hrow
  cases hrow

/-- What an `add_target` answers of its slug. -/
def answered : ToolReply → Option (String × Bool)
  | .added slug created _ => some (slug.text, created)
  | _ => none

/-- A second framing gets a suffix, and the same call after it another one. -/
theorem second_framing_doubled :
    ¬ @Idempotent Crates.plain bareRig (framing 1) "22:01" "22:02" framed := by
  intro h
  have hfirst : answered ((@addTarget Crates.plain bareRig (framing 1) "22:01").alone framed).1 =
      some ("veil-nebula-2", true) := by decide +kernel
  have hsecond : answered ((@addTarget Crates.plain bareRig (framing 1) "22:02").alone
      (@after Crates.plain bareRig (framing 1) "22:01" framed)).1 =
      some ("veil-nebula-3", true) := by decide +kernel
  cases hreply : ((@addTarget Crates.plain bareRig (framing 1) "22:01").alone framed).1 with
  | added slug created target =>
    obtain ⟨target', hagain⟩ := @Idempotent.again Crates.plain _ _ _ _ _ h slug created target hreply
    rw [hagain] at hsecond
    simp [answered] at hsecond
  | _ =>
    rw [hreply] at hfirst
    cases hfirst

end RustyPhoton.Rp.Targets.Evaluation
