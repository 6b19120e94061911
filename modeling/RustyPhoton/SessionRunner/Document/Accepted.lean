import RustyPhoton.SessionRunner.Document.KindRules

/-!
# What an accepted document is

The walk accepts a value only if the published schema does, and the document it builds has
distinct `once` keys, distinct trigger ids and `set` entries outside the engine's reserved keys.
One specification of the instruction walk carries all of it, by induction on the walk's fuel.
-/

namespace RustyPhoton.SessionRunner

open Lib Expr Checks Assoc

/-! ## Instructions -/

/-- Each discriminant with the definition of its instruction, in the schema's order. -/
def alternatives : List (String × String) :=
  [("tool", "toolInstruction"), ("sequence", "sequenceInstruction"),
   ("repeat", "repeatInstruction"), ("if", "ifInstruction"), ("set", "setInstruction"),
   ("try", "tryInstruction"), ("fail", "failInstruction"), ("wait", "waitInstruction"),
   ("log", "logInstruction"), ("script", "scriptInstructionReserved")]

theorem instruction_eq_alternatives :
    WorkflowSchema.instruction = .oneOf (alternatives.map fun a => .ref a.2) := rfl

variable {name : String} {obj : List (String × Value)}

theorem invalid_instructionObject {key : String} {named : List (String × Schema)}
    {keys : List String}
    (hdef : WorkflowSchema.defs.lookup name = some (WorkflowSchema.instructionObject named keys))
    (hkey : key ∈ keys) (h : contains key obj = false) :
    Schema.Invalid WorkflowSchema.defs (.ref name) (.object obj) :=
  Schema.decides_ref hdef (Schema.invalid_allOf (s := .required keys)
    (by simp [WorkflowSchema.closedObject]) (Schema.invalid_required hkey h))

/-- An object without a discriminant is not an instruction of its kind. -/
theorem invalid_of_absent :
    ∀ a ∈ alternatives, contains a.1 obj = false →
      Schema.Invalid WorkflowSchema.defs (.ref a.2) (.object obj) := by
  simp only [alternatives, List.forall_mem_cons, List.not_mem_nil, false_imp_iff, implies_true,
    and_true]
  refine ⟨?_, ?_, ?_, ?_, ?_, ?_, ?_, ?_, ?_, ?_⟩ <;> intro h <;>
    exact invalid_instructionObject (by simp [WorkflowSchema.defs]; rfl) (by simp) h

/-- An object with exactly one discriminant is an instruction when it is one of that kind. -/
theorem meets_instruction {disc : String}
    (hfilter : discriminants.filter (contains · obj) = [disc])
    (hmem : (disc, name) ∈ alternatives) (h : Meets (.ref name) (.object obj)) :
    Meets (.ref "instruction") (.object obj) := by
  obtain ⟨-, -, habsent⟩ := filter_singleton hfilter
  obtain ⟨before, after, hsplit⟩ := List.append_of_mem hmem
  have hnodup : (alternatives.map Prod.fst).Nodup := by decide
  refine meets_ref (s := WorkflowSchema.instruction) (by simp [WorkflowSchema.defs]) ?_
  rw [instruction_eq_alternatives, hsplit, List.map_append, List.map_cons]
  refine Schema.valid_oneOf _ _ h fun t ht => ?_
  rw [← List.map_append] at ht
  obtain ⟨a, ha, rfl⟩ := List.mem_map.mp ht
  have hother : a ∈ alternatives ∧ a.1 ≠ disc := by
    rw [hsplit, List.map_append, List.map_cons] at hnodup
    rcases List.mem_append.mp ha with ha | ha
    · refine ⟨hsplit ▸ List.mem_append_left _ ha, fun he => ?_⟩
      exact (List.nodup_append.mp hnodup).2.2 a.1 (List.mem_map_of_mem ha) disc (by simp) he
    · refine ⟨hsplit ▸ List.mem_append_right _ (List.mem_cons_of_mem _ ha), fun he => ?_⟩
      have hnot := (List.nodup_cons.mp (List.nodup_append.mp hnodup).2.1).1
      exact hnot (List.mem_map.mpr ⟨a, ha, he⟩)
  exact invalid_of_absent a hother.1
    (habsent a.1 (List.mem_map_of_mem (f := Prod.fst) hother.1) hother.2)

section Kinds

variable [Crates] {ins : WalkInstruction}

/-- Every kind walker meets the schema of its instruction. -/
theorem kindOf_spec (hins : ∀ v ptr scope, Spec (ins v ptr scope) (InstructionPost v))
    (obj : List (String × Value)) (ptr : String) (scope : Scope) {disc : String} (hdisc : disc ∈ discriminants) (hscript : disc ≠ "script") :
    ∃ name named keys, (disc, name) ∈ alternatives ∧
      WorkflowSchema.defs.lookup name = some (WorkflowSchema.instructionObject named keys) ∧
      named.map Prod.fst = disc :: companions disc ∧
      Spec (kindOf ins disc obj ptr scope) (KindPost named keys obj) := by
  simp only [discriminants, List.mem_cons, List.not_mem_nil, or_false] at hdisc
  rcases hdisc with rfl | rfl | rfl | rfl | rfl | rfl | rfl | rfl | rfl | rfl
  · exact ⟨"toolInstruction", _, _, by simp [alternatives], by simp [WorkflowSchema.defs]; rfl,
      by simp [companions], by simpa [kindOf] using toolKind_spec⟩
  · exact ⟨"sequenceInstruction", _, _, by simp [alternatives],
      by simp [WorkflowSchema.defs]; rfl,
      by simp [companions], by simpa [kindOf] using sequenceKind_spec hins⟩
  · exact ⟨"repeatInstruction", _, _, by simp [alternatives], by simp [WorkflowSchema.defs]; rfl,
      by simp [companions], by simpa [kindOf] using repeatKind_spec hins⟩
  · exact ⟨"ifInstruction", _, _, by simp [alternatives], by simp [WorkflowSchema.defs]; rfl,
      by simp [companions], by simpa [kindOf] using ifKind_spec hins⟩
  · exact ⟨"setInstruction", _, _, by simp [alternatives], by simp [WorkflowSchema.defs]; rfl,
      by simp [companions], by simpa [kindOf] using setKind_spec⟩
  · exact ⟨"tryInstruction", _, _, by simp [alternatives], by simp [WorkflowSchema.defs]; rfl,
      by simp [companions], by simpa [kindOf] using tryKind_spec hins⟩
  · exact ⟨"failInstruction", _, _, by simp [alternatives], by simp [WorkflowSchema.defs]; rfl,
      by simp [companions], by simpa [kindOf] using failKind_spec⟩
  · exact ⟨"waitInstruction", _, _, by simp [alternatives], by simp [WorkflowSchema.defs]; rfl,
      by simp [companions], by simpa [kindOf] using waitKind_spec⟩
  · exact ⟨"logInstruction", _, _, by simp [alternatives], by simp [WorkflowSchema.defs]; rfl,
      by simp [companions], by simpa [kindOf] using logKind_spec⟩
  · exact absurd rfl hscript

end Kinds

variable {ptr : String}

theorem recordOnceKey_spec {key : String} :
    Spec (recordOnceKey key ptr) fun b r b' =>
      Fresh r.toList b.onceKeys b'.onceKeys ∧ b'.triggerIds = b.triggerIds := by
  refine bind get fun seen => ?_
  cases hlookup : seen.onceKeys.lookup key with
  | some first => exact reject_spec
  | none =>
    refine bind (modify fun _ h => h) fun _ => pure ?_
    rintro u _ t rfl s ⟨rfl, rfl⟩
    exact ⟨Fresh.insertSorted ptr (by simp [contains, hlookup]), rfl⟩

/-- The keys of an instruction are its own key, then those below it. -/
theorem onceKeys_nodes (id once : Option String) (kind : InstructionKind) :
    onceKeys (Instruction.mk id once kind).nodes = once.toList ++ onceKeys kind.nodes := by
  rw [Instruction.nodes, onceKeys, List.filterMap_cons]
  cases once <;> rfl

variable {value : Option Value}

/-- The optional `once` key of an instruction. -/
theorem onceField_spec :
    Spec (andThen value fun v => do
      match ← stringField v ptr "`once`" with
      | some key => recordOnceKey key ptr
      | none => pure none) fun b r b' =>
      (∀ x, value = some x → Meets WorkflowSchema.nonEmptyString x) ∧
        Fresh r.toList b.onceKeys b'.onceKeys ∧ b'.triggerIds = b.triggerIds := by
  refine (andThen_spec (P := fun v b r b' => Meets WorkflowSchema.nonEmptyString v ∧
    Fresh r.toList b.onceKeys b'.onceKeys ∧ b'.triggerIds = b.triggerIds) fun v => ?_).mono
    fun b r b' _ h => ?_
  · refine bind stringField_spec fun key => ?_
    cases key with
    | none => exact pure fun _ _ _ h => by simp at h
    | some key =>
      refine recordOnceKey_spec.mono fun t r u _ h s hs => ?_
      obtain ⟨rfl, -, hmeets⟩ := hs
      exact ⟨hmeets, h⟩
  · rcases h with ⟨rfl, rfl, rfl⟩ | ⟨v, rfl, hmeets, h⟩
    · exact ⟨by simp, Fresh.nil, rfl⟩
    · exact ⟨by simpa using hmeets, h⟩

section Instructions

variable [Crates] {ins : WalkInstruction} {obj : List (String × Value)} {ptr : String}
  {scope : Scope}

theorem instructionOf_spec
    (hins : ∀ v ptr scope, Spec (ins v ptr scope) (InstructionPost v)) {disc : String}
    (hfilter : discriminants.filter (contains · obj) = [disc]) (hscript : disc ≠ "script") :
    Spec (instructionOf ins disc obj ptr scope) (InstructionPost (.object obj)) := by
  obtain ⟨name, named, keys, hmem, hdef, hnames, hkind⟩ :=
    kindOf_spec hins obj ptr scope (filter_singleton hfilter).1 hscript
  refine bind unknownKeys_spec fun _ =>
    bind (andThen_leaf_spec fun _ => stringField_spec.mono fun _ _ _ _ h =>
      ⟨h.1, h.2.2⟩) fun id =>
    bind onceField_spec fun once => bind hkind fun kind => pure ?_
  rintro u _ t hkind s ⟨honce, hfresh, hids⟩ r ⟨rfl, hid, -⟩ q ⟨rfl, hkeys⟩ built hbuilt
  obtain ⟨kind, rfl, rfl⟩ := Option.map_eq_some_iff.mp hbuilt
  obtain ⟨hrequired, hnamed, hnested, hwell⟩ := hkind kind rfl
  constructor
  · refine meets_instruction hfilter hmem (meets_ref hdef (Schema.valid_allOf
      (meets_closedObject ?_ hrequired ?_)))
    · simpa [hnames] using hkeys
    · intro entry hentry
      rcases List.mem_append.mp hentry with hentry | hentry
      · exact hnamed entry hentry
      · rcases List.mem_pair.mp hentry with rfl | rfl
        · exact fun x hx => meets_ref (by simp [WorkflowSchema.defs]; rfl) (hid x hx)
        · exact fun x hx => meets_ref (by simp [WorkflowSchema.defs]; rfl) (honce x hx)
  · refine ⟨?_, ?_, hnested.ids.trans hids⟩
    · rw [onceKeys_nodes]
      exact hfresh.append hnested.keys
    · rw [Instruction.nodes]
      exact List.forall_mem_cons.mpr ⟨hwell id once, hnested.wellFormed⟩

/-- One level of the walk meets its specification when the nested walk does. -/
theorem instructionStep_spec
    (hins : ∀ v ptr scope, Spec (ins v ptr scope) (InstructionPost v)) (v : Value) (ptr : String)
    (scope : Scope) : Spec (instructionStep ins v ptr scope) (InstructionPost v) := by
  unfold instructionStep
  split
  · split
    · exact reject_spec
    · next disc hfilter =>
        split
        · exact reject_spec
        · next hscript => exact instructionOf_spec hins hfilter hscript
    · exact reject_spec
  · exact reject_spec

/-- The instruction walk meets its specification, whatever its fuel. -/
theorem instruction_spec (fuel : Nat) (v : Value) (ptr : String) (scope : Scope) :
    Spec (instruction fuel v ptr scope) (InstructionPost v) := by
  induction fuel generalizing v ptr scope with
  | zero => exact pure fun _ _ _ h => by simp at h
  | succ fuel ih => exact instructionStep_spec ih v ptr scope

end Instructions

/-! ## Parameters -/

theorem parameterName_spec : Spec (parameterName name ptr) fun b _ b' =>
    b' = b ∧ Meets (.ref "identifier") (.string name) := by
  unfold parameterName
  split
  · exact dirty_bind issue_spec fun _ => trivial
  · split
    · exact dirty_bind issue_spec fun _ => trivial
    · next hname =>
        refine pure fun _ _ => ⟨rfl, ?_⟩
        refine meets_ref (s := WorkflowSchema.identifier) (by simp [WorkflowSchema.defs])
          (Schema.valid_allOf (forall_mem_pair (meets_type rfl)
            (meets_pattern (isName_match (by simpa using hname)))))

variable {ty : ParameterType}

theorem parameterType_name {s : String} (h : parameterType s = some ty) :
    s = ty.name := by
  unfold parameterType at h
  split_ifs at h with h₁ h₂ h₃ h₄ h₅ h₆ <;> obtain rfl := Option.some.inj h <;> assumption

theorem parameterDeclType_spec {v : Option Value} :
    Spec (parameterDeclType v ptr) fun b r b' =>
      b' = b ∧ ∃ ty, r = some ty ∧ v = some (.string ty.name) := by
  unfold parameterDeclType
  split
  · next s =>
      cases hty : parameterType s with
      | some ty => exact pure fun _ _ => ⟨rfl, ty, rfl, by rw [parameterType_name hty]⟩
      | none => exact reject_spec
  · exact reject_spec
  · exact reject_spec

/-- The schema of a default of this type. -/
def defaultSchema : ParameterType → Schema
  | .string => .type .string
  | .integer => .type .integer
  | .number => .type .number
  | .boolean => .type .boolean
  | .duration => .ref "humantime"
  | .array => .type .array

/-- A value that type-checks is a default the schema accepts. -/
theorem meets_default [Crates] {d : Value}
    (h : typeCheck ty d = .ok ()) : Meets (defaultSchema ty) d := by
  cases ty with
  | duration =>
    cases d with
    | string s =>
      rw [typeCheck] at h
      cases hd : parseDuration s with
      | ok parsed => exact meets_humantime (surfaceOk_of_parseDuration hd)
      | error e => simp [hd, Except.map] at h
    | _ => simp [typeCheck, ParameterType.matches_] at h
  | integer =>
    cases d with
    | number n =>
      refine meets_type ?_
      cases n with
      | posInt n _ => simp [InstanceType.admits, Number.toRat]
      | negInt n _ => simp [InstanceType.admits, Number.toRat]
      | float x _ => simp [typeCheck, ParameterType.matches_, Number.isI64, Number.isU64] at h
    | _ => simp [typeCheck, ParameterType.matches_] at h
  | _ =>
    cases d <;> first
      | exact meets_type rfl
      | simp [typeCheck, ParameterType.matches_] at h

section Declarations

variable {obj : List (String × Value)} {ty : ParameterType}

/-- Which declared type the schema's condition selects. -/
theorem decides_typeIs (htype : obj.lookup "type" = some (.string ty.name)) (name : String) :
    Schema.Decides WorkflowSchema.defs
      (.properties [("type", .const (.string name))] (.always true)) (.object obj)
      (name == ty.name) := by
  refine ⟨0, ?_⟩
  simp only [Schema.eval, Value.onObject, Schema.evalMembers, htype, Value.sameAs]
  cases name == ty.name with
  | true => exact Kleene.all_eq_true (by simp)
  | false => exact Kleene.all_eq_false (by simp)

theorem meets_defaultProperty {s : Schema} (h : ∀ x, obj.lookup "default" = some x → Meets s x) :
    Meets (.properties [("default", s)] (.always true)) (.object obj) :=
  Schema.valid_properties (by simpa using h) fun _ _ _ => ⟨0, rfl⟩

theorem meets_defaults (htype : obj.lookup "type" = some (.string ty.name))
    (h : ∀ x, obj.lookup "default" = some x → Meets (defaultSchema ty) x) :
    ∀ other : ParameterType,
      Meets (WorkflowSchema.defaultOf other.name (defaultSchema other)) (.object obj) := by
  intro other
  have hdecides := decides_typeIs htype other.name
  by_cases hsame : other = ty
  · subst hsame
    exact Schema.valid_ifThen hdecides (meets_defaultProperty h)
  · have hne : (other.name == ty.name) = false := by
      revert hsame
      cases other <;> cases ty <;> simp [ParameterType.name]
    rw [hne] at hdecides
    exact Schema.valid_ifThen_of_invalid hdecides

theorem meets_parameterDeclaration (hkeys : ∀ m ∈ obj, m.1 ∈ ["type", "required", "default"])
    (htype : obj.lookup "type" = some (.string ty.name))
    (hrequired : ∀ x, obj.lookup "required" = some x → x = .bool true)
    (hone : contains "required" obj = !contains "default" obj)
    (hdefault : ∀ x, obj.lookup "default" = some x → Meets (defaultSchema ty) x) :
    Meets (.ref "parameterDeclaration") (.object obj) := by
  refine meets_ref (s := WorkflowSchema.parameterDeclaration) (by simp [WorkflowSchema.defs])
    (Schema.valid_allOf fun s hs => ?_)
  rcases List.mem_append.mp hs with hs | hs
  · refine meets_closedObject (by simpa using hkeys) (by simp [contains_of_lookup htype]) ?_ s hs
    simp only [List.forall_mem_cons, List.not_mem_nil, false_imp_iff, implies_true, and_true]
    refine ⟨fun x hx => ?_, fun x hx => ?_, fun _ _ => ⟨0, rfl⟩⟩
    · obtain rfl := Option.some.inj (htype ▸ hx)
      exact ⟨0, by cases ty <;> simp [Schema.eval, Value.sameAs, ParameterType.name]⟩
    · rw [hrequired x hx]
      exact ⟨0, rfl⟩
  · rcases List.mem_pair.mp hs with rfl | rfl
    · cases hd : contains "default" obj with
      | true =>
        have habsent : contains "required" obj = false := by simpa [hd] using hone
        exact Schema.valid_oneOf [_] [] (Schema.valid_required (by simpa using hd))
          (by simpa using Schema.invalid_required (List.mem_singleton_self "required") habsent)
      | false =>
        exact Schema.valid_oneOf [] [_]
          (Schema.valid_required (by simpa [hd] using hone))
          (by simpa using Schema.invalid_required (List.mem_singleton_self "default") hd)
    · refine Schema.valid_allOf ?_
      simp only [List.forall_mem_cons, List.not_mem_nil, false_imp_iff, implies_true, and_true]
      have h := meets_defaults htype hdefault
      exact ⟨h .string, h .integer, h .number, h .boolean, h .duration, h .array⟩

end Declarations

theorem parameterDecl_spec [Crates] {value : Value} :
    Spec (parameterDecl value ptr) fun b r b' =>
      b' = b ∧ (r.isSome → Meets (.ref "parameterDeclaration") value) := by
  unfold parameterDecl
  split
  · next obj =>
      refine bind unknownKeys_spec fun _ => bind parameterDeclType_spec fun ty => ?_
      cases hrequired : obj.lookup "required" with
      | some r =>
        by_cases hr : r = .bool true
        · subst hr
          cases hdefault : obj.lookup "default" with
          | some d => exact reject_spec
          | none =>
            refine pure ?_
            rintro u _ t ⟨rfl, ty, rfl, htype⟩ s ⟨rfl, hkeys⟩
            refine ⟨rfl, fun _ => meets_parameterDeclaration hkeys htype ?_ ?_ ?_⟩
            · simp [hrequired]
            · simp [contains, hrequired, hdefault]
            · simp [hdefault]
        · simpa [hr] using reject_spec
      | none =>
        cases hdefault : obj.lookup "default" with
        | none => exact reject_spec
        | some d =>
          cases ty with
          | none => exact pure fun _ _ _ h => by simp at h
          | some ty =>
            simp only []
            cases hcheck : typeCheck ty d with
            | error msg => exact reject_spec
            | ok _ =>
              refine pure ?_
              rintro u _ t ⟨rfl, ty', hty, htype⟩ s ⟨rfl, hkeys⟩
              obtain rfl := Option.some.inj hty
              refine ⟨rfl, fun _ => meets_parameterDeclaration hkeys htype ?_ ?_ ?_⟩
              · simp [hrequired]
              · simp [contains, hrequired, hdefault]
              · simpa [hdefault] using meets_default hcheck
  · exact reject_spec

theorem parameters_spec [Crates] :
    Spec (parameters value) fun b r b' => b' = b ∧ (r.isSome → ∀ x, value = some x →
      Meets (.allOf [.type .object, .propertyNames (.ref "identifier"),
        .properties [] (.ref "parameterDeclaration")]) x) := by
  unfold parameters
  split
  · exact pure fun _ _ => ⟨rfl, by simp⟩
  · next obj =>
      refine (walkMembers_spec (G := fun name decl => Meets (.ref "identifier") (.string name) ∧
        Meets (.ref "parameterDeclaration") decl) fun name decl => ?_).mono
        fun _ _ _ _ h => ⟨h.1, fun hr x hx => ?_⟩
      · refine bind parameterName_spec fun ok => ?_
        cases ok with
        | false => exact pure fun _ _ _ h => ⟨h.1, by simp⟩
        | true =>
          refine parameterDecl_spec.mono fun t r u _ h s hs => ?_
          exact ⟨h.1.trans hs.1, fun hr => ⟨hs.2, h.2 hr⟩⟩
      · obtain rfl := Option.some.inj hx
        exact Schema.valid_allOf (forall_mem_triple (meets_type rfl)
          (Schema.valid_propertyNames fun m hm => (h.2 hr m hm).1)
          (Schema.valid_properties (by simp) fun m hm _ => (h.2 hr m hm).2))
  · exact reject_spec

/-! ## Triggers -/

/-- The schema of a trigger's source. -/
def sourceSchema : Schema :=
  .oneOf
    [.allOf (WorkflowSchema.closedObject [("event", WorkflowSchema.nonEmptyString)] ["event"]),
     .allOf (WorkflowSchema.closedObject
      [("poll", .allOf (WorkflowSchema.closedObject
        [("tool", WorkflowSchema.nonEmptyString), ("args", .type .object),
         ("interval", .ref "humantime")] ["tool", "interval"]))] ["poll"])]

section Triggers

variable [Crates]

variable {v : Value} {pollPtr : String}

theorem pollInterval_spec :
    Spec (pollInterval v pollPtr) fun b _ b' => b' = b ∧ Meets (.ref "humantime") v := by
  refine bind durationField_spec fun d => ?_
  cases d with
  | none => exact pure fun _ _ _ h => h
  | some d =>
    simp only []
    split
    · exact reject_spec
    · exact pure fun _ _ _ h => h

theorem pollSource_spec :
    Spec (pollSource v pollPtr) fun b _ b' => b' = b ∧
      Meets (.allOf (WorkflowSchema.closedObject
        [("tool", WorkflowSchema.nonEmptyString), ("args", .type .object),
         ("interval", .ref "humantime")] ["tool", "interval"])) v := by
  unfold pollSource
  split
  · next p =>
      refine bind unknownKeys_spec fun _ =>
        bind (required_spec issue_spec fun _ => stringField_spec) fun tool =>
        bind args_spec fun args =>
        bind (required_spec issue_spec fun _ => pollInterval_spec) fun interval =>
        pure ?_
      rintro u _ t ⟨interval, hinterval, rfl, hi⟩ s ⟨rfl, hargs⟩ r ⟨tool, htool, rfl, -, ht⟩
        q ⟨rfl, hkeys⟩
      refine ⟨rfl, Schema.valid_allOf (meets_closedObject (by simpa using hkeys) ?_ ?_)⟩
      · simp [contains_of_lookup htool, contains_of_lookup hinterval]
      · simpa [htool, hinterval] using ⟨ht, hargs, hi⟩
  · exact reject_spec

variable {ptr : String}

theorem triggerSource_spec :
    Spec (triggerSource v ptr) fun b _ b' => b' = b ∧ Meets sourceSchema v := by
  have hinvalid : ∀ {key other : String} {x : Value} {named : List (String × Schema)},
      other ≠ key → Schema.Invalid WorkflowSchema.defs
        (.allOf (WorkflowSchema.closedObject named [other])) (.object [(key, x)]) :=
    fun {key other x named} hne => Schema.invalid_allOf (s := .required [other])
      (by simp [WorkflowSchema.closedObject])
      (Schema.invalid_required (List.mem_singleton_self other) (by simp [contains, hne]))
  unfold triggerSource
  split
  · next x =>
      refine map (stringField_spec.mono fun _ _ _ _ h => ⟨h.1, ?_⟩)
      exact Schema.valid_oneOf [] [_]
        (Schema.valid_allOf (meets_closedObject (by simp) (by simp [contains])
          (by simpa using h.2.2)))
        (by simpa using hinvalid (by simp))
  · next p =>
      refine pollSource_spec.mono fun _ _ _ _ h => ⟨h.1, ?_⟩
      exact Schema.valid_oneOf [_] []
        (Schema.valid_allOf (meets_closedObject (by simp) (by simp [contains])
          (by simpa using h.2)))
        (by simpa using hinvalid (by simp))
  · exact reject_spec
  · exact reject_spec

omit [Crates] in
theorem triggerId_spec :
    Spec (triggerId v ptr) fun b r b' => Meets WorkflowSchema.nonEmptyString v ∧
      ∀ id, r = some id → Fresh [id] b.triggerIds b'.triggerIds ∧
        b'.onceKeys = b.onceKeys := by
  refine bind stringField_spec fun id => ?_
  cases id with
  | none => exact pure fun _ _ _ h => by simp at h
  | some id =>
    refine bind get fun seen => ?_
    cases hlookup : seen.triggerIds.lookup id with
    | some first => exact reject_spec
    | none =>
      refine bind (modify fun _ h => h) fun _ => pure ?_
      rintro u _ t rfl s ⟨rfl, rfl⟩ r ⟨rfl, -, hmeets⟩
      refine ⟨hmeets, fun id' hid => ?_⟩
      obtain rfl := Option.some.inj hid
      exact ⟨Fresh.insertSorted _ (by simp [contains, hlookup]), rfl⟩

omit [Crates] in
theorem triggerOnce_spec {v : Option Value} :
    Spec (triggerOnce v ptr) fun b _ b' => b' = b ∧
      ∀ x, v = some x → Meets (.type .boolean) x := by
  unfold triggerOnce
  split
  · exact pure fun _ _ => ⟨rfl, by simp⟩
  · exact pure fun _ _ => ⟨rfl, by simpa using meets_type rfl⟩
  · exact reject_spec

/-- What a clean trigger walk says. -/
def TriggerPost (v : Value) (b : Builder) (r : Option Trigger) (b' : Builder) : Prop :=
  ∀ t, r = some t → Meets (.ref "trigger") v ∧
    Fresh (onceKeys (blockNodes t.actions)) b.onceKeys b'.onceKeys ∧
    Fresh [t.id] b.triggerIds b'.triggerIds ∧
    ∀ ins ∈ blockNodes t.actions, ins.WellFormed

variable {ins : WalkInstruction}

theorem trigger_spec (hins : ∀ v ptr scope, Spec (ins v ptr scope) (InstructionPost v)) (v : Value)
    (ptr : String) : Spec (trigger ins v ptr) (TriggerPost v) := by
  unfold trigger
  split
  · next obj =>
      refine bind unknownKeys_spec fun _ =>
        bind (required_spec issue_spec fun _ => triggerId_spec) fun id =>
        bind (required_spec issue_spec fun _ => triggerSource_spec) fun on =>
        bind (optional_leaf_spec fun _ => expression_spec) fun when_ =>
        bind (optional_leaf_spec fun _ => expression_spec) fun whileGate =>
        bind (optional_leaf_spec fun _ => durationField_spec) fun cooldown =>
        bind triggerOnce_spec fun once =>
        bind (required_spec issue_spec fun _ => block_spec hins) fun actions =>
        pure ?_
      rintro b₇ _ b₆ ⟨doValue, hdo, hbody⟩ b₅ ⟨rfl, honce⟩ b₄ ⟨rfl, hcooldown, -⟩
        b₃ ⟨rfl, hwhile, -⟩ b₂ ⟨rfl, hwhen, -⟩ b₁ ⟨onValue, hon, rfl, hsource⟩
        b₀ ⟨idValue, hid, hidMeets, hidFresh⟩ b ⟨rfl, hkeys⟩ built hbuilt
      simp only [Option.bind_eq_bind, Option.bind_eq_some_iff, Option.pure_def,
        Option.some.injEq] at hbuilt
      obtain ⟨id, rfl, on, rfl, when_, rfl, whileGate, rfl, cooldown, rfl, once, rfl, actions,
        rfl, rfl⟩ := hbuilt
      obtain ⟨hactions, hnested⟩ := hbody actions rfl
      obtain ⟨hfresh, hsame⟩ := hidFresh id rfl
      refine ⟨meets_ref (s := WorkflowSchema.trigger) (by simp [WorkflowSchema.defs]) ?_,
        hsame ▸ hnested.keys, hnested.ids ▸ hfresh, hnested.wellFormed⟩
      refine Schema.valid_allOf (meets_closedObject (by simpa using hkeys) ?_ ?_)
      · simp [contains_of_lookup hid, contains_of_lookup hon, contains_of_lookup hdo]
      · simp only [List.forall_mem_cons, List.not_mem_nil, false_imp_iff, implies_true, and_true]
        refine ⟨fun x hx => ?_, fun x hx => ?_, hwhen, hwhile, hcooldown, honce, fun x hx => ?_⟩
        · obtain rfl := Option.some.inj (hid ▸ hx)
          exact meets_ref (by simp [WorkflowSchema.defs]; rfl) hidMeets
        · obtain rfl := Option.some.inj (hon ▸ hx)
          exact hsource
        · obtain rfl := Option.some.inj (hdo ▸ hx)
          exact hactions
  · exact reject_spec

omit [Crates] in
theorem items_triggers {items : List Value} {b b' : Builder} {triggers : List Trigger}
    (h : Items TriggerPost items b triggers b') :
    (∀ item ∈ items, Meets (.ref "trigger") item) ∧
      Fresh (onceKeys (triggers.flatMap fun t => blockNodes t.actions)) b.onceKeys
        b'.onceKeys ∧
      Fresh (triggers.map Trigger.id) b.triggerIds b'.triggerIds ∧
      ∀ ins ∈ triggers.flatMap fun t => blockNodes t.actions, ins.WellFormed := by
  induction h with
  | nil b => exact ⟨by simp, Fresh.nil, Fresh.nil, by simp⟩
  | @cons v vs b t mid ts b' head _ ih =>
    obtain ⟨hv, hkeys, hids, hwell⟩ := head t rfl
    obtain ⟨hvs, hkeys', hids', hwell'⟩ := ih
    refine ⟨List.forall_mem_cons.mpr ⟨hv, hvs⟩, ?_, hids.append hids', ?_⟩
    · rw [List.flatMap_cons, onceKeys, List.filterMap_append]
      exact hkeys.append hkeys'
    · rw [List.flatMap_cons]
      intro ins hmem
      rcases List.mem_append.mp hmem with hmem | hmem
      · exact hwell ins hmem
      · exact hwell' ins hmem

theorem triggers_spec {value : Option Value}
    (hins : ∀ v ptr scope, Spec (ins v ptr scope) (InstructionPost v)) :
    Spec (triggers ins value) fun b r b' => ∀ ts, r = some ts →
      (∀ x, value = some x → Meets (.allOf [.type .array, .items (.ref "trigger")]) x) ∧
      Fresh (onceKeys (ts.flatMap fun t => blockNodes t.actions)) b.onceKeys b'.onceKeys ∧
      (ts.map Trigger.id).Nodup ∧
      ∀ ins ∈ ts.flatMap fun t => blockNodes t.actions, ins.WellFormed := by
  unfold triggers
  split
  · refine pure fun _ _ ts hts => ?_
    obtain rfl := Option.some.inj hts
    exact ⟨by simp, Fresh.nil, by simp, by simp⟩
  · next items =>
      refine (walkItems_spec (trigger_spec hins)).mono fun _ _ _ _ h ts hts => ?_
      obtain ⟨hitems, hkeys, hids, hwell⟩ := items_triggers (h ts hts)
      refine ⟨fun x hx => ?_, hkeys, hids.nodup, hwell⟩
      obtain rfl := Option.some.inj hx
      exact Schema.valid_allOf (forall_mem_pair (meets_type rfl) (Schema.valid_items hitems))
  · exact reject_spec

end Triggers

/-! ## Documents -/

/-- What the engine relies on of a validated document. -/
structure Document.Accepted (doc : Document) : Prop where
  keys : (onceKeys doc.nodes).Nodup
  ids : (doc.triggers.map Trigger.id).Nodup
  wellFormed : ∀ ins ∈ doc.nodes, ins.WellFormed

section Documents

variable [Crates]

omit [Crates] in
theorem description_spec {v : Option Value} : Spec (description v) fun b _ b' =>
    b' = b ∧ ∀ x, v = some x → Meets (.type .string) x := by
  unfold description
  split
  · exact pure fun _ _ => ⟨rfl, by simp⟩
  · exact pure fun _ _ => ⟨rfl, by simpa using meets_type rfl⟩
  · exact reject_spec

omit [Crates] in
theorem meets_version {v : Value} (h : v.asU64 = some supportedVersion) :
    Meets (.const (.nat 1)) v := by
  cases v with
  | number x =>
    cases x with
    | posInt n fits =>
      obtain rfl : n = 1 := by simpa [Value.asU64, Number.asU64, supportedVersion] using h
      exact ⟨0, by simp [Schema.eval, Value.nat, Number.ofNat, Value.sameAs, Number.toRat]⟩
    | _ => simp [Value.asU64, Number.asU64] at h
  | _ => simp [Value.asU64] at h

theorem documentBody_spec {ins : WalkInstruction} {obj : List (String × Value)} {version : Nat}
    (hins : ∀ v ptr scope, Spec (ins v ptr scope) (InstructionPost v)) :
    Spec (documentBody ins obj version) fun _ r _ => ∀ doc, r = some doc →
      (∀ v, obj.lookup "version" = some v → v.asU64 = some supportedVersion →
        Meets WorkflowSchema.document (.object obj)) ∧ doc.Accepted := by
  refine bind unknownKeys_spec fun _ =>
    bind (required_spec issue_spec fun _ => stringField_spec) fun name =>
    bind description_spec fun description =>
    bind parameters_spec fun parameters =>
    bind (andThen_leaf_spec fun _ => durationField_spec) fun estimated =>
    bind (andThen_leaf_spec fun _ => durationField_spec) fun max =>
    bind (required_spec issue_spec fun v => hins v _ _) fun root =>
    bind (triggers_spec hins) fun triggers => pure ?_
  rintro b₇ _ b₆ htriggers b₅ ⟨rootValue, hroot, hrootPost⟩ b₄ ⟨rfl, hmax, -⟩
    b₃ ⟨rfl, hestimated, -⟩ b₂ ⟨rfl, hparameters⟩ b₁ ⟨rfl, hdescription⟩
    b₀ ⟨nameValue, hname, rfl, -, hnameMeets⟩ b ⟨rfl, hkeys⟩ doc hdoc
  simp only [Option.bind_eq_bind, Option.bind_eq_some_iff, Option.pure_def,
    Option.some.injEq] at hdoc
  obtain ⟨name, rfl, parameters, rfl, triggers, rfl, root, rfl, rfl⟩ := hdoc
  obtain ⟨hrootMeets, hbuilt⟩ := hrootPost root rfl
  obtain ⟨htriggersMeets, hfresh, hids, hwell⟩ := htriggers triggers rfl
  refine ⟨fun v hv hversion => Schema.valid_allOf (meets_closedObject
    (by simpa [topKeys] using hkeys) ?_ ?_), ?_, hids, ?_⟩
  · simp [contains_of_lookup hv, contains_of_lookup hname, contains_of_lookup hroot]
  · simp only [List.forall_mem_cons, List.not_mem_nil, false_imp_iff, implies_true, and_true]
    refine ⟨fun x hx => ?_, fun x hx => ?_, hdescription, hparameters rfl, hestimated, hmax,
      htriggersMeets, fun x hx => ?_⟩
    · obtain rfl := Option.some.inj (hv ▸ hx)
      exact meets_version hversion
    · obtain rfl := Option.some.inj (hname ▸ hx)
      exact hnameMeets
    · obtain rfl := Option.some.inj (hroot ▸ hx)
      exact hrootMeets
  · rw [Document.nodes, onceKeys, List.filterMap_append]
    exact (hbuilt.keys.append hfresh).nodup
  · intro ins hmem
    rcases List.mem_append.mp hmem with hmem | hmem
    · exact hbuilt.wellFormed ins hmem
    · exact hwell ins hmem

theorem document_spec (fuel : Nat) (value : Value) :
    Spec (document (instruction fuel) value) fun _ r _ => ∀ doc, r = some doc →
      Meets WorkflowSchema.document value ∧ doc.Accepted := by
  unfold document
  split
  · next obj =>
      split
      · next v hv =>
          split
          · next hversion =>
              exact (documentBody_spec (instruction_spec fuel)).mono fun _ _ _ _ h doc hdoc =>
                ⟨(h doc hdoc).1 v hv hversion, (h doc hdoc).2⟩
          · exact reject_spec
      · exact dirty_bind issue_spec fun _ =>
          (documentBody_spec (instruction_spec fuel)).mono fun _ _ _ _ _ => trivial
  · exact reject_spec

/-- An accepted value satisfies the schema, and its document the engine's assumptions. -/
theorem accepted_of_build {value : Value} {doc : Document} (h : build value = .ok doc) :
    Meets WorkflowSchema.document value ∧ doc.Accepted := by
  unfold build at h
  split at h
  · cases h
  · have hspec := document_spec (maxNesting + 1) value {}
    rcases hrun : document (instruction (maxNesting + 1)) value {} with ⟨_ | found, b⟩
    · simp [hrun] at h
    · rw [hrun] at hspec h
      by_cases hclean : b.issues = []
      · obtain rfl : found = doc := by simpa [hclean] using h
        exact (hspec hclean).2 found rfl
      · simp [hclean] at h

/-- The walk accepts nothing the published schema rejects. -/
theorem build_agrees_with_schema (value : Value) :
    (∀ doc, build value = .ok doc →
      Schema.Valid WorkflowSchema.defs WorkflowSchema.document value) ∧
    (Schema.Invalid WorkflowSchema.defs WorkflowSchema.document value →
      ∃ issues, build value = .error issues) := by
  refine ⟨fun doc h => (accepted_of_build h).1, fun hinvalid => ?_⟩
  cases h : build value with
  | error issues => exact ⟨issues, rfl⟩
  | ok doc => exact absurd hinvalid fun hinvalid =>
    Schema.not_valid_and_invalid (accepted_of_build h).1 hinvalid

end Documents

/-- A document that counts one frame. -/
def countDocument : Value :=
  .object [("version", .nat 1), ("name", .string "flats"), ("max_duration", .string "30s"),
    ("root", .object [("sequence", .array [
      .object [("set", .object [("session.count", .string "1")])]])])]

/-- The counting document is accepted, so it satisfies the schema. -/
theorem countDocument_valid :
    Schema.Valid WorkflowSchema.defs WorkflowSchema.document countDocument := by
  let _ := Crates.wholeSeconds
  have haccepted : (build countDocument).isOk = true := by decide +kernel
  cases h : build countDocument with
  | ok doc => exact (build_agrees_with_schema countDocument).1 doc h
  | error issues =>
    rw [h] at haccepted
    cases haccepted

end RustyPhoton.SessionRunner
