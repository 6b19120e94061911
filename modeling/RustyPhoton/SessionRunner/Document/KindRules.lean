import RustyPhoton.SessionRunner.Document.FieldRules

/-!
# What a clean walk says of an instruction kind

Each kind walker that leaves the builder clean has seen the properties its schema names, and has
built its nested instructions: their `once` keys are recorded, all new, and their `set` entries
stay out of the engine's reserved keys. The walk of the nested instructions is a parameter here.
-/

namespace RustyPhoton.SessionRunner

open Lib Expr Checks

/-- A `set` path starts with a name, so it never enters an engine-reserved key. -/
def SetEntry.WellFormed (entry : SetEntry) : Prop :=
  ∃ head rest, entry.path = head :: rest ∧ isName head.toList = true

def Instruction.WellFormed (ins : Instruction) : Prop :=
  ∀ entries, ins.kind = .set entries → ∀ entry ∈ entries, entry.WellFormed

/-- A clean walk built these instructions: it recorded their `once` keys, all new. -/
structure Built (nodes : List Instruction) (b b' : Builder) : Prop where
  keys : Assoc.Fresh (onceKeys nodes) b.onceKeys b'.onceKeys
  wellFormed : ∀ ins ∈ nodes, ins.WellFormed
  ids : b'.triggerIds = b.triggerIds

variable {b : Builder}

theorem Built.nil : Built [] b b :=
  ⟨Assoc.Fresh.nil, by simp, rfl⟩

theorem Built.append {nodes more : List Instruction} {mid b' : Builder} (h : Built nodes b mid)
    (h' : Built more mid b') : Built (nodes ++ more) b b' := by
  refine ⟨?_, ?_, h'.ids.trans h.ids⟩
  · rw [onceKeys, List.filterMap_append]
    exact h.keys.append h'.keys
  · intro ins hins
    rcases List.mem_append.mp hins with hins | hins
    · exact h.wellFormed ins hins
    · exact h'.wellFormed ins hins

/-! ## Blocks -/

/-- What a clean instruction walk says. -/
def InstructionPost (v : Value) (b : Builder) (r : Option Instruction) (b' : Builder) : Prop :=
  ∀ ins, r = some ins → Meets (.ref "instruction") v ∧ Built ins.nodes b b'

/-- What a clean block walk says. -/
def BlockPost (v : Value) (b : Builder) (r : Option (List Instruction)) (b' : Builder) : Prop :=
  ∀ body, r = some body → Meets WorkflowSchema.blockSchema v ∧ Built (blockNodes body) b b'

theorem items_instructions {items : List Value} {b' : Builder} {body : List Instruction}
    (h : Items InstructionPost items b body b') :
    (∀ item ∈ items, Meets (.ref "instruction") item) ∧ Built (blockNodes body) b b' := by
  induction h with
  | nil b => exact ⟨by simp, Built.nil⟩
  | cons head _ ih =>
    obtain ⟨hv, hbuilt⟩ := head _ rfl
    exact ⟨List.forall_mem_cons.mpr ⟨hv, ih.1⟩, hbuilt.append ih.2⟩

section Blocks

variable {ins : WalkInstruction}

theorem block_spec (hins : ∀ v ptr scope, Spec (ins v ptr scope) (InstructionPost v))
    {v : Value} {ptr : String} {scope : Scope} {what : String} :
    Spec (block ins v ptr scope what 1) (BlockPost v) := by
  unfold block
  split
  · next items =>
      split
      · exact reject_spec
      · next hlen =>
          refine (walkItems_spec fun v ptr => hins v ptr scope).mono fun b r b' _ h body hr => ?_
          obtain ⟨hitems, hbuilt⟩ := items_instructions (h body hr)
          refine ⟨Schema.valid_allOf ?_, hbuilt⟩
          simp only [List.forall_mem_cons, List.not_mem_nil, false_imp_iff, implies_true, and_true]
          refine ⟨meets_type rfl, Schema.valid_items hitems, 0, ?_⟩
          simp [Schema.eval, Value.onArray]
          omega
  · exact reject_spec

theorem optional_block_spec {value : Option Value}
    {validate : Value → Walk (Option (List Instruction))}
    (h : ∀ v, Spec (validate v) (BlockPost v)) :
    Spec (optional value validate) fun b r b' => ∀ body, r = some body →
      (∀ x, value = some x → Meets WorkflowSchema.blockSchema x) ∧
        Built (optionNodes body) b b' := by
  refine (optional_spec h).mono fun b r b' _ hr body hbody => ?_
  rcases hr with ⟨rfl, rfl, rfl⟩ | ⟨v, r', rfl, rfl, hpost⟩
  · obtain rfl := Option.some.inj hbody
    exact ⟨by simp, Built.nil⟩
  · obtain ⟨inner, rfl, rfl⟩ := Option.map_eq_some_iff.mp hbody
    obtain ⟨hv, hbuilt⟩ := hpost inner rfl
    exact ⟨by simpa using hv, hbuilt⟩

end Blocks

/-! ## Instruction kinds -/

/-- What a clean walk of one kind says: the schema's own properties of the kind are accepted, its
required keys are there, and the nested instructions were built. -/
def KindPost (named : List (String × Schema)) (keys : List String) (obj : List (String × Value))
    (b : Builder) (r : Option InstructionKind) (b' : Builder) : Prop :=
  ∀ kind, r = some kind →
    (∀ key ∈ keys, Assoc.contains key obj = true) ∧
    (∀ entry ∈ named, ∀ x, obj.lookup entry.1 = some x → Meets entry.2 x) ∧
    Built kind.nodes b b' ∧
    (∀ id once, (Instruction.mk id once kind).WellFormed)

theorem wellFormed_of_not_set {id once : Option String} {kind : InstructionKind}
    (h : ∀ entries, kind ≠ .set entries) : (Instruction.mk id once kind).WellFormed :=
  fun entries he => absurd he (h entries)

variable {key : String} {obj : List (String × Value)}

theorem isSome_lookup (h : (obj.lookup key).isSome = true) : Assoc.contains key obj = true := h

variable {keys : List String}

theorem filter_singleton {present : String → Bool} (h : keys.filter present = [key]) :
    key ∈ keys ∧ present key = true ∧ ∀ other ∈ keys, other ≠ key → present other = false := by
  have hkey : key ∈ keys.filter present := by simp [h]
  refine ⟨(List.mem_filter.mp hkey).1, (List.mem_filter.mp hkey).2, fun other ho hne => ?_⟩
  by_contra hp
  have hmem : other ∈ keys.filter present := List.mem_filter.mpr ⟨ho, by simpa using hp⟩
  rw [h, List.mem_singleton] at hmem
  exact hne hmem

/-! ### Exclusive modes -/

theorem meets_mode {others : List String} (hkeys : ∀ key ∈ keys, Assoc.contains key obj = true)
    (hothers : ∀ key ∈ others, Assoc.contains key obj = false) :
    Meets (WorkflowSchema.mode keys others) (.object obj) := by
  refine Schema.valid_allOf ?_
  simp only [List.forall_mem_cons, List.not_mem_nil, false_imp_iff, implies_true, and_true]
  refine ⟨Schema.valid_required hkeys, Schema.valid_not (Schema.invalid_anyOf fun t ht => ?_)⟩
  obtain ⟨key, hkey, rfl⟩ := List.mem_map.mp ht
  exact Schema.invalid_required (List.mem_singleton_self key) (hothers key hkey)

theorem invalid_mode {others : List String}
    (hkey : key ∈ keys) (h : Assoc.contains key obj = false) :
    Schema.Invalid WorkflowSchema.defs (WorkflowSchema.mode keys others) (.object obj) :=
  Schema.invalid_allOf (s := .required keys) (by simp) (Schema.invalid_required hkey h)

variable {p : Schema → Prop}

theorem forall_mem_pair {a b : Schema} (ha : p a) (hb : p b) :
    ∀ s ∈ [a, b], p s := by
  simpa using ⟨ha, hb⟩

theorem forall_mem_triple {a b c : Schema} (ha : p a) (hb : p b) (hc : p c) :
    ∀ s ∈ [a, b, c], p s := by
  simpa using ⟨ha, hb, hc⟩

theorem lookup_absent {G : Value → Prop}
    (h : Assoc.contains key obj = false) : ∀ x, obj.lookup key = some x → G x :=
  fun x hx => by simp [contains_of_lookup hx] at h

def waitKeys : List String := ["duration", "until_event", "until", "timeout", "poll_interval"]

variable {w : List (String × Value)}

theorem meets_waitOptions (hkeys : ∀ m ∈ w, m.1 ∈ waitKeys)
    (hduration : ∀ x, w.lookup "duration" = some x → Meets (.ref "humantime") x)
    (hevent : ∀ x, w.lookup "until_event" = some x → Meets WorkflowSchema.nonEmptyString x)
    (huntil : ∀ x, w.lookup "until" = some x → Meets (.ref "expression") x)
    (htimeout : ∀ x, w.lookup "timeout" = some x → Meets (.ref "humantime") x)
    (hpoll : ∀ x, w.lookup "poll_interval" = some x → Meets (.ref "humantime") x)
    (hmode : Meets (.oneOf
      [WorkflowSchema.mode ["duration"] ["until_event", "until", "timeout", "poll_interval"],
       WorkflowSchema.mode ["until_event", "timeout"] ["duration", "until", "poll_interval"],
       WorkflowSchema.mode ["until", "timeout"] ["duration", "until_event"]]) (.object w)) :
    Meets (.ref "waitOptions") (.object w) := by
  refine meets_ref (s := WorkflowSchema.waitOptions) (by simp [WorkflowSchema.defs])
    (Schema.valid_allOf (forall_mem_triple (meets_type rfl) ?_ hmode))
  refine Schema.valid_properties ?_ fun m hm hnot =>
    absurd (hkeys m hm) (by simpa [waitKeys] using hnot)
  simp only [List.forall_mem_cons, List.not_mem_nil, false_imp_iff, implies_true, and_true]
  exact ⟨hduration, hevent, huntil, htimeout, hpoll⟩

theorem strayField_spec {wptr message : String} :
    Spec (strayField w wptr key message) fun b r b' =>
      b' = b ∧ r = false ∧ Assoc.contains key w = false := by
  unfold strayField
  split
  · exact dirty_bind issue_spec fun _ => trivial
  · next h => exact pure fun _ _ => ⟨rfl, rfl, by simpa using h⟩

section Kinds

variable {ins : WalkInstruction} {obj : List (String × Value)} {ptr : String} {scope : Scope}

theorem sequenceKind_spec (hins : ∀ v ptr scope, Spec (ins v ptr scope) (InstructionPost v)) :
    Spec (sequenceKind ins obj ptr scope)
      (KindPost [("sequence", .allOf [.type .array, .items (.ref "instruction")])] ["sequence"]
        obj) := by
  unfold sequenceKind
  split
  · exact pure fun _ _ _ h => by simp at h
  · next items hseq =>
      refine map ((walkItems_spec fun v ptr => hins v ptr scope).mono
        fun b r b' _ h kind hkind => ?_)
      obtain ⟨body, rfl, rfl⟩ := Option.map_eq_some_iff.mp hkind
      obtain ⟨hitems, hbuilt⟩ := items_instructions (h body rfl)
      refine ⟨by simpa using contains_of_lookup hseq, ?_, hbuilt,
        fun _ _ => wellFormed_of_not_set (by simp)⟩
      have hmeets : Meets (.allOf [.type .array, .items (.ref "instruction")]) (.array items) :=
        Schema.valid_allOf (by simpa using ⟨meets_type rfl, Schema.valid_items hitems⟩)
      simpa [hseq] using hmeets
  · exact reject_spec

theorem ifKind_spec (hins : ∀ v ptr scope, Spec (ins v ptr scope) (InstructionPost v)) :
    Spec (ifKind ins obj ptr scope)
      (KindPost [("if", .ref "expression"), ("then", WorkflowSchema.blockSchema),
        ("else", WorkflowSchema.blockSchema)] ["if", "then"] obj) := by
  refine bind (andThen_leaf_spec fun _ => expression_spec) fun condition =>
    bind (required_spec issue_spec fun _ => block_spec hins) fun then_ =>
    bind (optional_block_spec fun _ => block_spec hins) fun otherwise => pure ?_
  rintro u _ t helse s ⟨v, hthen, hbody⟩ r ⟨rfl, hif, hpresent⟩ kind hkind
  simp only [Option.bind_eq_bind, Option.bind_eq_some_iff, Option.pure_def,
    Option.some.injEq] at hkind
  obtain ⟨condition, rfl, then_, rfl, otherwise, rfl, rfl⟩ := hkind
  obtain ⟨hmeets, hbuilt⟩ := hbody then_ rfl
  obtain ⟨helse, hbuiltElse⟩ := helse otherwise rfl
  refine ⟨?_, ?_, hbuilt.append hbuiltElse, fun _ _ => wellFormed_of_not_set (by simp)⟩
  · simp [isSome_lookup (hpresent rfl), contains_of_lookup hthen]
  · simpa [hthen] using ⟨hif, hmeets, helse⟩

theorem tryKind_spec (hins : ∀ v ptr scope, Spec (ins v ptr scope) (InstructionPost v)) :
    Spec (tryKind ins obj ptr scope)
      (KindPost [("try", WorkflowSchema.blockSchema), ("catch", WorkflowSchema.blockSchema),
        ("finally", WorkflowSchema.blockSchema)] ["try"] obj) := by
  refine bind (andThen_spec fun _ => block_spec hins) fun body =>
    bind (optional_block_spec fun _ => block_spec hins) fun catch_ =>
    bind (optional_block_spec fun _ => block_spec hins) fun finally_ => pure ?_
  rintro u _ t hfinally s hcatch r hbody kind hkind
  simp only [Option.bind_eq_bind, Option.bind_eq_some_iff, Option.pure_def,
    Option.some.injEq] at hkind
  obtain ⟨body, rfl, catch_, rfl, finally_, rfl, rfl⟩ := hkind
  obtain ⟨v, htry, hbody⟩ := hbody.resolve_left (by simp)
  obtain ⟨hmeets, hbuilt⟩ := hbody body rfl
  obtain ⟨hcatch, hbuiltCatch⟩ := hcatch catch_ rfl
  obtain ⟨hfinally, hbuiltFinally⟩ := hfinally finally_ rfl
  refine ⟨by simp [contains_of_lookup htry], ?_, (hbuilt.append hbuiltCatch).append hbuiltFinally,
    fun _ _ => wellFormed_of_not_set (by simp)⟩
  simpa [htry] using ⟨hmeets, hcatch, hfinally⟩

variable {opts : List (String × Value)}

theorem meets_repeatOptions
    (hkeys : ∀ m ∈ opts, m.1 ∈ ["until", "while", "count", "max_iterations"])
    (huntil : ∀ x, opts.lookup "until" = some x → Meets (.ref "expression") x)
    (hwhile : ∀ x, opts.lookup "while" = some x → Meets (.ref "expression") x)
    (hcount : ∀ x, opts.lookup "count" = some x → Meets WorkflowSchema.countBound x)
    (hmax : ∀ x, opts.lookup "max_iterations" = some x → Meets WorkflowSchema.positiveBound x)
    (hmode : Meets (.oneOf [WorkflowSchema.mode ["until", "max_iterations"] ["while", "count"],
      WorkflowSchema.mode ["while", "max_iterations"] ["until", "count"],
      WorkflowSchema.mode ["count"] ["until", "while"]]) (.object opts)) :
    Meets (.ref "repeatOptions") (.object opts) := by
  refine meets_ref (s := WorkflowSchema.repeatOptions) (by simp [WorkflowSchema.defs])
    (Schema.valid_allOf (forall_mem_triple (meets_type rfl) ?_ hmode))
  refine Schema.valid_properties ?_ fun m hm hnot => absurd (hkeys m hm) (by simpa using hnot)
  simp only [List.forall_mem_cons, List.not_mem_nil, false_imp_iff, implies_true, and_true]
  exact ⟨huntil, hwhile, fun x hx => meets_ref (by simp [WorkflowSchema.defs]) (hcount x hx),
    fun x hx => meets_ref (by simp [WorkflowSchema.defs]) (hmax x hx)⟩

/-- The selected mode of a clean `repeat`: its bounds are accepted and its keys present. -/
theorem repeatMode_spec {rptr modeKey : String}
    (hmode : ["until", "while", "count"].filter (Assoc.contains · opts) = [modeKey]) :
    Spec (repeatMode opts rptr scope modeKey) fun b r b' => b' = b ∧ (r.isSome →
      (∀ m ∈ opts, m.1 ∈ ["until", "while", "count", "max_iterations"]) →
      Meets (.ref "repeatOptions") (.object opts)) := by
  obtain ⟨hmem, hpresent, habsent⟩ := filter_singleton hmode
  refine bind (optional_leaf_spec fun _ => bound_spec) fun maxIterations => ?_
  by_cases hcount : modeKey = "count"
  · subst hcount
    rw [if_pos rfl]
    refine bind (andThen_leaf_spec fun _ => bound_spec) fun count => pure ?_
    rintro u _ t ⟨rfl, hbound, -⟩ s ⟨rfl, hmax, -⟩
    refine ⟨rfl, fun _ hkeys => meets_repeatOptions hkeys (lookup_absent (habsent _ (by simp) (by simp)))
      (lookup_absent (habsent _ (by simp) (by simp))) hbound hmax ?_⟩
    exact Schema.valid_oneOf [_, _] []
      (meets_mode (by simpa using hpresent) (by simpa using habsent))
      (forall_mem_pair (invalid_mode (by simp) (habsent "until" (by simp) (by simp)))
        (invalid_mode (by simp) (habsent "while" (by simp) (by simp))))
  · rw [if_neg hcount]
    refine bind (andThen_leaf_spec fun _ => expression_spec) fun condition => ?_
    cases maxIterations with
    | none => exact pure fun u _ t hcond s hmax => ⟨hcond.1.trans hmax.1, by simp⟩
    | some bound =>
      cases bound with
      | none => exact reject_spec
      | some bound =>
        refine pure ?_
        rintro u _ t ⟨rfl, hcond, -⟩ s ⟨rfl, hmax, hsome⟩
        have hmaxPresent : Assoc.contains "max_iterations" opts = true := hsome rfl
        refine ⟨rfl, fun _ hkeys => ?_⟩
        have hcases : modeKey = "until" ∨ modeKey = "while" := by
          simpa [hcount] using hmem
        rcases hcases with rfl | rfl
        · refine meets_repeatOptions hkeys hcond (lookup_absent (habsent _ (by simp) (by simp)))
            (lookup_absent (habsent _ (by simp) (by simp))) hmax ?_
          exact Schema.valid_oneOf [] [_, _]
            (meets_mode (by simpa using ⟨hpresent, hmaxPresent⟩) (by simpa using habsent))
            (forall_mem_pair (invalid_mode (by simp) (habsent "while" (by simp) (by simp)))
              (invalid_mode (by simp) (habsent "count" (by simp) (by simp))))
        · refine meets_repeatOptions hkeys (lookup_absent (habsent _ (by simp) (by simp))) hcond
            (lookup_absent (habsent _ (by simp) (by simp))) hmax ?_
          exact Schema.valid_oneOf [_] [_]
            (meets_mode (by simpa using ⟨hpresent, hmaxPresent⟩) (by simpa using habsent))
            (forall_mem_pair (invalid_mode (by simp) (habsent "until" (by simp) (by simp)))
              (invalid_mode (by simp) (habsent "count" (by simp) (by simp))))

theorem repeatKind_spec (hins : ∀ v ptr scope, Spec (ins v ptr scope) (InstructionPost v)) :
    Spec (repeatKind ins obj ptr scope)
      (KindPost [("repeat", .ref "repeatOptions"), ("body", WorkflowSchema.blockSchema)]
        ["repeat", "body"] obj) := by
  unfold repeatKind
  split
  · exact pure fun _ _ _ h => by simp at h
  · next opts hrepeat =>
      refine bind unknownKeys_spec fun _ => ?_
      split
      · next modeKey hmode =>
          refine bind (repeatMode_spec hmode) fun mode => ?_
          cases mode with
          | none => exact pure fun _ _ _ _ _ _ _ h => by simp at h
          | some mode =>
            refine bind (required_spec issue_spec fun _ => block_spec hins) fun body =>
              pure ?_
            rintro u _ t ⟨v, hlookup, hbody⟩ s ⟨rfl, hoptions⟩ r ⟨rfl, hkeys⟩ kind hkind
            obtain ⟨body, rfl, rfl⟩ := Option.map_eq_some_iff.mp hkind
            obtain ⟨hmeets, hbuilt⟩ := hbody body rfl
            refine ⟨by simp [contains_of_lookup hrepeat, contains_of_lookup hlookup], ?_,
              hbuilt, fun _ _ => wellFormed_of_not_set (by simp)⟩
            simpa [hrepeat, hlookup] using ⟨hoptions rfl hkeys, hmeets⟩
      · exact reject_spec
      · exact reject_spec
  · exact reject_spec

theorem failKind_spec : Spec (failKind obj ptr scope)
    (KindPost [("fail", .allOf (WorkflowSchema.closedObject [("message", .ref "expression")]
      ["message"]))] ["fail"] obj) := by
  unfold failKind
  split
  · exact pure fun _ _ _ h => by simp at h
  · next f hfail =>
      refine bind unknownKeys_spec fun _ =>
        bind (required_spec issue_spec fun _ => expression_spec) fun message =>
        pure ?_
      rintro u _ t ⟨v, hmessage, rfl, hv⟩ s ⟨rfl, hkeys⟩ kind hkind
      obtain ⟨message, rfl, rfl⟩ := Option.map_eq_some_iff.mp hkind
      refine ⟨by simp [contains_of_lookup hfail], ?_, Built.nil,
        fun _ _ => wellFormed_of_not_set (by simp)⟩
      have hmeets : Meets (.allOf (WorkflowSchema.closedObject [("message", .ref "expression")]
          ["message"])) (.object f) :=
        Schema.valid_allOf (meets_closedObject (by simpa using hkeys)
          (by simp [contains_of_lookup hmessage]) (by simpa [hmessage] using hv))
      simpa [hfail] using hmeets
  · exact reject_spec

theorem intercalate_dots (head : List Char) (rest : List (List Char)) :
    ['.'].intercalate (head :: rest) = head ++ (rest.map fun seg => '.' :: seg).flatten := by
  induction rest generalizing head with
  | nil => simp
  | cons seg rest ih => rw [List.intercalate_cons_cons, ih]; simp

/-- A `set` key whose segments are names matches the schema's pattern. -/
theorem setKey_match {key : List Char} {path : List (List Char)}
    (hsplit : key.splitOn '.' = ['s', 'e', 's', 's', 'i', 'o', 'n'] :: path) (hne : path ≠ [])
    (hnames : ∀ seg ∈ path, isName seg = true) :
    key ∈ WorkflowSchema.setKeyPattern.matches' := by
  have hkey : ['.'].intercalate (key.splitOn '.') = key := List.intercalate_splitOn '.'
  rw [hsplit, intercalate_dots] at hkey
  rw [← hkey]
  refine Pattern.mul_match Pattern.literal_match (Pattern.plus_match (by simpa using hne) ?_)
  intro piece hpiece
  obtain ⟨seg, hseg, rfl⟩ := List.mem_map.mp hpiece
  exact Pattern.mul_match (a := ['.']) Pattern.literal_match (isName_match (hnames seg hseg))

theorem setKey_spec {key eptr : String} : Spec (setKey key eptr) fun b r b' =>
    b' = b ∧ Meets (.pattern WorkflowSchema.setKeyPattern) (.string key) ∧
      ∀ path value, r = some path → SetEntry.WellFormed ⟨path, value⟩ := by
  unfold setKey
  simp only []
  split
  · exact reject_spec
  · split
    · exact reject_spec
    · next hvalid =>
        simp only [Bool.or_eq_true, Bool.not_eq_true', not_or, decide_eq_false_iff_not, not_not,
          List.isEmpty_iff, Bool.not_eq_false, List.all_eq_true] at hvalid
        obtain ⟨⟨hroot, hne⟩, hnames⟩ := hvalid
        cases hsplit : key.toList.splitOn '.' with
        | nil => simp [hsplit] at hroot
        | cons head path =>
          obtain rfl : head = "session".toList := by simpa [hsplit] using hroot
          rw [hsplit, List.tail_cons] at hne hnames
          refine pure fun _ _ => ⟨rfl, meets_pattern (setKey_match hsplit hne hnames), ?_⟩
          rintro path' value hpath
          obtain ⟨seg, rest, rfl⟩ := List.exists_cons_of_ne_nil hne
          obtain rfl := Option.some.inj hpath
          exact ⟨_, _, rfl, by simpa using hnames seg (by simp)⟩

theorem setEntry_spec {key eptr : String} {v : Value} :
    Spec (setEntry key v eptr scope) fun b r b' => b' = b ∧
      (r.isSome → Meets (.pattern WorkflowSchema.setKeyPattern) (.string key) ∧
        Meets (.ref "expression") v) ∧ ∀ entry, r = some entry → entry.WellFormed := by
  refine bind setKey_spec fun path => ?_
  cases path with
  | none => exact pure fun _ _ _ h => ⟨h.1, by simp⟩
  | some path =>
    refine map (expression_spec.mono ?_)
    rintro t value u _ ⟨rfl, hv⟩ s ⟨rfl, hkey, hpath⟩
    refine ⟨rfl, fun _ => ⟨hkey, hv⟩, fun entry hentry => ?_⟩
    obtain ⟨value, -, rfl⟩ := Option.map_eq_some_iff.mp hentry
    exact hpath path value rfl

variable {sptr : String}

theorem setEntries_spec (entries : List (String × Value)) :
    Spec (setEntries sptr scope entries) fun b r b' => b' = b ∧
      (r.2 = true → ∀ m ∈ entries,
        Meets (.pattern WorkflowSchema.setKeyPattern) (.string m.1) ∧
        Meets (.ref "expression") m.2) ∧ ∀ entry ∈ r.1, entry.WellFormed := by
  induction entries with
  | nil => exact pure fun _ _ => ⟨rfl, by simp⟩
  | cons m rest ih =>
    obtain ⟨key, v⟩ := m
    refine bind setEntry_spec fun entry => bind ih fun tail => pure ?_
    rintro u _ t ⟨rfl, hrest, htail⟩ s ⟨rfl, hmeets, hentry⟩
    refine ⟨rfl, fun hok => ?_, fun e he => ?_⟩
    · rw [Bool.and_eq_true] at hok
      exact List.forall_mem_cons.mpr ⟨hmeets hok.1, hrest hok.2⟩
    · rcases List.mem_append.mp he with he | he
      · exact hentry e (by simpa using he)
      · exact htail e he

theorem reportOverlaps_spec (found : List (String × String)) :
    Spec (reportOverlaps sptr found) fun b _ b' => b' = b := by
  induction found with
  | nil => exact pure fun _ _ => rfl
  | cons pair rest ih =>
    exact dirty_bind issue_spec fun _ => ih.mono fun _ _ _ _ _ => trivial

theorem setKind_spec : Spec (setKind obj ptr scope)
    (KindPost [("set", .allOf [.type .object, .minProperties 1,
      .propertyNames (.pattern WorkflowSchema.setKeyPattern),
      .properties [] (.ref "expression")])] ["set"] obj) := by
  unfold setKind
  simp only []
  split
  · exact pure fun _ _ _ h => by simp at h
  · next entries hset =>
      split
      · exact reject_spec
      · next hne =>
          refine bind (setEntries_spec entries) fun out =>
            bind (reportOverlaps_spec _) fun _ => pure ?_
          rintro u _ t rfl s ⟨rfl, hmembers, hentries⟩ kind hkind
          obtain ⟨hok, hkind⟩ := Option.ite_none_right_eq_some.mp hkind
          rw [Bool.and_eq_true] at hok
          obtain rfl := Option.some.inj hkind
          have hmembers := hmembers hok.1
          refine ⟨by simp [contains_of_lookup hset], ?_, Built.nil, ?_⟩
          · have hmeets : Meets (.allOf [.type .object, .minProperties 1,
                .propertyNames (.pattern WorkflowSchema.setKeyPattern),
                .properties [] (.ref "expression")]) (.object entries) := by
              refine Schema.valid_allOf ?_
              simp only [List.forall_mem_cons, List.not_mem_nil, false_imp_iff, implies_true,
                and_true]
              refine ⟨meets_type rfl, ⟨0, ?_⟩,
                Schema.valid_propertyNames fun m hm => (hmembers m hm).1,
                Schema.valid_properties (by simp) fun m hm _ => (hmembers m hm).2⟩
              simpa [Schema.eval, Value.onObject, List.length_pos_iff, Nat.one_le_iff_ne_zero]
                using hne
            simpa [hset] using hmeets
          · rintro id once entries' he entry hentry
            obtain rfl := InstructionKind.set.inj he
            exact hentries entry hentry
  · exact reject_spec

variable {v : Option Value}

theorem logLevel_spec {lptr : String} :
    Spec (logLevel v lptr) fun b _ b' => b' = b ∧
      ∀ x, v = some x → Meets (.enum [.string "debug", .string "info"]) x := by
  unfold logLevel
  split
  · exact pure fun _ _ => ⟨rfl, by simp⟩
  · split
    · next h => exact pure fun _ _ => ⟨rfl, by simpa [h] using ⟨0, rfl⟩⟩
    · split
      · next h => exact pure fun _ _ => ⟨rfl, by simpa [h] using ⟨0, rfl⟩⟩
      · exact reject_spec

theorem logValues_spec {vptr : String} :
    Spec (logValues v vptr scope) fun b r b' => b' = b ∧ (r.isSome →
      ∀ x, v = some x → Meets (.allOf [.type .object, .properties [] (.ref "expression")]) x) := by
  unfold logValues
  split
  · exact pure fun _ _ => ⟨rfl, by simp⟩
  · next members =>
      refine (walkMembers_spec (G := fun _ v => Meets (.ref "expression") v) fun _ _ =>
        expression_spec.mono fun _ _ _ _ h => ⟨h.1, fun _ => h.2⟩).mono
        fun _ _ _ _ h => ⟨h.1, fun hr x hx => ?_⟩
      obtain rfl := Option.some.inj hx
      exact Schema.valid_allOf (forall_mem_pair (meets_type rfl)
        (Schema.valid_properties (by simp) fun m hm _ => h.2 hr m hm))
  · exact reject_spec

theorem logKind_spec : Spec (logKind obj ptr scope)
    (KindPost [("log", .allOf (WorkflowSchema.closedObject
      [("level", .enum [.string "debug", .string "info"]),
       ("message", WorkflowSchema.nonEmptyString),
       ("values", .allOf [.type .object, .properties [] (.ref "expression")])] ["message"]))]
      ["log"] obj) := by
  unfold logKind
  simp only []
  split
  · exact pure fun _ _ _ h => by simp at h
  · next l hlog =>
      refine bind unknownKeys_spec fun _ => bind logLevel_spec fun level =>
        bind (required_spec issue_spec fun _ => stringField_spec) fun message =>
        bind logValues_spec fun values => pure ?_
      rintro u _ t ⟨rfl, hvalues⟩ s ⟨v, hmessage, rfl, -, hv⟩ r ⟨rfl, hlevel⟩ q ⟨rfl, hkeys⟩
        kind hkind
      simp only [Option.bind_eq_bind, Option.bind_eq_some_iff, Option.pure_def,
        Option.some.injEq] at hkind
      obtain ⟨level, rfl, message, rfl, values, rfl, rfl⟩ := hkind
      refine ⟨by simp [contains_of_lookup hlog], ?_, Built.nil,
        fun _ _ => wellFormed_of_not_set (by simp)⟩
      have hmeets : Meets (.allOf (WorkflowSchema.closedObject
          [("level", .enum [.string "debug", .string "info"]),
           ("message", WorkflowSchema.nonEmptyString),
           ("values", .allOf [.type .object, .properties [] (.ref "expression")])] ["message"]))
          (.object l) :=
        Schema.valid_allOf (meets_closedObject (by simpa using hkeys)
          (by simp [contains_of_lookup hmessage])
          (by simpa [hmessage] using ⟨hlevel, hv, hvalues rfl⟩))
      simpa [hlog] using hmeets
  · exact reject_spec

section Durations

variable [Crates]

theorem toolKind_spec : Spec (toolKind obj ptr scope)
    (KindPost [("tool", WorkflowSchema.nonEmptyString), ("args", .type .object),
      ("retry", WorkflowSchema.retry)] ["tool"] obj) := by
  refine bind (andThen_leaf_spec fun _ => stringField_spec.mono fun _ _ _ _ h =>
      ⟨h.1, h.2.2⟩) fun tool =>
    bind args_spec fun args =>
    bind (optional_leaf_spec fun _ => retry_spec) fun retry => pure ?_
  rintro u _ t ⟨rfl, hretry, -⟩ s ⟨rfl, hargs⟩ r ⟨rfl, htool, hpresent⟩ kind hkind
  simp only [Option.bind_eq_bind, Option.bind_eq_some_iff, Option.pure_def,
    Option.some.injEq] at hkind
  obtain ⟨name, rfl, args, rfl, retry, rfl, rfl⟩ := hkind
  refine ⟨?_, ?_, Built.nil, fun _ _ => wellFormed_of_not_set (by simp)⟩
  · simpa using isSome_lookup (hpresent rfl)
  · simpa using ⟨htool, hargs, hretry⟩

theorem waitTimeout_spec {w : List (String × Value)} {wptr variant : String} :
    Spec (waitTimeout w wptr variant) fun b _ b' => b' = b ∧
      ∃ v, w.lookup "timeout" = some v ∧ Meets (.ref "humantime") v :=
  (required_spec issue_spec fun _ => durationField_spec).mono
    fun _ _ _ _ ⟨v, hv, hb, hm⟩ => ⟨hb, v, hv, hm⟩

/-- What a clean walk of one kind of wait says. -/
def WaitPost (w : List (String × Value)) (b : Builder) (r : Option InstructionKind)
    (b' : Builder) : Prop :=
  b' = b ∧ ∀ kind, r = some kind → (∃ wait, kind = .wait wait) ∧
    ((∀ m ∈ w, m.1 ∈ waitKeys) → Meets (.ref "waitOptions") (.object w))

section Waits

variable {w : List (String × Value)} {wptr : String}

theorem waitDuration_spec
    (hmode : ["duration", "until_event", "until"].filter (Assoc.contains · w) = ["duration"]) :
    Spec (waitDuration w wptr) (WaitPost w) := by
  obtain ⟨-, hpresent, habsent⟩ := filter_singleton hmode
  refine bind strayField_spec fun strayTimeout => bind strayField_spec fun strayPoll =>
    bind (andThen_leaf_spec fun _ => durationField_spec) fun d => pure ?_
  rintro u _ t ⟨rfl, hduration, -⟩ s ⟨rfl, rfl, hpoll⟩ r ⟨rfl, rfl, htimeout⟩
  refine ⟨rfl, fun kind hkind => ?_⟩
  obtain ⟨d, rfl, rfl⟩ := Option.map_eq_some_iff.mp hkind
  refine ⟨⟨_, rfl⟩, fun hkeys => meets_waitOptions hkeys hduration
    (lookup_absent (habsent _ (by simp) (by simp))) (lookup_absent (habsent _ (by simp) (by simp)))
    (lookup_absent htimeout) (lookup_absent hpoll) ?_⟩
  exact Schema.valid_oneOf [] [_, _]
    (meets_mode (by simpa using hpresent) (by simpa [htimeout, hpoll] using habsent))
    (forall_mem_pair (invalid_mode (by simp) (habsent "until_event" (by simp) (by simp)))
      (invalid_mode (by simp) (habsent "until" (by simp) (by simp))))

variable {variant : String}

theorem waitUntilEvent_spec
    (hmode : ["duration", "until_event", "until"].filter (Assoc.contains · w) = ["until_event"]) :
    Spec (waitUntilEvent w wptr variant) (WaitPost w) := by
  obtain ⟨-, hpresent, habsent⟩ := filter_singleton hmode
  refine bind strayField_spec fun strayPoll =>
    bind (andThen_leaf_spec fun _ => stringField_spec.mono fun _ _ _ _ h =>
      ⟨h.1, h.2.2⟩) fun event =>
    bind waitTimeout_spec fun timeout => pure ?_
  rintro u _ t ⟨rfl, v, hv, htimeout⟩ s ⟨rfl, hevent, -⟩ r ⟨rfl, rfl, hpoll⟩
  refine ⟨rfl, fun kind hkind => ?_⟩
  simp only [Bool.false_eq_true, if_false, Option.bind_eq_bind, Option.bind_eq_some_iff,
    Option.pure_def, Option.some.injEq] at hkind
  obtain ⟨event, rfl, timeout, rfl, rfl⟩ := hkind
  refine ⟨⟨_, rfl⟩, fun hkeys => meets_waitOptions hkeys
    (lookup_absent (habsent _ (by simp) (by simp))) hevent
    (lookup_absent (habsent _ (by simp) (by simp))) (by simpa [hv] using htimeout)
    (lookup_absent hpoll) ?_⟩
  exact Schema.valid_oneOf [_] [_]
    (meets_mode (by simpa [contains_of_lookup hv] using hpresent)
      (by simpa [hpoll] using habsent))
    (forall_mem_pair (invalid_mode (by simp) (habsent "duration" (by simp) (by simp)))
      (invalid_mode (by simp) (habsent "until" (by simp) (by simp))))

theorem waitUntil_spec
    (hmode : ["duration", "until_event", "until"].filter (Assoc.contains · w) = ["until"]) :
    Spec (waitUntil w wptr scope variant) (WaitPost w) := by
  obtain ⟨-, hpresent, habsent⟩ := filter_singleton hmode
  refine bind (andThen_leaf_spec fun _ => expression_spec) fun condition =>
    bind (optional_leaf_spec fun _ => durationField_spec) fun pollInterval =>
    bind waitTimeout_spec fun timeout => pure ?_
  rintro u _ t ⟨rfl, v, hv, htimeout⟩ s ⟨rfl, hpoll, -⟩ r ⟨rfl, hcondition, -⟩
  refine ⟨rfl, fun kind hkind => ?_⟩
  simp only [Option.bind_eq_bind, Option.bind_eq_some_iff, Option.pure_def,
    Option.some.injEq] at hkind
  obtain ⟨condition, rfl, pollInterval, rfl, timeout, rfl, rfl⟩ := hkind
  refine ⟨⟨_, rfl⟩, fun hkeys => meets_waitOptions hkeys
    (lookup_absent (habsent _ (by simp) (by simp))) (lookup_absent (habsent _ (by simp) (by simp)))
    hcondition (by simpa [hv] using htimeout) hpoll ?_⟩
  exact Schema.valid_oneOf [_, _] []
    (meets_mode (by simpa [contains_of_lookup hv] using hpresent) (by simpa using habsent))
    (forall_mem_pair (invalid_mode (by simp) (habsent "duration" (by simp) (by simp)))
      (invalid_mode (by simp) (habsent "until_event" (by simp) (by simp))))

end Waits

theorem waitKind_spec : Spec (waitKind obj ptr scope)
    (KindPost [("wait", .ref "waitOptions")] ["wait"] obj) := by
  unfold waitKind
  simp only []
  split
  · exact pure fun _ _ _ h => by simp at h
  · next w hlookup =>
      have hwait : ∀ t r u, u.Clean → WaitPost w t r u → ∀ s, t = s ∧ (∀ m ∈ w, m.1 ∈ waitKeys) →
          KindPost [("wait", .ref "waitOptions")] ["wait"] obj s r u := by
        rintro t r u _ ⟨rfl, h⟩ s ⟨rfl, hkeys⟩ kind hkind
        obtain ⟨⟨wait, rfl⟩, hmeets⟩ := h kind hkind
        exact ⟨by simp [contains_of_lookup hlookup], by simpa [hlookup] using hmeets hkeys,
          Built.nil, fun _ _ => wellFormed_of_not_set (by simp)⟩
      refine bind unknownKeys_spec fun _ => ?_
      split
      · next variant hmode =>
          have hvariant := (filter_singleton hmode).1
          simp only [List.mem_cons, List.not_mem_nil, or_false] at hvariant
          rcases hvariant with rfl | rfl | rfl
          · rw [if_pos rfl]
            exact (waitDuration_spec hmode).mono hwait
          · rw [if_neg (by simp), if_pos rfl]
            exact (waitUntilEvent_spec hmode).mono hwait
          · rw [if_neg (by simp), if_neg (by simp)]
            exact (waitUntil_spec hmode).mono hwait
      · exact reject_spec
      · exact reject_spec
  · exact reject_spec

end Durations

end Kinds

end RustyPhoton.SessionRunner
