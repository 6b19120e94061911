import RustyPhoton.SessionRunner.Document.Duration

/-!
# The validation walk

After `document/validate.rs`: one pass over the raw JSON that validates and builds the typed
document. The builder collects every finding, and the keys and trigger ids seen so far; a document
is produced only when no finding was recorded. A validator that returns `none` has recorded its
own finding.

The walk recurses on `fuel`, which `build` sets past the nesting gate, so a value that passes the
gate never exhausts it.
-/

namespace RustyPhoton.SessionRunner

open Lib Expr

variable [Crates]

/-- The format version this engine implements. -/
def supportedVersion : Nat := 1

/-- Which contextual namespaces are in scope for expressions at the current position. -/
structure Scope where
  eventOk : Bool
  errorOk : Bool

/-- The procedure tree outside any `catch`, `finally` or trigger. -/
def treeScope : Scope := ⟨false, false⟩

/-- The greatest JSON nesting depth the walk accepts. -/
def maxNesting : Nat := 128

mutual
/-- Whether a value at this depth nests containers deeper than `limit`. -/
def nestingExceeds (limit : Nat) : Value → Nat → Bool
  | .object m, depth => limit < depth || membersExceed limit m (depth + 1)
  | .array a, depth => limit < depth || itemsExceed limit a (depth + 1)
  | _, _ => false

def itemsExceed (limit : Nat) : List Value → Nat → Bool
  | [], _ => false
  | v :: vs, depth => nestingExceeds limit v depth || itemsExceed limit vs depth

def membersExceed (limit : Nat) : List (String × Value) → Nat → Bool
  | [], _ => false
  | (_, v) :: vs, depth => nestingExceeds limit v depth || membersExceed limit vs depth
end

/-- Escape a reference token per RFC 6901. -/
def escapeToken (key : List Char) : List Char :=
  key.flatMap fun c => if c = '~' then ['~', '0'] else if c = '/' then ['~', '1'] else [c]

/-- Append a key to a JSON Pointer. -/
def child (ptr key : String) : String :=
  ptr ++ "/" ++ String.ofList (escapeToken key.toList)

def element (ptr : String) (index : Nat) : String :=
  ptr ++ "/" ++ toString index

def article (word : String) : String :=
  if ['a', 'e', 'i', 'o', 'u'].any (word.toList.head? = some ·) then "an" else "a"

def quotedList (items : List String) : String :=
  ", ".intercalate (items.map fun item => "`" ++ item ++ "`")

/-- The walk's state. -/
structure Builder where
  issues : List ValidationIssue := []
  /-- `once` key to the pointer of its first use, triggers included. -/
  onceKeys : List (String × String) := []
  /-- Trigger id to the pointer of its first use. -/
  triggerIds : List (String × String) := []

abbrev Walk := StateM Builder

def pushIssue (i : ValidationIssue) : Walk Unit :=
  modify fun b => { b with issues := b.issues ++ [i] }

def issue (ptr message : String) : Walk Unit :=
  pushIssue ⟨ptr, message, none⟩

/-- Record a finding and abort this validator. -/
def reject {α : Type} (ptr message : String) : Walk (Option α) := do
  issue ptr message
  pure none

/-- A finding for every key outside the allowed ones. -/
def unknownKeys (allowed : List String) (ptr : String) (message : String → String) :
    List (String × Value) → Walk Unit
  | [] => pure ()
  | (k, _) :: rest =>
      if allowed.contains k then unknownKeys allowed ptr message rest
      else do
        issue (child ptr k) (message k)
        unknownKeys allowed ptr message rest

/-- Walk an optional field: an absent key is valid, a present one must validate. -/
def optional {α : Type} (value : Option Value) (validate : Value → Walk (Option α)) :
    Walk (Option (Option α)) :=
  match value with
  | none => pure (some none)
  | some v => do pure ((← validate v).map some)

/-- Walk a field whose absence leaves nothing to build. -/
def andThen {α : Type} (value : Option Value) (validate : Value → Walk (Option α)) :
    Walk (Option α) :=
  match value with
  | none => pure none
  | some v => validate v

/-- Walk a required field: an absent key records `absent` as the finding. -/
def required {α : Type} (value : Option Value) (absent : Walk Unit)
    (validate : Value → Walk (Option α)) : Walk (Option α) :=
  match value with
  | none => do absent; pure none
  | some v => validate v

/-- Validate every item, in order; one failure fails the list, but the walk goes on. -/
def walkItems {α : Type} (validate : Value → String → Walk (Option α)) (ptr : String) :
    Nat → List Value → Walk (Option (List α))
  | _, [] => pure (some [])
  | i, v :: vs => do
      let head ← validate v (element ptr i)
      let tail ← walkItems validate ptr (i + 1) vs
      pure (do pure ((← head) :: (← tail)))

/-- Validate every member into a map ordered by key; one failure fails the map, but the walk
goes on. -/
def walkMembers {α : Type} (validate : String → Value → Walk (Option α)) :
    List (String × Value) → List (String × α) → Walk (Option (List (String × α)))
  | [], out => pure (some out)
  | (k, v) :: rest, out => do
      match ← validate k v with
      | some a => walkMembers validate rest (Assoc.insertSorted k a out)
      | none => do
          let _ ← walkMembers validate rest out
          pure none

/-! ## Shared field kinds -/

def stringField (v : Value) (ptr what : String) : Walk (Option String) :=
  match v with
  | .string s => if s ≠ "" then pure (some s) else reject ptr (what ++ " must be a non-empty string")
  | _ => reject ptr (what ++ " must be a non-empty string")

def durationField (v : Value) (ptr what : String) : Walk (Option Duration) :=
  match v with
  | .string s =>
      match parseDuration s with
      | .ok d => pure (some d)
      | .error msg => reject ptr msg
  | _ => reject ptr (what ++ " must be a duration string (e.g. \"300s\", \"1h30m\")")

/-- Record a namespace root read out of scope; whether it was read. -/
def outOfScope (inScope : Bool) (roots : List (String × Span)) (root ptr message : String) :
    Walk Bool :=
  match roots.lookup root with
  | some span =>
      if inScope then pure false
      else do
        pushIssue ⟨ptr, message, some span⟩
        pure true
  | none => pure false

def expression (v : Value) (ptr : String) (scope : Scope) : Walk (Option Expression) :=
  match v with
  | .string src =>
      match Expression.parse src with
      | .error e => do
          pushIssue ⟨ptr, "invalid expression: " ++ e.message, some e.span⟩
          pure none
      | .ok expr => do
          let event ← outOfScope scope.eventOk expr.roots "event" ptr
            ("`event` is not in scope here — event.* is only available " ++
              "inside a trigger's `when`, `while`, and `do`")
          let error ← outOfScope scope.errorOk expr.roots "error" ptr
            ("`error` is not in scope here — error.* is only available " ++
              "inside `catch` and `finally` blocks")
          pure (if event || error then none else some expr)
  | _ => reject ptr "must be an expression string"

/-- An expression wrapper object. -/
def exprWrapper (obj : List (String × Value)) (ptr : String) (scope : Scope) (what : String) :
    Walk (Option Expression) :=
  match obj.lookup "$expr" with
  | some inner =>
      if obj.length = 1 then expression inner (child ptr "$expr") scope
      else reject ptr "an object with a `$expr` key must contain only that key"
  | none => reject ptr (what ++ " must be a literal or an \x7b\"$expr\": …\x7d wrapper")

/-- An unsigned integer of at least `min`. -/
def integerField (v : Value) (ptr : String) (min : Nat) (message : String) :
    Walk (Option Nat) :=
  match v.asU64 with
  | some n => if min ≤ n then pure (some n) else reject ptr message
  | none => reject ptr message

/-- A loop bound: a literal integer of at least `min`, or an expression wrapper. -/
def bound (v : Value) (ptr : String) (scope : Scope) (min : Nat) (what : String) :
    Walk (Option Bound) :=
  match v with
  | .object obj => do pure ((← exprWrapper obj ptr scope what).map .expr)
  | v => do
      pure ((← integerField v ptr min (what ++ " must be " ++
        (if min = 0 then "a non-negative integer" else "a positive integer") ++
        " or an \x7b\"$expr\": …\x7d wrapper")).map .literal)

mutual
/-- Reject `$expr` keys buried inside a literal; whether there were none. -/
def rejectNestedExpr : Value → String → Walk Bool
  | .object obj, ptr =>
      if Assoc.contains "$expr" obj then do
        issue (child ptr "$expr")
          ("`$expr` is only recognized as a direct argument value — it cannot " ++
            "appear inside a literal")
        let _ ← rejectNestedMembers obj ptr
        pure false
      else rejectNestedMembers obj ptr
  | .array items, ptr => rejectNestedItems items ptr 0
  | _, _ => pure true

def rejectNestedMembers : List (String × Value) → String → Walk Bool
  | [], _ => pure true
  | (k, inner) :: rest, ptr =>
      if k = "$expr" then rejectNestedMembers rest ptr
      else do
        let head ← rejectNestedExpr inner (child ptr k)
        let tail ← rejectNestedMembers rest ptr
        pure (head && tail)

def rejectNestedItems : List Value → String → Nat → Walk Bool
  | [], _, _ => pure true
  | inner :: rest, ptr, i => do
      let head ← rejectNestedExpr inner (element ptr i)
      let tail ← rejectNestedItems rest ptr (i + 1)
      pure (head && tail)
end

/-- A literal argument, free of nested `$expr` keys. -/
def literalArg (v : Value) (ptr : String) : Walk (Option ArgValue) := do
  if ← rejectNestedExpr v ptr then pure (some (.literal v)) else pure none

/-- A tool or poll argument. -/
def argValue (v : Value) (ptr : String) (scope : Scope) : Walk (Option ArgValue) :=
  match v with
  | .object obj =>
      if Assoc.contains "$expr" obj then do
        pure ((← exprWrapper obj ptr scope "an argument").map .expr)
      else literalArg v ptr
  | v => literalArg v ptr

def args (v : Option Value) (ptr : String) (scope : Scope) :
    Walk (Option (List (String × ArgValue))) :=
  match v with
  | none => pure (some [])
  | some (.object obj) => walkMembers (fun k inner => argValue inner (child ptr k) scope) obj []
  | some _ => reject ptr "`args` must be a JSON object"

/-! ## Parameters -/

/-- A letter followed by letters, digits or underscores. -/
def isName (chars : List Char) : Bool :=
  match chars with
  | [] => false
  | c :: rest => c.isAlpha && rest.all fun c => c.isAlphanum || c = '_'

def parameterName (name ptr : String) : Walk Bool :=
  if name.toList.head? = some '_' then do
    issue ptr ("parameter names beginning with `_` are reserved for the engine " ++
      "(e.g. `params._recovery`); `" ++ name ++ "` cannot be declared")
    pure false
  else if !isName name.toList then do
    issue ptr ("`" ++ name ++ "` is not a valid parameter name — names are a letter followed " ++
      "by letters, digits, or underscores")
    pure false
  else pure true

def parameterType (name : String) : Option ParameterType :=
  if name = "string" then some .string
  else if name = "integer" then some .integer
  else if name = "number" then some .number
  else if name = "boolean" then some .boolean
  else if name = "duration" then some .duration
  else if name = "array" then some .array
  else none

def parameterDeclType (v : Option Value) (ptr : String) : Walk (Option ParameterType) :=
  match v with
  | some (.string s) =>
      match parameterType s with
      | some ty => pure (some ty)
      | none =>
          reject (child ptr "type")
            ("unknown parameter type `" ++ s ++ "` (allowed: `string`, `integer`, " ++
              "`number`, `boolean`, `duration`, `array`)")
  | some _ => reject (child ptr "type") "`type` must be a string"
  | none => reject ptr "a parameter declaration requires a `type`"

def parameterDecl (value : Value) (ptr : String) : Walk (Option ParameterDecl) :=
  match value with
  | .object obj => do
      unknownKeys ["type", "required", "default"] ptr (fun k => "unknown key `" ++ k ++
        "` in a parameter declaration (allowed: `type`, `required`, `default`)") obj
      let ty ← parameterDeclType (obj.lookup "type") ptr
      match obj.lookup "required", obj.lookup "default" with
      | some r, default =>
          if r ≠ .bool true then
            reject (child ptr "required")
              ("`required` must be `true` — omit it and give a `default` to make a " ++
                "parameter optional")
          else match default with
            | some _ =>
                reject ptr "a parameter is either `required: true` or has a `default`, not both"
            | none => pure (ty.map fun ty => ⟨ty, none⟩)
      | none, none => reject ptr "a parameter needs either `required: true` or a `default`"
      | none, some d =>
          match ty with
          | none => pure none
          | some ty =>
              match typeCheck ty d with
              | .ok () => pure (some ⟨ty, some d⟩)
              | .error msg => reject (child ptr "default") ("invalid `default`: " ++ msg)
  | _ => reject ptr "a parameter declaration must be a JSON object"

def parameters (value : Option Value) : Walk (Option (List (String × ParameterDecl))) :=
  match value with
  | none => pure (some [])
  | some (.object obj) =>
      walkMembers (fun name decl => do
        if ← parameterName name (child "/parameters" name) then
          parameterDecl decl (child "/parameters" name)
        else pure none) obj []
  | some _ => reject "/parameters" "`parameters` must be a JSON object"

/-! ## Instructions -/

/-- The walk of one nested instruction: its value, pointer and scope. -/
abbrev WalkInstruction := Value → String → Scope → Walk (Option Instruction)

/-- An instruction array with at least `minItems` items. -/
def block (ins : WalkInstruction) (v : Value) (ptr : String) (scope : Scope) (what : String)
    (minItems : Nat) : Walk (Option (List Instruction)) :=
  match v with
  | .array items =>
      if items.length < minItems then
        reject ptr (what ++ " must contain at least one instruction")
      else walkItems (fun item ptr => ins item ptr scope) ptr 0 items
  | _ => reject ptr (what ++ " must be an array of instructions")

def recordOnceKey (key ptr : String) : Walk (Option String) := do
  match (← get).onceKeys.lookup key with
  | some first =>
      reject ptr ("duplicate `once` key `" ++ key ++ "` — `once` keys must be unique within a " ++
        "document (also used at " ++ first ++ ")")
  | none =>
      modify fun b => { b with onceKeys := Assoc.insertSorted key ptr b.onceKeys }
      pure (some key)

def missing (ptr disc key : String) : Walk Unit :=
  issue ptr (article disc ++ " `" ++ disc ++ "` instruction requires a `" ++ key ++ "`")

def retry (v : Value) (ptr : String) : Walk (Option Retry) :=
  match v with
  | .object obj => do
      unknownKeys ["max_attempts", "backoff"] ptr (fun k => "unknown key `" ++ k ++
        "` in `retry` (allowed: `max_attempts`, `backoff`)") obj
      let maxAttempts ← required (obj.lookup "max_attempts")
        (issue ptr "`retry` requires `max_attempts`")
        fun v => integerField v (child ptr "max_attempts") 1
          ("`max_attempts` must be a positive integer (total attempts, " ++
            "including the first)")
      let backoff ← required (obj.lookup "backoff")
        (issue ptr "`retry` requires a `backoff`")
        fun v => durationField v (child ptr "backoff") "`backoff`"
      pure (do pure ⟨← maxAttempts, ← backoff⟩)
  | _ => reject ptr "`retry` must be an object with `max_attempts` and `backoff`"

abbrev WalkKind := List (String × Value) → String → Scope → Walk (Option InstructionKind)

def toolKind : WalkKind := fun obj ptr scope => do
  let tool ← andThen (obj.lookup "tool") fun v => stringField v (child ptr "tool") "`tool`"
  let args ← args (obj.lookup "args") (child ptr "args") scope
  let retry ← optional (obj.lookup "retry") fun v => retry v (child ptr "retry")
  pure (do pure (.tool ⟨← tool, ← args, ← retry⟩))

def sequenceKind (ins : WalkInstruction) : WalkKind := fun obj ptr scope =>
  match obj.lookup "sequence" with
  | none => pure none
  | some (.array items) => do
      pure ((← walkItems (fun item ptr => ins item ptr scope) (child ptr "sequence") 0
        items).map .sequence)
  | some _ => reject (child ptr "sequence") "`sequence` must be an array of instructions"

/-- The selected `repeat` mode with its bounds. -/
def repeatMode (opts : List (String × Value)) (rptr : String) (scope : Scope)
    (modeKey : String) : Walk (Option RepeatMode) := do
  let maxIterations ← optional (opts.lookup "max_iterations") fun v =>
    bound v (child rptr "max_iterations") scope 1 "`max_iterations`"
  if modeKey = "count" then
    let count ← andThen (opts.lookup "count") fun v =>
      bound v (child rptr "count") scope 0 "`count`"
    pure (do pure (.count (← count) (← maxIterations)))
  else
    let condition ← andThen (opts.lookup modeKey) fun v =>
      expression v (child rptr modeKey) scope
    match maxIterations with
    | none => pure none
    | some none =>
        reject rptr ("`max_iterations` is required with `" ++ modeKey ++
          "` — unbounded loops are a validation error")
    | some (some bound) =>
        pure (condition.map fun condition =>
          if modeKey = "until" then .until_ condition bound else .while_ condition bound)

def repeatKind (ins : WalkInstruction) : WalkKind := fun obj ptr scope =>
  match obj.lookup "repeat" with
  | none => pure none
  | some (.object opts) => do
      let rptr := child ptr "repeat"
      unknownKeys ["until", "while", "count", "max_iterations"] rptr (fun k => "unknown key `" ++
        k ++ "` in `repeat` (allowed: `until`, `while`, `count`, `max_iterations`)") opts
      match ["until", "while", "count"].filter (Assoc.contains · opts) with
      | [modeKey] =>
          match ← repeatMode opts rptr scope modeKey with
          | none => pure none
          | some mode =>
              let body ← required (obj.lookup "body") (missing ptr "repeat" "body") fun v =>
                block ins v (child ptr "body") scope "`body`" 1
              pure (body.map fun body => .repeat_ mode body)
      | [] => reject rptr "`repeat` requires exactly one of `until`, `while`, `count`"
      | many => reject rptr ("`repeat` takes exactly one of `until`, `while`, `count`; found " ++
          quotedList many)
  | some _ =>
      reject (child ptr "repeat") ("`repeat` must be an object with one of " ++
        "`until`/`while`/`count` (and `max_iterations`)")

def ifKind (ins : WalkInstruction) : WalkKind := fun obj ptr scope => do
  let condition ← andThen (obj.lookup "if") fun v => expression v (child ptr "if") scope
  let then_ ← required (obj.lookup "then") (missing ptr "if" "then") fun v =>
    block ins v (child ptr "then") scope "`then`" 1
  let otherwise ← optional (obj.lookup "else") fun v =>
    block ins v (child ptr "else") scope "`else`" 1
  pure (do pure (.if_ (← condition) (← then_) (← otherwise)))

def setKey (key ptr : String) : Walk (Option (List String)) :=
  let segments := key.toList.splitOn '.'
  let rootOk := segments.head? = some "session".toList
  let path := segments.tail
  if rootOk && "session._".toList.isPrefixOf key.toList then
    reject ptr ("`" ++ key ++ "` writes reserved engine state — `session._*` keys " ++
      "(`session._once`, `session._triggers`) cannot be set by a document")
  else if !rootOk || path.isEmpty || !path.all isName then
    reject ptr ("`" ++ key ++ "` is not a valid set key — keys are `session.*` paths of " ++
      "dot-separated segments, each a letter followed by letters, digits, " ++
      "or underscores")
  else pure (some (path.map String.ofList))

/-- One `set` entry: its key, then its value. -/
def setEntry (key : String) (v : Value) (eptr : String) (scope : Scope) :
    Walk (Option SetEntry) := do
  match ← setKey key eptr with
  | none => pure none
  | some path => pure ((← expression v eptr scope).map fun value => ⟨path, value⟩)

/-- The entries of a `set` that validate, in order, and whether all did. -/
def setEntries (sptr : String) (scope : Scope) :
    List (String × Value) → Walk (List SetEntry × Bool)
  | [] => pure ([], true)
  | (key, v) :: rest => do
      let entry ← setEntry key v (child sptr key) scope
      let tail ← setEntries sptr scope rest
      pure (entry.toList ++ tail.1, entry.isSome && tail.2)

/-- One round of the prefix-stack scan: the entries on the chain that are not a prefix of this one
are popped; what is left on top is its nearest prefix. -/
def scanPrefix : List SetEntry → List SetEntry → List (String × String)
  | _, [] => []
  | chain, entry :: rest =>
      let chain := chain.dropWhile fun top => !top.path.isPrefixOf entry.path
      let report := match chain.head? with
        | some top => [(top.key, entry.key)]
        | none => []
      report ++ scanPrefix (entry :: chain) rest

/-- The overlapping pairs of a `set`, each entry with its nearest prefix. -/
def overlaps (entries : List SetEntry) : List (String × String) :=
  scanPrefix [] (entries.insertionSort fun a b => ¬ b.path < a.path)

def reportOverlaps (sptr : String) : List (String × String) → Walk Unit
  | [] => pure ()
  | (prefix_, extension) :: rest => do
      issue (child sptr extension) ("set keys `" ++ prefix_ ++ "` and `" ++ extension ++
        "` overlap — one is a path prefix of the other, so the write order would be ambiguous")
      reportOverlaps sptr rest

def setKind : WalkKind := fun obj ptr scope =>
  let sptr := child ptr "set"
  match obj.lookup "set" with
  | none => pure none
  | some (.object entries) =>
      if entries.isEmpty then reject sptr "`set` must contain at least one entry"
      else do
        let (out, ok) ← setEntries sptr scope entries
        let found := overlaps out
        reportOverlaps sptr found
        pure (if ok && found.isEmpty then some (.set out) else none)
  | some _ => reject sptr "`set` must be an object of session.* keys"

def tryKind (ins : WalkInstruction) : WalkKind := fun obj ptr scope => do
  let errorScope : Scope := { scope with errorOk := true }
  let body ← andThen (obj.lookup "try") fun v => block ins v (child ptr "try") scope "`try`" 1
  let catch_ ← optional (obj.lookup "catch") fun v =>
    block ins v (child ptr "catch") errorScope "`catch`" 1
  let finally_ ← optional (obj.lookup "finally") fun v =>
    block ins v (child ptr "finally") errorScope "`finally`" 1
  pure (do pure (.try_ (← body) (← catch_) (← finally_)))

def failKind : WalkKind := fun obj ptr scope =>
  let fptr := child ptr "fail"
  match obj.lookup "fail" with
  | none => pure none
  | some (.object f) => do
      unknownKeys ["message"] fptr (fun k => "unknown key `" ++ k ++
        "` in `fail` (allowed: `message`)") f
      let message ← required (f.lookup "message")
        (issue fptr ("`fail` requires a `message` expression — quote it (e.g. " ++
          "\"'exposure never converged'\") for a fixed string"))
        fun v => expression v (child fptr "message") scope
      pure (message.map .fail)
  | some _ => reject fptr "`fail` must be an object with a `message` expression"

/-- The required `timeout` of an event or condition wait. -/
def waitTimeout (w : List (String × Value)) (wptr variant : String) : Walk (Option Duration) :=
  required (w.lookup "timeout")
    (issue wptr ("a `wait` on `" ++ variant ++ "` requires a `timeout` — expiry raises a " ++
      "workflow error"))
    fun v => durationField v (child wptr "timeout") "`timeout`"

/-- Record a field that has no place in this kind of wait; whether it is there. -/
def strayField (w : List (String × Value)) (wptr key message : String) : Walk Bool :=
  if Assoc.contains key w then do
    issue (child wptr key) message
    pure true
  else pure false

def waitDuration (w : List (String × Value)) (wptr : String) :
    Walk (Option InstructionKind) := do
  let strayTimeout ← strayField w wptr "timeout"
    "`timeout` is not used with a fixed-`duration` wait"
  let strayPoll ← strayField w wptr "poll_interval"
    "`poll_interval` only applies to an `until` wait"
  let d ← andThen (w.lookup "duration") fun v =>
    durationField v (child wptr "duration") "`duration`"
  pure (if strayTimeout || strayPoll then none else d.map fun d => .wait (.duration d))

def waitUntilEvent (w : List (String × Value)) (wptr variant : String) :
    Walk (Option InstructionKind) := do
  let strayPoll ← strayField w wptr "poll_interval"
    "`poll_interval` only applies to an `until` wait"
  let event ← andThen (w.lookup "until_event") fun v =>
    stringField v (child wptr "until_event") "`until_event`"
  let timeout ← waitTimeout w wptr variant
  pure (if strayPoll then none else do pure (.wait (.untilEvent (← event) (← timeout))))

def waitUntil (w : List (String × Value)) (wptr : String) (scope : Scope) (variant : String) :
    Walk (Option InstructionKind) := do
  let condition ← andThen (w.lookup "until") fun v => expression v (child wptr "until") scope
  let pollInterval ← optional (w.lookup "poll_interval") fun v =>
    durationField v (child wptr "poll_interval") "`poll_interval`"
  let timeout ← waitTimeout w wptr variant
  -- the default poll interval is ten seconds
  pure (do
    pure (.wait (.until_ (← condition) ((← pollInterval).getD (Duration.ofSecs 10)) (← timeout))))

def waitKind : WalkKind := fun obj ptr scope =>
  let wptr := child ptr "wait"
  match obj.lookup "wait" with
  | none => pure none
  | some (.object w) => do
      unknownKeys ["duration", "until_event", "until", "timeout", "poll_interval"] wptr
        (fun k => "unknown key `" ++ k ++ "` in `wait` (allowed: `duration`, `until_event`, " ++
          "`until`, `timeout`, `poll_interval`)") w
      match ["duration", "until_event", "until"].filter (Assoc.contains · w) with
      | [variant] =>
          if variant = "duration" then waitDuration w wptr
          else if variant = "until_event" then waitUntilEvent w wptr variant
          else waitUntil w wptr scope variant
      | [] => reject wptr "`wait` requires exactly one of `duration`, `until_event`, `until`"
      | many => reject wptr ("`wait` takes exactly one of `duration`, `until_event`, `until`; " ++
          "found " ++ quotedList many)
  | some _ =>
      reject wptr "`wait` must be an object with one of `duration`, `until_event`, `until`"

def logLevel (v : Option Value) (lptr : String) : Walk (Option LogLevel) :=
  match v with
  | none => pure (some .debug)
  | some v =>
      if v = .string "debug" then pure (some .debug)
      else if v = .string "info" then pure (some .info)
      else reject (child lptr "level") "`level` must be \"debug\" or \"info\""

def logValues (v : Option Value) (vptr : String) (scope : Scope) :
    Walk (Option (List (String × Expression))) :=
  match v with
  | none => pure (some [])
  | some (.object m) => walkMembers (fun k v => expression v (child vptr k) scope) m []
  | some _ => reject vptr "`values` must be an object of expressions"

def logKind : WalkKind := fun obj ptr scope =>
  let lptr := child ptr "log"
  match obj.lookup "log" with
  | none => pure none
  | some (.object l) => do
      unknownKeys ["level", "message", "values"] lptr (fun k => "unknown key `" ++ k ++
        "` in `log` (allowed: `level`, `message`, `values`)") l
      let level ← logLevel (l.lookup "level") lptr
      let message ← required (l.lookup "message")
        (issue lptr "`log` requires a `message` string")
        fun v => stringField v (child lptr "message") "`message`"
      let values ← logValues (l.lookup "values") (child lptr "values") scope
      pure (do pure (.log ⟨← level, ← message, ← values⟩))
  | some _ => reject lptr "`log` must be an object with a `message`"

def discriminants : List String :=
  ["tool", "sequence", "repeat", "if", "set", "try", "fail", "wait", "log", "script"]

/-- The keys an instruction may carry beside its discriminant, `id` and `once`. -/
def companions (disc : String) : List String :=
  if disc = "tool" then ["args", "retry"]
  else if disc = "repeat" then ["body"]
  else if disc = "if" then ["then", "else"]
  else if disc = "try" then ["catch", "finally"]
  else []

def kindOf (ins : WalkInstruction) (disc : String) : WalkKind :=
  if disc = "tool" then toolKind
  else if disc = "sequence" then sequenceKind ins
  else if disc = "repeat" then repeatKind ins
  else if disc = "if" then ifKind ins
  else if disc = "set" then setKind
  else if disc = "try" then tryKind ins
  else if disc = "fail" then failKind
  else if disc = "wait" then waitKind
  else logKind

/-- An instruction whose single discriminant is known. -/
def instructionOf (ins : WalkInstruction) (disc : String) (obj : List (String × Value))
    (ptr : String) (scope : Scope) : Walk (Option Instruction) := do
  unknownKeys (disc :: companions disc ++ ["id", "once"]) ptr
    (fun k => "unknown key `" ++ k ++ "` in " ++ article disc ++ " `" ++ disc ++
      "` instruction (allowed: " ++ quotedList (disc :: companions disc) ++
      ", plus `id` and `once`)") obj
  let id ← andThen (obj.lookup "id") fun v => stringField v (child ptr "id") "`id`"
  let once ← andThen (obj.lookup "once") fun v => do
    match ← stringField v (child ptr "once") "`once`" with
    | some key => recordOnceKey key (child ptr "once")
    | none => pure none
  let kind ← kindOf ins disc obj ptr scope
  pure (kind.map fun kind => .mk id once kind)

/-- One level of the instruction walk over the walk of the nested instructions. -/
def instructionStep (ins : WalkInstruction) : WalkInstruction := fun v ptr scope =>
  match v with
  | .object obj =>
      match discriminants.filter (Assoc.contains · obj) with
      | [] =>
          let found := if obj.isEmpty then "an empty object"
            else "keys " ++ quotedList (obj.map Prod.fst)
          reject ptr ("not an instruction: expected exactly one of `tool`, `sequence`, " ++
            "`repeat`, `if`, `set`, `try`, `fail`, `wait`, `log`; found " ++ found)
      | [disc] =>
          if disc = "script" then
            reject (child ptr "script")
              ("`script` is reserved for a future format version — a version-1 document " ++
                "cannot use it")
          else instructionOf ins disc obj ptr scope
      | many =>
          reject ptr ("an instruction has exactly one discriminant key; found " ++
            quotedList many)
  | _ => reject ptr "an instruction must be a JSON object"

def instruction : Nat → WalkInstruction
  | 0 => fun _ _ _ => pure none
  | fuel + 1 => instructionStep (instruction fuel)

/-! ## Triggers -/

/-- A poll interval must be positive: a zero interval would be due at every safe point. -/
def pollInterval (v : Value) (pollPtr : String) : Walk (Option Duration) := do
  match ← durationField v (child pollPtr "interval") "`interval`" with
  | some d =>
      if d = 0 then reject (child pollPtr "interval") "a poll `interval` must be positive"
      else pure (some d)
  | none => pure none

def pollSource (v : Value) (pollPtr : String) : Walk (Option TriggerSource) :=
  match v with
  | .object p => do
      unknownKeys ["tool", "args", "interval"] pollPtr (fun k => "unknown key `" ++ k ++
        "` in `poll` (allowed: `tool`, `args`, `interval`)") p
      let tool ← required (p.lookup "tool") (issue pollPtr "`poll` requires a `tool`")
        fun v => stringField v (child pollPtr "tool") "`tool`"
      let args ← args (p.lookup "args") (child pollPtr "args") treeScope
      let interval ← required (p.lookup "interval")
        (issue pollPtr "`poll` requires an `interval`") fun v => pollInterval v pollPtr
      pure (do pure (.poll (← tool) (← args) (← interval)))
  | _ => reject pollPtr "`poll` must be an object with `tool` and `interval`"

def triggerSource (v : Value) (ptr : String) : Walk (Option TriggerSource) :=
  match v with
  | .object [("event", v)] => do
      pure ((← stringField v (child ptr "event") "`event`").map .event)
  | .object [("poll", p)] => pollSource p (child ptr "poll")
  | .object _ => reject ptr "`on` takes exactly one of `event` or `poll`"
  | _ =>
      reject ptr ("`on` must be an object: \x7b\"event\": \"…\"\x7d or " ++
        "\x7b\"poll\": \x7b…\x7d\x7d")

def triggerId (v : Value) (ptr : String) : Walk (Option String) := do
  match ← stringField v (child ptr "id") "a trigger `id`" with
  | none => pure none
  | some id =>
      match (← get).triggerIds.lookup id with
      | some first =>
          reject (child ptr "id") ("duplicate trigger id `" ++ id ++
            "` — trigger ids must be unique within a document (also used at " ++ first ++ ")")
      | none =>
          modify fun b => { b with triggerIds := Assoc.insertSorted id (child ptr "id") b.triggerIds }
          pure (some id)

def triggerOnce (v : Option Value) (ptr : String) : Walk (Option Bool) :=
  match v with
  | none => pure (some false)
  | some (.bool b) => pure (some b)
  | some _ =>
      reject (child ptr "once") ("a trigger's `once` is a boolean (fire at most once per " ++
        "session) — unlike an instruction's `once`, which is an idempotency-key string")

def trigger (ins : WalkInstruction) (v : Value) (ptr : String) : Walk (Option Trigger) :=
  match v with
  | .object obj => do
      unknownKeys ["id", "on", "when", "while", "cooldown", "once", "do"] ptr
        (fun k => "unknown key `" ++ k ++ "` in a trigger (allowed: `id`, `on`, `when`, " ++
          "`while`, `cooldown`, `once`, `do`)") obj
      let scope : Scope := ⟨true, false⟩
      let id ← required (obj.lookup "id") (issue ptr "a trigger requires an `id`")
        fun v => triggerId v ptr
      let on ← required (obj.lookup "on") (issue ptr "a trigger requires an `on` source")
        fun v => triggerSource v (child ptr "on")
      let when_ ← optional (obj.lookup "when") fun v => expression v (child ptr "when") scope
      let whileGate ← optional (obj.lookup "while") fun v =>
        expression v (child ptr "while") scope
      let cooldown ← optional (obj.lookup "cooldown") fun v =>
        durationField v (child ptr "cooldown") "`cooldown`"
      let once ← triggerOnce (obj.lookup "once") ptr
      let actions ← required (obj.lookup "do") (issue ptr "a trigger requires a `do` block")
        fun v => block ins v (child ptr "do") scope "`do`" 1
      pure (do pure ⟨← id, ← on, ← when_, ← whileGate, ← cooldown, ← once, ← actions⟩)
  | _ => reject ptr "a trigger must be a JSON object"

def triggers (ins : WalkInstruction) (value : Option Value) : Walk (Option (List Trigger)) :=
  match value with
  | none => pure (some [])
  | some (.array items) => walkItems (trigger ins) "/triggers" 0 items
  | some _ => reject "/triggers" "`triggers` must be an array"

/-! ## The document -/

def topKeys : List String :=
  ["version", "name", "description", "parameters", "estimated_duration", "max_duration",
   "triggers", "root"]

/-- The description: absent, a string, or a finding. -/
def description (v : Option Value) : Walk (Option String) :=
  match v with
  | none => pure none
  | some (.string s) => pure (some s)
  | some _ => reject "/description" "`description` must be a string"

/-- Everything after the version gate. The tree is walked before the triggers, so a duplicate
`once` key is reported at the trigger. -/
def documentBody (ins : WalkInstruction) (obj : List (String × Value)) (version : Nat) :
    Walk (Option Document) := do
  unknownKeys topKeys "" (fun k => "unknown key `" ++ k ++ "` in a workflow document") obj
  let name ← required (obj.lookup "name") (issue "" "missing required key `name`")
    fun v => stringField v "/name" "`name`"
  let description ← description (obj.lookup "description")
  let parameters ← parameters (obj.lookup "parameters")
  let estimatedDuration ← andThen (obj.lookup "estimated_duration") fun v =>
    durationField v "/estimated_duration" "`estimated_duration`"
  let maxDuration ← andThen (obj.lookup "max_duration") fun v =>
    durationField v "/max_duration" "`max_duration`"
  let root ← required (obj.lookup "root") (issue "" "missing required key `root`")
    fun v => ins v "/root" treeScope
  let triggers ← triggers ins (obj.lookup "triggers")
  pure (do
    pure ⟨version, ← name, description, ← parameters, estimatedDuration, maxDuration,
      ← triggers, ← root⟩)

/-- The document walk. The version gate comes first: a document for another version gets exactly
one finding. -/
def document (ins : WalkInstruction) (value : Value) : Walk (Option Document) :=
  match value with
  | .object obj =>
      match obj.lookup "version" with
      | some v =>
          if v.asU64 = some supportedVersion then documentBody ins obj supportedVersion
          else reject "/version" ("unsupported document version " ++ Crates.jsonText v ++
            ": this engine implements version 1")
      | none => do
          issue "" "missing required key `version`"
          documentBody ins obj supportedVersion
  | _ => reject "" "a workflow document must be a JSON object"

/-- `validate::build`: the typed document, or every finding. -/
def build (value : Value) : Except (List ValidationIssue) Document :=
  if nestingExceeds maxNesting value 1 then
    .error [⟨"", "document nesting exceeds 128 levels", none⟩]
  else
    match document (instruction (maxNesting + 1)) value {} with
    | (some doc, b) => if b.issues.isEmpty then .ok doc else .error b.issues
    | (none, b) => .error b.issues

/-- `Document::from_value`. -/
def Document.fromValue (value : Value) : Except (List ValidationIssue) Document :=
  build value

end RustyPhoton.SessionRunner
