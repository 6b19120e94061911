import RustyPhoton.Lib.Json

/-!
# JSON pointers

A pointer per RFC 6901 is a sequence of reference tokens, each after a `/`, in which `~1` stands for
`/` and `~0` for `~`. A token selects a member of an object or, as a decimal numeral without leading
zeros, an item of an array. Extending a pointer by one token goes one level down.
-/

namespace RustyPhoton.Lib.Value

/-- Undo the escapes of a reference token. -/
def unescapeToken : List Char → List Char
  | '~' :: '0' :: rest => '~' :: unescapeToken rest
  | '~' :: '1' :: rest => '/' :: unescapeToken rest
  | c :: rest => c :: unescapeToken rest
  | [] => []

/-- The reference tokens of a pointer, if it is one. -/
def pointerTokens (ptr : String) : Option (List String) :=
  match ptr.toList.splitOn '/' with
  | [] :: tokens => some (tokens.map fun token => String.ofList (unescapeToken token))
  | _ => none

/-- The array index a token is the numeral of. -/
def arrayIndex (token : String) : Option Nat :=
  let index := Nat.ofDigitChars 10 token.toList 0
  if toString index = token then some index else none

/-- One step down. -/
def step (v : Value) (token : String) : Option Value :=
  match v with
  | object members => members.lookup token
  | array items => (arrayIndex token).bind (items[·]?)
  | _ => none

/-- The node a pointer refers to, if there is one. -/
def pointer (v : Value) (ptr : String) : Option Value :=
  (pointerTokens ptr).bind fun tokens => tokens.foldlM step v

@[simp] theorem pointer_empty (v : Value) : v.pointer "" = some v := rfl

/-! ## Array indices -/

theorem isDigit_of_mem_toString {n : Nat} {c : Char} (h : c ∈ (toString n).toList) :
    c.isDigit = true := by
  have hrepr : (toString n).toList = Nat.toDigits 10 n := by simp
  rw [hrepr] at h
  exact Nat.isDigit_of_mem_toDigits (by decide) (by decide) h

/-! ## Distinct keys -/

mutual
/-- No object of the value binds a key twice. -/
def KeysDistinct : Value → Prop
  | object members => (members.map Prod.fst).Nodup ∧ KeysDistinctMembers members
  | array items => KeysDistinctItems items
  | _ => True

def KeysDistinctItems : List Value → Prop
  | [] => True
  | v :: rest => v.KeysDistinct ∧ KeysDistinctItems rest

def KeysDistinctMembers : List (String × Value) → Prop
  | [] => True
  | (_, v) :: rest => v.KeysDistinct ∧ KeysDistinctMembers rest
end

/-! ## Nesting -/

mutual
/-- How many containers are nested in a value. -/
def depth : Value → Nat
  | object members => depthMembers members + 1
  | array items => depthItems items + 1
  | _ => 0

def depthItems : List Value → Nat
  | [] => 0
  | v :: rest => max v.depth (depthItems rest)

def depthMembers : List (String × Value) → Nat
  | [] => 0
  | (_, v) :: rest => max v.depth (depthMembers rest)
end

end RustyPhoton.Lib.Value
