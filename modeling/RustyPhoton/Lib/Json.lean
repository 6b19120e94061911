import RustyPhoton.Lib.Assoc
import RustyPhoton.Lib.Binary64

/-!
# JSON values

The value tree a JSON parser hands to a program: a number is an unsigned or negative 64-bit
integer or a finite binary64, and an object keeps its members in insertion order. Reading a
member of a value that is not an object gives nothing.
-/

namespace RustyPhoton.Lib

/-- A JSON number: an unsigned 64-bit integer, a negative 64-bit integer or a finite float. -/
inductive Number where
  | posInt (value : Nat) (fits : value < 2 ^ 64)
  | negInt (value : Int) (fits : -(2 ^ 63) ≤ value ∧ value < 0)
  | float (value : Binary64) (finite : value.isFinite = true)
  deriving DecidableEq

namespace Number

/-- The value as an unsigned integer; a float is never one, whatever its value. -/
def asU64 : Number → Option Nat
  | posInt n _ => some n
  | _ => none

/-- The nearest float. -/
def asF64 : Number → Binary64
  | posInt n _ => Binary64.ofInt n
  | negInt n _ => Binary64.ofInt n
  | float x _ => x

def isU64 : Number → Bool
  | posInt _ _ => true
  | _ => false

def isI64 : Number → Bool
  | posInt n _ => n < 2 ^ 63
  | negInt _ _ => true
  | float _ _ => false

/-- A finite float as a number. -/
def fromF64 (x : Binary64) : Option Number :=
  if h : x.isFinite = true then some (float x h) else none

/-- A number written as an unsigned integer; numerals beyond the range saturate. -/
def ofNat (n : Nat) : Number :=
  if h : n < 2 ^ 64 then posInt n h else posInt (2 ^ 64 - 1) (by decide)

/-- A signed 64-bit integer as a number; integers outside the range saturate. -/
def ofInt (n : Int) : Number :=
  if h : -(2 ^ 63) ≤ n ∧ n < 0 then negInt n h else ofNat n.toNat

end Number

/-- A JSON value. -/
inductive Value where
  | null
  | bool (b : Bool)
  | number (n : Number)
  | string (s : String)
  | array (items : List Value)
  | object (members : List (String × Value))

namespace Value

mutual
/-- Structural equality is decidable. -/
def decEq : (a b : Value) → Decidable (a = b)
  | null, null => isTrue rfl
  | bool a, bool b => decidable_of_iff (a = b) (by simp)
  | number a, number b => decidable_of_iff (a = b) (by simp)
  | string a, string b => decidable_of_iff (a = b) (by simp)
  | array a, array b =>
      match decEqItems a b with
      | isTrue h => isTrue (h ▸ rfl)
      | isFalse h => isFalse fun e => h (array.inj e)
  | object a, object b =>
      match decEqMembers a b with
      | isTrue h => isTrue (h ▸ rfl)
      | isFalse h => isFalse fun e => h (object.inj e)
  | null, bool _ | null, number _ | null, string _ | null, array _ | null, object _
  | bool _, null | bool _, number _ | bool _, string _ | bool _, array _ | bool _, object _
  | number _, null | number _, bool _ | number _, string _ | number _, array _
  | number _, object _ | string _, null | string _, bool _ | string _, number _
  | string _, array _ | string _, object _ | array _, null | array _, bool _
  | array _, number _ | array _, string _ | array _, object _ | object _, null
  | object _, bool _ | object _, number _ | object _, string _ | object _, array _ =>
      isFalse (by simp)

def decEqItems : (a b : List Value) → Decidable (a = b)
  | [], [] => isTrue rfl
  | [], _ :: _ => isFalse (by simp)
  | _ :: _, [] => isFalse (by simp)
  | x :: a, y :: b =>
      match decEq x y, decEqItems a b with
      | isTrue h, isTrue hs => isTrue (h ▸ hs ▸ rfl)
      | isFalse h, _ => isFalse fun e => h (List.cons.inj e).1
      | _, isFalse hs => isFalse fun e => hs (List.cons.inj e).2

def decEqMembers : (a b : List (String × Value)) → Decidable (a = b)
  | [], [] => isTrue rfl
  | [], _ :: _ => isFalse (by simp)
  | _ :: _, [] => isFalse (by simp)
  | (k, x) :: a, (l, y) :: b =>
      if hk : k = l then
        match decEq x y, decEqMembers a b with
        | isTrue h, isTrue hs => isTrue (hk ▸ h ▸ hs ▸ rfl)
        | isFalse h, _ => isFalse fun e => h (Prod.mk.inj (List.cons.inj e).1).2
        | _, isFalse hs => isFalse fun e => hs (List.cons.inj e).2
      else isFalse fun e => hk (Prod.mk.inj (List.cons.inj e).1).1
end

instance : DecidableEq Value := decEq

/-- The member of an object, nothing for any other value. -/
def get (value : Value) (key : String) : Option Value :=
  match value with
  | object members => members.lookup key
  | _ => none

@[simp] theorem get_object (members : List (String × Value)) (key : String) :
    (object members).get key = members.lookup key := rfl

def asStr : Value → Option String
  | string s => some s
  | _ => none

def asBool : Value → Option Bool
  | bool b => some b
  | _ => none

def asU64 : Value → Option Nat
  | number n => n.asU64
  | _ => none

def asF64 : Value → Option Binary64
  | number n => some n.asF64
  | _ => none

def asObject : Value → Option (List (String × Value))
  | object members => some members
  | _ => none

def isNull : Value → Bool
  | null => true
  | _ => false

/-- A JSON integer numeral. -/
def nat (n : Nat) : Value :=
  number (Number.ofNat n)

/-- A present string, or `null`. -/
def ofOptionString : Option String → Value
  | some s => string s
  | none => null

end Value

end RustyPhoton.Lib
