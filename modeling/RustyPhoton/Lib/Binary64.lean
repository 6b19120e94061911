import Mathlib.Data.Rat.Floor
import Mathlib.Data.Nat.Log

/-!
# IEEE 754 binary64 values

Every 64-bit word is a value: `Binary64` wraps the word, and the exact rational behind a finite
word is `toRat`. Arithmetic computes the exact rational result and rounds it once, to the nearest
representable value with ties to even, as the hardware does. Comparisons go through `key`, the
magnitude bits with the sign applied, which orders the non-NaN words by value and identifies the
two zeros.
-/

namespace RustyPhoton.Lib

/-- A binary64 word. -/
structure Binary64 where
  bits : BitVec 64
  deriving DecidableEq, Repr

namespace Binary64

/-- The sign bit. -/
def sign (x : Binary64) : Bool :=
  x.bits.msb

/-- The exponent and fraction fields read as one number. -/
def magnitude (x : Binary64) : Nat :=
  x.bits.toNat % 2 ^ 63

/-- The magnitude of the infinities; larger magnitudes are NaNs. -/
def infMagnitude : Nat :=
  2047 * 2 ^ 52

/-- The word with the given sign and magnitude. -/
def ofMagnitude (neg : Bool) (mag : Nat) : Binary64 :=
  ⟨BitVec.ofNat 64 (mag % 2 ^ 63 + if neg then 2 ^ 63 else 0)⟩

/-- A NaN compares false with everything, itself included. -/
def isNaN (x : Binary64) : Bool :=
  infMagnitude < x.magnitude

/-- Neither an infinity nor a NaN. -/
def isFinite (x : Binary64) : Bool :=
  x.magnitude < infMagnitude

/-- The exact value of a finite word. -/
def toRat (x : Binary64) : Rat :=
  let exponent : Nat := x.magnitude / 2 ^ 52
  let fraction : Nat := x.magnitude % 2 ^ 52
  let significand : Nat := if exponent = 0 then fraction else 2 ^ 52 + fraction
  let mag : Rat := significand * (2 : Rat) ^ ((Nat.max exponent 1 : Int) - 1075)
  if x.sign then -mag else mag

/-- Round a rational to an integer, ties to even. -/
def roundHalfEven (q : Rat) : Int :=
  let low := q.floor
  let rest := q - low
  if rest < 1 / 2 then low
  else if 1 / 2 < rest then low + 1
  else if low % 2 = 0 then low
  else low + 1

/-- The exponent of the largest power of two not above a positive rational. -/
def floorLog2 (q : Rat) : Int :=
  let guess : Int := (Nat.log2 q.num.natAbs : Int) - (Nat.log2 q.den : Int)
  if (2 : Rat) ^ guess ≤ q then guess else guess - 1

/-- The magnitude of the representable value nearest to a nonnegative rational. A significand
that rounds up to the next power of two carries into the exponent field by itself. -/
def roundMagnitude (q : Rat) : Nat :=
  if q ≤ 0 then 0
  else
    let e := max (-1074) (floorLog2 q - 52)
    let significand := (roundHalfEven (q / (2 : Rat) ^ e)).toNat
    min infMagnitude ((e + 1074).toNat * 2 ^ 52 + significand)

/-- Round a rational once. An exact zero takes the given sign. -/
def ofRat (zeroSign : Bool) (q : Rat) : Binary64 :=
  if q = 0 then ofMagnitude zeroSign 0
  else ofMagnitude (q < 0) (roundMagnitude |q|)

/-- The conversion from an integer, the `as f64` cast. -/
def ofInt (n : Int) : Binary64 :=
  ofRat false n

def posInf : Binary64 :=
  ofMagnitude false infMagnitude

def negInf : Binary64 :=
  ofMagnitude true infMagnitude

def nan : Binary64 :=
  ofMagnitude false (infMagnitude + 2 ^ 51)

/-! ## Comparison -/

/-- The signed magnitude: an order embedding of the non-NaN values. -/
def key (x : Binary64) : Int :=
  if x.sign then -x.magnitude else x.magnitude

/-- The `==` operator. -/
def eq (x y : Binary64) : Bool :=
  !x.isNaN && !y.isNaN && x.key = y.key

/-- The `<` operator. -/
def lt (x y : Binary64) : Bool :=
  !x.isNaN && !y.isNaN && x.key < y.key

/-- The `<=` operator. -/
def le (x y : Binary64) : Bool :=
  !x.isNaN && !y.isNaN && x.key ≤ y.key

/-- Equality with zero of either sign. -/
def isZero (x : Binary64) : Bool :=
  x.magnitude = 0

/-! ## Arithmetic -/

def neg (x : Binary64) : Binary64 :=
  ofMagnitude (!x.sign) x.magnitude

def abs (x : Binary64) : Binary64 :=
  ofMagnitude false x.magnitude

theorem sign_ofMagnitude (neg : Bool) (mag : Nat) : (ofMagnitude neg mag).sign = neg := by
  have hmag := Nat.mod_lt mag (by decide : 0 < 2 ^ 63)
  cases neg <;> simp only [sign, ofMagnitude, BitVec.msb_eq_decide, BitVec.toNat_ofNat] <;>
    simp <;> omega

theorem magnitude_ofMagnitude (neg : Bool) (mag : Nat) :
    (ofMagnitude neg mag).magnitude = mag % 2 ^ 63 := by
  cases neg <;> simp only [magnitude, ofMagnitude, BitVec.toNat_ofNat] <;> simp <;> omega

/-- A word is its sign and its magnitude. -/
theorem ofMagnitude_self (x : Binary64) : ofMagnitude x.sign x.magnitude = x := by
  obtain ⟨bits⟩ := x
  have hbits := bits.isLt
  simp only [ofMagnitude, mk.injEq, sign, magnitude, BitVec.msb_eq_decide]
  apply BitVec.eq_of_toNat_eq
  simp only [BitVec.toNat_ofNat, decide_eq_true_eq]
  split <;> omega

theorem magnitude_lt (x : Binary64) : x.magnitude < 2 ^ 63 :=
  Nat.mod_lt _ (by decide)

theorem abs_of_sign {x : Binary64} (h : x.sign = false) : x.abs = x := by
  rw [abs, ← h, ofMagnitude_self]

theorem neg_abs_of_sign {x : Binary64} (h : x.sign = true) : x.abs.neg = x := by
  rw [neg, abs, sign_ofMagnitude, magnitude_ofMagnitude, Nat.mod_eq_of_lt x.magnitude_lt,
    Bool.not_false, ← h, ofMagnitude_self]

theorem isFinite_abs {x : Binary64} (h : x.isFinite) : x.abs.isFinite := by
  rwa [isFinite, abs, magnitude_ofMagnitude, Nat.mod_eq_of_lt x.magnitude_lt]

def add (x y : Binary64) : Binary64 :=
  if x.isNaN || y.isNaN then nan
  else if x.isFinite then
    if y.isFinite then ofRat (x.sign && y.sign) (x.toRat + y.toRat) else y
  else if y.isFinite || x.sign == y.sign then x
  else nan

def sub (x y : Binary64) : Binary64 :=
  if y.isNaN then nan else add x y.neg

def mul (x y : Binary64) : Binary64 :=
  let s := x.sign != y.sign
  if x.isNaN || y.isNaN then nan
  else if x.isFinite && y.isFinite then ofRat s (x.toRat * y.toRat)
  else if x.isZero || y.isZero then nan
  else ofMagnitude s infMagnitude

def div (x y : Binary64) : Binary64 :=
  let s := x.sign != y.sign
  if x.isNaN || y.isNaN then nan
  else if x.isFinite then
    if y.isFinite then
      if y.isZero then if x.isZero then nan else ofMagnitude s infMagnitude
      else ofRat s (x.toRat / y.toRat)
    else ofMagnitude s 0
  else if y.isFinite then ofMagnitude s infMagnitude
  else nan

/-- Round a rational toward zero. -/
def truncate (q : Rat) : Int :=
  if q < 0 then q.ceil else q.floor

/-- The `%` operator: the exact remainder of the truncated quotient, with the dividend's sign. -/
def rem (x y : Binary64) : Binary64 :=
  if x.isNaN || y.isNaN || !x.isFinite || y.isZero then nan
  else if y.isFinite then
    ofRat x.sign (x.toRat - y.toRat * truncate (x.toRat / y.toRat))
  else x

/-- Apply an integer rounding to a finite value; a zero result keeps the sign. -/
def roundWith (f : Rat → Int) (x : Binary64) : Binary64 :=
  if x.isFinite then ofRat x.sign (f x.toRat) else x

def floor (x : Binary64) : Binary64 :=
  roundWith Rat.floor x

def ceil (x : Binary64) : Binary64 :=
  roundWith Rat.ceil x

/-- Round half away from zero. -/
def round (x : Binary64) : Binary64 :=
  roundWith (fun q => if q < 0 then (q - 1 / 2).ceil else (q + 1 / 2).floor) x

def min (x y : Binary64) : Binary64 :=
  if x.isNaN then y else if y.isNaN then x else if lt y x then y else x

def max (x y : Binary64) : Binary64 :=
  if x.isNaN then y else if y.isNaN then x else if lt x y then y else x

def clamp (x lo hi : Binary64) : Binary64 :=
  let raised := if lt x lo then lo else x
  if lt hi raised then hi else raised

/-- A finite value without fraction. -/
def isInteger (x : Binary64) : Bool :=
  x.isFinite && x.toRat.den = 1

/-! ## Decimal text -/

/-- The decimals with `digits` significant digits on either side of a positive rational, as
multiples of `10 ^ scale`. -/
def neighbours (q : Rat) (digits : Nat) : Int × Int × Int :=
  let top : Int := Id.run do
    -- the power of ten of the leading digit: `10 ^ top ≤ q < 10 ^ (top + 1)`
    let guess : Int := floorLog2 q * 30103 / 100000
    if (10 : Rat) ^ (guess + 1) ≤ q then guess + 1
    else if q < (10 : Rat) ^ guess then guess - 1
    else guess
  let scale := top - (digits - 1 : Nat)
  let scaled := q / (10 : Rat) ^ scale
  (scaled.floor, scaled.ceil, scale)

/-- The shortest decimal `n * 10 ^ scale` that reads back as the given magnitude, the nearer one
where two of that length do. -/
def shortest (q : Rat) : Nat → Nat → Int × Int
  | digits, 0 => let (low, _, scale) := neighbours q digits; (low, scale)
  | digits, tries + 1 =>
      let (low, high, scale) := neighbours q digits
      let reads (n : Int) : Bool := roundMagnitude (n * (10 : Rat) ^ scale) = roundMagnitude q
      let below := q - low * (10 : Rat) ^ scale
      let above := high * (10 : Rat) ^ scale - q
      if reads low && (below ≤ above || !reads high) then (low, scale)
      else if reads high then (high, scale)
      else shortest q (digits + 1) tries

/-- Positional decimal text of `n * 10 ^ scale`, without trailing fractional zeros. -/
def positional (n : Nat) (scale : Int) : String :=
  if 0 ≤ scale then toString (n * 10 ^ scale.toNat)
  else
    let k := (-scale).toNat
    let whole := n / 10 ^ k
    let frac := (toString (n % 10 ^ k + 10 ^ k)).toList.tail
    let kept := (frac.reverse.dropWhile (· == '0')).reverse
    if kept.isEmpty then toString whole else toString whole ++ "." ++ String.ofList kept

/-- The `Display` text: the shortest digits that read back, never in scientific notation. -/
def toText (x : Binary64) : String :=
  if x.isNaN then "NaN"
  else
    let body :=
      if !x.isFinite then "inf"
      else if x.isZero then "0"
      else let (n, scale) := shortest |x.toRat| 1 17; positional n.toNat scale
    if x.sign then "-" ++ body else body

example : (ofInt 3).toText = "3" := by decide +kernel
example : (div (ofInt 1) (ofInt 10)).toText = "0.1" := by decide +kernel
example : (add (div (ofInt 1) (ofInt 10)) (div (ofInt 2) (ofInt 10))).toText =
    "0.30000000000000004" := by decide +kernel

end Binary64

end RustyPhoton.Lib
