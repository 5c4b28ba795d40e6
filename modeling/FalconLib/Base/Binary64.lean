import Mathlib.Data.Rat.Defs
import Mathlib.Algebra.Order.Floor.Defs
import Mathlib.Data.Rat.Floor

/-!
# Binary64 floating point, on bit patterns

A number is its 64 bits. Arithmetic computes the exact rational result and rounds
it once, to nearest with ties to even, as IEEE 754 asks. Every invalid operation
gives the same quiet NaN; its payload is not part of the standard.
-/

namespace FalconLib.Base

structure Binary64 where
  bits : BitVec 64
deriving DecidableEq, Repr

namespace Binary64

def exponentField (x : Binary64) : Nat := x.bits.toNat / 2 ^ 52 % 2 ^ 11

def fractionField (x : Binary64) : Nat := x.bits.toNat % 2 ^ 52

def isNegative (x : Binary64) : Bool := x.bits.msb

def isNaN (x : Binary64) : Bool := x.exponentField == 2047 && x.fractionField != 0

def isInfinite (x : Binary64) : Bool := x.exponentField == 2047 && x.fractionField == 0

/-- The bits below the sign. On numbers they are ordered as the absolute values. -/
def magnitudeBits (x : Binary64) : Nat := x.bits.toNat % 2 ^ 63

def ofFields (negative : Bool) (magnitude : Nat) : Binary64 :=
  ⟨BitVec.ofNat 64 ((if negative then 2 ^ 63 else 0) + magnitude)⟩

def nan : Binary64 := ofFields false (2047 * 2 ^ 52 + 2 ^ 51)

def infinity (negative : Bool) : Binary64 := ofFields negative (2047 * 2 ^ 52)

/-- The rational value of a finite pattern. -/
def toRat (x : Binary64) : ℚ :=
  let significand := if x.exponentField = 0 then x.fractionField else 2 ^ 52 + x.fractionField
  let magnitude := (significand : ℚ) * 2 ^ ((max x.exponentField 1 : Int) - 1075)
  if x.isNegative then -magnitude else magnitude

/-- The largest `k` with `2 ^ k ≤ q`, for positive `q`. -/
def floorLog2 (q : ℚ) : Int :=
  let k := (Nat.log2 q.num.natAbs : Int) - Nat.log2 q.den
  if (2 : ℚ) ^ k ≤ q then k else k - 1

def roundHalfEven (q : ℚ) : Nat :=
  let n := ⌊q⌋.toNat
  let rest := q - n
  if rest < 1 / 2 then n else if 1 / 2 < rest then n + 1 else n + n % 2

/-- Round a nonnegative rational to the nearest magnitude. Below the normal range
the unit stays `2 ^ -1074`; a carry out of the significand bumps the exponent. -/
def roundMagnitude (q : ℚ) : Nat :=
  if q = 0 then 0
  else
    let unit := max (floorLog2 q - 52) (-1074)
    min ((unit + 1074).toNat * 2 ^ 52 + roundHalfEven (q / 2 ^ unit)) (2047 * 2 ^ 52)

/-- `negativeZero` is the sign of a zero result. -/
def ofRat (q : ℚ) (negativeZero : Bool) : Binary64 :=
  ofFields (if q = 0 then negativeZero else q < 0) (roundMagnitude |q|)

def ofInt (i : Int) : Binary64 := ofRat i false

def neg (x : Binary64) : Binary64 := ofFields (!x.isNegative) x.magnitudeBits

def add (x y : Binary64) : Binary64 :=
  if x.isNaN || y.isNaN then nan
  else if x.isInfinite then
    if y.isInfinite && x.isNegative != y.isNegative then nan else x
  else if y.isInfinite then y
  else ofRat (x.toRat + y.toRat) (x.isNegative && y.isNegative)

def sub (x y : Binary64) : Binary64 := add x y.neg

def mul (x y : Binary64) : Binary64 :=
  let negative := x.isNegative != y.isNegative
  if x.isNaN || y.isNaN then nan
  else if x.isInfinite || y.isInfinite then
    if x.magnitudeBits = 0 || y.magnitudeBits = 0 then nan else infinity negative
  else ofRat (x.toRat * y.toRat) negative

def div (x y : Binary64) : Binary64 :=
  let negative := x.isNegative != y.isNegative
  if x.isNaN || y.isNaN then nan
  else if x.isInfinite then
    if y.isInfinite then nan else infinity negative
  else if y.isInfinite then ofFields negative 0
  else if y.magnitudeBits = 0 then
    if x.magnitudeBits = 0 then nan else infinity negative
  else ofRat (x.toRat / y.toRat) negative

/-- Orders numbers by value; both zeros get 0. -/
def orderKey (x : Binary64) : Int :=
  if x.isNegative then -x.magnitudeBits else x.magnitudeBits

def eq (x y : Binary64) : Bool := !x.isNaN && !y.isNaN && x.orderKey == y.orderKey

def lt (x y : Binary64) : Bool := !x.isNaN && !y.isNaN && decide (x.orderKey < y.orderKey)

def le (x y : Binary64) : Bool := !x.isNaN && !y.isNaN && decide (x.orderKey ≤ y.orderKey)

end Binary64

end FalconLib.Base
