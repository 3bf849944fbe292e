/-
# Binary floating-point numbers of 64 bits

A number is its bit pattern: a sign, eleven bits of exponent and fifty-two of fraction.  The
finite ones are `± significand · 2 ^ (scale - 1074)`.  Reading a quotient or a decimal rounds the
exact value once, to the nearest number and to the even one on a tie, in natural numbers alone;
only the arithmetic of expressions goes through the machine's own operations.
-/
import PagePlan.Decimal.Digits

namespace PagePlan

/-- A floating-point number of 64 bits. -/
structure Binary64 where
  /-- Sign, exponent and fraction, from the highest bit down. -/
  bits : UInt64
deriving DecidableEq

namespace Binary64

/-- Whether the sign bit is set. -/
def negative (x : Binary64) : Bool :=
  Decimal.twoTo 63 ≤ x.bits.toNat

/-- The bits below the sign. -/
def magnitude (x : Binary64) : Nat :=
  x.bits.toNat % Decimal.twoTo 63

/-- The number with a given sign and given bits below it. -/
def ofMagnitude (negative : Bool) (magnitude : Nat) : Binary64 :=
  ⟨UInt64.ofNat (magnitude % Decimal.twoTo 63 + if negative then Decimal.twoTo 63 else 0)⟩

/-- The magnitude of infinity: every exponent bit set, no fraction. -/
def infiniteMagnitude : Nat := 2047 * Decimal.twoTo 52

def isNaN (x : Binary64) : Bool := infiniteMagnitude < x.magnitude

def isInfinite (x : Binary64) : Bool := x.magnitude == infiniteMagnitude

def isFinite (x : Binary64) : Bool := x.magnitude < infiniteMagnitude

def isZero (x : Binary64) : Bool := x.magnitude == 0

/-- Whether a number is greater than zero; infinity is. -/
def isPositive (x : Binary64) : Bool := !x.negative && !x.isZero && !x.isNaN

def zero : Binary64 := ⟨0⟩

def one : Binary64 := ⟨0x3FF0000000000000⟩

def infinity (negative : Bool) : Binary64 := ofMagnitude negative infiniteMagnitude

def nan : Binary64 := ⟨0x7FF8000000000000⟩

/-- How many times the finest unit `2 ^ -1074` is doubled for the unit of this number's last
place. -/
def scale (x : Binary64) : Nat :=
  x.magnitude / Decimal.twoTo 52 - 1

/-- The number in units of its last place. -/
def significand (x : Binary64) : Nat :=
  if x.magnitude < Decimal.twoTo 52 then x.magnitude
  else x.magnitude % Decimal.twoTo 52 + Decimal.twoTo 52

/-- A finite number's absolute value in units of `2 ^ -1074`. -/
def units (x : Binary64) : Nat :=
  x.significand * Decimal.twoTo x.scale

/-- The number nearest to `num / den`, an even one on a tie, and an infinity beyond the finite
numbers.  The formula for the bits holds for the smallest numbers too, and a significand that
rounds up to the next power of two carries into the exponent by itself. -/
def ofRatio (negative : Bool) (num den : Nat) : Binary64 :=
  let scaled := num * Decimal.twoTo 1074
  let scale := (scaled / den).log2 - 52
  let significand := Decimal.roundDiv scaled (den * Decimal.twoTo scale)
  ofMagnitude negative (min infiniteMagnitude (scale * Decimal.twoTo 52 + significand))

/-- The number nearest to `digits · 10 ^ exponent`.  Exponents at which nothing but an infinity
or zero can result are answered at once. -/
def ofDecimal (negative : Bool) (digits : Nat) (exponent : Int) : Binary64 :=
  if digits = 0 then ofMagnitude negative 0
  else if 400 < exponent then infinity negative
  else if exponent + ((digits.log2 / 3 + 2 : Nat) : Int) < -400 then ofMagnitude negative 0
  else if 0 ≤ exponent then ofRatio negative (digits * Decimal.tenTo exponent.toNat) 1
  else ofRatio negative digits (Decimal.tenTo (-exponent).toNat)

/-- The number nearest to an integer. -/
def ofInt (n : Int) : Binary64 :=
  ofRatio (decide (n < 0)) n.natAbs 1

/-- The integer part of a finite number, toward zero. -/
def truncate (x : Binary64) : Int :=
  let n : Nat := x.units / Decimal.twoTo 1074
  if x.negative then -(n : Int) else n

/-- Whether a number is finite and whole. -/
def isWhole (x : Binary64) : Bool :=
  x.isFinite && x.units % Decimal.twoTo 1074 == 0

/-- A number as the machine's arithmetic takes it. -/
def toFloat (x : Binary64) : Float :=
  Float.ofBits x.bits

/-- The result of the machine's arithmetic; there is one not-a-number. -/
def ofFloat (f : Float) : Binary64 :=
  if f.isNaN then nan else ⟨f.toBits⟩

def neg (x : Binary64) : Binary64 :=
  if x.isNaN then x else ofMagnitude (!x.negative) x.magnitude

/-- Equality of numbers: the zeros are equal, and not-a-number equals nothing. -/
def same (x y : Binary64) : Bool :=
  !x.isNaN && !y.isNaN && (x.bits == y.bits || (x.isZero && y.isZero))

/-- The place of a number on the line, for comparison of numbers other than not-a-number. -/
def position (x : Binary64) : Int :=
  if x.negative then -(x.magnitude : Int) else x.magnitude

def lt (x y : Binary64) : Bool :=
  !x.isNaN && !y.isNaN && x.position < y.position

/-- Whether a finite number equals an integer. -/
def sameInt (x : Binary64) (n : Int) : Bool :=
  x.isWhole && x.truncate == n

end Binary64

end PagePlan
