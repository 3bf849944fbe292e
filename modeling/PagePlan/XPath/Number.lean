/-
# Numbers of XPath

Every number of XPath is a floating-point number.  It is read digit by digit in the machine's
arithmetic, and written with at most fifteen significant digits: without an exponent between
`0.00001` and a thousand million, and whole numbers within 32 bits always in full.
-/
import PagePlan.Decimal.Shortest
import PagePlan.Text.Blank

namespace PagePlan.XPath

namespace Number

/-- An operation of the machine's arithmetic. -/
def lift (f : Float → Float → Float) (x y : Binary64) : Binary64 :=
  .ofFloat (f x.toFloat y.toFloat)

def add : Binary64 → Binary64 → Binary64 := lift (· + ·)

def subtract : Binary64 → Binary64 → Binary64 := lift (· - ·)

def multiply : Binary64 → Binary64 → Binary64 := lift (· * ·)

def divide : Binary64 → Binary64 → Binary64 := lift (· / ·)

/-- The exact remainder of a division toward zero; its sign is that of the dividend. -/
def remainder (x y : Binary64) : Binary64 :=
  if x.isNaN || y.isNaN || x.isInfinite || y.isZero then .nan
  else if y.isInfinite then x
  else .ofRatio x.negative (x.units % y.units) (Decimal.twoTo 1074)

/-- The largest whole number not above a number. -/
def floor (x : Binary64) : Binary64 := .ofFloat x.toFloat.floor

/-- The least whole number not below a number. -/
def ceiling (x : Binary64) : Binary64 := .ofFloat x.toFloat.ceil

/-- The nearest whole number; halves go up, and the sign of a number that goes to zero is kept. -/
def round (x : Binary64) : Binary64 :=
  let f := x.toFloat
  if -0.5 ≤ f && f < 0.5 then .ofFloat (f * 0.0)
  else
    let below := f.floor
    .ofFloat (if 0.5 ≤ f - below then below + 1.0 else below)

/-! ## Reading -/

/-- The number of a run of digits, each taken with a rounding. -/
def ofDigits (ds : List Char) : Binary64 :=
  ds.foldl (fun x d => add (multiply x (.ofInt 10)) (.ofInt (Decimal.digitValue d))) .zero

/-- How many digits of a fraction count, after its zeros. -/
def fractionDigits : Nat := 20

/-- The number of the digits after a point. -/
def ofFraction (ds : List Char) : Binary64 :=
  let zeros := (ds.takeWhile (· == '0')).length
  let counted := (ds.drop zeros).take fractionDigits
  divide (ofDigits counted) (.ofDecimal false 1 (zeros + counted.length : Nat))

/-- The exponent at the front of a text, zero where there is none, and the text after it. -/
def readExponent (s : List Char) : Option Int × List Char :=
  let digits (negative : Bool) (rest : List Char) : Option Int × List Char :=
    let n : Int := Decimal.toNat (rest.takeWhile Char.isDigit)
    (some (if negative then -n else n), rest.dropWhile Char.isDigit)
  let signed (rest : List Char) : Option Int × List Char :=
    match rest with
    | '-' :: after => digits true after
    | '+' :: after => digits false after
    | _ => digits false rest
  match s with
  | 'e' :: rest => signed rest
  | 'E' :: rest => signed rest
  | _ => (none, s)

/-- The number at the front of a text, without a sign, and the text after it.  An exponent may lack
its digits. -/
def read? (s : List Char) : Option (Binary64 × List Char) :=
  let whole := s.takeWhile Char.isDigit
  let (fraction, rest) := match s.dropWhile Char.isDigit with
    | '.' :: rest => (some (rest.takeWhile Char.isDigit), rest.dropWhile Char.isDigit)
    | rest => (none, rest)
  if whole.isEmpty && (fraction.getD []).isEmpty then none
  else
    let x := match fraction with
      | some ds => add (ofDigits whole) (ofFraction ds)
      | none => ofDigits whole
    match readExponent rest with
    | (some e, rest) => some (multiply x (.ofDecimal false 1 e), rest)
    | (none, rest) => some (x, rest)

/-- The number that a whole text denotes, blanks at its ends apart; not-a-number for any other
text. -/
def ofText (s : List Char) : Binary64 :=
  let s := s.dropWhile Text.isXmlBlank
  let (negative, s) := match s with
    | '-' :: rest => (true, rest)
    | _ => (false, s)
  match read? s with
  | none => .nan
  | some (x, rest) =>
    if rest.all Text.isXmlBlank then if negative then x.neg else x else .nan

/-! ## Writing -/

/-- A number's absolute value over `10 ^ step`, rounded. -/
def scaled (x : Binary64) (step : Int) : Nat :=
  if step < 0 then Decimal.roundDiv (x.units * Decimal.tenTo (-step).toNat) (Decimal.twoTo 1074)
  else Decimal.roundDiv x.units (Decimal.twoTo 1074 * Decimal.tenTo step.toNat)

/-- Drops the zeros after a point, and the point if nothing is left behind it. -/
def trimFraction (whole fraction : List Char) : List Char :=
  match Decimal.dropFinalZeros fraction with
  | [] => whole
  | ds => whole ++ '.' :: ds

/-- How many significant digits are written. -/
def precision : Nat := 15

/-- The power of ten of a number's first digit. -/
def magnitude (x : Binary64) : Int := Binary64.powerAbove x.units (Decimal.twoTo 1074) - 1

/-- How many places are written after the point of a number whose first digit has a power of ten.
A zero right after the point adds a place, and every digit before the point but the first takes
one away, the second of them two. -/
def places (power : Int) : Nat :=
  if power = 0 then precision else (precision - (power + 1)).toNat

/-- The text without an exponent. -/
def positional (x : Binary64) : List Char :=
  let places := places (magnitude x)
  let ds := Decimal.ofNat (scaled x (-places))
  let ds := List.replicate (places + 1 - ds.length) '0' ++ ds
  trimFraction (ds.take (ds.length - places)) (ds.drop (ds.length - places))

/-- The text with an exponent. -/
def exponential (x : Binary64) : List Char :=
  let e := magnitude x
  let ds := Decimal.ofNat (scaled x (e + 1 - precision))
  let e := if precision < ds.length then e + 1 else e
  trimFraction (ds.take 1) ((ds.drop 1).take (precision - 1)) ++ 'e' :: Decimal.exponentText 2 e

/-- Whether a number is written without an exponent. -/
def isPositional (x : Binary64) : Bool :=
  !(Binary64.lt (.ofInt (Decimal.tenTo 9)) (.ofMagnitude false x.magnitude)) &&
    !(Binary64.lt (.ofMagnitude false x.magnitude) (.ofDecimal false 1 (-5)))

/-- Whether a number is a whole one strictly between the least and the greatest of 32 bits. -/
def isShortInteger (x : Binary64) : Bool :=
  x.isWhole && -(Decimal.twoTo 31 : Int) < x.truncate && x.truncate < (Decimal.twoTo 31 : Int) - 1

/-- The text of a number. -/
def text (x : Binary64) : String :=
  let sign := if x.negative then ['-'] else []
  if x.isNaN then "NaN"
  else if x.isInfinite then String.ofList (sign ++ "Infinity".toList)
  else if isShortInteger x then String.ofList (Decimal.ofInt x.truncate)
  else String.ofList (sign ++ if isPositional x then positional x else exponential x)

/-- Zero is written without its sign. -/
theorem text_zero : text (.ofMagnitude true 0) = "0" ∧ text .zero = "0" := by decide +kernel

end Number

end PagePlan.XPath
