/-
# The shortest decimal of a number

A floating-point number is shown with the fewest digits that read back as the same number, and
of those the nearest.  One candidate grid after another is tried, from one digit to seventeen:
on a grid only the two neighbours of the exact value can read back if any point does.  The
layout of the digits (where positional notation ends, how an exponent is written) is a record.
-/
import PagePlan.Decimal.Binary64

namespace PagePlan

namespace Decimal

/-- A decimal `digits · 10 ^ exponent`. -/
structure Scientific where
  digits : Nat
  exponent : Int

end Decimal

namespace Binary64

/-- The least `p` with `x < 10 ^ p`, for the absolute value `num / den` of a number other than
zero: the power of ten just above it. -/
def powerAbove (num den : Nat) : Int :=
  if den ≤ num then (Decimal.ofNat (num / den)).length
  else
    let inverse := (Decimal.ofNat (den / num)).length
    if den = num * Decimal.tenTo (inverse - 1) then 2 - (inverse : Int) else 1 - (inverse : Int)

/-- The neighbours of `num / den` on the grid of multiples of `10 ^ step`, the nearer one first;
on a tie the even one is first. -/
def neighbours (num den : Nat) (step : Int) : Nat × Nat :=
  let num := if step < 0 then num * Decimal.tenTo (-step).toNat else num
  let den := if step < 0 then den else den * Decimal.tenTo step.toNat
  let below := num / den
  let nearest := Decimal.roundDiv num den
  if nearest = below then (below, below + 1) else (below + 1, below)

/-- The first of the two neighbours with `width` digits that reads back as `x`. -/
def onGrid (x : Binary64) (width : Nat) : Option Decimal.Scientific :=
  let step := powerAbove x.units (Decimal.twoTo 1074) - width
  let (first, second) := neighbours x.units (Decimal.twoTo 1074) step
  if ofDecimal x.negative first step = x then some ⟨first, step⟩
  else if ofDecimal x.negative second step = x then some ⟨second, step⟩
  else none

/-- The shortest decimal that reads back as a finite number other than zero. -/
def shortest (x : Binary64) : Decimal.Scientific :=
  ((List.range 18).tail.findSome? x.onGrid).getD ⟨x.units, 0⟩

end Binary64

namespace Decimal

/-- How the digits of a shortest decimal are laid out. -/
structure Layout where
  /-- Values from `10 ^ lowest` up are written without an exponent. -/
  lowest : Int
  /-- Values below `10 ^ limit` are written without an exponent. -/
  limit : Int
  /-- What is written after a whole value in positional notation. -/
  wholeEnd : String
  /-- The least number of digits of an exponent. -/
  exponentWidth : Nat
  infinity : String
  nan : String

/-- Numbers keep a point in positional notation, which runs from `0.0001` to below `10 ^ 16`. -/
def numberLayout : Layout where
  lowest := -4
  limit := 16
  wholeEnd := ".0"
  exponentWidth := 2
  infinity := "inf"
  nan := "nan"

/-- Numbers in JSON text are laid out alike; the three values outside JSON have the names that
scripts give them. -/
def jsonLayout : Layout :=
  { numberLayout with infinity := "Infinity", nan := "NaN" }

/-- Drops the zeros at the end of a run of digits. -/
def dropFinalZeros (ds : List Char) : List Char :=
  (ds.reverse.dropWhile (· == '0')).reverse

/-- An exponent with its sign and at least `width` digits. -/
def exponentText (width : Nat) (e : Int) : List Char :=
  let ds := ofNat e.natAbs
  (if e < 0 then '-' else '+') :: List.replicate (width - ds.length) '0' ++ ds

/-- Lays out `0.d₁d₂… · 10 ^ point`, the digits without zeros at the end. -/
def Layout.place (l : Layout) (ds : List Char) (point : Int) : List Char :=
  if l.lowest < point && point ≤ l.limit then
    if point ≤ 0 then '0' :: '.' :: List.replicate (-point).toNat '0' ++ ds
    else if ds.length ≤ point.toNat then
      ds ++ List.replicate (point.toNat - ds.length) '0' ++ l.wholeEnd.toList
    else ds.take point.toNat ++ '.' :: ds.drop point.toNat
  else
    let mantissa := match ds with
      | d :: rest@(_ :: _) => d :: '.' :: rest
      | _ => ds
    mantissa ++ 'e' :: exponentText l.exponentWidth (point - 1)

/-- The text of a number under a layout. -/
def Layout.write (l : Layout) (x : Binary64) : String :=
  let sign := if x.negative then ['-'] else []
  if x.isNaN then l.nan
  else if x.isInfinite then String.ofList (sign ++ l.infinity.toList)
  else if x.isZero then String.ofList (sign ++ '0' :: l.wholeEnd.toList)
  else
    let s := x.shortest
    let all := ofNat s.digits
    String.ofList (sign ++ l.place (dropFinalZeros all) (all.length + s.exponent))

end Decimal

/-- The usual text of a number. -/
def Binary64.text (x : Binary64) : String :=
  Decimal.numberLayout.write x

end PagePlan
