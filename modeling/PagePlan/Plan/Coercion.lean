/-
# From matches to typed scalars

A query answers with a list of matches or with a scalar.  Either is resolved to one text without
blanks at its ends: the text of the first match, or the scalar in words.  The text is then coerced
to the declared type; numbers are read off the characters that can be part of one.
-/
import PagePlan.Plan.Basic
import PagePlan.Failure

namespace PagePlan

/-- The answer to a query: matches in document order, or a scalar. -/
inductive Answer (γ : Type) where
  | nodes (found : List γ)
  | text (s : String)
  | number (x : Binary64)
  | truth (b : Bool)

namespace Answer

variable {γ : Type}

/-- The matches of an answer; a scalar has none. -/
def found : Answer γ → List γ
  | nodes ms => ms
  | _ => []

/-- A whole number in decimal digits, any other number in its usual text. -/
def numberText (x : Binary64) : String :=
  if x.isWhole then String.ofList (Decimal.ofInt x.truncate) else x.text

/-- The text of an answer before trimming; none where nothing matched. -/
def untrimmed? (textOf : γ → String) : Answer γ → Option String
  | nodes [] => none
  | nodes (m :: _) => some (textOf m)
  | text s => some s
  | number x => some (numberText x)
  | truth b => some (if b then "true" else "false")

/-- The text of an answer; none where nothing matched. -/
def resolve? (textOf : γ → String) (a : Answer γ) : Option String :=
  (a.untrimmed? textOf).map Text.strip

/-- A value as an answer; null is none. -/
def ofValue? : Value → Option (Answer Value)
  | .null => none
  | .list xs => some (nodes xs)
  | .bool b => some (truth b)
  | .float x => some (number x)
  | v => some (text v.asText)

end Answer

/-- The characters of a whole number. -/
def isIntegerChar (c : Char) : Bool := c.isDigit || c == '-'

/-- The characters of a number. -/
def isNumberChar (c : Char) : Bool := isIntegerChar c || c == '.'

/-- The sign and the digits of the whole number at the front of a text. -/
def leadingInteger (s : List Char) : Bool × List Char :=
  match s with
  | '-' :: rest => (true, rest.takeWhile Char.isDigit)
  | _ => (false, s.takeWhile Char.isDigit)

/-- The whole number that a text holds among other characters; zero where it holds none. -/
def toInteger (raw : String) : Except Failure Int :=
  let (negative, ds) := leadingInteger (raw.toList.filter isIntegerChar)
  if Json.digitLimit < ds.length then .error (.tooManyDigits ds.length)
  else
    let n : Int := Decimal.toNat ds
    .ok (if negative then -n else n)

/-- The digits before and after the point of the number at the front of a text, the point being
optional; none where there is no digit. -/
def leadingNumeral? (s : List Char) : Option (List Char × List Char) :=
  let whole := s.takeWhile Char.isDigit
  let places := match s.dropWhile Char.isDigit with
    | '.' :: rest => rest.takeWhile Char.isDigit
    | _ => []
  if whole.isEmpty && places.isEmpty then none else some (whole, places)

/-- The number that a text holds among other characters; zero where it holds none. -/
def toNumber (raw : String) : Binary64 :=
  let kept := raw.toList.filter isNumberChar
  let (negative, s) := match kept with
    | '-' :: rest => (true, rest)
    | s => (false, s)
  match leadingNumeral? s with
  | none => .zero
  | some (whole, places) =>
    .ofDecimal negative (Decimal.toNat (whole ++ places)) (-(places.length : Int))

/-- The words that mean true. -/
def trueWords : List String := ["true", "yes", "1", "on"]

/-- A text as a value of a declared type. -/
def coerce (raw : String) : ValueType → Except Failure Value
  | .string => .ok (.str (Text.strip (Text.squeeze raw)))
  | .integer => (toInteger raw).map Value.int
  | .number => .ok (.float (toNumber raw))
  | .boolean => .ok (.bool (trueWords.contains (Text.lower raw)))
  | .other _ => .ok (.str raw)

/-- A text as a value of the type with a name; without one it is kept. -/
def coerceNamed (raw : String) : Option String → Except Failure Value
  | none => .ok (.str raw)
  | some name => coerce raw (.ofName name)

end PagePlan
