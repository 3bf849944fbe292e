/-
# Reading JSON text

The reader takes RFC 8259 text and the three names `NaN`, `Infinity` and `-Infinity`.  It works
on the list of letters that are left, so that a place in the text is the number of letters left
there; a failure keeps that number, and the line and column are worked out from it once, at the
end.  The fuel of the mutual functions bounds the calls on the way to a value; the wrapper
gives more than a text of that length can use.
-/
import PagePlan.Value.Basic
import PagePlan.Text.Blank

namespace PagePlan.Json

open Text (Letter letters)

/-- What is wrong at a place in a text. -/
inductive Problem where
  | expectingValue
  | expectingName
  | expectingColon
  | expectingComma
  | unterminated
  | controlCharacter
  | escape
  | unicodeEscape
  | extraData
  | byteOrderMark
deriving DecidableEq, Repr

/-- The wording of a problem. -/
def Problem.message : Problem → String
  | expectingValue => "Expecting value"
  | expectingName => "Expecting property name enclosed in double quotes"
  | expectingColon => "Expecting ':' delimiter"
  | expectingComma => "Expecting ',' delimiter"
  | unterminated => "Unterminated string starting at"
  | controlCharacter => "Invalid control character at"
  | escape => "Invalid \\escape"
  | unicodeEscape => "Invalid \\uXXXX escape"
  | extraData => "Extra data"
  | byteOrderMark => "Unexpected UTF-8 BOM (decode using utf-8-sig)"

/-- A problem with its place: the number of letters before it, its line and its column. -/
structure SyntaxError where
  problem : Problem
  offset : Nat
  line : Nat
  column : Nat
deriving DecidableEq, Repr

/-- A problem with its place, in words. -/
def SyntaxError.message (e : SyntaxError) : String :=
  e.problem.message ++ ": line " ++ String.ofList (Decimal.ofNat e.line) ++ " column " ++
    String.ofList (Decimal.ofNat e.column) ++ " (char " ++ String.ofList (Decimal.ofNat e.offset)
    ++ ")"

/-- Why a text cannot be read. -/
inductive ReadError where
  | syntaxError (e : SyntaxError)
  /-- A whole number with more digits than are converted. -/
  | tooManyDigits (count : Nat)
deriving DecidableEq, Repr

/-- The most digits of a whole number that are converted. -/
def digitLimit : Nat := 4300

/-- The wording for a whole number with too many digits. -/
def digitLimitMessage (count : Nat) : String :=
  "Exceeds the limit (" ++ String.ofList (Decimal.ofNat digitLimit) ++
    " digits) for integer string conversion: value has " ++ String.ofList (Decimal.ofNat count) ++
    " digits; use sys.set_int_max_str_digits() to increase the limit"

/-- The wording of a failure to read. -/
def ReadError.message : ReadError → String
  | syntaxError e => e.message
  | tooManyDigits count => digitLimitMessage count

/-- A failure inside a text, the place given by the number of letters left. -/
inductive Halt where
  | problem (p : Problem) (left : Nat)
  | tooManyDigits (count : Nat)

def skipBlanks (s : List Letter) : List Letter :=
  s.dropWhile (Letter.isIn Text.isXmlBlank)

/-- The value of a hexadecimal digit. -/
def hexValue? (c : Char) : Option Nat :=
  if c.isDigit then some (c.toNat - 48)
  else if 'a' ≤ c && c ≤ 'f' then some (c.toNat - 87)
  else if 'A' ≤ c && c ≤ 'F' then some (c.toNat - 55)
  else none

/-- Four hexadecimal digits that stand before at least one more letter. -/
def fourHex? : List Letter → Option (Nat × List Letter)
  | .char a :: .char b :: .char c :: .char d :: rest@(_ :: _) => do
    let a ← hexValue? a
    let b ← hexValue? b
    let c ← hexValue? c
    let d ← hexValue? d
    return (4096 * a + 256 * b + 16 * c + d, rest)
  | _ => none

/-- The character of an escape with a letter of its own. -/
def escaped? : Letter → Option Char
  | .char '\x22' => some '\x22'
  | .char '\\' => some '\\'
  | .char '/' => some '/'
  | .char 'b' => some '\x08'
  | .char 'f' => some '\x0c'
  | .char 'n' => some '\n'
  | .char 'r' => some '\r'
  | .char 't' => some '\t'
  | _ => none

/-- A code unit after `\u`, with its second half where two units make one character. -/
def readUnits (s : List Letter) : Except Halt (Letter × List Letter) :=
  match fourHex? s with
  | none => .error (.problem .unicodeEscape (s.length + 1))
  | some (high, rest) =>
    match rest with
    | .char '\\' :: .char 'u' :: more =>
      if 0xD800 ≤ high && high < 0xDC00 && 5 ≤ more.length then
        match fourHex? more with
        | none => .error (.problem .unicodeEscape (more.length + 1))
        | some (low, after) =>
          if 0xDC00 ≤ low && low < 0xE000 then
            .ok (.ofCode (0x10000 + (high - 0xD800) * 1024 + (low - 0xDC00)), after)
          else .ok (.ofCode high, rest)
      else .ok (.ofCode high, rest)
    | _ => .ok (.ofCode high, rest)

/-- The rest of a text literal, up to and with its closing quote; `start` is the number of
letters left at its opening quote. -/
def readString (start : Nat) : Nat → List Letter → Except Halt (List Letter × List Letter)
  | 0, _ => .error (.problem .unterminated start)
  | _ + 1, [] => .error (.problem .unterminated start)
  | fuel + 1, l :: rest =>
    if l = .char '\x22' then .ok ([], rest)
    else if l = .char '\\' then
      match rest with
      | [] => .error (.problem .unterminated start)
      | .char 'u' :: more => do
        let (d, after) ← readUnits more
        let (ds, after) ← readString start fuel after
        return (d :: ds, after)
      | e :: after =>
        match escaped? e with
        | none => .error (.problem .escape (rest.length + 1))
        | some d => do
          let (ds, after) ← readString start fuel after
          return (.char d :: ds, after)
    else if l.code < 32 then .error (.problem .controlCharacter (rest.length + 1))
    else do
      let (ds, after) ← readString start fuel rest
      return (l :: ds, after)

/-- The digits at the front of a text, and what follows them. -/
def spanDigits : List Letter → List Char × List Letter
  | .char c :: rest =>
    if c.isDigit then (c :: (spanDigits rest).1, (spanDigits rest).2) else ([], .char c :: rest)
  | s => ([], s)

/-- The digits after a point, where at least one stands there. -/
def fraction? : List Letter → Option (List Char × List Letter)
  | .char '.' :: rest =>
    match spanDigits rest with
    | ([], _) => none
    | found => some found
  | _ => none

/-- An exponent with its sign, where it has at least one digit. -/
def exponent? : List Letter → Option (Int × List Letter)
  | e :: rest =>
    if e = .char 'e' || e = .char 'E' then
      let (negative, ds) := match rest with
        | .char '-' :: ds => (true, ds)
        | .char '+' :: ds => (false, ds)
        | ds => (false, ds)
      match spanDigits ds with
      | ([], _) => none
      | (ds, after) =>
        let n : Int := Decimal.toNat ds
        some (if negative then -n else n, after)
    else none
  | [] => none

/-- The digits before the point: a zero stands alone. -/
def wholeDigits : List Letter → List Char × List Letter
  | .char '0' :: rest => (['0'], rest)
  | s => spanDigits s

/-- A number without its sign; `start` is the number of letters left at the sign. -/
def readUnsigned (start : Nat) (negative : Bool) (s : List Letter) :
    Except Halt (Value × List Letter) :=
  let (whole, rest) := wholeDigits s
  if whole.isEmpty then .error (.problem .expectingValue start)
  else
    let fraction := fraction? rest
    let afterFraction := (fraction.map Prod.snd).getD rest
    let exponent := exponent? afterFraction
    let after := (exponent.map Prod.snd).getD afterFraction
    if fraction.isNone && exponent.isNone then
      if digitLimit < whole.length then .error (.tooManyDigits whole.length)
      else
        let n : Int := Decimal.toNat whole
        .ok (.int (if negative then -n else n), after)
    else
      let places := (fraction.map Prod.fst).getD []
      let e := (exponent.map Prod.fst).getD 0
      .ok (.float (.ofDecimal negative (Decimal.toNat (whole ++ places)) (e - places.length)),
        after)

/-- A number, or one of the names of numbers outside JSON. -/
def readNumber (s : List Letter) : Except Halt (Value × List Letter) :=
  match Text.afterFront? (letters "-Infinity".toList) s with
  | some rest => .ok (.float (.infinity true), rest)
  | none =>
    match s with
    | .char '-' :: rest => readUnsigned s.length true rest
    | _ => readUnsigned s.length false s

/-- A value written as a name. -/
def literal? (s : List Letter) : Option (Value × List Letter) :=
  [("null", Value.null), ("true", .bool true), ("false", .bool false), ("NaN", .float .nan),
    ("Infinity", .float (.infinity false))].findSome? fun (name, v) =>
      (Text.afterFront? (letters name.toList) s).map fun rest => (v, rest)

mutual

/-- A value at the front of a text. -/
def readValue : Nat → List Letter → Except Halt (Value × List Letter)
  | 0, s => .error (.problem .expectingValue s.length)
  | fuel + 1, s =>
    match s with
    | [] => .error (.problem .expectingValue 0)
    | l :: rest =>
      if l = .char '\x22' then do
        let (ds, after) ← readString s.length rest.length.succ rest
        return (.ofLetters ds, after)
      else if l = .char '\x7b' then
        match skipBlanks rest with
        | .char '\x7d' :: after => .ok (.dict [], after)
        | inside => do
          let (es, after) ← readMembers fuel [] inside
          return (.dict es, after)
      else if l = .char '[' then
        match skipBlanks rest with
        | .char ']' :: after => .ok (.list [], after)
        | inside => do
          let (xs, after) ← readItems fuel inside
          return (.list xs, after)
      else match literal? s with
        | some found => .ok found
        | none => readNumber s

/-- The items of an array from one of them to the closing bracket. -/
def readItems : Nat → List Letter → Except Halt (List Value × List Letter)
  | 0, s => .error (.problem .expectingValue s.length)
  | fuel + 1, s => do
    let (v, after) ← readValue fuel s
    match skipBlanks after with
    | .char ']' :: rest => return ([v], rest)
    | .char ',' :: rest => do
      let (vs, rest) ← readItems fuel (skipBlanks rest)
      return (v :: vs, rest)
    | other => .error (.problem .expectingComma other.length)

/-- The members of an object from one of them to the closing brace, added to those before. -/
def readMembers : Nat → Entries → List Letter → Except Halt (Entries × List Letter)
  | 0, _, s => .error (.problem .expectingName s.length)
  | fuel + 1, es, s =>
    match s with
    | .char '\x22' :: rest => do
      let (name, after) ← readString s.length rest.length.succ rest
      match skipBlanks after with
      | .char ':' :: rest => do
        let (v, after) ← readValue fuel (skipBlanks rest)
        let es := es.set (.ofLetters name) v
        match skipBlanks after with
        | .char '\x7d' :: rest => return (es, rest)
        | .char ',' :: rest => readMembers fuel es (skipBlanks rest)
        | other => .error (.problem .expectingComma other.length)
      | other => .error (.problem .expectingColon other.length)
    | _ => .error (.problem .expectingName s.length)

end

/-- A problem at the place where a number of letters is left. -/
def SyntaxError.locate (p : Problem) (s : List Letter) (left : Nat) : SyntaxError :=
  let before := s.take (s.length - left)
  let lines := before.count (.char '\n')
  ⟨p, before.length, lines + 1, (before.reverse.takeWhile (· != .char '\n')).length + 1⟩

/-- The value at the front of a whole text, blanks aside. -/
def readWhole (s : List Letter) : Except Halt Value :=
  match s with
  | .char '\ufeff' :: _ => .error (.problem .byteOrderMark s.length)
  | _ => do
    let (v, after) ← readValue (2 * s.length + 2) (skipBlanks s)
    match skipBlanks after with
    | [] => return v
    | rest => .error (.problem .extraData rest.length)

/-- The value that a text of letters holds. -/
def readLetters (s : List Letter) : Except ReadError Value :=
  match readWhole s with
  | .ok v => .ok v
  | .error (.problem p left) => .error (.syntaxError (.locate p s left))
  | .error (.tooManyDigits count) => .error (.tooManyDigits count)

/-- The value that a text holds. -/
def read (s : String) : Except ReadError Value :=
  readLetters (letters s.toList)

end PagePlan.Json
