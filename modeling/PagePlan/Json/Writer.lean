/-
# Writing JSON text

Values are written over several lines, two blanks of indentation a level, one item or member a
line.  A style says whether what is outside ASCII is escaped; if not, half of a surrogate pair
stands in the text as it is.  Keys other than texts are written as the text of their value where
JSON has one; a sequence as a key is refused.
-/
import PagePlan.Value.Basic
import PagePlan.Text.Quoted

namespace PagePlan.Json

open Text (Letter letters)

/-- Which characters are escaped. -/
inductive Style where
  /-- Everything outside printable ASCII is escaped. -/
  | ascii
  /-- Only what JSON requires is escaped. -/
  | unicode
deriving DecidableEq

/-- A code unit as an escape. -/
def unitEscape (n : Nat) : List Char :=
  '\\' :: 'u' :: Text.hexDigits 4 n

/-- The code units of a character as escapes. -/
def unitEscapes (n : Nat) : List Char :=
  if n < 0x10000 then unitEscape n
  else unitEscape (0xD800 + (n - 0x10000) / 1024) ++ unitEscape (0xDC00 + (n - 0x10000) % 1024)

/-- One character of a text literal. -/
def writeChar (style : Style) (c : Char) : List Char :=
  if c == '\x22' || c == '\\' then ['\\', c]
  else if c == '\n' then ['\\', 'n']
  else if c == '\r' then ['\\', 'r']
  else if c == '\t' then ['\\', 't']
  else if c == '\x0c' then ['\\', 'f']
  else if c == '\x08' then ['\\', 'b']
  else if c.toNat < 32 then unitEscape c.toNat
  else if style = .ascii && 126 < c.toNat then unitEscapes c.toNat
  else [c]

/-- One letter of a text literal. -/
def writeLetter (style : Style) : Letter → List Letter
  | .char c => letters (writeChar style c)
  | .half n => if style = .ascii then letters (unitEscape (0xD800 + n)) else [.half n]

/-- A text literal with its quotes. -/
def writeString (style : Style) (s : List Letter) : List Letter :=
  .char '\x22' :: s.flatMap (writeLetter style) ++ [.char '\x22']

/-- A number literal. -/
def writeFloat (x : Binary64) : List Char :=
  (Decimal.jsonLayout.write x).toList

/-- The text of a key, where it has one. -/
def keyText? : Value → Option (List Letter)
  | .str s => some (letters s.toList)
  | .unpaired t => some t.letters
  | .null => some (letters "null".toList)
  | .bool b => some (letters (if b then "true" else "false").toList)
  | .int n => some (letters (Decimal.ofInt n))
  | .float x => some (letters (writeFloat x))
  | _ => none

/-- A line break and the indentation of a level. -/
def newline (level : Nat) : List Letter :=
  .char '\n' :: List.replicate (2 * level) (.char ' ')

mutual

/-- A value at a level of indentation; none where a key has no text. -/
def writeAt? (style : Style) (level : Nat) : Value → Option (List Letter)
  | .null => some (letters "null".toList)
  | .bool b => some (letters (if b then "true" else "false").toList)
  | .int n => some (letters (Decimal.ofInt n))
  | .float x => some (letters (writeFloat x))
  | .str s => some (writeString style (letters s.toList))
  | .unpaired t => some (writeString style t.letters)
  | .list [] => some [.char '[', .char ']']
  | .list (x :: xs) => do
    let items ← writeItems? style (level + 1) (x :: xs)
    return .char '[' :: newline (level + 1) ++ items ++ newline level ++ [.char ']']
  | .tuple [] => some [.char '[', .char ']']
  | .tuple (x :: xs) => do
    let items ← writeItems? style (level + 1) (x :: xs)
    return .char '[' :: newline (level + 1) ++ items ++ newline level ++ [.char ']']
  | .dict [] => some [.char '\x7b', .char '\x7d']
  | .dict (e :: es) => do
    let members ← writeMembers? style (level + 1) (e :: es)
    return .char '\x7b' :: newline (level + 1) ++ members ++ newline level ++ [.char '\x7d']

/-- Items with commas and line breaks between them. -/
def writeItems? (style : Style) (level : Nat) : List Value → Option (List Letter)
  | [] => some []
  | [x] => writeAt? style level x
  | x :: xs => do
    let first ← writeAt? style level x
    let others ← writeItems? style level xs
    return first ++ .char ',' :: newline level ++ others

/-- Members with commas and line breaks between them. -/
def writeMembers? (style : Style) (level : Nat) : List (Value × Value) → Option (List Letter)
  | [] => some []
  | [(k, v)] => do
    let key ← keyText? k
    let value ← writeAt? style level v
    return writeString style key ++ .char ':' :: .char ' ' :: value
  | (k, v) :: es => do
    let key ← keyText? k
    let value ← writeAt? style level v
    let others ← writeMembers? style level es
    return writeString style key ++ .char ':' :: .char ' ' :: value ++
      .char ',' :: newline level ++ others

end

/-- The text of a value; none where a key has no text. -/
def write? (style : Style) (v : Value) : Option (List Letter) :=
  writeAt? style 0 v

/-- The text of a value as a string: with everything outside ASCII escaped there is no half left
in it. -/
def writeAscii? (v : Value) : Option String :=
  (write? .ascii v).map fun s => String.ofList (s.map Letter.shown)

end PagePlan.Json
