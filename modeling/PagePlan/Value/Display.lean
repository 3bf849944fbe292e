/-
# Values in messages and as text

A value is shown in messages the way a script would write it: texts in quotes, sequences and
mappings in brackets.  As text, a text value is itself and every other value is what messages
show.
-/
import PagePlan.Value.Basic
import PagePlan.Text.Quoted

namespace PagePlan.Value

mutual

/-- A value as messages show it. -/
def display : Value → String
  | null => "None"
  | bool b => if b then "True" else "False"
  | int n => String.ofList (Decimal.ofInt n)
  | float x => x.text
  | str s => Text.quoted s
  | unpaired t => Text.quotedLetters t.letters
  | list xs => "[" ++ ", ".intercalate (displayAll xs) ++ "]"
  | tuple [x] => "(" ++ display x ++ ",)"
  | tuple xs => "(" ++ ", ".intercalate (displayAll xs) ++ ")"
  | dict es => "\x7b" ++ ", ".intercalate (displayEntries es) ++ "\x7d"

/-- The items of a sequence as messages show them. -/
def displayAll : List Value → List String
  | [] => []
  | x :: xs => display x :: displayAll xs

/-- The entries of a mapping as messages show them. -/
def displayEntries : List (Value × Value) → List String
  | [] => []
  | (k, v) :: es => (display k ++ ": " ++ display v) :: displayEntries es

end

/-- A value as text, a mark in the place of each half of a surrogate pair. -/
def asText : Value → String
  | str s => s
  | unpaired t => t.shown
  | v => display v

/-- A value as letters. -/
def asLetters : Value → List Text.Letter
  | unpaired t => t.letters
  | v => Text.letters v.asText.toList

/-- A text value has the letters it was made of. -/
@[simp] theorem asLetters_ofLetters (s : List Text.Letter) : (ofLetters s).asLetters = s := by
  rw [ofLetters]
  split
  · rfl
  · next h => simp [asLetters, asText, Text.letters_filterMap_char? (by simpa using h)]

/-- A value as a text value. -/
def asKey : Value → Value
  | unpaired t => unpaired t
  | v => str v.asText

/-- Text keys as messages show them, in brackets. -/
def displayNames (names : List String) : String :=
  display (.list (names.map .str))

end PagePlan.Value
