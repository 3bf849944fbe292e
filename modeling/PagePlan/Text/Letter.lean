/-
# Letters

An escape in a JSON text can spell half of a surrogate pair on its own.  Such a half is no
character, and no encoding has bytes for it; still it is part of the text that was read.  A letter
is a character or such a half.  A text of characters alone is a string; one with a half in it is
kept apart, and cannot be written to a file.
-/
import PagePlan.Decimal.Digits
import PagePlan.Text.Quoted

namespace PagePlan.Text

/-- A character, or half of a surrogate pair on its own. -/
inductive Letter where
  | char (c : Char)
  /-- The surrogate `0xD800 + n`. -/
  | half (n : Fin 2048)
deriving DecidableEq, Repr

namespace Letter

/-- The code point of a letter. -/
def code : Letter → Nat
  | char c => c.toNat
  | half n => 0xD800 + n

/-- The letter of a code point. -/
def ofCode (n : Nat) : Letter :=
  if h : 0xD800 ≤ n ∧ n < 0xE000 then half ⟨n - 0xD800, by omega⟩ else char (Char.ofNat n)

/-- Whether a letter is no character. -/
def isHalf : Letter → Bool
  | char _ => false
  | half _ => true

/-- The character that a letter is. -/
def char? : Letter → Option Char
  | char c => some c
  | half _ => none

/-- Whether a letter is a character of a class. -/
def isIn (p : Char → Bool) : Letter → Bool
  | char c => p c
  | half _ => false

/-- The character that stands for a letter where halves cannot be shown. -/
def shown : Letter → Char
  | char c => c
  | half _ => '\ufffd'

end Letter

/-- Letters as they are shown, a mark in the place of each half. -/
def shown (s : List Letter) : String := String.ofList (s.map Letter.shown)

/-- The letters of some characters. -/
def letters (cs : List Char) : List Letter := cs.map .char

@[simp] theorem letters_nil : letters [] = [] := rfl

@[simp] theorem letters_cons (c : Char) (cs : List Char) :
    letters (c :: cs) = .char c :: letters cs := rfl

@[simp] theorem letters_append (cs ds : List Char) :
    letters (cs ++ ds) = letters cs ++ letters ds := List.map_append

@[simp] theorem length_letters (cs : List Char) : (letters cs).length = cs.length :=
  List.length_map _

@[simp] theorem filterMap_char?_letters (cs : List Char) :
    (letters cs).filterMap Letter.char? = cs := by
  induction cs with
  | nil => rfl
  | cons c cs ih => simp [Letter.char?, ih]

@[simp] theorem any_isHalf_letters (cs : List Char) : (letters cs).any Letter.isHalf = false := by
  induction cs with
  | nil => rfl
  | cons c cs ih => simp [Letter.isHalf, ih]

/-- Letters without a half are the letters of their characters. -/
theorem letters_filterMap_char? {s : List Letter} (h : s.any Letter.isHalf = false) :
    letters (s.filterMap Letter.char?) = s := by
  induction s with
  | nil => rfl
  | cons l s ih =>
    cases l with
    | char c => simpa [Letter.char?, Letter.isHalf] using ih (by simpa [Letter.isHalf] using h)
    | half n => simp [Letter.isHalf] at h

/-- A text with half of a surrogate pair in it. -/
structure Unpaired where
  letters : List Letter
  hasHalf : letters.any Letter.isHalf = true
deriving DecidableEq, Repr

/-- The text as it is shown, a mark in the place of each half. -/
def Unpaired.shown (t : Unpaired) : String :=
  String.ofList (t.letters.map Letter.shown)

/-- Letters between quotes, as messages show them: a half is written by its code point. -/
def quotedLetters (s : List Letter) : String :=
  let q := quoteFor (s.filterMap Letter.char?)
  String.ofList (q :: s.flatMap (fun
    | .char c => quoteChar q c
    | .half n => '\\' :: 'u' :: hexDigits 4 (0xD800 + n)) ++ [q])

/-- A run of halves in a text that is to be written as bytes. -/
structure HalfFault where
  /-- The code point of the first one. -/
  first : Nat
  /-- How many letters stand before. -/
  position : Nat
  /-- How many halves there are in a row, at least one. -/
  length : Nat
deriving DecidableEq, Repr

/-- The first run of halves in a text. -/
def halfFault? (s : List Letter) : Option HalfFault :=
  match s.dropWhile fun l => !l.isHalf with
  | [] => none
  | l :: rest =>
    some ⟨l.code, s.length - (rest.length + 1), 1 + (rest.takeWhile Letter.isHalf).length⟩

/-- A text without a half has no such run. -/
theorem halfFault?_eq_none_iff {s : List Letter} :
    halfFault? s = none ↔ s.any Letter.isHalf = false := by
  have hnil : s.dropWhile (fun l => !l.isHalf) = [] ↔ s.any Letter.isHalf = false := by
    induction s with
    | nil => simp
    | cons l s ih => cases hl : l.isHalf <;> simp [hl, ih]
  rw [← hnil, halfFault?]
  split
  · next h => simp [h]
  · next h => simp [h]

/-- The wording of a fault. -/
def HalfFault.message (f : HalfFault) : String :=
  let number (n : Nat) : String := String.ofList (Decimal.ofNat n)
  let place := if f.length = 1 then
      "character '\\u" ++ String.ofList (hexDigits 4 f.first) ++ "' in position " ++
        number f.position
    else "characters in position " ++ number f.position ++ "-" ++
      number (f.position + f.length - 1)
  "'utf-8' codec can't encode " ++ place ++ ": surrogates not allowed"

end PagePlan.Text
