/-
# Dynamic values

Saved plans, requirements, model replies and extracted data are trees of dynamic values.  A
mapping is a list of entries in the order in which their keys were first written; any value may
be a key, and a whole number, a number with the same value and a truth value are one key.  A text is
a string, or a text with half of a surrogate pair in it; only the former can be written to a file.
-/
import PagePlan.Decimal.Shortest
import PagePlan.Text.Letter

namespace PagePlan

/-- A dynamic value. -/
inductive Value where
  | null
  | bool (b : Bool)
  | int (n : Int)
  | float (x : Binary64)
  | str (s : String)
  /-- A text that is no string. -/
  | unpaired (t : Text.Unpaired)
  | list (items : List Value)
  | tuple (items : List Value)
  | dict (entries : List (Value × Value))
deriving Inhabited

namespace Value

/-- The name of a value's kind in messages. -/
def kindName : Value → String
  | null => "NoneType"
  | bool _ => "bool"
  | int _ => "int"
  | float _ => "float"
  | str _ => "str"
  | unpaired _ => "str"
  | list _ => "list"
  | tuple _ => "tuple"
  | dict _ => "dict"

mutual

/-- Whether two values are the same key: numbers are compared by value across their kinds. -/
def sameKey : Value → Value → Bool
  | null, null => true
  | str s, str t => s == t
  | unpaired s, unpaired t => s == t
  | bool b, bool c => b == c
  | int n, int m => n == m
  | float x, float y => x.same y
  | bool b, int n => n == b.toInt
  | int n, bool b => n == b.toInt
  | float x, int n => x.sameInt n
  | int n, float x => x.sameInt n
  | float x, bool b => x.sameInt b.toInt
  | bool b, float x => x.sameInt b.toInt
  | tuple xs, tuple ys => sameKeys xs ys
  | list xs, list ys => sameKeys xs ys
  | _, _ => false

/-- `sameKey` for the items of two sequences. -/
def sameKeys : List Value → List Value → Bool
  | [], [] => true
  | x :: xs, y :: ys => sameKey x y && sameKeys xs ys
  | _, _ => false

end

/-- Whether a value counts as true: everything but null, false, zero and what is empty. -/
def truthy : Value → Bool
  | null => false
  | bool b => b
  | int n => n != 0
  | float x => !x.isZero
  | str s => s != ""
  | unpaired _ => true
  | list xs => !xs.isEmpty
  | tuple xs => !xs.isEmpty
  | dict es => !es.isEmpty

/-- The string of a text value that is one. -/
def str? : Value → Option String
  | str s => some s
  | _ => none

/-- Whether a value is a text. -/
def isText : Value → Bool
  | str _ => true
  | unpaired _ => true
  | _ => false

/-- The value of a text. -/
def ofLetters (s : List Text.Letter) : Value :=
  if h : s.any Text.Letter.isHalf = true then unpaired ⟨s, h⟩
  else str (String.ofList (s.filterMap Text.Letter.char?))

/-- The letters of a text value. -/
def letters? : Value → Option (List Text.Letter)
  | str s => some (Text.letters s.toList)
  | unpaired t => some t.letters
  | _ => none

/-- A text without a half is a string. -/
@[simp] theorem ofLetters_letters (cs : List Char) :
    ofLetters (Text.letters cs) = str (String.ofList cs) := by
  simp [ofLetters]

/-- The value of a text has its letters. -/
@[simp] theorem letters?_ofLetters (s : List Text.Letter) : (ofLetters s).letters? = some s := by
  rw [ofLetters]
  split
  · rfl
  · next h => simp [letters?, Text.letters_filterMap_char? (by simpa using h)]

/-- A text value is the value of its letters. -/
theorem ofLetters_of_letters? {v : Value} {s : List Text.Letter} (h : v.letters? = some s) :
    ofLetters s = v := by
  cases v with
  | str t =>
    simp only [letters?, Option.some.injEq] at h
    rw [← h, ofLetters_letters, String.ofList_toList]
  | unpaired t =>
    simp only [letters?, Option.some.injEq] at h
    subst h
    simp [ofLetters, t.hasHalf]
  | _ => simp [letters?] at h

/-- The entries of a mapping. -/
def dict? : Value → Option (List (Value × Value))
  | dict es => some es
  | _ => none

def isNull : Value → Bool
  | null => true
  | _ => false

end Value

/-- The entries of a mapping. -/
abbrev Entries := List (Value × Value)

namespace Entries

/-- The value of a text key. -/
def get? (es : Entries) (key : String) : Option Value :=
  (es.find? fun e => e.1.sameKey (.str key)).map Prod.snd

/-- Whether a text key is present. -/
def has (es : Entries) (key : String) : Bool :=
  (get? es key).isSome

/-- Sets the value of a key: a key that is present keeps its place, a new one goes to the end. -/
def set : Entries → Value → Value → Entries
  | [], key, v => [(key, v)]
  | (k, old) :: rest, key, v =>
    if k.sameKey key then (k, v) :: rest else (k, old) :: set rest key v

/-- Sets the value of a text key. -/
def insert (es : Entries) (key : String) (v : Value) : Entries :=
  set es (.str key) v

/-- The entries of a sequence of assignments. -/
def ofAssignments (es : Entries) : Entries :=
  es.foldl (fun acc e => set acc e.1 e.2) []

/-- All entries of one mapping and then those of another, whose values win. -/
def merge (es others : Entries) : Entries :=
  others.foldl (fun acc e => set acc e.1 e.2) es

/-- The entries without a text key. -/
def erase (es : Entries) (key : String) : Entries :=
  es.filter fun e => !e.1.sameKey (.str key)

/-- The first value under one of several keys that is present and not null. -/
def firstPresent? (es : Entries) : List String → Option Value
  | [] => none
  | key :: keys =>
    match get? es key with
    | some .null | none => firstPresent? es keys
    | some v => some v

theorem sizeOf_lt_of_get? {es : Entries} {key : String} {v : Value} (h : es.get? key = some v) :
    sizeOf v < sizeOf es := by
  simp only [get?, Option.map_eq_some_iff] at h
  obtain ⟨e, he, rfl⟩ := h
  have hm := List.sizeOf_lt_of_mem (List.mem_of_find?_eq_some he)
  have : sizeOf e = 1 + sizeOf e.1 + sizeOf e.2 := by cases e; rfl
  omega

theorem sizeOf_lt_of_firstPresent? {es : Entries} {keys : List String} {v : Value}
    (h : es.firstPresent? keys = some v) : sizeOf v < sizeOf es := by
  induction keys with
  | nil => simp [firstPresent?] at h
  | cons key keys ih =>
    rw [firstPresent?] at h
    split at h
    · exact ih h
    · exact ih h
    · next w _ hw =>
      simp only [Option.some.injEq] at h
      subst h
      exact sizeOf_lt_of_get? hw

end Entries

/-- A mapping with text keys. -/
def Value.record (fields : List (String × Value)) : Value :=
  .dict (fields.map fun f => (.str f.1, f.2))

end PagePlan
