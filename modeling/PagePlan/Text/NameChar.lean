/-
# Characters of names

The characters that may begin a name in XML and XPath, and those that may follow.  The colon is
left out, because it separates the two parts of a name.
-/

namespace PagePlan.Text

/-- Ranges of the characters beyond ASCII that may begin a name. -/
def nameStartRanges : List (Nat × Nat) :=
  [(0xC0, 0xD6), (0xD8, 0xF6), (0xF8, 0x2FF), (0x370, 0x37D), (0x37F, 0x1FFF), (0x200C, 0x200D),
    (0x2070, 0x218F), (0x2C00, 0x2FEF), (0x3001, 0xD7FF), (0xF900, 0xFDCF), (0xFDF0, 0xFFFD),
    (0x10000, 0xEFFFF)]

/-- Whether a character may begin a name. -/
def isNameStart (c : Char) : Bool :=
  c.isAlpha || c == '_' ||
    nameStartRanges.any fun (low, high) => low ≤ c.toNat && c.toNat ≤ high

/-- Whether a character may stand in a name. -/
def isNameChar (c : Char) : Bool :=
  let n := c.toNat
  isNameStart c || c.isDigit || c == '-' || c == '.' || n == 0xB7 || (0x300 ≤ n && n ≤ 0x36F) ||
    (0x203F ≤ n && n ≤ 0x2040)

/-- Every character that may begin a name may stand in one. -/
theorem isNameChar_of_isNameStart {c : Char} (h : isNameStart c = true) : isNameChar c = true := by
  simp [isNameChar, h]

/-- The name at the front of a text, and the text after it. -/
def readNamePart? : List Char → Option (String × List Char)
  | [] => none
  | c :: rest =>
    if isNameStart c then
      some (String.ofList (c :: rest.takeWhile isNameChar), rest.dropWhile isNameChar)
    else none

/-- Whether a character may stand in the text of a page: controls and two code points at the end
of the first plane may not. -/
def isPageChar (c : Char) : Bool :=
  c == '\t' || c == '\n' || c == '\r' || (32 ≤ c.toNat && c.toNat != 0xFFFE && c.toNat != 0xFFFF)

end PagePlan.Text
