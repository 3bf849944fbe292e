/-
# The encoding of a page

A page that comes as bytes may say its encoding itself: by a byte order mark, by the front of an
XML declaration, or by a meta element.  A meta element counts if it stands before the first byte
that is not ASCII.  If that byte comes first, the rest of the page is searched for the text of a
meta element, and a page that says nothing is ISO 8859-1.
-/
import PagePlan.Html.Token
import PagePlan.Text.CodePage

namespace PagePlan.Html

open Text (CodePage Endian)

/-- An encoding of pages. -/
inductive Charset where
  | utf8
  | utf16 (order : Endian)
  | utf32 (order : Endian)
  | page (p : CodePage)

namespace Charset

/-- The encoding that a page may give itself by a name; a page that could be read so far is in no
encoding of wider units. -/
def named? (name : List Char) : Option Charset :=
  let name := Text.lower (String.ofList name)
  if ["utf-8", "utf8", "utf-16", "utf16", "utf-16le", "utf-16be"].contains name then some .utf8
  else (CodePage.named? name).map page

/-- The encoding that the first bytes tell, and the bytes after a byte order mark. -/
def atFront? : List UInt8 → Option (Charset × List UInt8)
  | 0xEF :: 0xBB :: 0xBF :: rest => some (.utf8, rest)
  | 0xFF :: 0xFE :: 0x00 :: 0x00 :: rest => some (.utf32 .little, rest)
  | 0x00 :: 0x00 :: 0xFE :: 0xFF :: rest => some (.utf32 .big, rest)
  | 0xFE :: 0xFF :: rest => some (.utf16 .big, rest)
  | 0xFF :: 0xFE :: rest => some (.utf16 .little, rest)
  | 0x3C :: 0x3F :: 0x78 :: 0x6D :: rest => some (.utf8, 0x3C :: 0x3F :: 0x78 :: 0x6D :: rest)
  | 0x3C :: 0x00 :: 0x3F :: 0x00 :: rest =>
    some (.utf16 .little, 0x3C :: 0x00 :: 0x3F :: 0x00 :: rest)
  | 0x00 :: 0x3C :: 0x00 :: 0x3F :: rest => some (.utf16 .big, 0x00 :: 0x3C :: 0x00 :: 0x3F :: rest)
  | _ => none

/-- The text of UTF-8 bytes, with each byte that is out of place replaced; the fuel is the number
of bytes. -/
def decodeUtf8 : Nat → List UInt8 → List Char
  | 0, _ => []
  | _, [] => []
  | fuel + 1, b :: rest =>
    match Text.utf8Front? (b :: rest) with
    | some (c, after) => c :: decodeUtf8 fuel after
    | none => '\ufffd' :: decodeUtf8 fuel rest

/-- Drops the bytes at the end that make no whole unit. -/
def wholeUnits (size : Nat) (bytes : List UInt8) : List UInt8 :=
  bytes.take (bytes.length / size * size)

/-- The text of bytes. -/
def decode (bytes : List UInt8) : Charset → List Char
  | utf8 => decodeUtf8 bytes.length bytes
  | utf16 order => ((Text.ofUtf16? order (wholeUnits 2 bytes)).getD []).map Text.Letter.shown
  | utf32 order => ((Text.ofUtf32? order (wholeUnits 4 bytes)).getD []).map Text.Letter.shown
  | page p => p.decode bytes

/-- The text after the first place where a word in lower case stands, in any case. -/
def afterWord? (word s : List Char) : Option (List Char) :=
  match s with
  | [] => none
  | _ :: rest =>
    if (s.take word.length).map Char.toLower == word then some (s.drop word.length)
    else afterWord? word rest

/-- The name of the encoding in a content type. -/
def ofContentType? (s : List Char) : Option (List Char) := do
  let rest ← afterWord? "charset".toList s
  let rest := match rest with
    | c :: after => if Text.isXmlBlank c then after else c :: after
    | [] => []
  match rest with
  | '=' :: name => some name
  | _ => none

/-- Whether two words are the same but for case. -/
def sameWord (s t : String) : Bool := Text.lower s == Text.lower t

/-- The encodings that the attributes of a meta element name. -/
def ofMeta (attributes : List (String × Option String)) : List (List Char) :=
  let attributes := attributes.filterMap fun (name, v) => v.map fun v => (name, v)
  let direct := attributes.filterMap fun (name, v) =>
    if name = "charset" then some v.toList else none
  let isContentType := attributes.any fun (name, v) =>
    name = "http-equiv" && sameWord v "content-type"
  let contents := attributes.filterMap fun (name, v) => if name = "content" then some v else none
  let indirect := if isContentType then contents.getLast?.bind (ofContentType? ·.toList) else none
  direct ++ indirect.toList

/-- The first encoding that a meta element among tokens names. -/
def ofTokens? (ts : List Token) : Option Charset :=
  let names := ts.flatMap fun
    | .startTag "meta" attributes _ => ofMeta attributes
    | _ => []
  names.findSome? named?

/-- Whether a character may be part of an encoding's name. -/
def isNameChar (c : Char) : Bool :=
  c.isAlphanum || c == '-' || c == '_' || c == ':' || c == '/'

/-- The encoding that the text of a meta element would name, wherever it stands. -/
def ofText? (s : List Char) : Option Charset := do
  let rest ← afterWord? "http-equiv".toList s
  let rest ← afterWord? "content".toList rest
  let rest ← afterWord? "charset=".toList rest
  named? (rest.takeWhile isNameChar)

/-- The encoding of bytes without a mark at the front. -/
def detect (bytes : List UInt8) : Charset :=
  let isAscii (b : UInt8) := b < 128
  let ascii := (bytes.takeWhile isAscii).map fun b => Char.ofNat b.toNat
  let others := (bytes.dropWhile isAscii).map fun b => Char.ofNat b.toNat
  match ofTokens? (tokens ascii) with
  | some c => c
  | none => (ofText? others).getD (.page .iso8859v1)

end Charset

/-- The text of the bytes of a page. -/
def decodePage (bytes : List UInt8) : List Char :=
  match Charset.atFront? bytes with
  | some (c, rest) => c.decode rest
  | none => (Charset.detect bytes).decode bytes

/-- The text of a page that comes as text, without a byte order mark. -/
def decodeText : List Char → List Char
  | '\ufeff' :: rest => rest
  | s => s

end PagePlan.Html
