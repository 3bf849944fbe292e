/-
# Texts as bytes

Files hold bytes.  A text file is UTF-8; a JSON document may also be UTF-16 or UTF-32, which its
first bytes tell.  A decoder answers none where the bytes are not well-formed.  The bytes of half a
surrogate pair are well-formed in a JSON document alone.
-/
import PagePlan.Text.Letter

namespace PagePlan.Text

/-- The character of a code point; a surrogate gives the replacement character. -/
def codePoint (n : Nat) : Char :=
  if 0xD800 ≤ n && n < 0xE000 || 0x10FFFF < n then '\ufffd' else Char.ofNat n

/-- Whether a code point is one of the halves of surrogate pairs. -/
def isSurrogate (n : Nat) : Bool := 0xD800 ≤ n && n < 0xE000

def isTail (b : UInt8) : Bool := b &&& 0xC0 == 0x80

def tailBits (b : UInt8) : Nat := b.toNat % 64

/-- The first code point of UTF-8 bytes, which may be a surrogate, and the bytes after it. -/
def utf8Point? : List UInt8 → Option (Nat × List UInt8)
  | [] => none
  | a :: rest =>
    let n := a.toNat
    if n < 0x80 then some (n, rest)
    else if 0xC2 ≤ n && n < 0xE0 then
      match rest with
      | b :: rest => if isTail b then some ((n - 0xC0) * 64 + tailBits b, rest) else none
      | _ => none
    else if 0xE0 ≤ n && n < 0xF0 then
      match rest with
      | b :: c :: rest =>
        let point := (n - 0xE0) * 4096 + tailBits b * 64 + tailBits c
        if isTail b && isTail c && 0x800 ≤ point then some (point, rest) else none
      | _ => none
    else if 0xF0 ≤ n && n < 0xF5 then
      match rest with
      | b :: c :: d :: rest =>
        let point := (n - 0xF0) * 262144 + tailBits b * 4096 + tailBits c * 64 + tailBits d
        if isTail b && isTail c && isTail d && 0x10000 ≤ point && point < 0x110000 then
          some (point, rest)
        else none
      | _ => none
    else none

/-- The first character of UTF-8 bytes and the bytes after it. -/
def utf8Front? (bytes : List UInt8) : Option (Char × List UInt8) := do
  let (n, rest) ← utf8Point? bytes
  if isSurrogate n then none else some (Char.ofNat n, rest)

/-- The characters of UTF-8 bytes; the fuel is the number of bytes. -/
def utf8Chars? : Nat → List UInt8 → Option (List Char)
  | _, [] => some []
  | 0, _ => none
  | fuel + 1, bytes => do
    let (c, rest) ← utf8Front? bytes
    let cs ← utf8Chars? fuel rest
    return c :: cs

/-- The text of UTF-8 bytes. -/
def ofUtf8? (bytes : List UInt8) : Option (List Char) :=
  utf8Chars? bytes.length bytes

/-- The letters of UTF-8 bytes; the fuel is the number of bytes. -/
def utf8Letters? : Nat → List UInt8 → Option (List Letter)
  | _, [] => some []
  | 0, _ => none
  | fuel + 1, bytes => do
    let (n, rest) ← utf8Point? bytes
    let ls ← utf8Letters? fuel rest
    return .ofCode n :: ls

/-- The UTF-8 bytes of a text. -/
def toUtf8 (s : List Char) : List UInt8 :=
  s.flatMap String.utf8EncodeChar

/-- Which end of a number of several bytes comes first. -/
inductive Endian where
  | big
  | little
deriving DecidableEq

/-- The number of two bytes. -/
def Endian.pair (order : Endian) (a b : UInt8) : Nat :=
  match order with
  | .big => a.toNat * 256 + b.toNat
  | .little => b.toNat * 256 + a.toNat

/-- The code units of two bytes each. -/
def units16? (order : Endian) : List UInt8 → Option (List Nat)
  | [] => some []
  | [_] => none
  | a :: b :: rest => (units16? order rest).map (order.pair a b :: ·)

/-- The letters of code units: two halves of a pair make one character. -/
def ofUnits : List Nat → List Letter
  | [] => []
  | [high] => [.ofCode high]
  | high :: low :: rest =>
    if 0xD800 ≤ high && high < 0xDC00 && 0xDC00 ≤ low && low < 0xE000 then
      .ofCode (0x10000 + (high - 0xD800) * 1024 + (low - 0xDC00)) :: ofUnits rest
    else .ofCode high :: ofUnits (low :: rest)

/-- The text of UTF-16 bytes. -/
def ofUtf16? (order : Endian) (bytes : List UInt8) : Option (List Letter) :=
  (units16? order bytes).map ofUnits

/-- The text of UTF-32 bytes. -/
def ofUtf32? (order : Endian) : List UInt8 → Option (List Letter)
  | [] => some []
  | a :: b :: c :: d :: rest =>
    let point := match order with
      | .big => order.pair a b * 65536 + order.pair c d
      | .little => order.pair c d * 65536 + order.pair a b
    if 0x10FFFF < point then none else (ofUtf32? order rest).map (.ofCode point :: ·)
  | _ => none

/-- The text of the bytes of a JSON document in UTF-8. -/
def ofJsonUtf8? (bytes : List UInt8) : Option (List Letter) :=
  utf8Letters? bytes.length bytes

/-- The text of the bytes of a JSON document: a byte order mark tells the encoding, else the
places of the zero bytes among the first four. -/
def ofJsonBytes? : List UInt8 → Option (List Letter)
  | 0x00 :: 0x00 :: 0xFE :: 0xFF :: rest => ofUtf32? .big rest
  | 0xFF :: 0xFE :: 0x00 :: 0x00 :: rest => ofUtf32? .little rest
  | 0xFE :: 0xFF :: rest => ofUtf16? .big rest
  | 0xFF :: 0xFE :: rest => ofUtf16? .little rest
  | 0xEF :: 0xBB :: 0xBF :: rest => ofJsonUtf8? rest
  | [a, b] =>
    if a = 0 then ofUtf16? .big [a, b]
    else if b = 0 then ofUtf16? .little [a, b]
    else ofJsonUtf8? [a, b]
  | bytes@(a :: b :: c :: d :: _) =>
    if a = 0 then if b = 0 then ofUtf32? .big bytes else ofUtf16? .big bytes
    else if b = 0 then
      if c = 0 && d = 0 then ofUtf32? .little bytes else ofUtf16? .little bytes
    else ofJsonUtf8? bytes
  | bytes => ofJsonUtf8? bytes

end PagePlan.Text
