/-
# Code pages

A code page is an encoding of one byte for each character in which the first half of the bytes is
ASCII; a page is the list of the characters of the other half, in order.  Bytes that a page
leaves open stand for the control characters of their numbers.
-/

namespace PagePlan.Text

/-- The characters of the bytes from 128 on. -/
structure CodePage where
  high : List Char

namespace CodePage

/-- The character of a byte. -/
def char (page : CodePage) (b : UInt8) : Char :=
  if b < 128 then Char.ofNat b.toNat
  else (page.high[b.toNat - 128]?).getD (Char.ofNat b.toNat)

/-- The text of bytes. -/
def decode (page : CodePage) (bytes : List UInt8) : List Char :=
  bytes.map page.char

/-- ISO 8859-1, whose bytes are the numbers of its characters. -/
def iso8859v1 : CodePage := ⟨[]⟩

/-- Windows-1252. -/
def windows1252 : CodePage :=
  ⟨("€\u0081‚ƒ„…†‡ˆ‰Š‹Œ\u008dŽ\u008f" ++
    "\u0090‘’“”•–—˜™š›œ\u009džŸ" ++
    "\u00a0¡¢£¤¥¦§¨©ª«¬\u00ad®¯" ++
    "°±²³´µ¶·¸¹º»¼½¾¿" ++
    "ÀÁÂÃÄÅÆÇÈÉÊËÌÍÎÏ" ++
    "ÐÑÒÓÔÕÖ×ØÙÚÛÜÝÞß" ++
    "àáâãäåæçèéêëìíîï" ++
    "ðñòóôõö÷øùúûüýþÿ").toList⟩

/-- ISO 8859-2. -/
def iso8859v2 : CodePage :=
  ⟨("\u0080\u0081\u0082\u0083\u0084\u0085\u0086\u0087\u0088\u0089\u008a\u008b\u008c\u008d\u008e\u008f" ++
    "\u0090\u0091\u0092\u0093\u0094\u0095\u0096\u0097\u0098\u0099\u009a\u009b\u009c\u009d\u009e\u009f" ++
    "\u00a0Ą˘Ł¤ĽŚ§¨ŠŞŤŹ\u00adŽŻ" ++
    "°ą˛ł´ľśˇ¸šşťź˝žż" ++
    "ŔÁÂĂÄĹĆÇČÉĘËĚÍÎĎ" ++
    "ĐŃŇÓÔŐÖ×ŘŮÚŰÜÝŢß" ++
    "ŕáâăäĺćçčéęëěíîď" ++
    "đńňóôőö÷řůúűüýţ˙").toList⟩

/-- ISO 8859-5. -/
def iso8859v5 : CodePage :=
  ⟨("\u0080\u0081\u0082\u0083\u0084\u0085\u0086\u0087\u0088\u0089\u008a\u008b\u008c\u008d\u008e\u008f" ++
    "\u0090\u0091\u0092\u0093\u0094\u0095\u0096\u0097\u0098\u0099\u009a\u009b\u009c\u009d\u009e\u009f" ++
    "\u00a0ЁЂЃЄЅІЇЈЉЊЋЌ\u00adЎЏ" ++
    "АБВГДЕЖЗИЙКЛМНОП" ++
    "РСТУФХЦЧШЩЪЫЬЭЮЯ" ++
    "абвгдежзийклмноп" ++
    "рстуфхцчшщъыьэюя" ++
    "№ёђѓєѕіїјљњћќ§ўџ").toList⟩

/-- ISO 8859-15. -/
def iso8859v15 : CodePage :=
  ⟨("\u0080\u0081\u0082\u0083\u0084\u0085\u0086\u0087\u0088\u0089\u008a\u008b\u008c\u008d\u008e\u008f" ++
    "\u0090\u0091\u0092\u0093\u0094\u0095\u0096\u0097\u0098\u0099\u009a\u009b\u009c\u009d\u009e\u009f" ++
    "\u00a0¡¢£€¥Š§š©ª«¬\u00ad®¯" ++
    "°±²³Žµ¶·ž¹º»ŒœŸ¿" ++
    "ÀÁÂÃÄÅÆÇÈÉÊËÌÍÎÏ" ++
    "ÐÑÒÓÔÕÖ×ØÙÚÛÜÝÞß" ++
    "àáâãäåæçèéêëìíîï" ++
    "ðñòóôõö÷øùúûüýþÿ").toList⟩

/-- Windows-1250. -/
def windows1250 : CodePage :=
  ⟨("€\u0081‚\u0083„…†‡\u0088‰Š‹ŚŤŽŹ" ++
    "\u0090‘’“”•–—\u0098™š›śťžź" ++
    "\u00a0ˇ˘Ł¤Ą¦§¨©Ş«¬\u00ad®Ż" ++
    "°±˛ł´µ¶·¸ąş»Ľ˝ľż" ++
    "ŔÁÂĂÄĹĆÇČÉĘËĚÍÎĎ" ++
    "ĐŃŇÓÔŐÖ×ŘŮÚŰÜÝŢß" ++
    "ŕáâăäĺćçčéęëěíîď" ++
    "đńňóôőö÷řůúűüýţ˙").toList⟩

/-- Windows-1251. -/
def windows1251 : CodePage :=
  ⟨("ЂЃ‚ѓ„…†‡€‰Љ‹ЊЌЋЏ" ++
    "ђ‘’“”•–—\u0098™љ›њќћџ" ++
    "\u00a0ЎўЈ¤Ґ¦§Ё©Є«¬\u00ad®Ї" ++
    "°±Ііґµ¶·ё№є»јЅѕї" ++
    "АБВГДЕЖЗИЙКЛМНОП" ++
    "РСТУФХЦЧШЩЪЫЬЭЮЯ" ++
    "абвгдежзийклмноп" ++
    "рстуфхцчшщъыьэюя").toList⟩

/-- KOI8-R. -/
def koi8r : CodePage :=
  ⟨("─│┌┐└┘├┤┬┴┼▀▄█▌▐" ++
    "░▒▓⌠■∙√≈≤≥\u00a0⌡°²·÷" ++
    "═║╒ё╓╔╕╖╗╘╙╚╛╜╝╞" ++
    "╟╠╡Ё╢╣╤╥╦╧╨╩╪╫╬©" ++
    "юабцдефгхийклмно" ++
    "пярстужвьызшэщчъ" ++
    "ЮАБЦДЕФГХИЙКЛМНО" ++
    "ПЯРСТУЖВЬЫЗШЭЩЧЪ").toList⟩

/-- The code pages by their names in lower case. -/
def named? (name : String) : Option CodePage :=
  if ["iso-8859-1", "iso8859-1", "iso-latin-1", "latin1", "us-ascii", "ascii"].contains name then
    some iso8859v1
  else if ["windows-1252", "cp1252"].contains name then some windows1252
  else if ["iso-8859-2", "iso8859-2", "latin2"].contains name then some iso8859v2
  else if ["iso-8859-5", "iso8859-5"].contains name then some iso8859v5
  else if ["iso-8859-15", "iso8859-15", "latin-9"].contains name then some iso8859v15
  else if ["windows-1250", "cp1250"].contains name then some windows1250
  else if ["windows-1251", "cp1251"].contains name then some windows1251
  else if ["koi8-r"].contains name then some koi8r
  else none

end CodePage

end PagePlan.Text
