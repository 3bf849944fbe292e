/-
# HTML pages

Any text is a page.  One without an element, such as a page of blanks or of comments only, is
the empty page.
-/
import PagePlan.Html.Charset
import PagePlan.Html.Tree

namespace PagePlan.Html

open Dom (Node Page)

/-- The document type of a page that declares none. -/
def transitional : Dom.Doctype :=
  ⟨"html", some "-//W3C//DTD HTML 4.0 Transitional//EN",
    some "http://www.w3.org/TR/REC-html40/loose.dtd"⟩

/-- The page that stands for one without content. -/
def emptyPage : Page :=
  ⟨.html, some transitional,
    [.element ⟨.plain "html", [], []⟩ [.element ⟨.plain "body", [], []⟩ []]]⟩

/-- The first document type among tokens. -/
def doctypeOf (ts : List Token) : Dom.Doctype :=
  (ts.findSome? fun
    | .doctype d => some d
    | _ => none).getD transitional

/-- The page of a decoded text; the empty page if there is no element. -/
def ofChars (s : List Char) : Page :=
  let ts := tokens s
  let nodes := tree ts
  if nodes.any Node.isElement then ⟨.html, some (doctypeOf ts), nodes⟩ else emptyPage

/-- The page of bytes. -/
def ofBytes (bytes : List UInt8) : Page :=
  let isBlankByte (b : UInt8) := (9 ≤ b && b ≤ 13) || b == 32
  if bytes.all isBlankByte then emptyPage else ofChars (decodePage bytes)

/-- The page of a text.  One that begins with an XML declaration is read by way of its bytes. -/
def ofString (s : String) : Page :=
  let cs := s.toList
  match cs.dropWhile Text.isBlank with
  | [] => emptyPage
  | front =>
    if Text.startsWith "<?xml".toList front then ofChars (decodePage (Text.toUtf8 cs))
    else ofChars (decodeText cs)

/-- Every text has a page with an element. -/
theorem ofChars_root (s : List Char) : (ofChars s).root?.isSome = true := by
  unfold ofChars Page.root?
  cases h : (tree (tokens s)).any Node.isElement with
  | true => simpa [h, List.find?_isSome] using List.any_eq_true.1 h
  | false => simp [h, emptyPage, Node.isElement]

end PagePlan.Html
