/-
# Pages as HTML text

An element is written as its start tag, its children and its end tag; elements that have no
content have no end tag.  Markup characters of text are written as references, but not inside
scripts and style sheets and not in verbatim text.  Addresses are written with their blanks and
their characters beyond ASCII in per cent notation.
-/
import PagePlan.Dom.Place
import PagePlan.Html.Element
import PagePlan.Text.Blank
import PagePlan.Text.Encoding
import PagePlan.Text.Quoted

namespace PagePlan.Html

open Dom (Node Tag Attribute Name Declaration Doctype Markup Page Site)

/-- A character of text, as a reference where it would be markup or is a control. -/
def escapeChar (c : Char) : List Char :=
  match c with
  | '<' => "&lt;".toList
  | '>' => "&gt;".toList
  | '&' => "&amp;".toList
  | c =>
    if c.toNat < 32 && c != '\t' && c != '\n' && c != '\r' then
      "&#".toList ++ Decimal.ofNat c.toNat ++ [';']
    else [c]

/-- Text with its markup characters as references. -/
def escape (s : List Char) : List Char := s.flatMap escapeChar

/-- The text up to and with the first place where a mark stands. -/
def throughMark? (mark s : List Char) : Option (List Char × List Char) :=
  (Text.splitAtFirst mark s).map fun (before, after) => (before ++ mark, after)

/-- The value of an attribute in HTML: as text, but inclusions and script macros are kept as they
are.  The fuel is the length of the value. -/
def escapeValue : Nat → List Char → List Char
  | 0, s => s
  | _, [] => []
  | fuel + 1, c :: rest =>
    let kept := match c, rest with
      | '<', '!' :: '-' :: '-' :: _ => throughMark? ['-', '-', '>'] (c :: rest)
      | '&', '\x7b' :: _ => throughMark? ['\x7d'] (c :: rest)
      | _, _ => none
    match kept with
    | some (before, after) => before ++ escapeValue fuel after
    | none => escapeChar c ++ escapeValue fuel rest

/-- A value between quotes: double ones, or single ones where only double ones stand in it. -/
def quoteValue (s : List Char) : List Char :=
  if !s.contains '\x22' then '\x22' :: s ++ ['\x22']
  else if !s.contains '\x27' then '\x27' :: s ++ ['\x27']
  else '\x22' :: s.flatMap (fun c => if c == '\x22' then "&quot;".toList else [c]) ++ ['\x22']

/-- A byte in per cent notation. -/
def percent (b : UInt8) : List Char :=
  '%' :: (Text.hexDigits 2 b.toNat).map Char.toUpper

/-- An address without blanks in front, and with all but printable ASCII in per cent notation. -/
def escapeAddress (s : List Char) : List Char :=
  (s.dropWhile Text.isXmlBlank).flatMap fun c =>
    if 32 < c.toNat && c.toNat < 127 then [c] else (Text.toUtf8 [c]).flatMap percent

/-- Whether an attribute of a tag holds an address. -/
def isAddress (t : Tag) (a : Attribute) : Bool :=
  let label := Text.lower a.name.label
  a.name.space.isNone && t.name.space.isNone &&
    (["href", "action", "src"].contains label ||
      (label == "name" && Text.lower t.name.label == "a"))

/-- An attribute with a space in front.  Those without a value and those that are their own value
are written by name alone. -/
def writeAttribute (m : Markup) (t : Tag) (a : Attribute) : List Char :=
  ' ' :: a.name.written.toList ++
    match a.value with
    | none => []
    | some v =>
      if booleanAttributes.contains (Text.lower a.name.label) then []
      else
        let s := match m with
          | .html => escapeValue v.length v.toList
          | .xml => escape v.toList
        '=' :: quoteValue (if isAddress t a then escapeAddress s else s)

/-- A declaration with a space in front. -/
def writeDeclaration (d : Declaration) : List Char :=
  " xmlns".toList ++ ((d.qualifier.map fun a => ':' :: a.toList).getD []) ++
    '=' :: quoteValue d.space.toList

/-- Whether an element is written without content and end tag. -/
def isEmptyElement (t : Tag) : Bool :=
  t.name.space.isNone && emptyElements.contains (Text.lower t.name.label)

/-- Whether the text of an element is written as it is. -/
def keepsText (t : Tag) : Bool :=
  ["script", "style"].contains (Text.lower t.name.label)

/-- A start tag. -/
def writeStart (m : Markup) (t : Tag) : List Char :=
  '<' :: t.name.written.toList ++ t.declarations.flatMap writeDeclaration ++
    t.attributes.flatMap (writeAttribute m t) ++ ['>']

mutual

/-- A node; `raw` tells whether its text is written as it is. -/
def writeNode (m : Markup) (raw : Bool) : Node → List Char
  | .element t children =>
    if isEmptyElement t then writeStart m t
    else
      writeStart m t ++ writeNodes m (keepsText t) children ++
        "</".toList ++ t.name.written.toList ++ ['>']
  | .text s verbatim => if raw || verbatim then s.toList else escape s.toList
  | .comment s => "<!--".toList ++ s.toList ++ "-->".toList
  | .instruction target s =>
    "<?".toList ++ target.toList ++ (if s.isEmpty then [] else ' ' :: s.toList) ++ ['>']

/-- Nodes in order. -/
def writeNodes (m : Markup) (raw : Bool) : List Node → List Char
  | [] => []
  | n :: ns => writeNode m raw n ++ writeNodes m raw ns

end

/-- A document type, if it is that of the root element. -/
def writeDoctype (root : Tag) (d : Doctype) : List Char :=
  let quoted (s : String) : List Char :=
    let q := if s.toList.contains '\x22' then '\x27' else '\x22'
    q :: s.toList ++ [q]
  let given (s : Option String) : Option String := s.filter fun t => !t.isEmpty
  let ids := match given d.publicId, given d.systemId with
    | some p, some s => " PUBLIC \x22".toList ++ p.toList ++ ['\x22', ' '] ++ quoted s
    | some p, none => " PUBLIC \x22".toList ++ p.toList ++ ['\x22']
    | none, some s => " SYSTEM ".toList ++ quoted s
    | none, none => []
  if Text.lower root.name.label == Text.lower d.name then
    "<!DOCTYPE ".toList ++ d.name.toList ++ ids ++ ['>', '\n']
  else []

/-- Drops the elements that state the type of the content; the fuel is the length of the text. -/
def dropContentType : Nat → List Char → List Char
  | 0, s => s
  | _, [] => []
  | fuel + 1, c :: rest =>
    match Text.afterFront? "<meta http-equiv=\"Content-Type\"".toList (c :: rest) with
    | some after =>
      match after.dropWhile (· != '>') with
      | _ :: after => dropContentType fuel after
      | [] => c :: dropContentType fuel rest
    | none => c :: dropContentType fuel rest

/-- A written text without elements that state the type of the content. -/
def withoutContentType (s : List Char) : List Char := dropContentType s.length s

/-- The declarations of elements around a place that are not overridden on the way. -/
def outerDeclarations (ns : List Node) (inner : List Declaration) (p : Dom.Place) :
    List Declaration :=
  let declared := (List.range p.length).reverse.flatMap fun k =>
    (((Dom.nodeAt? ns (p.take k)).bind Node.tag?).map Tag.declarations).getD []
  declared.foldl (fun kept d =>
    if (inner ++ kept).any fun e => e.qualifier == d.qualifier then kept else kept ++ [d]) []

/-- The element at a site with the declarations that it takes from around it. -/
def standalone (s : Site) : Option Node :=
  match s.node? with
  | some (.element t children) =>
    let outer := outerDeclarations s.page.nodes t.declarations s.place
    some (.element { t with declarations := t.declarations ++ outer } children)
  | n => n

/-- An element with the text after it. -/
def writeFragment (m : Markup) (n : Node) (tail : String) : String :=
  String.ofList (withoutContentType (writeNode m false n ++ escape tail.toList))

/-- The element at a site, with the text after it. -/
def writeSite (s : Site) : String :=
  ((standalone s).map fun n => writeFragment s.page.markup n s.tail).getD ""

/-- The element at a site alone. -/
def writeElement (s : Site) : String :=
  ((standalone s).map fun n => writeFragment s.page.markup n "").getD ""

/-- A comment or an instruction beside the root element. -/
def writeBeside (n : Node) : List Char :=
  match n with
  | .instruction target s =>
    "<?".toList ++ target.toList ++ (if s.isEmpty then [] else ' ' :: s.toList) ++ ['?', '>']
  | n => writeNode .xml false n

/-- A whole page: its document type, its root element and what stands directly beside that. -/
def writePage (p : Page) : String :=
  let isBeside (n : Node) : Bool := !n.isElement && !n.isText
  let i := p.rootIndex
  let before := ((p.nodes.take i).reverse.takeWhile isBeside).reverse
  let after := (p.nodes.drop (i + 1)).takeWhile isBeside
  match p.root? with
  | some (.element t children) =>
    String.ofList (withoutContentType (((p.doctype.map (writeDoctype t)).getD []) ++
      before.flatMap writeBeside ++ writeNode p.markup false (.element t children) ++
      after.flatMap writeBeside))
  | _ => ""

end PagePlan.Html
