/-
# Elements of HTML

What the tree of a page depends on, by element name: which elements are empty, how the text of an
element is read, which start tags close which open elements, and how far an end tag reaches.
-/

namespace PagePlan.Html

/-- The elements that have no content and no end tag. -/
def emptyElements : List String :=
  ["area", "base", "basefont", "bgsound", "br", "col", "embed", "frame", "hr", "img", "input",
    "keygen", "link", "meta", "param", "source", "track", "wbr"]

/-- How the text inside an element is read. -/
inductive TextMode where
  /-- Markup and character references. -/
  | markup
  /-- Character references, and no markup but the end tag. -/
  | references
  /-- No markup but the end tag. -/
  | raw
  /-- As raw, but comments and nested scripts hide the end tag. -/
  | script
  /-- Everything to the end of the page. -/
  | plain
deriving DecidableEq, Repr

/-- How the text inside an element is read, by its name. -/
def textMode (name : String) : TextMode :=
  if name = "script" then .script
  else if ["style", "xmp", "iframe", "noembed", "noframes"].contains name then .raw
  else if ["title", "textarea"].contains name then .references
  else if name = "plaintext" then .plain
  else .markup

/-- The attributes that are their own value when they are written without one. -/
def booleanAttributes : List String :=
  ["checked", "compact", "declare", "defer", "disabled", "ismap", "multiple", "nohref", "noresize",
    "noshade", "nowrap", "readonly", "selected"]

/-- The headings. -/
def headings : List String := ["h1", "h2", "h3", "h4", "h5", "h6"]

/-- The elements that only change the look of text. -/
def fontStyles : List String := ["tt", "i", "b", "u", "s", "strike", "big", "small"]

/-- The elements whose start tag ends the head of a page and nothing more. -/
def headEnders : List String :=
  ["abbr", "acronym", "b", "bdo", "big", "br", "cite", "code", "dfn", "em", "font", "h1", "h2",
    "h3", "h4", "h5", "h6", "i", "iframe", "img", "kbd", "map", "q", "s", "samp", "small", "span",
    "strike", "strong", "sub", "sup", "tt", "u", "var"]

/-- The open elements that the start tag of an element closes while they are innermost. -/
def closedBy (name : String) : List String :=
  match name with
  | "form" => ["form", "hr", "dl", "ul", "ol", "menu", "dir", "address", "pre", "listing", "xmp",
      "head"] ++ headings
  | "head" => ["p"]
  | "title" => ["p"]
  | "body" => ["head", "style", "link", "title", "p"]
  | "frameset" => ["head", "style", "link", "title", "p"]
  | "li" => ["p", "dl", "address", "pre", "listing", "xmp", "head", "li"] ++ headings
  | "hr" => ["p", "head"]
  | "h1" | "h2" | "h3" | "h4" | "h5" | "h6" => ["p", "head"]
  | "dir" => ["p", "head"]
  | "address" => ["p", "head", "ul"]
  | "pre" => ["p", "head", "ul"]
  | "listing" => ["p", "head"]
  | "xmp" => ["p", "head"]
  | "blockquote" => ["p", "head"]
  | "dl" => ["p", "dt", "menu", "dir", "address", "pre", "listing", "xmp", "head"]
  | "dt" => ["p", "menu", "dir", "address", "pre", "listing", "xmp", "head", "dd"]
  | "dd" => ["p", "menu", "dir", "address", "pre", "listing", "xmp", "head", "dt"]
  | "ul" => ["p", "head", "ol", "menu", "dir", "address", "pre", "listing", "xmp"]
  | "ol" => ["p", "head", "ul"]
  | "menu" => ["p", "head", "ul"]
  | "p" => ["p", "head"] ++ headings ++ fontStyles
  | "div" => ["p", "head"]
  | "noscript" => ["script"]
  | "center" => ["font", "b", "i", "p", "head"]
  | "a" => ["a", "head"]
  | "caption" => ["p"]
  | "colgroup" => ["caption", "colgroup", "col", "p"]
  | "col" => ["caption", "col", "p"]
  | "table" => ["p", "head", "pre", "listing", "xmp", "a"] ++ headings
  | "th" | "td" => ["th", "td", "p", "span", "font", "a", "b", "u"]
  | "tr" => ["th", "td", "tr", "caption", "col", "colgroup", "p"]
  | "thead" => ["caption", "col", "colgroup"]
  | "tfoot" => ["th", "td", "tr", "caption", "col", "colgroup", "thead", "tbody", "p"]
  | "tbody" => ["th", "td", "tr", "caption", "col", "colgroup", "thead", "tfoot", "tbody", "p"]
  | "optgroup" => ["option"]
  | "option" => ["option"]
  | "fieldset" => ["legend", "p", "head", "pre", "listing", "xmp", "a"] ++ headings
  | name => if headEnders.contains name then ["head"] else []

/-- Whether the start tag of an element closes an open one. -/
def closes (name openName : String) : Bool :=
  (closedBy name).contains openName

/-- How strong an element is against end tags that do not match it. -/
def endStrength (name : String) : Nat :=
  match name with
  | "div" => 150
  | "td" | "th" => 160
  | "tr" => 170
  | "thead" | "tbody" | "tfoot" => 180
  | "table" => 190
  | "head" | "body" => 200
  | "html" => 220
  | _ => 100

/-- The elements that belong to the head of a page. -/
def headElements : List String := ["script", "style", "meta", "link", "title", "base"]

/-- The elements that stand for a body. -/
def frameElements : List String := ["noframes", "frame", "frameset"]

end PagePlan.Html
