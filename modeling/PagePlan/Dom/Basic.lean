/-
# Page trees

A parsed page is a list of nodes: usually comments and one element.  An element has a name,
attributes in the order in which they were written, and children; text is a node of its own, so
that the text before the first child and the text after a child are views of the list of
children.  A verbatim text is one that was not subject to character references.
-/

namespace PagePlan.Dom

/-- The name of an element or attribute. -/
structure Name where
  /-- The name's space, if it is in one. -/
  space : Option String
  /-- The short name of the space where the name was written. -/
  qualifier : Option String
  label : String
deriving DecidableEq, Repr, Inhabited

namespace Name

/-- A name in no space. -/
def plain (label : String) : Name := ⟨none, none, label⟩

/-- The name as it was written. -/
def written (n : Name) : String :=
  match n.qualifier with
  | some a => a ++ ":" ++ n.label
  | none => n.label

/-- Whether a name is a given label in no space. -/
def isPlain (n : Name) (label : String) : Bool :=
  n.space.isNone && n.label == label

/-- The name with its space in front. -/
def universal (n : Name) : String :=
  match n.space with
  | some s => "\x7b" ++ s ++ "\x7d" ++ n.label
  | none => n.label

end Name

/-- An attribute; it may have been written without a value. -/
structure Attribute where
  name : Name
  value : Option String
deriving DecidableEq, Repr, Inhabited

/-- The value of an attribute, empty where it was written without one. -/
def Attribute.text (a : Attribute) : String := a.value.getD ""

/-- The declaration of a short name for a space. -/
structure Declaration where
  qualifier : Option String
  space : String
deriving DecidableEq, Repr

/-- What an element's start tag says. -/
structure Tag where
  name : Name
  attributes : List Attribute
  declarations : List Declaration
deriving DecidableEq, Repr, Inhabited

/-- The value of an attribute in no space. -/
def Tag.attribute? (t : Tag) (label : String) : Option String :=
  (t.attributes.find? fun a => a.name.isPlain label).map Attribute.text

/-- How a page was written. -/
inductive Markup where
  | html
  | xml
deriving DecidableEq, Repr, Inhabited

/-- Whether an attribute of a tag identifies its element: in HTML `id` and the name of an anchor,
in XML the identifier in the space of the short name `xml`. -/
def Attribute.isIdentifier (a : Attribute) (m : Markup) (t : Tag) : Bool :=
  match m with
  | .html => a.name.isPlain "id" || (a.name.isPlain "name" && t.name.label == "a")
  | .xml => a.name.qualifier == some "xml" && a.name.label == "id"

/-- A node of a page. -/
inductive Node where
  | element (tag : Tag) (children : List Node)
  | text (s : String) (verbatim : Bool)
  | comment (s : String)
  | instruction (target : String) (content : String)
deriving Inhabited

namespace Node

/-- The start tag of an element. -/
def tag? : Node → Option Tag
  | element t _ => some t
  | _ => none

/-- The children of a node. -/
def children : Node → List Node
  | element _ cs => cs
  | _ => []

def isElement : Node → Bool
  | element _ _ => true
  | _ => false

def isText : Node → Bool
  | text _ _ => true
  | _ => false

/-- The characters of a text node. -/
def text? : Node → Option String
  | text s _ => some s
  | _ => none

mutual

/-- The text inside a node: for an element all text below it, in order. -/
def content : Node → List Char
  | element _ cs => contents cs
  | text s _ => s.toList
  | comment _ => []
  | instruction _ _ => []

/-- The text below a list of nodes, in order. -/
def contents : List Node → List Char
  | [] => []
  | n :: ns => content n ++ contents ns

end

/-- The string-value of a node: the text below an element, the content of any other node. -/
def stringValue : Node → String
  | comment s => s
  | instruction _ s => s
  | n => String.ofList n.content

mutual

/-- The number of elements in a node. -/
def elementCount : Node → Nat
  | element _ cs => elementCounts cs + 1
  | _ => 0

/-- The number of elements in a list of nodes. -/
def elementCounts : List Node → Nat
  | [] => 0
  | n :: ns => elementCount n + elementCounts ns

end

/-- The text at the front of a list of nodes, and the nodes after it. -/
def leadingText (ns : List Node) : String × List Node :=
  (String.join (ns.takeWhile isText |>.filterMap text?), ns.dropWhile isText)

end Node

/-- The document type that a page declares. -/
structure Doctype where
  name : String
  publicId : Option String
  systemId : Option String
deriving DecidableEq, Repr

/-- A parsed page: its document type and its top-level nodes. -/
structure Page where
  markup : Markup
  doctype : Option Doctype
  nodes : List Node
deriving Inhabited

/-- The place of the first element among the top-level nodes. -/
def Page.rootIndex (p : Page) : Nat :=
  p.nodes.findIdx Node.isElement

/-- The first element of a page. -/
def Page.root? (p : Page) : Option Node :=
  p.nodes.find? Node.isElement

end PagePlan.Dom
