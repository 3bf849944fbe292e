/-
# Places in a page

A place is the way from the top of a page to a node: the number of a child at each step.  The
order of the pages' text is the order of places as lists, and the nodes above and beside a node
are found by its place alone.
-/
import PagePlan.Dom.Basic
import PagePlan.Decimal.Digits

namespace PagePlan.Dom

/-- The way from the top of a page to a node. -/
abbrev Place := List Nat

/-- The node at a place below a list of nodes; there is none at the empty place. -/
def nodeAt? (ns : List Node) : Place → Option Node
  | [] => none
  | [i] => ns[i]?
  | i :: rest =>
    match ns[i]? with
    | some n => nodeAt? n.children rest
    | none => none

/-- The nodes beside a place, which has the node itself among them. -/
def levelAt (ns : List Node) (p : Place) : List Node :=
  match p.dropLast with
  | [] => ns
  | above => ((nodeAt? ns above).map Node.children).getD []

/-- The number of a place's node among the nodes beside it. -/
def Place.index (p : Place) : Nat := p.getLast?.getD 0

/-- A node in a page. -/
structure Site where
  page : Page
  place : Place

namespace Site

/-- The root element of a page. -/
def root (p : Page) : Site := ⟨p, [p.rootIndex]⟩

/-- The node at a site. -/
def node? (s : Site) : Option Node := nodeAt? s.page.nodes s.place

/-- The site of the element around a node; a top-level node has none. -/
def above? (s : Site) : Option Site :=
  match s.place.dropLast with
  | [] => none
  | above => some ⟨s.page, above⟩

/-- The text after a node, up to the next node that is not text. -/
def tail (s : Site) : String :=
  (Node.leadingText ((levelAt s.page.nodes s.place).drop (s.place.index + 1))).1

/-- Whether a node other than text stands before a node, beside it. -/
def followsMarkup (s : Site) : Bool :=
  ((levelAt s.page.nodes s.place).take s.place.index).any fun n => !n.isText

/-- Whether two elements are counted together where a path has to tell them apart. -/
def sameStep (a b : Name) : Bool :=
  if a.space.isSome && a.qualifier.isNone then true
  else a.label == b.label && a.qualifier == b.qualifier && a.space.isSome == b.space.isSome

/-- One step of the path to an element: its name, and its number where there are several. -/
def pathStep (beside : List Node) (index : Nat) (tag : Tag) : String :=
  let isTwin (n : Node) : Bool :=
    match n.tag? with
    | some t => sameStep tag.name t.name
    | none => false
  let before := (beside.take index).countP isTwin
  let isAlone := before == 0 && !(beside.drop (index + 1)).any isTwin
  let name := if tag.name.space.isSome && tag.name.qualifier.isNone then "*" else tag.name.written
  "/" ++ name ++
    if isAlone then "" else "[" ++ String.ofList (Decimal.ofNat (before + 1)) ++ "]"

/-- The steps of the path to a place. -/
def pathTo (ns : List Node) : Place → String
  | [] => ""
  | i :: rest =>
    match ns[i]? with
    | some (.element tag children) => pathStep ns i tag ++ pathTo children rest
    | _ => ""

/-- The path that finds an element from the top of its page. -/
def path (s : Site) : String := pathTo s.page.nodes s.place

end Site

end PagePlan.Dom
