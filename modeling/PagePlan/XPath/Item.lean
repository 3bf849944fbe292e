/-
# Items

What expressions select: the page itself, its nodes, the attributes of its elements and the
bindings of short names that are in force at them.  All items of a page are in one order, in
which an element comes before its bindings, these before its attributes and these before its
children.
-/
import PagePlan.Dom.Place
import PagePlan.XPath.Expression

namespace PagePlan.XPath

open Dom (Node Place Attribute Tag Name)

/-- Something that an expression can select. -/
inductive Item where
  | document
  | node (place : Place) (n : Node)
  | attr (owner : Place) (index : Nat) (a : Attribute)
  | binding (owner : Place) (index : Nat) (qualifier : Option String) (space : String)

/-- The space of the names with the short name `xml`. -/
def xmlSpace : String := "http://www.w3.org/XML/1998/namespace"

/-- The space of a short name in an expression: only `xml` is bound. -/
def boundSpace? (qualifier : String) : Option String :=
  if qualifier = "xml" then some xmlSpace else none

namespace Item

/-- The place of an item in the order of its page, as a list in lexicographic order: below an
element, 0 leads to its bindings, 1 to its attributes and `i + 2` to child `i`. -/
def key : Item → List Nat
  | document => []
  | node place _ => place.map (· + 2)
  | attr owner index _ => owner.map (· + 2) ++ [1, index]
  | binding owner index _ _ => owner.map (· + 2) ++ [0, index]

/-- Merges two lists of items in order, and keeps one of two equal items. -/
def merge : List Item → List Item → List Item
  | [], ys => ys
  | xs, [] => xs
  | x :: xs, y :: ys =>
    if x.key = y.key then x :: merge xs ys
    else if x.key < y.key then x :: merge xs (y :: ys)
    else y :: merge (x :: xs) ys

/-- The order of items. -/
def le (x y : Item) : Bool := !decide (y.key < x.key)

/-- Leaves out the items that equal the one after them. -/
def unrepeated : List Item → List Item
  | [] => []
  | [x] => [x]
  | x :: y :: rest =>
    if x.key = y.key then unrepeated (y :: rest) else x :: unrepeated (y :: rest)

/-- Items in order, each once. -/
def sorted (xs : List Item) : List Item :=
  unrepeated (xs.mergeSort le)

/-! ## The items around an item -/

/-- The nodes of a list as items; `place` is the place of the node that they are below. -/
def level (place : Place) (ns : List Node) : List Item :=
  ns.zipIdx.map fun (n, i) => node (place ++ [i]) n

mutual

/-- The nodes below a node, in order. -/
def below (place : Place) : Node → List Item
  | .element _ cs => belowAll place 0 cs
  | _ => []

/-- Nodes from the child of number `i` on, each with the nodes below it, in order. -/
def belowAll (place : Place) (i : Nat) : List Node → List Item
  | [] => []
  | n :: ns => node (place ++ [i]) n :: below (place ++ [i]) n ++ belowAll place (i + 1) ns

end

/-- The items on the way to a place, the place itself first and the page last. -/
def lineage (top : List Node) (place : Place) : List Item :=
  (List.range place.length).reverse.filterMap (fun k =>
    let p := place.take (k + 1)
    (Dom.nodeAt? top p).map (node p)) ++ [document]

/-- The place that an item is at or belongs to. -/
def anchor : Item → Place
  | document => []
  | node place _ => place
  | attr owner _ _ => owner
  | binding owner _ _ _ => owner

/-- The children of an item. -/
def children (top : List Node) : Item → List Item
  | document => level [] top
  | node place n => level place n.children
  | _ => []

/-- The items below an item, in order. -/
def descendants (top : List Node) : Item → List Item
  | document => belowAll [] 0 top
  | node place n => below place n
  | _ => []

/-- The items above an item, the nearest first. -/
def ancestors (top : List Node) : Item → List Item
  | document => []
  | node place _ => (lineage top place).drop 1
  | attr owner _ _ => lineage top owner
  | binding owner _ _ _ => lineage top owner

/-- The nodes after a place beside it, in order. -/
def levelAfter (top : List Node) (place : Place) : List Item :=
  (level place.dropLast (Dom.levelAt top place)).drop (place.index + 1)

/-- The nodes before a place beside it, the nearest first. -/
def levelBefore (top : List Node) (place : Place) : List Item :=
  ((level place.dropLast (Dom.levelAt top place)).take place.index).reverse

/-- An item and the items below it, in order. -/
def withDescendants (top : List Node) (x : Item) : List Item := x :: x.descendants top

/-- The places on the way to a place, itself first. -/
def placesUp (place : Place) : List Place :=
  (List.range place.length).reverse.map fun k => place.take (k + 1)

/-- The nodes after an item that are not below it, in order. -/
def following (top : List Node) (x : Item) : List Item :=
  (placesUp x.anchor).flatMap fun p => (levelAfter top p).flatMap (withDescendants top)

/-- The nodes before an item that are not above it, the nearest first. -/
def preceding (top : List Node) (x : Item) : List Item :=
  (placesUp x.anchor).flatMap fun p =>
    (levelBefore top p).flatMap fun y => (y.withDescendants top).reverse

/-- The declarations in force at an element, the nearest first: of two for one short name only
the inner one. -/
def declarationsAt (top : List Node) (place : Place) : List Dom.Declaration :=
  let written := (lineage top place).flatMap fun
    | node _ (.element tag _) => tag.declarations
    | _ => []
  let keep (kept : List Dom.Declaration) (d : Dom.Declaration) :=
    if kept.any (·.qualifier == d.qualifier) then kept else d :: kept
  (written.foldl keep []).reverse

/-- The bindings in force at an element: that of `xml`, then those declared, the outer ones
first. -/
def bindings (top : List Node) : Item → List Item
  | node place (.element _ _) =>
    let declared := (declarationsAt top place).reverse.map fun d => (d.qualifier, d.space)
    ((some "xml", xmlSpace) :: declared).zipIdx.map fun ((qualifier, space), i) =>
      binding place i qualifier space
  | _ => []

/-- The attributes of an element. -/
def attributes : Item → List Item
  | node place (.element tag _) => tag.attributes.zipIdx.map fun (a, i) => attr place i a
  | _ => []

/-- The nodes beside an item after it, in order. -/
def siblingsAfter (top : List Node) : Item → List Item
  | node place _ => levelAfter top place
  | _ => []

/-- The nodes beside an item before it, the nearest first. -/
def siblingsBefore (top : List Node) : Item → List Item
  | node place _ => levelBefore top place
  | _ => []

/-- The items of an axis, in the direction of the axis. -/
def onAxis (top : List Node) (x : Item) : Axis → List Item
  | .ancestor => x.ancestors top
  | .ancestorOrSelf => x :: x.ancestors top
  | .attributes => x.attributes
  | .child => x.children top
  | .descendant => x.descendants top
  | .descendantOrSelf => x.withDescendants top
  | .following => x.following top
  | .followingSibling => x.siblingsAfter top
  | .namespaces => x.bindings top
  | .parent => (x.ancestors top).take 1
  | .preceding => x.preceding top
  | .precedingSibling => x.siblingsBefore top
  | .self => [x]

/-! ## Names and texts of items -/

/-- Whether a name is in the space of a short name. -/
def inSpace (qualifier : String) (n : Name) : Bool :=
  match boundSpace? qualifier with
  | some space => n.space == some space
  | none => false

/-- Whether a name is the one that a test asks for. -/
def hasName (q : QName) (n : Name) : Bool :=
  n.label == q.label &&
    match q.qualifier with
    | some qualifier => inSpace qualifier n
    | none => n.space.isNone

/-- Whether an item of an axis passes a node test.  Names are those of attributes on the axis of
attributes, of bindings on theirs, and of elements on every other. -/
def passes (test : NodeTest) (axis : Axis) (x : Item) : Bool :=
  match test, x with
  | .anyNode, _ => true
  | .text, node _ (.text _ _) => true
  | .comment, node _ (.comment _) => true
  | .instruction none, node _ (.instruction _ _) => true
  | .instruction (some target), node _ (.instruction t _) => t == target
  | .anyName qualifier, node _ (.element tag _) =>
    axis != .attributes && axis != .namespaces &&
      match qualifier with
      | some a => inSpace a tag.name
      | none => true
  | .anyName qualifier, attr _ _ a =>
    axis == .attributes &&
      match qualifier with
      | some short => inSpace short a.name
      | none => true
  | .anyName _, binding _ _ _ _ => axis == .namespaces
  | .name q, node _ (.element tag _) =>
    axis != .attributes && axis != .namespaces && hasName q tag.name
  | .name q, attr _ _ a => axis == .attributes && hasName q a.name
  | .name q, binding _ _ qualifier _ => axis == .namespaces && qualifier == some q.label
  | _, _ => false

/-- The string-value of an item. -/
def stringValue (top : List Node) : Item → String
  | document => String.ofList (Node.contents top)
  | node _ n => n.stringValue
  | attr _ _ a => a.text
  | binding _ _ _ space => space

/-- The name of an item without the short name of its space. -/
def localName : Item → String
  | node _ (.element tag _) => tag.name.label
  | node _ (.instruction target _) => target
  | attr _ _ a => a.name.label
  | binding _ _ qualifier _ => qualifier.getD ""
  | _ => ""

/-- The name of an item as it was written. -/
def name : Item → String
  | node _ (.element tag _) => tag.name.written
  | attr _ _ a => a.name.written
  | x => x.localName

/-- The space of an item's name. -/
def nameSpace : Item → String
  | node _ (.element tag _) => tag.name.space.getD ""
  | attr _ _ a => a.name.space.getD ""
  | _ => ""

end Item

end PagePlan.XPath
