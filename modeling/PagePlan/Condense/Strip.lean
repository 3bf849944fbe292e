/-
# Stripping

Elements that never hold content are found first and then taken out of the page one by one, with all
that is in them; the text around each closes up.  Style attributes are dropped as well.
-/
import PagePlan.Dom.Edit
import PagePlan.Failure

namespace PagePlan.Condense

open Dom (Node Tag Page Markup Numbered Edit)

/-- The elements that never hold content. -/
def nonContent : List String :=
  ["script", "style", "noscript", "svg", "path", "meta", "link", "head"]

/-- Whether an element never holds content. -/
def isNonContent (t : Tag) : Bool :=
  t.name.space.isNone && nonContent.contains t.name.label

/-- The non-content elements of a page that is being edited, in its order. -/
def nonContentOf (ns : List Numbered) : List Nat :=
  ((Numbered.elementsAmong ns).filter fun (_, t) => isNonContent t).map Prod.fst

/-- Takes elements out of a page one by one.  The root element has nothing around it: HTML refuses
to take it out, and XML keeps it. -/
def removeEach (m : Markup) (root : Option Nat) (e : Edit) : List Nat → Except Failure Edit
  | [] => .ok e
  | k :: rest =>
    if m = .html && some k == root then .error .topRemoved
    else removeEach m root (e.remove k) rest

/-- A page without its non-content elements, and their number.  An element in another one counts
too, and so does a root element that should go and stays. -/
def strip (p : Page) : Except Failure (Page × Nat) := do
  let e := Edit.start p.nodes
  let found := nonContentOf e.nodes
  let stripped ← removeEach p.markup (e.nodes.findSome? Numbered.number?) e found
  return ({ p with nodes := Numbered.toNodes stripped.nodes }, found.length)

mutual

/-- A node without style attributes. -/
def unstyleNode : Node → Node
  | .element t children =>
    .element { t with attributes := t.attributes.filter fun a => !a.name.isPlain "style" }
      (unstyleNodes children)
  | n => n

/-- Nodes without style attributes. -/
def unstyleNodes : List Node → List Node
  | [] => []
  | n :: rest => unstyleNode n :: unstyleNodes rest

end

/-- A page without style attributes. -/
def unstyle (p : Page) : Page := { p with nodes := unstyleNodes p.nodes }

end PagePlan.Condense
