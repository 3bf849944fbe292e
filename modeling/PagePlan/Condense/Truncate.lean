/-
# Truncation of lists

Pages of search results and the like repeat one kind of item many times.  Six patterns tell the
lists and their items; of the items of one list only the first few are kept.  The patterns are
applied one after another, each to what the one before left.
-/
import PagePlan.Condense.Strip
import PagePlan.Text.Blank

namespace PagePlan.Condense

open Dom (Tag Page Site Numbered Edit Whereabouts)

/-- What lists look like. -/
structure Pattern where
  /-- Whether an element is a list, by the tag around it, if there is one, and its own. -/
  isList : Option Tag → Tag → Bool
  /-- Whether an element directly in a list is an item of it. -/
  isItem : Tag → Bool

/-- Whether an element has a class. -/
def hasClass (label : String) (t : Tag) : Bool :=
  match t.attribute? "class" with
  | none => false
  | some s =>
    (Text.pieces ' ' (s.toList.map fun c => if Text.isXmlBlank c then ' ' else c)).contains
      label.toList

/-- Lists of some class, with every element in them an item. -/
def Pattern.ofClass (label : String) : Pattern :=
  ⟨fun _ t => hasClass label t, fun _ => true⟩

/-- The patterns in the order in which they are applied. -/
def patterns : List Pattern :=
  [⟨fun _ t => t.attribute? "data-testid" == some "results-list", fun _ => true⟩,
    .ofClass "search-results",
    .ofClass "list-items",
    ⟨fun _ t => t.name.isPlain "ul" && hasClass "results" t, fun t => t.name.isPlain "li"⟩,
    .ofClass "product-list",
    ⟨fun around t => t.name.isPlain "tbody" && around.any (·.name.isPlain "table"),
      fun t => t.name.isPlain "tr"⟩]

/-- An item of a list, with the list; both are told by their numbers.  An element is in the same
list until it is taken out, so that the list can be noted with the item. -/
structure Item where
  list : Nat
  number : Nat
deriving DecidableEq, Repr

namespace Pattern

variable (p : Pattern)

/-- A child of an element as an item, if it is one; the element is a list or not. -/
def itemOf (list : Nat) (listed : Bool) : Numbered → List Item
  | .element k t _ => if listed && p.isItem t then [⟨list, k⟩] else []
  | _ => []

mutual

/-- The items in the lists in a node, in the order of the page; `around` is the tag around it. -/
def itemsIn (around : Option Tag) : Numbered → List Item
  | .element k t cs => itemsAmong k t (p.isList around t) cs
  | _ => []

/-- The items among and in the children of an element, which is a list or not. -/
def itemsAmong (list : Nat) (t : Tag) (listed : Bool) : List Numbered → List Item
  | [] => []
  | n :: ns => p.itemOf list listed n ++ itemsIn (some t) n ++ itemsAmong list t listed ns

end

/-- The items that a pattern tells in a page. -/
def items (ns : List Numbered) : List Item := ns.flatMap (p.itemsIn none)

end Pattern

/-- Takes out the items after the first few of each list, and counts them.  `seen` are the lists of
the items before. -/
def removeSurplus (limit : Int) (seen : List Nat) (e : Edit) : List Item → Edit × Nat
  | [] => (e, 0)
  | x :: rest =>
    if limit < (seen.count x.list : Int) + 1 then
      let (e, count) := removeSurplus limit (x.list :: seen) (e.remove x.number) rest
      (e, count + 1)
    else removeSurplus limit (x.list :: seen) e rest

/-- One pass over a page: its lists truncated, and the number of items taken out. -/
def Pattern.pass (p : Pattern) (limit : Int) (e : Edit) : Edit × Nat :=
  removeSurplus limit [] e (p.items e.nodes)

/-- One pass for each of some patterns, in their order. -/
def passes (limit : Int) : List Pattern → Edit → Edit × Nat
  | [], e => (e, 0)
  | p :: ps, e =>
    let (e, count) := p.pass limit e
    let (e, others) := passes limit ps e
    (e, count + others)

/-- A page with the lists of some patterns truncated, and the number of items taken out. -/
def truncateBy (ps : List Pattern) (page : Page) (limit : Int) : Page × Nat :=
  let (e, count) := passes limit ps (.start page.nodes)
  ({ page with nodes := Numbered.toNodes e.nodes }, count)

/-- A page with its lists truncated, and the number of items taken out. -/
def truncate (page : Page) (limit : Int) : Page × Nat := truncateBy patterns page limit

/-- The page around an element with its lists truncated, where the element is then, and the number
of items taken out. -/
def truncateAround (s : Site) (limit : Int) : Page × Whereabouts × Nat :=
  let before := Edit.start s.page.nodes
  let (e, count) := passes limit patterns before
  let place := (Numbered.numberAt? before.nodes s.place).bind e.whereabouts?
  ({ s.page with nodes := Numbered.toNodes e.nodes }, place.getD (.attached s.place), count)

end PagePlan.Condense
