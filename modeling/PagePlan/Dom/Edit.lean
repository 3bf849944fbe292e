/-
# Editing a page

Elements are taken out of a page one after another, and which ones is found before the first of
them goes.  Places shift when an element goes, so the elements of a page are numbered before it is
edited, and an element keeps its number whatever happens around it.

The text after an element that goes closes up to the text before it.  The element itself is kept
apart, with the text after it; elements in it can still be taken out of it.
-/
import PagePlan.Dom.Place

namespace PagePlan.Dom

/-- A node of a page that is being edited. -/
inductive Numbered where
  | element (number : Nat) (tag : Tag) (children : List Numbered)
  | text (s : String) (verbatim : Bool)
  | comment (s : String)
  | instruction (target : String) (content : String)
deriving Inhabited

namespace Numbered

/-- The number of an element. -/
def number? : Numbered → Option Nat
  | element k _ _ => some k
  | _ => none

/-- The children of a node. -/
def children : Numbered → List Numbered
  | element _ _ cs => cs
  | _ => []

def isText : Numbered → Bool
  | text _ _ => true
  | _ => false

/-- The characters of a text node. -/
def text? : Numbered → Option String
  | text s _ => some s
  | _ => none

/-- The texts among nodes in a row. -/
def textOf (ns : List Numbered) : String := String.join (ns.filterMap text?)

mutual

/-- Numbers the elements of a node from a number on, in the order of the page. -/
def ofNode (k : Nat) : Node → Numbered
  | .element t cs => .element k t (ofNodes (k + 1) cs)
  | .text s verbatim => .text s verbatim
  | .comment s => .comment s
  | .instruction target s => .instruction target s

/-- Numbers the elements of nodes from a number on. -/
def ofNodes (k : Nat) : List Node → List Numbered
  | [] => []
  | n :: ns => ofNode k n :: ofNodes (k + n.elementCount) ns

end

mutual

/-- A node without its numbers. -/
def toNode : Numbered → Node
  | element _ t cs => .element t (toNodes cs)
  | text s verbatim => .text s verbatim
  | comment s => .comment s
  | instruction target s => .instruction target s

/-- Nodes without their numbers. -/
def toNodes : List Numbered → List Node
  | [] => []
  | n :: ns => toNode n :: toNodes ns

end

mutual

/-- The elements in a node with their tags, in the order of the page. -/
def elements : Numbered → List (Nat × Tag)
  | element k t cs => (k, t) :: elementsAmong cs
  | _ => []

/-- The elements among and in nodes with their tags. -/
def elementsAmong : List Numbered → List (Nat × Tag)
  | [] => []
  | n :: ns => elements n ++ elementsAmong ns

end

/-! ## Taking an element out -/

/-- Nodes before and after an element that goes: the text behind it moves to the text in front. -/
def closeUp (before after : List Numbered) : List Numbered :=
  let tail := textOf (after.takeWhile isText)
  let rest := after.dropWhile isText
  if tail = "" then before ++ rest
  else (before.reverse.dropWhile isText).reverse ++
    .text (textOf (before.reverse.takeWhile isText).reverse ++ tail) false :: rest

/-- Takes an element out from among nodes. -/
def removeAmong (number : Nat) (ns : List Numbered) : List Numbered :=
  match ns.dropWhile fun n => n.number? != some number with
  | [] => ns
  | _ :: after => closeUp (ns.takeWhile fun n => n.number? != some number) after

mutual

/-- Takes an element out of the element around it, if that is in a node. -/
def removeIn (number : Nat) : Numbered → Numbered
  | element k t cs => .element k t (removeAmong number (removeInEach number cs))
  | n => n

/-- Takes an element out of the element around it, if that is in one of some nodes. -/
def removeInEach (number : Nat) : List Numbered → List Numbered
  | [] => []
  | n :: ns => removeIn number n :: removeInEach number ns

end

/-! ## Finding an element -/

mutual

/-- An element below a node, with the nodes behind it. -/
def locateIn? (number : Nat) : Numbered → Option (Numbered × List Numbered)
  | element _ _ cs => locate? number cs
  | _ => none

/-- An element among or below nodes, with the nodes behind it. -/
def locate? (number : Nat) : List Numbered → Option (Numbered × List Numbered)
  | [] => none
  | n :: ns =>
    if n.number? = some number then some (n, ns)
    else (locateIn? number n).or (locate? number ns)

end

mutual

/-- The way from a node to an element below it. -/
def placeIn? (number : Nat) : Numbered → Option Place
  | element _ _ cs => place? number 0 cs
  | _ => none

/-- The way to an element among or below nodes, the first of which is counted as `i`. -/
def place? (number i : Nat) : List Numbered → Option Place
  | [] => none
  | n :: ns =>
    if n.number? = some number then some [i]
    else ((placeIn? number n).map (i :: ·)).or (place? number (i + 1) ns)

end

/-- The number of the element at a place. -/
def numberAt? (ns : List Numbered) : Place → Option Nat
  | [] => none
  | [i] => ns[i]?.bind number?
  | i :: rest => ns[i]?.bind fun n => numberAt? n.children rest

end Numbered

/-- A page that is being edited. -/
structure Edit where
  nodes : List Numbered
  /-- The elements that were taken out, each with the text behind it. -/
  removed : List (List Numbered)

/-- Where an element is in a page that is being edited. -/
inductive Whereabouts where
  | attached (place : Place)
  /-- The element was taken out, or is in one that was; the text behind it is kept with it. -/
  | detached (n : Node) (tail : String)

namespace Edit

open Numbered (locate? locateIn? removeInEach place? ofNodes isText textOf)

/-- A page before the first change. -/
def start (ns : List Node) : Edit := ⟨ofNodes 0 ns, []⟩

/-- The elements around which an element could be found, with the nodes behind it. -/
def found? (e : Edit) (number : Nat) : Option (Numbered × List Numbered) :=
  (e.nodes :: e.removed).findSome? fun ns => ns.findSome? (locateIn? number)

/-- Takes an element out of the element around it.  One at the top has none and stays. -/
def remove (e : Edit) (number : Nat) : Edit where
  nodes := removeInEach number e.nodes
  removed := e.removed.map (removeInEach number) ++
    ((e.found? number).map fun (n, after) => n :: after.takeWhile isText).toList

/-- Where an element is. -/
def whereabouts? (e : Edit) (number : Nat) : Option Whereabouts :=
  match place? number 0 e.nodes with
  | some place => some (.attached place)
  | none => (e.removed.findSome? (locate? number)).map fun (n, after) =>
      .detached n.toNode (textOf (after.takeWhile isText))

end Edit

end PagePlan.Dom
