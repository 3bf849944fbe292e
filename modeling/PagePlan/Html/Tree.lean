/-
# The tree of an HTML page

Tokens build a tree on a stack of open elements, innermost first.  A start tag first closes the
open elements that it ends, then opens what it implies (a page, a head or a body), and is dropped
where it would open a second page, head or body.  An end tag closes up to its element, unless a
stronger open element stands between.
-/
import PagePlan.Dom.Basic
import PagePlan.Html.Token

namespace PagePlan.Html

open Dom (Node Tag Attribute Name)

/-- An open element: its tag and the children so far, the last one first. -/
structure OpenElement where
  tag : Tag
  children : List Node

/-- The name of an open element. -/
def OpenElement.name (e : OpenElement) : String := e.tag.name.label

/-- An element that is being closed. -/
def OpenElement.node (e : OpenElement) : Node := .element e.tag e.children.reverse

/-- A tree under construction. -/
structure Builder where
  /-- The open elements, innermost first. -/
  stack : List OpenElement
  /-- The top-level nodes so far, the last one first. -/
  top : List Node
  /-- How many end tags belong to dropped start tags. -/
  dropped : Nat
  /-- Whether a head was opened. -/
  headSeen : Bool
  /-- Whether a body was opened. -/
  bodySeen : Bool
  /-- Whether the tree became too deep to go on. -/
  halted : Bool

namespace Builder

/-- Nothing built yet. -/
def empty : Builder := ⟨[], [], 0, false, false, false⟩

/-- How many elements may be open at once. -/
def depthLimit : Nat := 256

/-- The name of the innermost open element. -/
def current? (b : Builder) : Option String := b.stack.head?.map OpenElement.name

/-- Whether an element of a name is open. -/
def isOpen (b : Builder) (name : String) : Bool := b.stack.any fun e => e.name == name

/-- Adds a node to the innermost open element, or to the top level. -/
def add (b : Builder) (n : Node) : Builder :=
  match b.stack with
  | [] => { b with top := n :: b.top }
  | e :: rest => { b with stack := { e with children := n :: e.children } :: rest }

/-- Adds text to the innermost open element: to the text just before it, if that is of the same
kind.  At the top level text is dropped. -/
def addText (b : Builder) (s : String) (verbatim : Bool) : Builder :=
  match b.stack with
  | [] => b
  | e :: rest =>
    match e.children with
    | .text before kind :: others =>
      if kind = verbatim then
        { b with stack := { e with children := .text (before ++ s) kind :: others } :: rest }
      else b.add (.text s verbatim)
    | _ => b.add (.text s verbatim)

/-- Opens an element. -/
def push (b : Builder) (tag : Tag) : Builder :=
  let name := tag.name.label
  { b with
    stack := ⟨tag, []⟩ :: b.stack
    headSeen := b.headSeen || name == "head"
    bodySeen := b.bodySeen || name == "body" }

/-- Opens an element without attributes. -/
def pushPlain (b : Builder) (name : String) : Builder :=
  b.push ⟨.plain name, [], []⟩

/-- Closes the innermost open element. -/
def pop (b : Builder) : Builder :=
  match b.stack with
  | [] => b
  | e :: rest => { b with stack := rest }.add e.node

/-- Closes open elements while a test holds of the innermost one; the fuel is their number. -/
def popWhile (test : String → Bool) : Nat → Builder → Builder
  | 0, b => b
  | fuel + 1, b =>
    match b.current? with
    | none => b
    | some name => if test name then popWhile test fuel b.pop else b

/-- Closes the open elements that the start tag of an element ends. -/
def autoClose (b : Builder) (name : String) : Builder :=
  popWhile (closes name) b.stack.length b

/-- Opens the head or the body that an element needs. -/
def implyPart (b : Builder) (name : String) : Builder :=
  if b.stack.length ≤ 1 && headElements.contains name then
    if b.headSeen || b.bodySeen then b else b.pushPlain "head"
  else if frameElements.contains name then b
  else if b.bodySeen || b.isOpen "body" || b.isOpen "head" then b
  else b.pushPlain "body"

/-- Opens what an element needs around it. -/
def imply (b : Builder) (name : String) : Builder :=
  if name = "html" then b
  else
    let b := if b.stack.isEmpty then b.pushPlain "html" else b
    if name = "body" || name = "head" then b else b.implyPart name

/-- Whether the start tag of an element is dropped. -/
def drops (b : Builder) (name : String) : Bool :=
  (name == "html" && !b.stack.isEmpty) || (name == "head" && b.stack.length != 1) ||
    (name == "body" && b.isOpen "body")

/-- Whether a value would be given to an attribute that was written without one. -/
def valueOf (name : String) (value : Option String) : Option String :=
  match value with
  | some s => some s
  | none => if booleanAttributes.contains name then some name else none

/-- The attributes of a tag, the first of each name. -/
def attributesOf (written : List (String × Option String)) : List Attribute :=
  (written.foldl (fun (acc : List Attribute) a =>
    if acc.any fun b => b.name.label == a.1 then acc
    else ⟨.plain a.1, valueOf a.1 a.2⟩ :: acc) []).reverse

/-- Takes a start tag. -/
def startTag (b : Builder) (name : String) (written : List (String × Option String))
    (closed : Bool) : Builder :=
  let b := (b.autoClose name).imply name
  if b.drops name then { b with dropped := b.dropped + 1 }
  else if depthLimit ≤ b.stack.length then { b with halted := true }
  else
    let b := b.push ⟨.plain name, attributesOf written, []⟩
    if closed || emptyElements.contains name then b.pop else b

/-- Closes the open elements that an end tag reaches beyond: those inside the innermost element of
its name, unless one of them is stronger. -/
def closeInside (b : Builder) (name : String) : Builder :=
  let inside := b.stack.takeWhile fun e => e.name != name
  if inside.any fun e => endStrength name < endStrength e.name then b
  else popWhile (· != name) b.stack.length b

/-- Takes an end tag. -/
def endTag (b : Builder) (name : String) : Builder :=
  if 0 < b.dropped && (name == "html" || name == "head" || name == "body") then
    { b with dropped := b.dropped - 1 }
  else if !b.isOpen name then b
  else
    let b := b.closeInside name
    if b.current? = some name then b.pop else b

/-- Whether text at this place is still before the body. -/
def beforeBody (b : Builder) : Bool :=
  match b.current? with
  | none => true
  | some name => name == "html" || name == "head"

/-- Opens what text needs around it. -/
def startText (b : Builder) : Builder :=
  let b := if b.current? = some "head" then b.autoClose "p" else b
  b.imply "p"

/-- Takes text.  Before the body, blanks in front are kept where they stand and the rest opens the
body. -/
def text (b : Builder) (s : String) (verbatim : Bool) : Builder :=
  if b.beforeBody then
    let cs := s.toList
    let blanks := cs.takeWhile Text.isHtmlBlank
    let rest := cs.dropWhile Text.isHtmlBlank
    let b := if blanks.isEmpty then b else b.addText (String.ofList blanks) verbatim
    if rest.isEmpty then b else b.startText.addText (String.ofList rest) verbatim
  else b.addText s verbatim

/-- Takes a token. -/
def step (b : Builder) (t : Token) : Builder :=
  if b.halted then b
  else match t with
    | .startTag name attributes closed => b.startTag name attributes closed
    | .endTag name => b.endTag name
    | .comment s => b.add (.comment s)
    | .text s verbatim => b.text s verbatim
    | .doctype _ => b

/-- Closes all open elements. -/
def finish (b : Builder) : List Node :=
  (popWhile (fun _ => true) b.stack.length b).top.reverse

end Builder

/-- The top-level nodes of the page that tokens describe. -/
def tree (ts : List Token) : List Node :=
  (ts.foldl Builder.step .empty).finish

end PagePlan.Html
