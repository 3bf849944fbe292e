/-
# XPath expressions

The expressions of XPath 1.0 in the form in which they are evaluated: the abbreviated steps stand
for the steps that they abbreviate, and parentheses are gone.
-/
import PagePlan.Decimal.Binary64

namespace PagePlan.XPath

/-- A direction from a node to other nodes. -/
inductive Axis where
  | ancestor
  | ancestorOrSelf
  | attributes
  | child
  | descendant
  | descendantOrSelf
  | following
  | followingSibling
  | namespaces
  | parent
  | preceding
  | precedingSibling
  | self
deriving DecidableEq, Repr

/-- The axis of a name. -/
def Axis.named? : String → Option Axis
  | "ancestor" => some ancestor
  | "ancestor-or-self" => some ancestorOrSelf
  | "attribute" => some attributes
  | "child" => some child
  | "descendant" => some descendant
  | "descendant-or-self" => some descendantOrSelf
  | "following" => some following
  | "following-sibling" => some followingSibling
  | "namespace" => some namespaces
  | "parent" => some parent
  | "preceding" => some preceding
  | "preceding-sibling" => some precedingSibling
  | "self" => some self
  | _ => none

/-- A name, maybe with the short name of its space. -/
structure QName where
  qualifier : Option String
  label : String
deriving DecidableEq, Repr

/-- Which nodes of an axis a step takes. -/
inductive NodeTest where
  | anyNode
  | text
  | comment
  /-- A processing instruction, maybe of one target only. -/
  | instruction (target : Option String)
  /-- Any name, maybe of one space only. -/
  | anyName (qualifier : Option String)
  | name (n : QName)
deriving DecidableEq, Repr

/-- The kinds of node that are tested for by a call, by their names. -/
def NodeTest.kinds : List String := ["comment", "node", "processing-instruction", "text"]

/-- An operator with two operands. -/
inductive Operator where
  | or
  | and
  | equal
  | notEqual
  | less
  | lessOrEqual
  | greater
  | greaterOrEqual
  | plus
  | minus
  | times
  | div
  | mod
deriving DecidableEq, Repr

mutual

/-- An expression. -/
inductive Expr where
  | number (x : Binary64)
  | literal (s : String)
  /-- A variable; none is ever bound. -/
  | variable
  | negate (e : Expr)
  | binary (op : Operator) (left right : Expr)
  | union (left right : Expr)
  | call (name : QName) (arguments : List Expr)
  /-- The top of the page. -/
  | top
  /-- The context node. -/
  | here
  | filter (e : Expr) (predicate : Expr)
  | step (e : Expr) (s : Step)

/-- A step from each node of a set. -/
inductive Step where
  | mk (axis : Axis) (test : NodeTest) (predicates : List Expr)

end

/-- The step that two slashes stand for. -/
def Step.anyBelow : Step := .mk .descendantOrSelf .anyNode []

/-- The step that two dots stand for. -/
def Step.above : Step := .mk .parent .anyNode []

end PagePlan.XPath
