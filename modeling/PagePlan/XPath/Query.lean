/-
# Queries to pages

A query is a text that should be an expression.  Its matches are nodes of a page or values: the
text of an attribute or of a text node, together with the element that it belongs to.  Every match
is a context for further queries.  A value stands in for itself as the only text of a small page
of its own; a query that climbs or starts at the top goes to the element that the value belongs
to.  A query that has no answer matches nothing and is noted in the journal.
-/
import PagePlan.XPath.Evaluation
import PagePlan.XPath.Grammar
import PagePlan.Plan.Extraction
import PagePlan.Value.Display

namespace PagePlan.XPath

open Dom (Page Site Node Attribute)

/-- Where a value comes from. -/
inductive Source where
  | attribute (a : Attribute)
  /-- A text node; `late` tells whether it stands after markup. -/
  | text (late : Bool)

/-- A match of a query. -/
inductive Match where
  /-- An element, a comment or an instruction. -/
  | node (s : Site)
  /-- A value and the site of the element that it belongs to, if there is one. -/
  | value (s : String) (source : Source) (owner : Option Site)
  | binding (qualifier : Option String) (space : String)

namespace Match

/-- Whether a match is a node that has a place in a page of its own. -/
def isNode : Match → Bool
  | node _ => true
  | _ => false

/-- The text of a match. -/
def text : Match → String
  | node s => (s.node?.map Node.stringValue).getD ""
  | value s _ _ => s
  | binding qualifier space =>
    (Value.tuple [(qualifier.map Value.str).getD .null, .str space]).asText

end Match

/-- The match that an item is; the page itself is none. -/
def Item.match? (page : Page) : Item → Option Match
  | document => none
  | node place (.text s _) =>
    let site : Site := ⟨page, place⟩
    some (.value s (.text site.followsMarkup) site.above?)
  | node place _ => some (.node ⟨page, place⟩)
  | attr owner _ a => some (.value a.text (.attribute a) (some ⟨page, owner⟩))
  | binding _ _ qualifier space => some (.binding qualifier space)

/-- The value of an expression as an answer. -/
def Object.answer (page : Page) : Object → Answer Match
  | nodes xs => .nodes (xs.filterMap (Item.match? page))
  | truth b => .truth b
  | number x => .number x
  | text s => .text s

/-- The item at a site. -/
def itemAt (s : Site) : Item :=
  match s.node? with
  | some n => .node s.place n
  | none => .document

/-- The answer to a query at a site. -/
def answerAt (s : Site) (xpath : String) : Except Problem (Answer Match) := do
  let e ← Expr.read xpath
  let v ← e.eval s.page ⟨itemAt s, none⟩
  return v.answer s.page

/-- The journal's note on a query without an answer. -/
def unanswered (xpath : String) (problem : Problem) : String :=
  "XPath " ++ Text.quoted xpath ++ " could not be evaluated, treating as no match: " ++
    problem.message

/-- Puts a query to a site. -/
def askSite (s : Site) (xpath : String) : Run (Answer Match) :=
  if !xpath.toList.all Text.isPageChar then Run.fail .notPageText
  else match answerAt s xpath with
    | .ok a => return a
    | .error problem => do
      Run.log .warning "dom.document" (unanswered xpath problem)
      return .nodes []

/-- The page whose only text is a given one. -/
def standIn (s : String) : Page :=
  ⟨.xml, none, [.element ⟨.plain "value", [], []⟩ [.text s false]]⟩

/-- Puts a query to a value. -/
def askValue (m : Match) (owner : Option Site) (xpath : String) : Run (Answer Match) :=
  let query := Text.strip xpath
  let ofOwner (rest : String) : Run (Answer Match) :=
    match owner with
    | some site => askSite site rest
    | none => return .nodes []
  if query = "." || query = "self::node()" then return .nodes [m]
  else match query.toList with
    | '.' :: '.' :: rest => ofOwner (String.ofList ('.' :: rest))
    | '/' :: _ => ofOwner query
    | _ =>
      if !m.text.toList.all Text.isPageChar then Run.fail .notPageText
      else askSite (.root (standIn m.text)) query

/-- Puts a query to a match. -/
def Match.ask (m : Match) (xpath : String) : Run (Answer Match) :=
  match m with
  | node s => askSite s xpath
  | value _ _ owner => askValue m owner xpath
  | binding _ _ => askValue m none xpath

/-- What answers queries to pages. -/
def evaluator : Evaluator Match where
  answer := Match.ask
  isElement := Match.isNode
  textOf := Match.text

end PagePlan.XPath
