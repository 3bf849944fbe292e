/-
# The context of an object

An object with a query of its own takes its fields from one match of the query.  Only the first
match is looked at, in the order of the page: if it is a node with a place of its own it is the
context, and a comment or an instruction is one as well; if it is an attribute or a text the object
is null, whatever else matches.  So the object is what the first element among the matches makes of
it exactly where the first match is an element, or it has no place of its own and no match is an
element.  A query whose last step asks for elements by name is always of this kind.

* `Match.extract_object` — the context of an object, and when it is the first element;
* `extractField_object_of_named` — objects under queries for elements.
-/
import PagePlan.Proofs.Plan.Conformance
import PagePlan.Proofs.XPath.Climbing
import PagePlan.Proofs.XPath.Order

namespace PagePlan.XPath

open Dom (Page Site Node)

/-- Whether a match is an element; comments and instructions are none. -/
def Match.isElement : Match → Bool
  | .node s => s.node?.any Node.isElement
  | _ => false

/-- Matches in the order of the page that they are found in. -/
def InPageOrder (ms : List Match) : Prop :=
  ∃ page xs, InOrder xs ∧ AllIn page.nodes xs ∧ ms = xs.filterMap (Item.match? page)

/-- The value of an object whose fields are read in a context; null without one. -/
def objectIn (context? : Option Match) (fields : List (String × Field)) : Except Failure Value :=
  match context? with
  | some m => (evaluator.extractFields m fields).outcome.map .dict
  | none => .ok .null

/-! ### Matches in order -/

theorem answerAt_inPageOrder {s : Site} {xpath : String} {a : Answer Match}
    (h : answerAt s xpath = .ok a) : InPageOrder a.found := by
  obtain ⟨e, -, h⟩ := except_bind_eq_ok.1 h
  obtain ⟨v, hv, h⟩ := except_bind_eq_ok.1 h
  cases h
  cases v with
  | nodes xs => exact ⟨s.page, xs, eval_inOrder e hv, eval_isIn (itemAt_isIn s) e hv, rfl⟩
  | _ => exact ⟨s.page, [], .nil, allIn_nil, rfl⟩

theorem inPageOrder_nil : InPageOrder [] :=
  ⟨standIn "", [], .nil, allIn_nil, rfl⟩

/-- A query lists its matches in the order of a page, or gives the match that it is put to. -/
theorem Answered.inPageOrder {m : Match} {xpath : String} {a : Answer Match}
    (h : Answered m xpath a) : a = .nodes [m] ∨ InPageOrder a.found := by
  cases h with
  | itself _ _ => exact Or.inl rfl
  | nowhere _ _ _ => exact Or.inr inPageOrder_nil
  | answer _ h => exact Or.inr (answerAt_inPageOrder h)
  | nothing _ _ => exact Or.inr inPageOrder_nil

/-! ### The first match and the first element -/

theorem Match.isNode_of_isElement {m : Match} (h : m.isElement = true) : m.isNode = true := by
  cases m with
  | node s => rfl
  | _ => cases h

/-- The first match serves as the first element does just if it is the first element, or nothing
can serve. -/
theorem filter_head?_eq_find?_iff {ms : List Match} :
    (ms.head?.filter Match.isNode = ms.find? Match.isElement) ↔
      ∀ first ∈ ms.head?, first.isElement = true ∨
        (first.isNode = false ∧ ∀ m ∈ ms, m.isElement = false) := by
  cases ms with
  | nil => simp
  | cons first rest =>
    rw [List.head?_cons, List.find?_cons]
    cases helement : first.isElement with
    | true => simp [Match.isNode_of_isElement helement, helement]
    | false =>
      cases hnode : first.isNode with
      | true =>
        -- the first match would have to be found among the elements
        simp only [Option.filter, hnode, Option.mem_def, Option.some.injEq, forall_eq', helement]
        refine iff_of_false (fun h => ?_) (by simp)
        have hfound := List.find?_some h.symm
        rw [helement] at hfound
        cases hfound
      | false => simp [Option.filter, hnode, helement, eq_comm (a := none), List.find?_eq_none]

/-! ### Objects -/

section

variable {m : Match} {xpath : String} {a : Answer Match}

theorem narrow_outcome_of_ask (h : (m.ask xpath).outcome = .ok a) :
    (evaluator.narrow m xpath).outcome = .ok (a.found.head?.filter Match.isNode) := by
  have hask : (evaluator.ask m xpath).outcome = .ok a := (Evaluator.ask_outcome m xpath).trans h
  rw [Evaluator.narrow, Run.outcome_bind_of_ok _ hask]
  rfl

theorem narrow_outcome_of_refused {e : Failure} (h : (m.ask xpath).outcome = .error e) :
    (evaluator.narrow m xpath).outcome = .error e :=
  Run.outcome_bind_of_error _ ((Evaluator.ask_outcome m xpath).trans h)

variable (fields : List (String × Field))

/-- An object is read in the context that its query narrows to. -/
theorem extractField_object_of_narrow {context? : Option Match}
    (h : (evaluator.narrow m xpath).outcome = .ok context?) :
    (evaluator.extractField m (.object (some xpath) fields)).outcome =
      objectIn context? fields := by
  rw [Evaluator.extractField, Run.outcome_bind_of_ok _ h]
  cases context? with
  | none => rfl
  | some context =>
    rw [objectIn]
    dsimp only
    cases hentries : (evaluator.extractFields context fields).outcome with
    | ok entries => exact Run.outcome_bind_of_ok _ hentries
    | error e => exact Run.outcome_bind_of_error _ hentries

/-- Fields are never read as null. -/
theorem objectIn_eq_null_iff {context? : Option Match} :
    objectIn context? fields = .ok .null ↔ context? = none := by
  cases context? with
  | none => exact iff_of_true rfl rfl
  | some context =>
    refine iff_of_false (fun h => ?_) nofun
    obtain ⟨entries, -, hnull⟩ := except_map_eq_ok.1 h
    cases hnull

/-- **An object takes its fields from the first match, if that has a place of its own, and is null
otherwise; its context is the first element among the matches exactly where no other match stands
before that one.** -/
theorem Match.extract_object (m : Match) (xpath : String) (fields : List (String × Field)) :
    (Unfit m xpath ∧ (evaluator.extractField m (.object (some xpath) fields)).outcome =
        .error .notPageText) ∨
      (¬Unfit m xpath ∧ ∃ a, (m.ask xpath).outcome = .ok a ∧
        (a = .nodes [m] ∨ InPageOrder a.found) ∧
        (evaluator.extractField m (.object (some xpath) fields)).outcome =
          objectIn (a.found.head?.filter Match.isNode) fields ∧
        ((evaluator.extractField m (.object (some xpath) fields)).outcome = .ok .null ↔
          ∀ first ∈ a.found.head?, first.isNode = false) ∧
        (a.found.head?.filter Match.isNode = a.found.find? Match.isElement ↔
          ∀ first ∈ a.found.head?, first.isElement = true ∨
            (first.isNode = false ∧ ∀ e ∈ a.found, e.isElement = false))) := by
  rcases m.ask_settled xpath with ⟨hunfit, hrefused⟩ | ⟨hfit, a, hask, hanswered⟩
  · refine Or.inl ⟨hunfit, ?_⟩
    rw [Evaluator.extractField, Run.outcome_bind_of_error _ (narrow_outcome_of_refused hrefused)]
  · have hobject := extractField_object_of_narrow fields (narrow_outcome_of_ask hask)
    refine Or.inr ⟨hfit, a, hask, hanswered.inPageOrder, hobject, ?_, filter_head?_eq_find?_iff⟩
    rw [hobject, objectIn_eq_null_iff, Option.filter_eq_none_iff]
    simp only [Bool.not_eq_true, Option.mem_def]

/-- A page of a comment before an element. -/
def notedPage : Page :=
  ⟨.xml, none, [.element ⟨.plain "p", [], []⟩
    [.comment "c", .element ⟨.plain "b", [], []⟩ [.text "y" false]]]⟩

/-- The comment takes the place of the element after it. -/
example :
    let found : List Match := [.node ⟨notedPage, [0, 0]⟩, .node ⟨notedPage, [0, 1]⟩]
    found.head?.filter Match.isNode = some (.node ⟨notedPage, [0, 0]⟩) ∧
      found.find? Match.isElement = some (.node ⟨notedPage, [0, 1]⟩) :=
  ⟨rfl, rfl⟩

end

/-! ### Queries for elements -/

/-- A test for names on an axis that leads to elements. -/
inductive ForElements : Axis → NodeTest → Prop
  | name {axis : Axis} (q : QName) :
      axis ≠ .attributes → axis ≠ .namespaces → ForElements axis (.name q)
  | anyName {axis : Axis} (qualifier : Option String) :
      axis ≠ .attributes → axis ≠ .namespaces → ForElements axis (.anyName qualifier)

theorem ForElements.exists_element {axis : Axis} {test : NodeTest} {x : Item}
    (h : ForElements axis test) (hpasses : x.passes test axis = true) :
    ∃ place tag cs, x = .node place (.element tag cs) := by
  cases x with
  | node place n =>
    cases n with
    | element tag cs => exact ⟨place, tag, cs, rfl⟩
    | _ => cases h <;> cases hpasses
  | document => cases h <;> cases hpasses
  | attr owner i b => cases h <;> simp_all [Item.passes]
  | binding owner i qualifier space => cases h <;> simp_all [Item.passes]

/-- A query whose last step is for elements finds nothing else. -/
theorem answerAt_isElement {s : Site} {xpath : String} {e : Expr} {axis : Axis} {test : NodeTest}
    {predicates : List Expr} (hread : Expr.read xpath = .ok (.step e (.mk axis test predicates)))
    (htest : ForElements axis test) {a : Answer Match} (h : answerAt s xpath = .ok a) :
    ∀ m ∈ a.found, m.isElement = true := by
  obtain ⟨e', he', h⟩ := except_bind_eq_ok.1 h
  rw [hread] at he'
  cases he'
  obtain ⟨v, hv, h⟩ := except_bind_eq_ok.1 h
  cases h
  have hv' := hv
  rw [Expr.eval] at hv'
  obtain ⟨w, -, hv'⟩ := except_bind_eq_ok.1 hv'
  obtain ⟨xs, -, hv'⟩ := except_bind_eq_ok.1 hv'
  obtain ⟨ys, hstep, hv'⟩ := except_bind_eq_ok.1 hv'
  cases hv'
  intro m hm
  obtain ⟨y, hy, hmatch⟩ := List.mem_filterMap.1 hm
  obtain ⟨place, tag, cs, rfl⟩ := htest.exists_element (exists_onAxis_of_step hstep y hy).1
  cases hmatch
  -- the place of the element leads to it
  cases eval_isIn (itemAt_isIn s) _ hv _ hy with
  | node hnode =>
    have hnode : Site.node? ⟨s.page, place⟩ = some (.element tag cs) := hnode
    rw [Match.isElement, hnode]
    rfl

/-- **Under a query for elements an object is null only if nothing matches, and takes its fields
from the first match otherwise.** -/
theorem extractField_object_of_named {s : Site} {xpath : String} {e : Expr} {axis : Axis}
    {test : NodeTest} {predicates : List Expr}
    (hread : Expr.read xpath = .ok (.step e (.mk axis test predicates)))
    (htest : ForElements axis test) (hfit : IsPageText xpath) (fields : List (String × Field)) :
    ∃ a, ((Match.node s).ask xpath).outcome = .ok a ∧ (∀ m ∈ a.found, m.isElement = true) ∧
      (evaluator.extractField (.node s) (.object (some xpath) fields)).outcome =
        objectIn a.found.head? fields := by
  obtain ⟨a, hask, hanswered⟩ := askSite_of_fit hfit (PutTo.node (q := xpath) (s := s) rfl)
  have hall : ∀ m ∈ a.found, m.isElement = true := by
    cases hanswered with
    | itself hvalue _ => cases hvalue
    | nowhere hvalue _ _ => cases hvalue
    | answer hput h =>
      cases hput with
      | node heq =>
        cases heq
        exact answerAt_isElement hread htest h
      | owner _ howner => cases howner
      | alone hvalue _ _ => cases hvalue
    | nothing _ _ => nofun
  refine ⟨a, hask, hall, ?_⟩
  rw [extractField_object_of_narrow fields (narrow_outcome_of_ask (m := .node s) hask)]
  congr 1
  cases hfirst : a.found.head? with
  | none => rfl
  | some first =>
    have hnode := Match.isNode_of_isElement (hall first (List.mem_of_head? hfirst))
    rw [Option.filter_some, if_pos hnode]

end PagePlan.XPath
