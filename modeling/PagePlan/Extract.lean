/-
# Extraction from pages

A plan in any form is read once and carried out against a page in any form.
-/
import PagePlan.Plan.Reading
import PagePlan.Source
import PagePlan.XPath.Query

namespace PagePlan

/-- The data that a plan finds in a page. -/
def Plan.extractFrom (plan : Plan) (source : PageSource) : Run Value :=
  XPath.evaluator.extract (.node source.site) plan

/-- The data that a plan in any form finds in a page. -/
def extract (source : PageSource) (plan : PlanSource) : Run Value := do
  let p ← Plan.read plan
  p.extractFrom source

end PagePlan
