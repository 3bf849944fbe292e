/-
# Drafting plans and direct answers

A chat model is shown a condensed page and asked either for a plan that extracts some properties
from pages like it, or for the data themselves.  A draft that cannot be read as a plan is
refused; properties that it leaves out are noted.
-/
import PagePlan.Condense.Summary
import PagePlan.Model.Chat
import PagePlan.Model.Prompt
import PagePlan.Plan.Reading

namespace PagePlan

namespace Assistant

/-- The messages that show a page together with instructions. -/
def briefing (instructions page : String) : List Message :=
  [⟨.system, instructions⟩, ⟨.user, page⟩]

/-- The names among some that a mapping has no entry for; only what can be a key is looked up. -/
def missingNames (names : List Value) (es : Entries) : Except Failure (List Value) :=
  if names.all Schema.isHashable then
    .ok (names.filter fun name => !es.any fun e => e.1.sameKey name)
  else .error .wrongKind

/-- How many items of a list a page is shown with when a plan is drafted. -/
def sampleItems : Int := 3

/-- Drafts a plan for pages like the given one. -/
def draft (a : Assistant) (source : PageSource) (r : Requirements) (limit : Option Int) :
    Run Value := do
  let properties ← Run.ofExcept r.properties
  let page ← Condense.condense source limit
  let instructions ← Run.ofExcept (Prompt.forPlan properties)
  let names ← Run.ofExcept (Requirements.listed properties)
  Run.log .info "generator.service" ("Generating XPath schema for fields " ++
    (Value.list names).display ++ " with " ++ a.name)
  let answer ← a.ask (briefing instructions page) none
  match ← Run.ofExcept (Reply.parse answer.content) with
  | .dict es => do
    let _ ← Plan.read (.value (.dict es))
    match ← Run.ofExcept (missingNames names es) with
    | [] => return .dict es
    | missing => do
      Run.log .warning "generator.service"
        ("Generated schema has no definition for requested fields: " ++
          (Value.list missing).display)
      return .dict es
  | v => Run.fail (.plan (.answerNotMapping v.kindName))

/-- Asks for the data of a page. -/
def extract (a : Assistant) (source : PageSource) (r : Requirements) : Run Value := do
  let record ← r.toRecord
  let properties ← Run.ofExcept r.properties
  let page ← Condense.condense source none
  let instructions ← Run.ofExcept (Prompt.forData properties)
  let names ← Run.ofExcept (Requirements.listed properties)
  Run.log .info "generator.llm_extractor" ("Extracting fields " ++
    (Value.list names).display ++ " directly with " ++ a.name)
  let answer ← a.ask (briefing instructions page) (some record)
  return answer.content

end Assistant

end PagePlan
