/-
# Extraction

A plan is carried out against anything that answers queries: an evaluator gives, for a context
and a query, the matches or a scalar, and each match is a context for the queries below it.  The
result has one entry for each field of the plan, in the plan's order.
-/
import PagePlan.Plan.Coercion
import PagePlan.Run
import PagePlan.Text.Quoted

namespace PagePlan

/-- What answers the queries of a plan. -/
structure Evaluator (γ : Type) where
  /-- The answer to a query in a context. -/
  answer : γ → String → Run (Answer γ)
  /-- Whether a match is an element. -/
  isElement : γ → Bool
  /-- The text of a match. -/
  textOf : γ → String

namespace Evaluator

variable {γ : Type} (ev : Evaluator γ)

/-- Puts a query to a context. -/
def ask (context : γ) (xpath : String) : Run (Answer γ) := do
  Run.emit (.query xpath)
  ev.answer context xpath

/-- The first match of a query, if it is an element. -/
def narrow (context : γ) (xpath : String) : Run (Option γ) := do
  let a ← ev.ask context xpath
  return (a.found.head?).filter ev.isElement

/-- The matches of an array's container; a scalar answer has none. -/
def containers (context : γ) (xpath : String) : Run (List γ) := do
  let a ← ev.ask context xpath
  Run.log .debug "extraction.service"
    ("Container " ++ Text.quoted xpath ++ " matched " ++
      String.ofList (Decimal.ofNat a.found.length) ++ " nodes")
  return a.found

/-- The value of a scalar field; null where its query matched nothing. -/
def extractPrimitive (context : γ) (p : Primitive) : Run Value := do
  let a ← ev.ask context p.xpath
  match a.resolve? ev.textOf with
  | none => return .null
  | some raw => Run.ofExcept (coerce raw p.type)

mutual

/-- The value of a field. -/
def extractField (context : γ) : Field → Run Value
  | .primitive p => ev.extractPrimitive context p
  | .object none fields => do return .dict (← extractFields context fields)
  | .object (some xpath) fields => do
    match ← ev.narrow context xpath with
    | some inner => return .dict (← extractFields inner fields)
    | none => do
      Run.log .debug "extraction.service"
        ("Context " ++ Text.quoted xpath ++ " matched nothing, object is null")
      return .null
  | .primitiveArray container item => do
    let found ← ev.containers context container
    return .list (← found.mapM fun m => ev.extractPrimitive m item)
  | .objectArray container fields => do
    let found ← ev.containers context container
    return .list (← found.mapM fun m => do return Value.dict (← extractFields m fields))
  | .emptyArray => return .list []
  | .malformed _ => return .null

/-- The values of fields under their names. -/
def extractFields (context : γ) : List (String × Field) → Run Entries
  | [] => return []
  | (name, f) :: rest => do
    let v ← extractField context f
    let others ← extractFields context rest
    return (.str name, v) :: others

end

/-- The data that a plan finds in a context. -/
def extract (context : γ) (plan : Plan) : Run Value := do
  return .dict (← ev.extractFields context plan.fields)

end Evaluator

end PagePlan
