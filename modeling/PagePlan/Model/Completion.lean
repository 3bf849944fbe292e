/-
# Completions

What a provider answers is a JSON text with choices and, often, a count of tokens.  The content
of the first choice is the completion.  Where data of a record were asked for, the content is
read as JSON and checked.
-/
import PagePlan.Model.Reply
import PagePlan.Requirements.Reading
import PagePlan.Requirements.Validation

namespace PagePlan

/-- The tokens that a call has used. -/
structure Usage where
  prompt : Int
  completion : Int
  total : Int
deriving DecidableEq, Repr

/-- What a model has answered. -/
structure Completion where
  /-- A text, or the data that were asked for. -/
  content : Value
  usage : Option Usage

namespace Usage

/-- A count of tokens. -/
def count (es : Entries) (name : String) : Checked Int :=
  (Checked.ofKind (Lenient.integer ((es.get? name).getD .null))).under (.name name)

/-- The counts that a provider reports. -/
def ofEntries (es : Entries) : Checked Usage :=
  (Checked.both (count es "prompt_tokens")
    (Checked.both (count es "completion_tokens") (count es "total_tokens"))).map
      fun (p, c, t) => ⟨p, c, t⟩

/-- The usage part of an answer. -/
def ofValue? : Value → Except Failure (Option Usage)
  | .null => .ok none
  | .dict es => ((ofEntries es).mapError Failure.invalid).map some
  | _ => .error .noEntries

/-- Counts as data. -/
def toValue (u : Usage) : Value :=
  .record [("prompt_tokens", .int u.prompt), ("completion_tokens", .int u.completion),
    ("total_tokens", .int u.total)]

end Usage

namespace Completion

/-- The first of the choices; none where there are no choices. -/
def firstChoice? (choices : Value) : Except Failure (Option Value) :=
  if !choices.truthy then .ok none
  else match choices with
    | .list (x :: _) => .ok (some x)
    | .str s => .ok (some (.str (s.take 1).toString))
    | .unpaired t => .ok (some (.ofLetters (t.letters.take 1)))
    | .dict _ => .error .noSuchEntry
    | _ => .error .wrongKind

/-- The content of a choice; an empty content is an empty text. -/
def contentOf : Value → Except Failure Value
  | .dict choice =>
    match Entries.get? choice "message" with
    | some (.dict message) =>
      let content := (Entries.get? message "content").getD .null
      .ok (if content.truthy then content else .str "")
    | _ => .error .noEntries
  | _ => .error .noEntries

/-- What an answer says, before it is checked; none where it has no choices. -/
def ofValue? : Value → Except Failure (Option Completion)
  | .dict es => do
    match ← firstChoice? ((Entries.get? es "choices").getD .null) with
    | none => return none
    | some choice =>
      let content ← contentOf choice
      let usage ← Usage.ofValue? ((Entries.get? es "usage").getD .null)
      return some ⟨content, usage⟩
  | _ => .error .noEntries

/-- What the body of an answer says; a body that is no JSON has no parts. -/
def ofBody? (body : String) : Except Failure (Option Completion) :=
  match Json.read body with
  | .ok v => ofValue? v
  | .error _ => .error .noEntries

/-- The completion with its content as data of a record. -/
def as (c : Completion) (r : Record) : Except Failure Completion := do
  let v ← Reply.parse c.content
  let data ← (r.validate v).mapError Failure.invalid
  return { c with content := data }

end Completion

end PagePlan
