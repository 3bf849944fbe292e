/-
# Failures

Everything that can go wrong, by cause.  A failure carries what its wording needs; the wording is
worked out in one place and only for the causes that are reported in words.
-/
import PagePlan.Json.Reader
import PagePlan.Requirements.Fault
import PagePlan.Text.ByteFault

namespace PagePlan

/-- Why a saved or generated plan cannot be used. -/
inductive PlanProblem where
  | notJson (e : Json.SyntaxError)
  /-- The top level is a value of this kind. -/
  | notMapping (kind : String)
  /-- The model's answer is a value of this kind. -/
  | answerNotMapping (kind : String)
deriving DecidableEq, Repr

/-- The wording of a plan's problem. -/
def PlanProblem.message : PlanProblem → String
  | notJson e => "Extraction schema is not valid JSON: " ++ e.message
  | notMapping kind =>
    "Extraction schema must be a JSON object of field definitions, got " ++ kind
  | answerNotMapping kind => "Generated schema must be a JSON object, got " ++ kind

/-- Why requirements cannot be used. -/
inductive RequirementsProblem where
  | recursiveReference (ref : List Text.Letter)
  | unresolvableReference (ref : List Text.Letter)
  | unsupportedKeyword (keyword : String)
  /-- Alternatives other than one schema and null. -/
  | unsupportedAlternatives
  /-- Neither a record nor a schema, but a value of this kind. -/
  | notRequirements (kind : String)
  /-- A type other than object, as messages show it. -/
  | notObject (shown : String)
  | noProperties
deriving DecidableEq, Repr

/-- The wording of a problem with requirements. -/
def RequirementsProblem.message : RequirementsProblem → String
  | recursiveReference ref => "Recursive schema reference is not supported: " ++ Text.shown ref
  | unresolvableReference ref => "Unresolvable schema reference: " ++ Text.shown ref
  | unsupportedKeyword keyword => "Unsupported JSON Schema keyword: " ++ keyword
  | unsupportedAlternatives =>
    "Unsupported JSON Schema keyword: anyOf (only optional X | null is supported)"
  | notRequirements kind =>
    "Requirements must be a pydantic model class or a JSON Schema dict, got " ++ kind
  | notObject shown => "Requirements schema must have type \"object\", got " ++ shown
  | noProperties => "Requirements schema must have at least one property"

/-- Why a file cannot be read or written. -/
inductive StorageProblem where
  | notFound
  | isDirectory
  /-- Its directory is a file. -/
  | fileExists
  /-- A file stands further up on its path. -/
  | notDirectory
deriving DecidableEq, Repr

/-- Why a computation gives no result. -/
inductive Failure where
  | plan (problem : PlanProblem)
  | requirements (problem : RequirementsProblem)
  /-- A model's reply is no JSON; `text` is the reply without its fences. -/
  | reply (problem : Json.Problem) (text : List Text.Letter)
  /-- A JSON text that is read outside a plan or a reply. -/
  | json (e : Json.SyntaxError)
  /-- A whole number has too many digits. -/
  | tooManyDigits (count : Nat)
  /-- A text holds characters that no page can hold. -/
  | notPageText
  /-- The bytes of a text file are not UTF-8. -/
  | notUtf8 (fault : Text.ByteFault)
  /-- The bytes of a JSON document are no text in their encoding. -/
  | undecodable
  /-- A text to be written has half of a surrogate pair in it. -/
  | unencodable (fault : Text.HalfFault)
  /-- A request has half of a surrogate pair in one of its texts, or a record in one of its
  names. -/
  | unspellable
  /-- Data do not fit a record. -/
  | invalid (faults : List Fault)
  /-- An operation met a value of a kind that it is not defined for. -/
  | wrongKind
  /-- A value that is no mapping was asked for its entries. -/
  | noEntries
  /-- A record was asked for a field whose name is refused. -/
  | refusedName
  /-- The top element of a page was to be removed. -/
  | topRemoved
  /-- A mapping was asked for an entry that it does not have. -/
  | noSuchEntry
  | storage (problem : StorageProblem)
  /-- A request holds a number that JSON has no form for. -/
  | notFinite
  /-- A request was not to be sent even once. -/
  | noAttempt
  /-- The provider's answer, or the lack of one, as a status and a message. -/
  | provider (status : Int) (model : String) (message : String)
  /-- The provider refused because of too many requests. -/
  | rateLimited (model : String) (message : String)
  /-- The provider's answer could not be used for another reason. -/
  | unusableAnswer (model : String) (cause : Failure)
  /-- A closing tag in a notice closes nothing. -/
  | markup (tag : String)
deriving Repr

/-- How much of an unreadable reply a message shows. -/
def previewLength : Nat := 200

/-- The front of a reply, as a message shows it. -/
def preview (text : List Text.Letter) : String :=
  let cs := text.map Text.Letter.shown
  if cs.length ≤ previewLength then String.ofList cs
  else String.ofList (cs.take previewLength) ++ "..."

/-- The wording of a failure, for the causes that are reported in words. -/
def Failure.message : Failure → String
  | plan problem => problem.message
  | requirements problem => problem.message
  | reply problem text =>
    "Model reply is not valid JSON (" ++ problem.message ++ "): " ++ preview text
  | json e => e.message
  | tooManyDigits count => Json.digitLimitMessage count
  | notUtf8 fault => fault.message
  | unencodable fault => fault.message
  | notFinite => "Out of range float values are not JSON compliant"
  | notPageText =>
    "All strings must be XML compatible: Unicode or ASCII, no NULL bytes or control characters"
  | provider _ _ message => message
  | rateLimited _ message => message
  | unusableAnswer _ cause => cause.message
  | undecodable | unspellable | invalid _ | wrongKind | noEntries | refusedName | topRemoved
  | noSuchEntry | storage _ | noAttempt | markup _ => ""

end PagePlan
