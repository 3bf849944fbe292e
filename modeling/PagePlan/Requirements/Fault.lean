/-
# Validation faults

Checking data against a record finds faults, each of a kind and at a place.  The place is the
path of names and indices from the checked value down to the faulty part.
-/
import PagePlan.Value.Display

namespace PagePlan

/-- The kinds of faults. -/
inductive FaultKind where
  | missing
  | extraForbidden
  | invalidKey
  | stringType
  /-- A text with half of a surrogate pair in it. -/
  | stringUnicode
  | intType
  | intParsing
  | intParsingSize
  | intFromFloat
  | finiteNumber
  | floatType
  | floatParsing
  | boolType
  | boolParsing
  | listType
  | dictType
  | modelType
  | noneRequired
  | greaterThan
  | greaterThanEqual
  | noSuchAttribute
deriving DecidableEq, Repr

/-- The code of a kind of fault. -/
def FaultKind.code : FaultKind → String
  | missing => "missing"
  | extraForbidden => "extra_forbidden"
  | invalidKey => "invalid_key"
  | stringType => "string_type"
  | stringUnicode => "string_unicode"
  | intType => "int_type"
  | intParsing => "int_parsing"
  | intParsingSize => "int_parsing_size"
  | intFromFloat => "int_from_float"
  | finiteNumber => "finite_number"
  | floatType => "float_type"
  | floatParsing => "float_parsing"
  | boolType => "bool_type"
  | boolParsing => "bool_parsing"
  | listType => "list_type"
  | dictType => "dict_type"
  | modelType => "model_type"
  | noneRequired => "none_required"
  | greaterThan => "greater_than"
  | greaterThanEqual => "greater_than_equal"
  | noSuchAttribute => "no_such_attribute"

/-- A step of the path to a faulty part. -/
inductive PathStep where
  | name (s : String)
  | index (n : Int)
deriving DecidableEq, Repr

/-- The step to the entry under a key: whole numbers and truth values count as indices. -/
def PathStep.ofKey : Value → PathStep
  | .str s => name s
  | .int n => index n
  | .bool b => index b.toInt
  | .unpaired t => name t.shown
  | v => name v.display

/-- A fault at a place. -/
structure Fault where
  kind : FaultKind
  path : List PathStep
deriving DecidableEq, Repr

/-- The fault seen from one step further out. -/
def Fault.under (f : Fault) (step : PathStep) : Fault :=
  { f with path := step :: f.path }

end PagePlan
