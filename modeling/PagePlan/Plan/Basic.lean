/-
# Extraction plans

A plan says, field by field, where the data of a page stand.  A field is a scalar read from the
current context, a nested record, an array of scalars or of records with one item for each match
of its container, an array that is always empty, or a definition that could not be understood.
-/
import PagePlan.Value.Basic

namespace PagePlan

/-- The declared type of a scalar. -/
inductive ValueType where
  | string
  | integer
  | number
  | boolean
  /-- Any other declared type: the text is kept as it is. -/
  | other (name : String)
deriving DecidableEq, Repr

namespace ValueType

/-- The type that a name declares. -/
def ofName (name : String) : ValueType :=
  if name = "string" then string
  else if name = "integer" then integer
  else if name = "number" || name = "float" then number
  else if name = "boolean" then boolean
  else other name

/-- The name of a type in a plan. -/
def name : ValueType → String
  | string => "string"
  | integer => "integer"
  | number => "number"
  | boolean => "boolean"
  | other name => name

end ValueType

/-- A scalar read with one query. -/
structure Primitive where
  xpath : String
  type : ValueType
  /-- A note for readers of the plan; it does not change what is extracted. -/
  transform : Option String
deriving DecidableEq, Repr

/-- The definition of a field. -/
inductive Field where
  | primitive (p : Primitive)
  /-- A nested record, read where `context` matches if it is given. -/
  | object (context : Option String) (fields : List (String × Field))
  | primitiveArray (container : String) (item : Primitive)
  | objectArray (container : String) (fields : List (String × Field))
  /-- An array without a container or without items. -/
  | emptyArray
  /-- A definition that is not shaped like any field. -/
  | malformed (raw : Value)
deriving Inhabited

/-- Whether a definition could not be understood. -/
def Field.isMalformed : Field → Bool
  | malformed _ => true
  | _ => false

/-- A plan: the fields of a page. -/
structure Plan where
  fields : List (String × Field)
deriving Inhabited

namespace Field

/-- A scalar as data. -/
def primitiveToValue (p : Primitive) : Value :=
  .record [("kind", .str "primitive"), ("xpath", .str p.xpath), ("value_type", .str p.type.name),
    ("transform", (p.transform.map Value.str).getD .null)]

mutual

/-- A field as data, its kind first. -/
def toValue : Field → Value
  | primitive p => primitiveToValue p
  | object context fields =>
    .record [("kind", .str "object"), ("context_xpath", (context.map Value.str).getD .null),
      ("fields", .dict (fieldsToEntries fields))]
  | primitiveArray container item =>
    .record [("kind", .str "primitive_array"), ("container_xpath", .str container),
      ("item", primitiveToValue item)]
  | objectArray container fields =>
    .record [("kind", .str "object_array"), ("container_xpath", .str container),
      ("item_fields", .dict (fieldsToEntries fields))]
  | emptyArray => .record [("kind", .str "empty_array")]
  | malformed raw => .record [("kind", .str "malformed"), ("raw", raw)]

/-- Fields as the entries of a mapping. -/
def fieldsToEntries : List (String × Field) → List (Value × Value)
  | [] => []
  | (name, f) :: rest => (.str name, toValue f) :: fieldsToEntries rest

end

end Field

/-- A plan as data. -/
def Plan.toValue (p : Plan) : Value :=
  .record [("fields", .dict (Field.fieldsToEntries p.fields))]

end PagePlan
