/-
# Records

What a caller wants is a record: named fields with types, some of them required and the others
with a default.  A record has a JSON schema of its own, free of references.
-/
import PagePlan.Failure
import PagePlan.Requirements.Strict

namespace PagePlan

/-- What is known of a field besides its name and type. -/
structure FieldNote where
  required : Bool
  /-- The value of a field that is missing and not required. -/
  default : Value
  description : Option Value

/-- The type of a field. -/
inductive DataType where
  | string
  | integer
  | number
  | boolean
  | null
  /-- A mapping with any content. -/
  | mapping
  /-- A list of anything. -/
  | anyList
  | list (item : DataType)
  /-- A value of a type, or null. -/
  | optional (inner : DataType)
  /-- A nested record; a closed one refuses other keys. -/
  | record (name : String) (closed : Bool) (fields : List (String × DataType × FieldNote))
  /-- The record at the top again. -/
  | enclosing

/-- A record. -/
structure Record where
  name : String
  /-- Whether keys other than the fields are refused. -/
  closed : Bool
  fields : List (String × DataType × FieldNote)

namespace DataType

/-- A type or null; what allows null already is kept. -/
def orNull : DataType → DataType
  | null => null
  | optional t => optional t
  | t => optional t

/-- The heading of a field in a schema. -/
def heading (name : String) : String :=
  match name.toList with
  | [] => ""
  | c :: rest => String.ofList (c.toUpper :: rest)

/-- The names of the required fields, as a schema lists them. -/
def requiredNames (fields : List (String × DataType × FieldNote)) : List Value :=
  fields.filterMap fun (name, _, note) => if note.required then some (.str name) else none

/-- The schema of a record from the schemas of its fields. -/
def recordSchema (name : String) (closed : Bool) (required : List Value) (properties : Entries) :
    Entries :=
  (if closed then [(Value.str "additionalProperties", Value.bool false)] else []) ++
    [(.str "properties", .dict properties)] ++
    (if required.isEmpty then [] else [(.str "required", .list required)]) ++
    [(.str "title", .str name), (.str "type", .str "object")]

/-- Adds what is known of a field to the schema of its type. -/
def withNote (name : String) (note : FieldNote) (typeName : String) (es : Entries) : Entries :=
  let defaulted := if note.required then [] else [(Value.str "default", note.default)]
  let described := (note.description.map fun d => [(Value.str "description", d)]).getD []
  let titled := if typeName = "record" then [] else [(Value.str "title", Value.str (heading name))]
  let isBefore (e : Value × Value) := e.1.sameKey (.str "anyOf")
  let isItems (e : Value × Value) := e.1.sameKey (.str "items")
  let before := es.filter isBefore
  let items := es.filter isItems
  let others := es.filter fun e => !isBefore e && !isItems e
  before ++ defaulted ++ described ++ items ++ titled ++ others

/-- Whether a type is a record itself. -/
def shape : DataType → String
  | record .. => "record"
  | enclosing => "record"
  | _ => "other"

mutual

/-- The schema of a type; none where the record at the top contains itself. -/
def schema? : DataType → Option Entries
  | string => some [(.str "type", .str "string")]
  | integer => some [(.str "type", .str "integer")]
  | number => some [(.str "type", .str "number")]
  | boolean => some [(.str "type", .str "boolean")]
  | null => some [(.str "type", .str "null")]
  | mapping => some [(.str "additionalProperties", .bool true), (.str "type", .str "object")]
  | anyList => some [(.str "items", .dict []), (.str "type", .str "array")]
  | list item => do
    let es ← schema? item
    return [(.str "items", .dict es), (.str "type", .str "array")]
  | optional inner => do
    let es ← schema? inner
    return [(.str "anyOf", .list [.dict es, .dict [(.str "type", .str "null")]])]
  | record name closed fields => do
    let properties ← properties? fields
    return recordSchema name closed (requiredNames fields) properties
  | enclosing => none

/-- The schemas of fields under their names. -/
def properties? : List (String × DataType × FieldNote) → Option Entries
  | [] => some []
  | (name, t, note) :: rest => do
    let es ← schema? t
    let others ← properties? rest
    return (.str name, .dict (withNote name note t.shape es)) :: others

end

end DataType

namespace Record

/-- A record as a type. -/
def toType (r : Record) : DataType := .record r.name r.closed r.fields

/-- The schema of a record; one that contains itself has none without references. -/
def schema (r : Record) : Except Failure Value :=
  match r.toType.schema? with
  | some es => .ok (.dict es)
  | none => .error (.requirements (.recursiveReference (Text.letters ("#/$defs/" ++ r.name).toList)))

/-- The strict schema of a record. -/
def strictSchema (r : Record) : Except Failure Value :=
  r.schema.map Schema.strict

end Record

namespace DataType

mutual

/-- A type as data, for display. -/
def toValue : DataType → Value
  | string => .str "str"
  | integer => .str "int"
  | number => .str "float"
  | boolean => .str "bool"
  | null => .str "null"
  | mapping => .str "dict"
  | anyList => .str "list"
  | list item => .record [("list", toValue item)]
  | optional inner => .record [("union", .list [toValue inner, .str "null"])]
  | record name _ fields => .record [("model", .str name), ("fields", .list (fieldValues fields))]
  | enclosing => .str "self"

/-- Fields as data, for display. -/
def fieldValues : List (String × DataType × FieldNote) → List Value
  | [] => []
  | (name, t, note) :: rest =>
    .record [("name", .str name), ("type", toValue t), ("required", .bool note.required),
      ("default", if note.required then .null else note.default),
      ("description", note.description.getD .null)] :: fieldValues rest

end

end DataType

end PagePlan
