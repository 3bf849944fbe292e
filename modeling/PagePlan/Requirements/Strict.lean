/-
# Strict schemas

A provider that checks its answers against a schema wants it strict: every object closed and with
all its properties required, and none of the keywords that such checks do not know.  The names of
properties are not keywords and are all kept.
-/
import PagePlan.Value.Basic

namespace PagePlan.Schema

/-- The keywords that a strict schema leaves out. -/
def droppedKeywords : List String :=
  ["title", "default", "minLength", "maxLength", "pattern", "format"]

/-- Whether a key is a keyword that is left out. -/
def isDropped (k : Value) : Bool :=
  droppedKeywords.any fun keyword => k.sameKey (.str keyword)

/-- Closes an object schema and requires all its properties. -/
def close (es : Entries) : Entries :=
  match es.get? "type", es.get? "properties" with
  | some (.str "object"), some (.dict properties) =>
    (es.insert "additionalProperties" (.bool false)).insert "required"
      (.list (properties.map Prod.fst))
  | _, _ => es

mutual

/-- The strict form of a schema. -/
def strict : Value → Value
  | .dict es => .dict (close (strictEntries es))
  | .list xs => .list (strictItems xs)
  | v => v

/-- The strict forms of items. -/
def strictItems : List Value → List Value
  | [] => []
  | x :: xs => strict x :: strictItems xs

/-- The strict forms of a schema's entries. -/
def strictEntries : List (Value × Value) → Entries
  | [] => []
  | (k, v) :: es =>
    if isDropped k then strictEntries es
    else if k.sameKey (.str "properties") then (k, strictSection v) :: strictEntries es
    else (k, strict v) :: strictEntries es

/-- The strict form of the section of properties. -/
def strictSection : Value → Value
  | .dict properties => .dict (strictProperties properties)
  | .list xs => .list (strictItems xs)
  | v => v

/-- The strict forms of the schemas under names. -/
def strictProperties : List (Value × Value) → Entries
  | [] => []
  | (name, v) :: rest => (name, strict v) :: strictProperties rest

end

end PagePlan.Schema
