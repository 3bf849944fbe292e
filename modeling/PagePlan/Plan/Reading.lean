/-
# Reading plans

A saved plan is a mapping of field names to definitions.  Keys have canonical names and aliases,
and a definition without a declared type is recognised by the keys it has.  A definition that
fits nothing is kept as malformed, so that one bad field never costs the others.

A plan read from a text or from bytes goes through JSON first; its keys are turned into texts, so
that all that is left to check is that the top level is a mapping.
-/
import PagePlan.Plan.Basic
import PagePlan.Run
import PagePlan.Text.Encoding

namespace PagePlan

namespace Value

mutual

/-- Turns every key at every depth into its text, and tuples into lists.  Where two keys have one
text, the entry keeps the first place and the last value. -/
def stringifyKeys : Value → Value
  | dict es => dict (stringifyEntries [] es)
  | list xs => list (stringifyItems xs)
  | tuple xs => list (stringifyItems xs)
  | v => v

/-- `stringifyKeys` for the items of a sequence. -/
def stringifyItems : List Value → List Value
  | [] => []
  | x :: xs => stringifyKeys x :: stringifyItems xs

/-- `stringifyKeys` for entries, which are added to those before. -/
def stringifyEntries (before : Entries) : List (Value × Value) → Entries
  | [] => before
  | (k, v) :: es => stringifyEntries (before.set k.asKey (stringifyKeys v)) es

end

end Value

namespace Field

/-- The keys of a query. -/
def xpathKeys : List String := ["xpath", "path_query"]

/-- The keys of a container. -/
def containerKeys : List String := ["container_xpath", "container_path_query"]

/-- The keys of a context. -/
def contextKeys : List String := ["context_xpath", "context_path_query"]

/-- The keys of nested fields. -/
def propertiesKeys : List String := ["properties", "fields"]

/-- The declared type of a definition: text where it is not declared or declared by no text. -/
def declaredType (es : Entries) : ValueType :=
  match es.get? "type" with
  | some (.str name) => if name = "" then .string else .ofName name
  | _ => .string

/-- The faults of named parts that are texts with half of a surrogate pair in them. -/
def halfFaults (parts : List (String × Option Value)) : List Fault :=
  parts.filterMap fun (part, v) =>
    match v with
    | some (.unpaired _) => some ⟨.stringUnicode, [.name part]⟩
    | _ => none

/-- Goes on unless there are faults. -/
def refuse : List Fault → Except (List Fault) Unit
  | [] => .ok ()
  | faults => .error faults

/-- A scalar with a given query; none where the query is no text. -/
def readPrimitive (es : Entries) (xpath : Option Value) :
    Except (List Fault) (Option Primitive) :=
  if xpath.any Value.isText then do
    refuse (halfFaults [("xpath", xpath), ("value_type", es.get? "type"),
      ("transform", es.get? "transform")])
    return (xpath >>= Value.str?).map fun query =>
      ⟨query, declaredType es, es.get? "transform" >>= Value.str?⟩
  else .ok none

/-- How the items of an array are given. -/
inductive ItemsKey where
  | itemFields
  | item
  | items
deriving DecidableEq

/-- The items of an array definition: the most specific key that is present counts. -/
def itemsOf (es : Entries) : Option Value × ItemsKey :=
  match es.get? "item_fields" with
  | some v => (some v, .itemFields)
  | none =>
    match es.get? "item" with
    | some v => (some v, .item)
    | none => (es.get? "items", .items)

theorem sizeOf_lt_of_itemsOf {es : Entries} {v : Value} {key : ItemsKey}
    (h : itemsOf es = (some v, key)) : sizeOf v < sizeOf es := by
  rw [itemsOf] at h
  split at h
  · next w hw =>
    simp only [Prod.mk.injEq, Option.some.injEq] at h
    exact h.1 ▸ Entries.sizeOf_lt_of_get? hw
  · split at h
    · next w hw =>
      simp only [Prod.mk.injEq, Option.some.injEq] at h
      exact h.1 ▸ Entries.sizeOf_lt_of_get? hw
    · simp only [Prod.mk.injEq] at h
      exact Entries.sizeOf_lt_of_get? h.1

/-- Whether an item definition is a scalar: it is declared as one, or it has a query. -/
def isScalarItem (key : ItemsKey) (xpath : Option Value) : Bool :=
  key = .item || (key = .items && xpath.isSome)

/-- The faults of field names that are no texts. -/
def nameFaults (part : String) (fields : List (Value × Field)) : List Fault :=
  fields.filterMap fun (k, _) =>
    match k with
    | .str _ => none
    | .unpaired _ => some ⟨.stringUnicode, [.name part, .ofKey k, .name "[key]"]⟩
    | k => some ⟨.stringType, [.name part, .ofKey k, .name "[key]"]⟩

/-- Fields under their names; refused where a name is no string, or for faults found before. -/
def named (part : String) (before : List Fault) (fields : List (Value × Field)) :
    Except (List Fault) (List (String × Field)) := do
  refuse (before ++ nameFaults part fields)
  return fields.filterMap fun (k, f) => k.str?.map fun name => (name, f)

mutual

/-- Reads one definition. -/
def read (v : Value) : Except (List Fault) Field :=
  match v with
  | .dict es =>
    match Entries.get? es "type" with
    | some (.str "array") => readArray es
    | some (.str "object") => readObject es
    | _ =>
      match Entries.firstPresent? es xpathKeys with
      | some xpath => do
        return (← readPrimitive es (some xpath)).elim (.malformed (.dict es)) .primitive
      | none =>
        if (Entries.firstPresent? es containerKeys).isSome then readArray es
        else if (Entries.firstPresent? es propertiesKeys).isSome then readObject es
        else .ok (.malformed (.dict es))
  | v => .ok (.malformed v)
termination_by (sizeOf v, 0)

/-- Reads the definition of a nested record. -/
def readObject (es : Entries) : Except (List Fault) Field :=
  match h : es.firstPresent? propertiesKeys with
  | some (.dict properties) =>
    have := Entries.sizeOf_lt_of_firstPresent? h
    let context := es.firstPresent? contextKeys
    if context.all Value.isText then do
      let fields ← readFields properties
      return .object (context >>= Value.str?)
        (← named "fields" (halfFaults [("context_xpath", context)]) fields)
    else .ok (.malformed (.dict es))
  | _ => .ok (.malformed (.dict es))
termination_by (sizeOf es, 1)
decreasing_by
  all_goals
    simp only [Value.dict.sizeOf_spec] at this
    exact Prod.Lex.left _ _ (by omega)

/-- Reads the definition of an array. -/
def readArray (es : Entries) : Except (List Fault) Field :=
  match es.firstPresent? containerKeys, h : itemsOf es with
  | none, _ => .ok .emptyArray
  | _, (none, _) => .ok .emptyArray
  | _, (some .null, _) => .ok .emptyArray
  | some container, (some (.dict items), key) =>
    have := sizeOf_lt_of_itemsOf h
    let xpath := Entries.firstPresent? items xpathKeys
    let faults := halfFaults [("container_xpath", some container)]
    if !container.isText then .ok (.malformed (.dict es))
    else if isScalarItem key xpath then do
      match ← readPrimitive items xpath with
      | none => return .malformed (.dict es)
      | some item => do
        refuse faults
        return .primitiveArray container.asText item
    else do
      let fields ← readFields items
      return .objectArray container.asText (← named "item_fields" faults fields)
  | _, _ => .ok (.malformed (.dict es))
termination_by (sizeOf es, 1)
decreasing_by
  simp only [Value.dict.sizeOf_spec] at this
  exact Prod.Lex.left _ _ (by omega)

/-- Reads the definitions under the keys of a mapping. -/
def readFields (es : Entries) : Except (List Fault) (List (Value × Field)) :=
  match es with
  | [] => .ok []
  | (k, v) :: rest => do
    let f ← read v
    let fs ← readFields rest
    return (k, f) :: fs
termination_by (sizeOf es, 0)
decreasing_by
  · apply Prod.Lex.left; simp only [List.cons.sizeOf_spec, Prod.mk.sizeOf_spec]; omega
  · apply Prod.Lex.left; simp only [List.cons.sizeOf_spec, Prod.mk.sizeOf_spec]; omega

end

end Field

/-- What a plan is read from. -/
inductive PlanSource where
  /-- A value; a text is read as JSON. -/
  | value (v : Value)
  /-- The bytes of a JSON document. -/
  | bytes (bs : List UInt8)

namespace PlanSource

/-- The value that a text holds, a failure to read it being one of the plan. -/
def readText (s : List Text.Letter) : Except Failure Value :=
  match Json.readLetters s with
  | .ok v => .ok v
  | .error (.syntaxError e) => .error (.plan (.notJson e))
  | .error (.tooManyDigits count) => .error (.tooManyDigits count)

/-- The value of a plan source. -/
def read : PlanSource → Except Failure Value
  | .value (.str s) => readText (Text.letters s.toList)
  | .value (.unpaired t) => readText t.letters
  | .value v => .ok v
  | .bytes bs =>
    match Text.ofJsonBytes? bs with
    | some s => readText s
    | none => .error .undecodable

end PlanSource

namespace Plan

/-- The plan that a mapping holds. -/
def ofValue (v : Value) : Except Failure Plan :=
  match v.stringifyKeys with
  | .dict es =>
    match Field.readFields es >>= Field.named "fields" [] with
    | .ok fields => .ok ⟨fields⟩
    | .error faults => .error (.invalid faults)
  | _ => .error (.plan (.notMapping v.kindName))

/-- The names of the fields that could not be understood. -/
def malformedNames (p : Plan) : List String :=
  (p.fields.filter fun f => f.2.isMalformed).map Prod.fst

/-- Reads a plan and notes the fields that will always be null. -/
def read (source : PlanSource) : Run Plan := do
  let v ← Run.ofExcept (source.read)
  let p ← Run.ofExcept (ofValue v)
  match p.malformedNames with
  | [] => return p
  | names => do
    Run.log .debug "extraction.schema_utils"
      ("Top-level fields with malformed definitions will extract as null: " ++
        Value.displayNames names)
    return p

end Plan

end PagePlan
