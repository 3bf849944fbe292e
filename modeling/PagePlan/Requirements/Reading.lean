/-
# Reading requirements

Requirements are a record or a JSON schema of one.  A schema is first freed of its references;
then its properties become the fields of a record, nested objects nested records.  Only optional
alternatives are understood, and schemas that combine others are refused.  A field that is not
required may be null and has a default.
-/
import PagePlan.Requirements.Record
import PagePlan.Requirements.Reference
import PagePlan.Run

namespace PagePlan

/-- What a caller wants. -/
inductive Requirements where
  /-- A JSON schema, or what should be one. -/
  | document (v : Value)
  | record (r : Record)

namespace Schema

/-- The keywords of schemas that combine others. -/
def unsupportedKeywords : List String :=
  ["allOf", "oneOf", "not", "if", "then", "else", "dependentSchemas", "dependentRequired"]

/-- Whether a keyword stands in a schema.  A text is searched for it and a sequence for an item;
other values have no content to look through. -/
def mentions? (v : Value) (keyword : String) : Except Failure Bool :=
  match v with
  | .dict es => .ok (Entries.has es keyword)
  | .list xs => .ok (xs.any fun x => x.sameKey (.str keyword))
  | .tuple xs => .ok (xs.any fun x => x.sameKey (.str keyword))
  | .str s => .ok (Text.contains keyword.toList s.toList)
  | .unpaired t => .ok (Text.contains (Text.letters keyword.toList) t.letters)
  | _ => .error .wrongKind

/-- Refuses a schema that combines others. -/
def refuseUnsupported (v : Value) : List String → Except Failure Unit
  | [] => .ok ()
  | keyword :: rest => do
    if ← mentions? v keyword then .error (.requirements (.unsupportedKeyword keyword))
    else refuseUnsupported v rest

/-- Whether an alternative is the null schema; only a mapping can be asked. -/
def isNullSchema : Value → Except Failure Bool
  | .dict es => .ok ((Entries.get? es "type").elim false (·.sameKey (.str "null")))
  | _ => .error .noEntries

/-- The alternatives other than the null schema. -/
def nonNull : List Value → Except Failure (List Value)
  | [] => .ok []
  | v :: rest => do
    let null ← isNullSchema v
    let others ← nonNull rest
    return if null then others else v :: others

theorem mem_of_nonNull {variants found : List Value} (h : nonNull variants = .ok found) :
    ∀ v ∈ found, v ∈ variants := by
  induction variants generalizing found with
  | nil =>
    simp only [nonNull, Except.ok.injEq] at h
    simp [← h]
  | cons x xs ih =>
    simp only [nonNull, bind, Except.bind] at h
    split at h
    · simp at h
    · next b _ =>
      split at h
      · simp at h
      · next others hothers =>
        have hsub := ih hothers
        simp only [pure, Except.pure, Except.ok.injEq] at h
        subst h
        intro v hv
        cases b
        · simp only [Bool.false_eq_true, if_false, List.mem_cons] at hv
          exact hv.elim (fun e => e ▸ List.mem_cons_self)
            fun m => List.mem_cons_of_mem _ (hsub v m)
        · exact List.mem_cons_of_mem _ (hsub v (by simpa using hv))

/-- The one alternative beside null, if the alternatives are these two. -/
def optionalOf? : Value → Except Failure (Option Value)
  | .list variants =>
    match nonNull variants with
    | .error e => .error e
    | .ok [inner] => .ok (if variants.length = 2 then some inner else none)
    | .ok _ => .ok none
  | _ => .ok none

theorem sizeOf_lt_of_optionalOf? {v inner : Value} (h : optionalOf? v = .ok (some inner)) :
    sizeOf inner < sizeOf v := by
  unfold optionalOf? at h
  split at h
  · next variants =>
    split at h
    · simp at h
    · next x hn =>
      split at h
      · simp only [Except.ok.injEq, Option.some.injEq] at h
        subst h
        have := List.sizeOf_lt_of_mem (mem_of_nonNull hn x (by simp))
        simp only [Value.list.sizeOf_spec]
        omega
      · simp at h
    · simp at h
  · simp at h

/-- The type that a primitive type name stands for; any other name stands for a text. -/
def primitiveType : Option Value → Except Failure DataType
  | some (.str "number") => .ok .number
  | some (.str "integer") => .ok .integer
  | some (.str "boolean") => .ok .boolean
  | some (.str "null") => .ok .null
  | some (.list _) => .error .wrongKind
  | some (.dict _) => .error .wrongKind
  | _ => .ok .string

/-- Whether a value can be a member of a set. -/
def isHashable : Value → Bool
  | .list _ => false
  | .dict _ => false
  | .tuple xs => xs.all fun
    | .list _ => false
    | .dict _ => false
    | _ => true
  | _ => true

/-- The names that a schema requires. -/
def requiredSet (es : Entries) : Except Failure (List Value) :=
  let ofItems (xs : List Value) :=
    if xs.all isHashable then Except.ok xs else .error Failure.wrongKind
  match es.get? "required" with
  | none => .ok []
  | some (.list xs) => ofItems xs
  | some (.tuple xs) => ofItems xs
  | some (.dict entries) => .ok (entries.map Prod.fst)
  | some v =>
    match v.letters? with
    | some s => .ok (s.map fun l => .ofLetters [l])
    | none => .error .wrongKind

/-- Whether a section is there and not empty. -/
def hasSection (es : Entries) (key : String) : Bool :=
  (es.get? key).elim false Value.truthy

/-- The names that stand for parts of a record itself and cannot be those of fields. -/
def reservedNames : List String := ["model_config", "__base__"]

/-- A field under its name, which has to be a text. -/
def nameField : Value × DataType × FieldNote → Except Failure (String × DataType × FieldNote)
  | (.str name, t, note) => .ok (name, t, note)
  | (.unpaired _, _, _) => .error .unspellable
  | _ => .error .wrongKind

/-- The fields of a record under their names.  A name has to be a text that is not reserved, and
the names that start with an underscore are kept free. -/
def namedFields (fields : List (Value × DataType × FieldNote)) :
    Except Failure (List (String × DataType × FieldNote)) := do
  let named ← fields.mapM nameField
  if named.any fun f => reservedNames.contains f.1 then .error .wrongKind
  else if named.any fun f => f.1.startsWith "_" then .error .refusedName
  else return named

mutual

/-- The type that a schema describes; `name` is the name for a record. -/
def typeOf (v : Value) (name : String) : Except Failure DataType := do
  refuseUnsupported v unsupportedKeywords
  match v with
  | .dict es =>
    match h : Entries.get? es "anyOf" with
    | some variants =>
      have := Entries.sizeOf_lt_of_get? h
      match h' : optionalOf? variants with
      | .error e => .error e
      | .ok none => .error (.requirements .unsupportedAlternatives)
      | .ok (some inner) =>
        have := sizeOf_lt_of_optionalOf? h'
        return (← typeOf inner name).orNull
    | none =>
      if Entries.has es "enum" then return .string
      match Entries.get? es "type" with
      | some (.str "object") =>
        if hasSection es "properties" then
          return .record name true (← fieldsOf es name)
        else return .mapping
      | some (.str "array") =>
        match h : Entries.get? es "items" with
        | some items =>
          have := Entries.sizeOf_lt_of_get? h
          if items.truthy then return .list (← typeOf items (name ++ "_item"))
          else return .anyList
        | none => return .anyList
      | other =>
        let base ← primitiveType other
        return if hasSection es "nullable" then base.orNull else base
  | _ => .error .noEntries
termination_by (sizeOf v, 0)
decreasing_by
  all_goals simp only [Value.dict.sizeOf_spec]; exact Prod.Lex.left _ _ (by omega)

/-- The fields of the record that an object schema describes. -/
def fieldsOf (es : Entries) (name : String) :
    Except Failure (List (String × DataType × FieldNote)) := do
  refuseUnsupported (.dict es) unsupportedKeywords
  let required ← requiredSet es
  match h : es.get? "properties" with
  | none => return []
  | some (.dict properties) =>
    have := Entries.sizeOf_lt_of_get? h
    namedFields (← fieldsIn properties required name)
  | some _ => .error .noEntries
termination_by (sizeOf es, 1)
decreasing_by
  simp only [Value.dict.sizeOf_spec] at this; exact Prod.Lex.left _ _ (by omega)

/-- The fields that properties describe. -/
def fieldsIn (properties : Entries) (required : List Value) (name : String) :
    Except Failure (List (Value × DataType × FieldNote)) :=
  match properties with
  | [] => .ok []
  | (k, v) :: rest => do
    let t ← typeOf v (name ++ "_" ++ k.asText)
    let es := v.dict?.getD []
    let isRequired := required.any (·.sameKey k)
    let note : FieldNote := ⟨isRequired, (Entries.get? es "default").getD .null,
      (Entries.get? es "description").filter (!·.isNull)⟩
    let others ← fieldsIn rest required name
    return (k, if isRequired then t else t.orNull, note) :: others
termination_by (sizeOf properties, 0)
decreasing_by
  all_goals
    exact Prod.Lex.left _ _ (by simp only [List.cons.sizeOf_spec, Prod.mk.sizeOf_spec]; omega)

end

/-- The schema inside a document: the document itself if it has properties, else the one that it
wraps. -/
def unwrap (es : Entries) : Value :=
  if es.has "properties" then .dict es else (es.get? "schema").getD (.dict es)

end Schema

namespace Requirements

/-- The schema of requirements, without references: an object with properties. -/
def schema (r : Requirements) : Except Failure Entries := do
  let inlined ← match r with
    | .record whole => whole.schema
    | .document (.dict es) => Schema.inlineReferences (Schema.unwrap es)
    | .document v => .error (.requirements (.notRequirements v.kindName))
  match inlined with
  | .dict es =>
    let type := (Entries.get? es "type").getD (.str "object")
    if !type.sameKey (.str "object") then .error (.requirements (.notObject type.display))
    else if !Schema.hasSection es "properties" then .error (.requirements .noProperties)
    else return es
  | _ => .error .noEntries

/-- The properties that requirements ask for, as a prompt shows them. -/
def properties (r : Requirements) : Except Failure Value := do
  return ((← r.schema).get? "properties").getD .null

/-- The names of what can be listed: the keys of a mapping, the items of a sequence, the
characters of a text. -/
def listed : Value → Except Failure (List Value)
  | .dict es => .ok (es.map Prod.fst)
  | .list xs => .ok xs
  | .tuple xs => .ok xs
  | v =>
    match v.letters? with
    | some s => .ok (s.map fun l => .ofLetters [l])
    | none => .error .wrongKind

/-- The name of a record that has no title. -/
def defaultName : String := "ExtractionRequirements"

/-- The record that requirements ask for. -/
def toRecord : Requirements → Run Record
  | .record r => return r
  | r@(.document _) => do
    let es ← Run.ofExcept r.schema
    let title := (es.get? "title").getD (.str defaultName)
    let names ← Run.ofExcept (listed ((es.get? "properties").getD .null))
    Run.log .debug "generator.requirements"
      ("Building requirements model " ++ title.display ++ " with fields " ++
        (Value.list names).display)
    let fields ← Run.ofExcept (Schema.fieldsOf es title.asText)
    match title with
    | .str name => return ⟨name, true, fields⟩
    | .unpaired _ => Run.fail .unspellable
    | _ => Run.fail .wrongKind

end Requirements

end PagePlan
