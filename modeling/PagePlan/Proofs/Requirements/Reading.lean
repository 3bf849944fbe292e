/-
# What is read from a schema

The reader of requirements makes one type of a schema.  What that type is depends on a few keywords,
in this order: alternatives, an enumeration, then the type itself with what belongs to it.  The
cases are told apart here once (`Schema.Reads`), for a schema and for its properties.

* `Schema.reads_of_typeOf` — a type that is read from a schema is read in one of these cases;
* `Schema.fields_of_fieldsOf` — the fields of a record are the properties of its schema, in their
  order.
-/
import PagePlan.Proofs.Requirements.Forms

namespace PagePlan

namespace Schema

/-- What the reader makes of a schema, by the keywords that decide. -/
inductive Reads (es : Entries) (name : String) : DataType → Prop where
  /-- One alternative beside null. -/
  | optional {variants : List Value} {inner : Value} {t : DataType}
      (hvariants : es.get? "anyOf" = some (.list variants)) (hinner : inner ∈ variants)
      (hothers : ∀ s ∈ variants, s = inner ∨ isNullSchema s = .ok true)
      (hread : typeOf inner name = .ok t) : Reads es name t.orNull
  /-- An enumeration, of texts whatever it lists. -/
  | enumeration (hvariants : es.get? "anyOf" = none) (henum : es.has "enum" = true) :
      Reads es name .string
  | record {fields : List (String × DataType × FieldNote)}
      (hvariants : es.get? "anyOf" = none) (henum : es.has "enum" = false)
      (htype : es.get? "type" = some (.str "object"))
      (hproperties : hasSection es "properties" = true)
      (hfields : fieldsOf es name = .ok fields) : Reads es name (.record name true fields)
  | mapping (hvariants : es.get? "anyOf" = none) (henum : es.has "enum" = false)
      (htype : es.get? "type" = some (.str "object"))
      (hproperties : hasSection es "properties" = false) : Reads es name .mapping
  | list {items : Value} {t : DataType} (hvariants : es.get? "anyOf" = none)
      (henum : es.has "enum" = false) (htype : es.get? "type" = some (.str "array"))
      (hitems : es.get? "items" = some items) (htruthy : items.truthy = true)
      (hread : typeOf items (name ++ "_item") = .ok t) : Reads es name (.list t)
  | anyList (hvariants : es.get? "anyOf" = none) (henum : es.has "enum" = false)
      (htype : es.get? "type" = some (.str "array")) (hitems : hasSection es "items" = false) :
      Reads es name .anyList
  /-- A type without parts; beside these alone it may be said that null is allowed. -/
  | primitive {base : DataType} (hvariants : es.get? "anyOf" = none)
      (henum : es.has "enum" = false) (hobject : es.get? "type" ≠ some (.str "object"))
      (harray : es.get? "type" ≠ some (.str "array"))
      (hbase : primitiveType (es.get? "type") = .ok base) :
      Reads es name (if hasSection es "nullable" then base.orNull else base)

/-- Of two alternatives one is read, and the other is null. -/
theorem variants_of_optionalOf? {v inner : Value} (h : optionalOf? v = .ok (some inner)) :
    ∃ variants, v = .list variants ∧ inner ∈ variants ∧
      ∀ s ∈ variants, s = inner ∨ isNullSchema s = .ok true := by
  rcases optionalOf?_eq_some_iff.1 h with ⟨-, hother⟩ | ⟨-, hother⟩
  · exact ⟨_, rfl, by simp, by simp [hother]⟩
  · exact ⟨_, rfl, by simp, by simp [hother]⟩

theorem reads_of_typeOf {v : Value} {name : String} {t : DataType} (h : typeOf v name = .ok t) :
    ∃ es, v = .dict es ∧ Reads es name t := by
  cases v with
  | dict es =>
    refine ⟨es, rfl, ?_⟩
    rw [typeOf] at h
    obtain ⟨-, -, h⟩ := except_bind_eq_ok.1 h
    split at h
    · next variants hvariants =>
      split at h
      · cases h
      · cases h
      · next inner hinner =>
        obtain ⟨variants, rfl, hmem, hothers⟩ := variants_of_optionalOf? hinner
        obtain ⟨t', hread, h⟩ := except_bind_eq_ok.1 h
        obtain rfl := Except.ok.inj h
        exact .optional hvariants hmem hothers hread
    · next hvariants =>
      split at h
      · next henum =>
        obtain rfl := Except.ok.inj h
        exact .enumeration hvariants henum
      · next henum =>
        rw [Bool.not_eq_true] at henum
        split at h
        · next htype =>
          split at h
          · next hproperties =>
            obtain ⟨fields, hfields, h⟩ := except_bind_eq_ok.1 h
            obtain rfl := Except.ok.inj h
            exact .record hvariants henum htype hproperties hfields
          · next hproperties =>
            obtain rfl := Except.ok.inj h
            exact .mapping hvariants henum htype (by simpa using hproperties)
        · next htype =>
          split at h
          · next items hitems =>
            split at h
            · next htruthy =>
              obtain ⟨t', hread, h⟩ := except_bind_eq_ok.1 h
              obtain rfl := Except.ok.inj h
              exact .list hvariants henum htype hitems htruthy hread
            · next htruthy =>
              obtain rfl := Except.ok.inj h
              exact .anyList hvariants henum htype (by simpa [hasSection, hitems] using htruthy)
          · next hitems =>
            obtain rfl := Except.ok.inj h
            exact .anyList hvariants henum htype (by simp [hasSection, hitems])
        · next hobject harray =>
          obtain ⟨base, hbase, h⟩ := except_bind_eq_ok.1 h
          obtain rfl := Except.ok.inj h
          exact .primitive hvariants henum hobject harray hbase
  | _ =>
    rw [typeOf] at h
    · obtain ⟨-, -, h⟩ := except_bind_eq_ok.1 h
      cases h
    · simp

/-! ### Fields -/

/-- The value that a property declares for where it is missing. -/
def declaredDefault (property : Value) : Value :=
  (Entries.get? (property.dict?.getD []) "default").getD .null

/-- A field that is made of a property: where it is not required, it may be null. -/
structure IsFieldOf (required : List Value) (p : Value × Value)
    (field : String × DataType × FieldNote) : Prop where
  key : p.1 = .str field.1
  required_eq : field.2.2.required = required.any fun name => name.sameKey p.1
  default_eq : field.2.2.default = declaredDefault p.2
  read : ∃ name t, typeOf p.2 name = .ok t ∧
    field.2.1 = if field.2.2.required then t else t.orNull

theorem nameField_eq_ok {f : Value × DataType × FieldNote} {field : String × DataType × FieldNote}
    (h : nameField f = .ok field) : f.1 = .str field.1 ∧ f.2 = field.2 := by
  obtain ⟨k, t, note⟩ := f
  cases k with
  | str name =>
    obtain rfl := Except.ok.inj h
    exact ⟨rfl, rfl⟩
  | _ => cases h

/-- Properties become fields one by one. -/
theorem forall₂_of_fieldsIn {properties : Entries} {required : List Value} {name : String}
    {raw : List (Value × DataType × FieldNote)} {fields : List (String × DataType × FieldNote)}
    (hraw : fieldsIn properties required name = .ok raw)
    (hfields : raw.mapM nameField = .ok fields) :
    List.Forall₂ (IsFieldOf required) properties fields := by
  induction properties generalizing raw fields with
  | nil =>
    rw [fieldsIn] at hraw
    obtain rfl := Except.ok.inj hraw
    obtain rfl := Except.ok.inj hfields
    exact .nil
  | cons p properties ih =>
    obtain ⟨k, v⟩ := p
    rw [fieldsIn] at hraw
    obtain ⟨t, hread, hraw⟩ := except_bind_eq_ok.1 hraw
    obtain ⟨others, hothers, hraw⟩ := except_bind_eq_ok.1 hraw
    obtain rfl := Except.ok.inj hraw
    rw [List.mapM_cons] at hfields
    obtain ⟨field, hfield, hfields⟩ := except_bind_eq_ok.1 hfields
    obtain ⟨rest, hrest, hfields⟩ := except_bind_eq_ok.1 hfields
    obtain rfl := Except.ok.inj hfields
    obtain ⟨hkey, hrest'⟩ := nameField_eq_ok hfield
    refine .cons ⟨hkey, ?_, ?_, _, t, hread, ?_⟩ (ih hothers hrest)
    · rw [← hrest']
    · rw [← hrest', declaredDefault]
    · rw [← hrest']

/-- The fields of a record are the properties of its schema. -/
theorem fields_of_fieldsOf {es : Entries} {name : String}
    {fields : List (String × DataType × FieldNote)} (h : fieldsOf es name = .ok fields)
    (hsection : hasSection es "properties" = true) :
    ∃ properties required, es.get? "properties" = some (.dict properties) ∧
      requiredSet es = .ok required ∧ List.Forall₂ (IsFieldOf required) properties fields := by
  rw [fieldsOf] at h
  obtain ⟨-, -, h⟩ := except_bind_eq_ok.1 h
  obtain ⟨required, hrequired, h⟩ := except_bind_eq_ok.1 h
  split at h
  · next hnone => simp [hasSection, hnone] at hsection
  · next properties hproperties =>
    refine ⟨properties, required, hproperties, hrequired, ?_⟩
    obtain ⟨raw, hraw, h⟩ := except_bind_eq_ok.1 h
    rw [namedFields] at h
    obtain ⟨named, hnamed, h⟩ := except_bind_eq_ok.1 h
    split at h
    · cases h
    · split at h
      · cases h
      · obtain rfl := Except.ok.inj h
        exact forall₂_of_fieldsIn hraw hnamed
  · cases h

end Schema

end PagePlan
