/-
# The objects of a strict schema

The schema of a record is built from the types of its fields, and a path through it leads to the
schema of a part of the record: an item of a list, what is optional, a field.  Schemas of objects
are those of records and of mappings with any content.  The strict form closes the former; a mapping
has no properties that could be required, and stays open.

* `at?_of_partAt?`, `partAt?_of_at?` — paths through the schema of a type, and through the type;
* `hasMapping_of_typeOf` — where the reader makes a mapping with any content of a schema;
* `strictSchema_objects` — every object of the strict schema, and when all of them are closed.
-/
import PagePlan.Proofs.Requirements.Agreement
import PagePlan.Proofs.Requirements.Allowance
import PagePlan.Proofs.Requirements.Forms
import PagePlan.Proofs.Requirements.Strict

namespace PagePlan

namespace DataType

open Schema

/-! ### The parts of a type -/

/-- The part of a type that a step through its schema leads to. -/
def part? : DataType → Step → Option DataType
  | list item, .under .items => some item
  | optional inner, .listed .anyOf 0 => some inner
  | optional _, .listed .anyOf 1 => some null
  | record _ _ fields, .property i => fields[i]?.map fun f => f.2.1
  | _, _ => none

/-- The part of a type at the end of some steps. -/
def partAt? (t : DataType) : List Step → Option DataType
  | [] => some t
  | step :: path => t.part? step >>= fun u => u.partAt? path

/-- A value is the schema of a type, with notes on a field or without. -/
def Describes (t : DataType) (v : Value) : Prop :=
  ∃ es full : Entries, t.schema? = some es ∧ v = .dict full ∧
    ∀ key ∉ noteKeywords, full.get? key = es.get? key

/-- A schema says nothing about a type, and holds no others. -/
def IsBare (v : Value) : Prop :=
  keyword? v "type" = none ∧ ∀ step, child? v step = none

section

variable {t u : DataType} {es : Entries} {s m : Value} {step : Step} {path : List Step}

theorem describes_self (h : t.schema? = some es) : t.Describes (.dict es) :=
  ⟨es, es, h, rfl, fun _ _ => rfl⟩

theorem describes_withNote (h : t.schema? = some es) (name : String) (note : FieldNote) :
    t.Describes (.dict (withNote name note t.shape es)) :=
  ⟨es, _, h, rfl, fun _ hkey => get?_withNote hkey name note t.shape es⟩

/-- A keyword of a schema is that of the type. -/
theorem keyword?_of_describes (h : t.Describes s) (hschema : t.schema? = some es) {key : String}
    (hkey : key ∉ noteKeywords) : keyword? s key = es.get? key := by
  obtain ⟨es', full, hes', rfl, hfull⟩ := h
  cases hschema.symm.trans hes'
  exact hfull key hkey

/-- The properties of the schema of a record are the schemas of its fields. -/
theorem exists_properties {name : String} {closed : Bool}
    {fields : List (String × DataType × FieldNote)} (h : (record name closed fields).Describes s) :
    ∃ properties, properties? fields = some properties ∧
      (record name closed fields).schema? =
        some (recordSchema name closed (requiredNames fields) properties) ∧
      propertyMap? s = some properties := by
  obtain ⟨es, full, hschema, -⟩ := id h
  obtain ⟨properties, hfields, rfl⟩ := schema?_record_eq_some.1 hschema
  refine ⟨properties, hfields, hschema, ?_⟩
  rw [propertyMap?, keyword?_of_describes h hschema (by decide), get?_recordSchema_properties]
  rfl

theorem isBare_of_not_isMapping (h : ¬IsMapping s) : IsBare s := by
  cases s with
  | dict es => exact absurd ⟨es, rfl⟩ h
  | _ => exact ⟨rfl, fun step => by cases step <;> rfl⟩

theorem isBare_empty : IsBare (.dict []) :=
  ⟨rfl, fun step => by cases step <;> rfl⟩

/-- The key of the entry that a step goes into. -/
def stepKey : Step → String
  | .property _ => "properties"
  | .under k => k.key
  | .listed k _ => k.key

/-- A step through the schema of a type leads to the schema of a part, or to nothing of interest. -/
def StepDescribed (t : DataType) (s : Value) (step : Step) : Prop :=
  (∃ u m, t.part? step = some u ∧ child? s step = some m ∧ u.Describes m) ∨
    t.part? step = none ∧ ∀ m ∈ child? s step, IsBare m

theorem stepDescribed_of_none (hpart : t.part? step = none) (h : child? s step = none) :
    StepDescribed t s step := Or.inr ⟨hpart, by simp [h]⟩

/-- A step goes nowhere where its key is missing. -/
theorem stepDescribed_absent (hpart : t.part? step = none) (h : keyword? s (stepKey step) = none) :
    StepDescribed t s step := by
  refine stepDescribed_of_none hpart ?_
  cases step with
  | property i =>
    rw [stepKey] at h
    rw [child?, propertyMap?, h]
    rfl
  | under k => exact h
  | listed k i =>
    rw [stepKey] at h
    rw [child?, h]

/-- What is no mapping is of no interest. -/
theorem stepDescribed_bare (hpart : t.part? step = none) (h : child? s step = some m)
    (hm : IsBare m) : StepDescribed t s step := by
  refine Or.inr ⟨hpart, fun m' hm' => ?_⟩
  cases h.symm.trans hm'
  exact hm

/-- The schema of a field is that of its type, with a note. -/
def IsProperty (field : String × DataType × FieldNote) (p : Value × Value) : Prop :=
  p.1 = .str field.1 ∧ field.2.1.Describes p.2

/-- Fields have their schemas one by one. -/
theorem forall₂_of_properties? {fields : List (String × DataType × FieldNote)}
    {properties : Entries} (h : properties? fields = some properties) :
    List.Forall₂ IsProperty fields properties := by
  induction fields generalizing properties with
  | nil =>
    rw [properties?] at h
    cases h
    exact .nil
  | cons field rest ih =>
    obtain ⟨name, t, note⟩ := field
    simp only [properties?, Option.bind_eq_bind, Option.bind_eq_some_iff] at h
    obtain ⟨es, hes, others, hothers, h⟩ := h
    cases h
    exact .cons ⟨rfl, describes_withNote hes name note⟩ (ih hothers)

theorem stepKey_not_mem (step : Step) : stepKey step ∉ noteKeywords := by
  rcases step with i | ⟨⟨⟩⟩ | ⟨⟨⟩, i⟩
  all_goals
    rw [stepKey]
    decide

/-- A step goes nowhere where the schema of the type has no entry for it. -/
theorem stepDescribed_silent (h : t.Describes s) (hschema : t.schema? = some es)
    (hpart : t.part? step = none) (hnone : es.get? (stepKey step) = none) :
    StepDescribed t s step :=
  stepDescribed_absent hpart
    ((keyword?_of_describes h hschema (stepKey_not_mem step)).trans hnone)

/-- The schema of a scalar type says nothing but its name. -/
theorem stepDescribed_scalar {name : String} (h : t.Describes s)
    (hschema : t.schema? = some [(.str "type", .str name)]) (hpart : t.part? step = none) :
    StepDescribed t s step :=
  stepDescribed_silent h hschema hpart (by rcases step with i | ⟨⟨⟩⟩ | ⟨⟨⟩, i⟩ <;> rfl)

/-- That any properties are allowed is no schema. -/
theorem stepDescribed_mapping (h : mapping.Describes s) (step : Step) :
    StepDescribed mapping s step := by
  have hadditional : keyword? s "additionalProperties" = some (.bool true) :=
    keyword?_of_describes h rfl (by decide)
  match step with
  | .under .additional =>
    exact stepDescribed_bare rfl hadditional (isBare_of_not_isMapping (by rintro ⟨es, ⟨⟩⟩))
  | .listed .additional i =>
    exact stepDescribed_of_none rfl (by rw [child?, Keyword.key, hadditional])
  | .property _ | .under .items | .under .anyOf | .listed .items _ | .listed .anyOf _ =>
    exact stepDescribed_silent h rfl rfl rfl

/-- The items of a list of anything have a schema that says nothing. -/
theorem stepDescribed_anyList (h : anyList.Describes s) (step : Step) :
    StepDescribed anyList s step := by
  have hitems : keyword? s "items" = some (.dict []) := keyword?_of_describes h rfl (by decide)
  match step with
  | .under .items => exact stepDescribed_bare rfl hitems isBare_empty
  | .listed .items i => exact stepDescribed_of_none rfl (by rw [child?, Keyword.key, hitems])
  | .property _ | .under .anyOf | .under .additional | .listed .anyOf _
  | .listed .additional _ => exact stepDescribed_silent h rfl rfl rfl

theorem stepDescribed_list {item : DataType} (h : (list item).Describes s) (step : Step) :
    StepDescribed (list item) s step := by
  obtain ⟨es, full, hschema, -⟩ := id h
  obtain ⟨inner, hinner, rfl⟩ := schema?_list_eq_some.1 hschema
  have hitems : keyword? s "items" = some (.dict inner) :=
    keyword?_of_describes h hschema (by decide)
  match step with
  | .under .items => exact Or.inl ⟨item, _, rfl, hitems, describes_self hinner⟩
  | .listed .items i => exact stepDescribed_of_none rfl (by rw [child?, Keyword.key, hitems])
  | .property _ | .under .anyOf | .under .additional | .listed .anyOf _
  | .listed .additional _ => exact stepDescribed_silent h hschema rfl rfl

/-- The variants of what is optional are the schema of the type and that of null. -/
theorem stepDescribed_optional {inner : DataType} (h : (optional inner).Describes s)
    (step : Step) : StepDescribed (optional inner) s step := by
  obtain ⟨es, full, hschema, -⟩ := id h
  obtain ⟨others, hinner, rfl⟩ := schema?_optional_eq_some.1 hschema
  have hvariants : keyword? s "anyOf" =
      some (.list [.dict others, .dict [(.str "type", .str "null")]]) :=
    keyword?_of_describes h hschema (by decide)
  match step with
  | .listed .anyOf 0 =>
    exact Or.inl ⟨inner, _, rfl, by rw [child?, Keyword.key, hvariants]; rfl,
      describes_self hinner⟩
  | .listed .anyOf 1 =>
    exact Or.inl ⟨null, _, rfl, by rw [child?, Keyword.key, hvariants]; rfl, describes_self rfl⟩
  | .listed .anyOf (i + 2) =>
    exact stepDescribed_of_none rfl (by rw [child?, Keyword.key, hvariants]; rfl)
  | .under .anyOf =>
    exact stepDescribed_bare rfl hvariants (isBare_of_not_isMapping (by rintro ⟨es, ⟨⟩⟩))
  | .property _ | .under .items | .under .additional | .listed .items _
  | .listed .additional _ => exact stepDescribed_silent h hschema rfl rfl

/-- The properties of a record are its fields, by their positions. -/
theorem stepDescribed_property {name : String} {closed : Bool}
    {fields : List (String × DataType × FieldNote)} {properties : Entries}
    (hfields : properties? fields = some properties) (hproperties : propertyMap? s = some properties)
    (i : Nat) : StepDescribed (record name closed fields) s (.property i) := by
  have hall := forall₂_of_properties? hfields
  by_cases hi : i < fields.length
  · have hi' : i < properties.length := hall.length_eq ▸ hi
    refine Or.inl ⟨fields[i].2.1, properties[i].2, ?_, ?_, (hall.get hi hi').2⟩
    · rw [part?, List.getElem?_eq_getElem hi, Option.map_some]
    · rw [child?, hproperties, Option.bind_eq_bind, Option.bind_some,
        List.getElem?_eq_getElem hi', Option.map_some]
  · have hi' : ¬i < properties.length := hall.length_eq ▸ hi
    refine stepDescribed_of_none ?_ ?_
    · rw [part?, List.getElem?_eq_none (Nat.le_of_not_lt hi), Option.map_none]
    · rw [child?, hproperties, Option.bind_eq_bind, Option.bind_some,
        List.getElem?_eq_none (Nat.le_of_not_lt hi'), Option.map_none]

theorem stepDescribed_record {name : String} {closed : Bool}
    {fields : List (String × DataType × FieldNote)} (h : (record name closed fields).Describes s)
    (step : Step) : StepDescribed (record name closed fields) s step := by
  obtain ⟨properties, hfields, hschema, hproperties⟩ := exists_properties h
  have hadditional : keyword? s "additionalProperties" =
      if closed then some (.bool false) else none := by
    rw [keyword?_of_describes h hschema (by decide)]
    cases closed <;> cases requiredNames fields <;> rfl
  match step with
  | .property i => exact stepDescribed_property hfields hproperties i
  | .under .additional =>
    cases closed with
    | true =>
      exact stepDescribed_bare rfl hadditional (isBare_of_not_isMapping (by rintro ⟨es, ⟨⟩⟩))
    | false => exact stepDescribed_of_none rfl hadditional
  | .listed .additional i =>
    refine stepDescribed_of_none rfl ?_
    rw [child?, Keyword.key, hadditional]
    cases closed <;> rfl
  | .under .items | .under .anyOf | .listed .items _ | .listed .anyOf _ =>
    exact stepDescribed_silent h hschema rfl
      (by cases closed <;> cases requiredNames fields <;> rfl)

/-- A step through the schema of a type, by the type. -/
theorem stepDescribed (h : t.Describes s) (step : Step) : StepDescribed t s step := by
  cases t with
  | mapping => exact stepDescribed_mapping h step
  | anyList => exact stepDescribed_anyList h step
  | list item => exact stepDescribed_list h step
  | optional inner => exact stepDescribed_optional h step
  | record name closed fields => exact stepDescribed_record h step
  | enclosing => obtain ⟨es, full, ⟨⟩, -⟩ := h
  | _ => exact stepDescribed_scalar h rfl (by cases step <;> rfl)

/-- A path through the schema of a type leads to the schema of a part, or to nothing of interest. -/
theorem describes_at? (h : t.Describes s) (path : List Step) :
    (∃ u m, t.partAt? path = some u ∧ at? s path = some m ∧ u.Describes m) ∨
      t.partAt? path = none ∧ ∀ m ∈ at? s path, keyword? m "type" = none := by
  induction path generalizing t s with
  | nil => exact Or.inl ⟨t, s, rfl, rfl, h⟩
  | cons step path ih =>
    rw [partAt?, at?]
    rcases stepDescribed h step with ⟨u, m, hpart, hchild, hm⟩ | ⟨hpart, hbare⟩
    · rw [hpart, hchild]
      exact ih hm
    · rw [hpart]
      refine Or.inr ⟨rfl, fun n hn => ?_⟩
      obtain ⟨m, hm, hn⟩ := Option.bind_eq_some_iff.1 hn
      obtain ⟨htype, hnone⟩ := hbare m hm
      cases path with
      | nil =>
        cases hn
        exact htype
      | cons next path =>
        rw [at?, hnone] at hn
        cases hn

/-- A path through a type does not go by what is said of additional properties. -/
theorem keepsPlace_of_partAt? (h : t.partAt? path = some u) (s : Value) : KeepsPlace s path := by
  induction path generalizing t s with
  | nil => trivial
  | cons step path ih =>
    obtain ⟨v, hv, h⟩ := Option.bind_eq_some_iff.1 h
    refine ⟨fun hstep => ?_, fun m _ => ih h m⟩
    have hadditional := hstep.2
    match t, step with
    | list item, .under .items => cases hadditional
    | optional inner, .listed .anyOf 0 => cases hadditional
    | optional inner, .listed .anyOf 1 => cases hadditional
    | record name closed fields, .property i => cases hadditional

/-! ### Objects in the strict form -/

/-- A schema is one of objects with properties of some names, allows no others and requires all. -/
structure IsClosedObject (n : Value) (names : List Value) : Prop where
  type : keyword? n "type" = some (.str "object")
  properties : propertyNames? n = some names
  additional : keyword? n "additionalProperties" = some (.bool false)
  required : keyword? n "required" = some (.list names)

/-- A schema is one of objects with any properties, and requires none. -/
structure IsOpenObject (n : Value) : Prop where
  type : keyword? n "type" = some (.str "object")
  properties : keyword? n "properties" = none
  additional : keyword? n "additionalProperties" = some (.bool true)
  required : keyword? n "required" = none

theorem not_isClosedObject (h : IsOpenObject m) (names : List Value) : ¬IsClosedObject m names :=
  fun hclosed => by cases h.additional.symm.trans hclosed.additional

/-- The types whose schemas are those of objects. -/
theorem object_cases (h : t.Describes m) (htype : keyword? m "type" = some (.str "object")) :
    (∃ name closed fields, t = .record name closed fields) ∨ t = .mapping := by
  obtain ⟨es, full, hschema, rfl, hfull⟩ := h
  have htype : es.get? "type" = some (.str "object") := (hfull "type" (by decide)).symm.trans htype
  cases t with
  | record name closed fields => exact Or.inl ⟨name, closed, fields, rfl⟩
  | mapping => exact Or.inr rfl
  | list item =>
    obtain ⟨inner, -, rfl⟩ := schema?_list_eq_some.1 hschema
    exact absurd (Value.str.inj (Option.some.inj htype)) (by decide)
  | optional inner =>
    obtain ⟨others, -, rfl⟩ := schema?_optional_eq_some.1 hschema
    cases htype
  | enclosing => cases hschema
  | _ =>
    cases hschema
    exact absurd (Value.str.inj (Option.some.inj htype)) (by decide)

/-- The strict schema of a record is closed. -/
theorem isClosedObject_of_describes {name : String} {closed : Bool}
    {fields : List (String × DataType × FieldNote)} (h : (record name closed fields).Describes m) :
    IsClosedObject (strict m) (fields.map fun f => .str f.1) := by
  obtain ⟨properties, hfields, hschema, hproperties⟩ := exists_properties h
  have htype : keyword? m "type" = some (.str "object") :=
    (keyword?_of_describes h hschema (by decide)).trans (get?_recordSchema_type ..)
  have hobject : IsObject m := ⟨htype, by rw [hproperties]; rfl⟩
  have hnames : propertyNames? m = some (fields.map fun f => .str f.1) := by
    rw [propertyNames?, hproperties, Option.map_some, properties?_keys hfields]
  obtain ⟨hadditional, hrequired⟩ := keyword?_of_isObject hobject hnames
  exact ⟨(isObject_strict.2 hobject).1, propertyNames?_strict.trans hnames, hadditional, hrequired⟩

/-- The strict schema of a mapping with any content is open. -/
theorem isOpenObject_of_describes (h : mapping.Describes m) : IsOpenObject (strict m) := by
  obtain ⟨es, full, hschema, rfl, hfull⟩ := h
  cases hschema
  have hkey {key : String} (hnote : key ∉ noteKeywords) : keyword? (.dict full) key =
      Entries.get? [(.str "additionalProperties", .bool true), (.str "type", .str "object")] key :=
    hfull key hnote
  have hobject : ¬IsObject (.dict full) := by
    rintro ⟨-, hproperties⟩
    rw [propertyMap?, hkey (by decide)] at hproperties
    cases hproperties
  have hstrict {key : String} (hnote : key ∉ noteKeywords) (hkept : isDropped (.str key) = false) :
      keyword? (strict (.dict full)) key =
        (Entries.get? [(.str "additionalProperties", .bool true), (.str "type", .str "object")]
          key).map (if key = "properties" then strictSection else strict) := by
    rw [keyword?_strict hkept fun h => absurd h hobject, hkey hnote]
  have hleaf {v : Value} (hv : isLeaf v = true) : strict v = v := strict_of_isLeaf hv
  refine ⟨?_, ?_, ?_, ?_⟩
  · exact (hstrict (by decide) (by decide)).trans (congrArg some (hleaf rfl))
  · exact hstrict (by decide) (by decide)
  · exact (hstrict (by decide) (by decide)).trans (congrArg some (hleaf rfl))
  · exact hstrict (by decide) (by decide)

end

/-! ### Mappings with any content -/

/-- A part of a type is a mapping with any content. -/
def HasMapping (t : DataType) : Prop := ∃ path, t.partAt? path = some .mapping

section

variable {t u : DataType}

theorem hasMapping_iff :
    HasMapping t ↔ t = .mapping ∨ ∃ step u, t.part? step = some u ∧ HasMapping u := by
  constructor
  · rintro ⟨path, h⟩
    cases path with
    | nil => exact Or.inl (Option.some.inj h)
    | cons step path =>
      obtain ⟨u, hu, h⟩ := Option.bind_eq_some_iff.1 h
      exact Or.inr ⟨step, u, hu, path, h⟩
  · rintro (rfl | ⟨step, u, hu, path, h⟩)
    · exact ⟨[], rfl⟩
    · exact ⟨step :: path, by rw [partAt?, hu]; exact h⟩

theorem not_hasMapping (hmapping : t ≠ .mapping) (h : ∀ step, t.part? step = none) :
    ¬HasMapping t := by
  rw [hasMapping_iff]
  rintro (ht | ⟨step, u, hu, -⟩)
  · exact hmapping ht
  · cases (h step).symm.trans hu

theorem hasMapping_list : HasMapping (list t) ↔ HasMapping t := by
  rw [hasMapping_iff]
  constructor
  · rintro (⟨⟨⟩⟩ | ⟨step, u, hu, h⟩)
    match step with
    | .under .items =>
      cases hu
      exact h
  · exact fun h => Or.inr ⟨.under .items, t, rfl, h⟩

theorem hasMapping_optional : HasMapping (optional t) ↔ HasMapping t := by
  rw [hasMapping_iff]
  constructor
  · rintro (⟨⟨⟩⟩ | ⟨step, u, hu, h⟩)
    match step with
    | .listed .anyOf 0 =>
      cases hu
      exact h
    | .listed .anyOf 1 =>
      cases hu
      exact absurd h (not_hasMapping nofun fun step => by cases step <;> rfl)
  · exact fun h => Or.inr ⟨.listed .anyOf 0, t, rfl, h⟩

theorem hasMapping_orNull : HasMapping t.orNull ↔ HasMapping t := by
  cases t with
  | null => rfl
  | optional t => rfl
  | _ => exact hasMapping_optional

theorem hasMapping_record {name : String} {closed : Bool}
    {fields : List (String × DataType × FieldNote)} :
    HasMapping (record name closed fields) ↔ ∃ f ∈ fields, HasMapping f.2.1 := by
  rw [hasMapping_iff]
  constructor
  · rintro (⟨⟨⟩⟩ | ⟨step, u, hu, h⟩)
    match step with
    | .property i =>
      obtain ⟨f, hf, rfl⟩ := Option.map_eq_some_iff.1 hu
      exact ⟨f, List.mem_of_getElem? hf, h⟩
  · rintro ⟨f, hf, h⟩
    obtain ⟨i, hi, rfl⟩ := List.getElem_of_mem hf
    refine Or.inr ⟨.property i, _, ?_, h⟩
    rw [part?, List.getElem?_eq_getElem hi, Option.map_some]

end

end DataType

namespace Schema

open DataType (HasMapping hasMapping_list hasMapping_orNull hasMapping_record not_hasMapping)

/-- A schema is one of objects whose properties are not described. -/
def IsFreeForm (v : Value) : Prop := ∃ es, v = .dict es ∧ form es = .mapping

theorem not_hasMapping_of_primitiveType {type : Option Value} {base : DataType}
    (h : primitiveType type = .ok base) : ¬HasMapping base := by
  unfold primitiveType at h
  split at h <;> cases h
  all_goals exact not_hasMapping nofun fun step => by cases step <;> rfl

theorem sizeOf_property_lt {es properties : Entries} {p : Value × Value}
    (hproperties : es.get? "properties" = some (.dict properties)) (hp : p ∈ properties) :
    sizeOf p.2 < sizeOf es := by
  have hlt := Entries.sizeOf_lt_of_get? hproperties
  have := Value.sizeOf_value_lt hp
  simp only [Value.dict.sizeOf_spec] at hlt
  omega

/-- The fields of a record have a mapping with any content just if the reader comes to a schema of
one. -/
theorem hasMapping_of_fieldsOf {es : Entries} {name : String}
    {fields : List (String × DataType × FieldNote)} (h : fieldsOf es name = .ok fields)
    (hsection : hasSection es "properties" = true)
    (hread : ∀ properties, es.get? "properties" = some (.dict properties) → ∀ p ∈ properties,
      ∀ name t, typeOf p.2 name = .ok t →
        (HasMapping t ↔ ∃ s, ComesTo p.2 s ∧ IsFreeForm s)) :
    (∃ f ∈ fields, HasMapping f.2.1) ↔
      ∃ properties, es.get? "properties" = some (.dict properties) ∧
        ∃ p ∈ properties, ∃ s, ComesTo p.2 s ∧ IsFreeForm s := by
  obtain ⟨properties, required, hproperties, -, hfields⟩ := fields_of_fieldsOf h hsection
  have hfield {p : Value × Value} {f : String × DataType × FieldNote} (hp : p ∈ properties)
      (hf : IsFieldOf required p f) :
      HasMapping f.2.1 ↔ ∃ s, ComesTo p.2 s ∧ IsFreeForm s := by
    obtain ⟨name', t, ht, htype⟩ := hf.read
    rw [← hread properties hproperties p hp name' t ht, htype]
    split
    · rfl
    · exact hasMapping_orNull
  constructor
  · rintro ⟨f, hf, h⟩
    obtain ⟨p, hp, hfp⟩ := exists_left_of_forall₂ hfields f hf
    exact ⟨properties, hproperties, p, hp, (hfield hp hfp).1 h⟩
  · rintro ⟨properties', hproperties', p, hp, h⟩
    cases hproperties.symm.trans hproperties'
    obtain ⟨f, hf, hfp⟩ := exists_right_of_forall₂ hfields p hp
    exact ⟨f, hf, (hfield hp hfp).2 h⟩

theorem isFreeForm_dict {es : Entries} : IsFreeForm (.dict es) ↔ form es = .mapping := by
  constructor
  · rintro ⟨es', heq, hform⟩
    cases heq
    exact hform
  · exact fun hform => ⟨es, rfl, hform⟩

theorem comesTo_isFreeForm {es : Entries} :
    (∃ s, ComesTo (.dict es) s ∧ IsFreeForm s) ↔
      form es = .mapping ∨ ∃ u, LeadsTo (.dict es) u ∧ ∃ s, ComesTo u s ∧ IsFreeForm s := by
  rw [exists_comesTo, isFreeForm_dict]

/-- From a form that says nothing of other schemas the reader comes to no schema of a mapping. -/
theorem not_comesTo_isFreeForm {es : Entries}
    (hform : form es ∉ [Form.alternatives, .list, .record, .mapping]) :
    ¬∃ s, ComesTo (.dict es) s ∧ IsFreeForm s := by
  simp only [List.mem_cons, List.not_mem_nil, or_false, not_or] at hform
  rw [comesTo_isFreeForm]
  rintro (hfree | ⟨u, hu, -⟩)
  · exact hform.2.2.2 hfree
  · exact not_leadsTo (by simp [hform]) hu

/-- **The reader makes a mapping with any content of nothing but a schema of one.** -/
theorem hasMapping_of_typeOf {v : Value} {name : String} {t : DataType}
    (h : typeOf v name = .ok t) : HasMapping t ↔ ∃ s, ComesTo v s ∧ IsFreeForm s := by
  obtain ⟨es, rfl, -⟩ := reads_of_typeOf h
  rw [typeOf_dict] at h
  obtain ⟨-, -, h⟩ := except_bind_eq_ok.1 h
  cases hform : form es with
  | alternatives =>
    simp only [hform] at h
    obtain ⟨variants, hvariants⟩ := exists_of_form_alternatives hform
    rw [hvariants, Option.getD_some] at h
    obtain ⟨found, hfound, h⟩ := except_bind_eq_ok.1 h
    cases found with
    | none => cases h
    | some inner =>
      obtain ⟨t', ht', h⟩ := except_bind_eq_ok.1 h
      cases h
      have := Entries.sizeOf_lt_of_get? hvariants
      have := sizeOf_lt_of_optionalOf? hfound
      have hoptional := optionalOf?_eq_some_iff.1 hfound
      rw [hasMapping_orNull, hasMapping_of_typeOf ht', comesTo_isFreeForm, hform]
      simp [leadsTo_optional hform hvariants hoptional]
  | record =>
    simp only [hform] at h
    obtain ⟨fields, hfields, h⟩ := except_bind_eq_ok.1 h
    cases h
    rw [hasMapping_record,
      hasMapping_of_fieldsOf hfields (hasSection_of_form_record hform) fun properties hproperties
        p hp name t ht => by
          have := sizeOf_property_lt hproperties hp
          exact hasMapping_of_typeOf ht,
      comesTo_isFreeForm, hform]
    constructor
    · rintro ⟨properties, hproperties, p, hp, h⟩
      exact Or.inr ⟨p.2, .property hform hproperties hp, h⟩
    · rintro (⟨⟨⟩⟩ | ⟨u, hu, h⟩)
      obtain ⟨properties, hproperties, p, hp, rfl⟩ := (leadsTo_property hform).1 hu
      exact ⟨properties, hproperties, p, hp, h⟩
  | list =>
    simp only [hform] at h
    obtain ⟨items, hitems⟩ := exists_of_form_list hform
    rw [hitems, Option.getD_some] at h
    obtain ⟨t', ht', h⟩ := except_bind_eq_ok.1 h
    cases h
    have := Entries.sizeOf_lt_of_get? hitems
    rw [hasMapping_list, hasMapping_of_typeOf ht', comesTo_isFreeForm, hform]
    simp [leadsTo_item hform, hitems]
  | mapping =>
    rw [hform] at h
    cases h
    exact ⟨fun _ => ⟨_, .refl, isFreeForm_dict.2 hform⟩, fun _ => ⟨[], rfl⟩⟩
  | enumeration =>
    simp only [hform] at h
    cases h
    exact iff_of_false (not_hasMapping nofun fun step => by cases step <;> rfl)
      (not_comesTo_isFreeForm (by simp [hform]))
  | anyList =>
    simp only [hform] at h
    cases h
    exact iff_of_false (not_hasMapping nofun fun step => by cases step <;> rfl)
      (not_comesTo_isFreeForm (by simp [hform]))
  | plain =>
    simp only [hform] at h
    obtain ⟨base, hbase, h⟩ := except_bind_eq_ok.1 h
    cases h
    refine iff_of_false ?_ (not_comesTo_isFreeForm (by simp [hform]))
    split
    · exact fun h => not_hasMapping_of_primitiveType hbase (hasMapping_orNull.1 h)
    · exact not_hasMapping_of_primitiveType hbase
termination_by sizeOf v
decreasing_by
  all_goals
    subst_vars
    simp only [Value.dict.sizeOf_spec]
    omega

end Schema

namespace Record

open Schema
open DataType (Describes IsClosedObject IsOpenObject HasMapping)

section

variable {r : Record} {T n : Value} {path : List Step}

/-- The strict schema of a record is the strict form of the schema of its type. -/
theorem exists_of_strictSchema (h : r.strictSchema = .ok T) :
    ∃ s, r.toType.Describes s ∧ T = strict s := by
  rw [strictSchema, schema] at h
  split at h
  · next es hes =>
    cases h
    exact ⟨_, DataType.describes_self hes, rfl⟩
  · cases h

/-- Every object of the strict schema is that of a record, and closed, or that of a mapping with any
content, and open. -/
theorem object_of_strictSchema (h : r.strictSchema = .ok T) (hn : at? T path = some n)
    (htype : keyword? n "type" = some (.str "object")) :
    (∃ name closed fields, r.toType.partAt? path = some (.record name closed fields) ∧
        IsClosedObject n (fields.map fun f => .str f.1)) ∨
      r.toType.partAt? path = some .mapping ∧ IsOpenObject n := by
  obtain ⟨s, hs, rfl⟩ := exists_of_strictSchema h
  by_cases hkeeps : KeepsPlace s path
  · rw [at?_strict hkeeps] at hn
    obtain ⟨m, hm, rfl⟩ := Option.map_eq_some_iff.1 hn
    have htype : keyword? m "type" = some (.str "object") := by
      rw [keyword?_strict (by decide) fun _ => by decide, if_neg (by decide),
        Option.map_eq_some_iff] at htype
      obtain ⟨v, hv, hstrict⟩ := htype
      rw [hv, eq_str_of_strict hstrict]
    rcases DataType.describes_at? hs path with ⟨u, m', hu, hm', hdescribes⟩ | ⟨-, hbare⟩
    · cases hm.symm.trans hm'
      rcases DataType.object_cases hdescribes htype with ⟨name, closed, fields, rfl⟩ | rfl
      · exact Or.inl ⟨name, closed, fields, hu, DataType.isClosedObject_of_describes hdescribes⟩
      · exact Or.inr ⟨hu, DataType.isOpenObject_of_describes hdescribes⟩
    · cases (hbare m hm).symm.trans htype
  · rw [eq_false_of_at?_strict hkeeps hn] at htype
    cases htype

/-- Where the record has a mapping with any content, the strict schema has an open object. -/
theorem exists_open_of_partAt? (h : r.strictSchema = .ok T)
    (hpart : r.toType.partAt? path = some .mapping) :
    ∃ n, at? T path = some n ∧ IsOpenObject n := by
  obtain ⟨s, hs, rfl⟩ := exists_of_strictSchema h
  rcases DataType.describes_at? hs path with ⟨u, m, hu, hm, hdescribes⟩ | ⟨hnone, -⟩
  · cases hpart.symm.trans hu
    refine ⟨strict m, ?_, DataType.isOpenObject_of_describes hdescribes⟩
    rw [at?_strict (DataType.keepsPlace_of_partAt? hpart s), hm, Option.map_some]
  · cases hpart.symm.trans hnone

/-- All objects are closed just if the record has no mapping with any content. -/
theorem forall_closed_iff (h : r.strictSchema = .ok T) :
    (∀ path n, at? T path = some n → keyword? n "type" = some (.str "object") →
      ∃ names, IsClosedObject n names) ↔ ¬r.toType.HasMapping := by
  constructor
  · rintro hclosed ⟨path, hpart⟩
    obtain ⟨n, hn, hopen⟩ := exists_open_of_partAt? h hpart
    obtain ⟨names, hnames⟩ := hclosed path n hn hopen.type
    exact DataType.not_isClosedObject hopen names hnames
  · intro hnone path n hn htype
    rcases object_of_strictSchema h hn htype with ⟨name, closed, fields, -, hclosed⟩ | ⟨hpart, -⟩
    · exact ⟨_, hclosed⟩
    · exact absurd ⟨path, hpart⟩ hnone

end

end Record

namespace Requirements

open Schema
open DataType (IsClosedObject IsOpenObject hasMapping_record)

/-- The record of a document has a mapping with any content just if the reader comes to an object
whose properties are not described. -/
theorem hasMapping_of_toRecord {v : Value} {r : Record}
    (h : (document v).toRecord.outcome = .ok r) : r.toType.HasMapping ↔
      ∃ es properties p s, (document v).schema = .ok es ∧
        es.get? "properties" = some (.dict properties) ∧ p ∈ properties ∧ ComesTo p.2 s ∧
        IsFreeForm s := by
  obtain ⟨es, fields, hes, hfields, hr⟩ := fieldsOf_of_toRecord h
  rw [hr, Record.toType, hasMapping_record,
    hasMapping_of_fieldsOf hfields (hasSection_of_schema hes) fun _ _ _ _ _ _ =>
      hasMapping_of_typeOf]
  constructor
  · rintro ⟨properties, hproperties, p, hp, s, hs, hfree⟩
    exact ⟨es, properties, p, s, hes, hproperties, hp, hs, hfree⟩
  · rintro ⟨es', properties, p, s, hes', hproperties, hp, hs, hfree⟩
    cases hes.symm.trans hes'
    exact ⟨properties, hproperties, p, hp, s, hs, hfree⟩

/-- **The objects of a strict schema.**  Every object of the strict schema of a record, at any
depth, is at a place of a record or of a mapping with any content.  The former is closed and
requires all of its properties; the latter has no properties, is open and requires nothing.  All
objects are closed just if there are no such mappings, and the record of a document has one just if
the reader comes to an object whose properties are not described. -/
theorem strictSchema_objects {requirements : Requirements} {r : Record} {T : Value}
    (hread : requirements.toRecord.outcome = .ok r) (hstrict : r.strictSchema = .ok T) :
    (∀ path n, at? T path = some n → keyword? n "type" = some (.str "object") →
      (∃ name closed fields, r.toType.partAt? path = some (.record name closed fields) ∧
          IsClosedObject n (fields.map fun f => .str f.1)) ∨
        r.toType.partAt? path = some .mapping ∧ IsOpenObject n) ∧
    ((∀ path n, at? T path = some n → keyword? n "type" = some (.str "object") →
      ∃ names, IsClosedObject n names) ↔ ¬r.toType.HasMapping) ∧
    ∀ v, requirements = .document v → (r.toType.HasMapping ↔
      ∃ es properties p s, (document v).schema = .ok es ∧
        es.get? "properties" = some (.dict properties) ∧ p ∈ properties ∧ ComesTo p.2 s ∧
        IsFreeForm s) := by
  refine ⟨fun path n => Record.object_of_strictSchema hstrict, Record.forall_closed_iff hstrict, ?_⟩
  rintro v rfl
  exact hasMapping_of_toRecord hread

/-- Requirements of a page with a list of objects whose properties are not described. -/
def page : Entries :=
  [(.str "properties", .record [("title", .record [("type", .str "string")]),
      ("links", .record [("type", .str "array"), ("items", .record [("type", .str "object")])])]),
    (.str "required", .list [.str "title"])]

/-- The record of a page. -/
def pageRecord : Record where
  name := defaultName
  closed := true
  fields := [("title", .string, ⟨true, .null, none⟩),
    ("links", .optional (.list .mapping), ⟨false, .null, none⟩)]

/-- The object at the items of the links is open. -/
theorem strictSchema_objects_page : ∃ T,
    (document (.dict page)).toRecord.outcome = .ok pageRecord ∧
    pageRecord.strictSchema = .ok T ∧
    ¬∀ path n, at? T path = some n → keyword? n "type" = some (.str "object") →
      ∃ names, IsClosedObject n names := by
  have hschema : (document (.dict page)).schema = .ok page := by cbv
  have hfields : fieldsOf page defaultName = .ok pageRecord.fields := by cbv
  have hread : (document (.dict page)).toRecord.outcome = .ok pageRecord :=
    outcome_toRecord hschema rfl rfl hfields
  obtain ⟨T, hstrict⟩ : ∃ T, pageRecord.strictSchema = .ok T := ⟨_, rfl⟩
  refine ⟨T, hread, hstrict, ?_⟩
  rw [(strictSchema_objects hread hstrict).2.1, not_not]
  exact ⟨[.property 1, .listed .anyOf 0, .under .items], rfl⟩

end Requirements

end PagePlan
