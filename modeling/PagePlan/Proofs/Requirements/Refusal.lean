/-
# How requirements are refused that cannot be used

Requirements in a document may ask for what the reader does not support: a reference that cannot be
followed, a keyword that combines schemas, alternatives other than one schema and null, a type other
than object, no properties, half of a surrogate pair in a name.  All of this it complains about.  Of
what kinds the keywords of a schema are, and which names are free for fields, it takes for granted.

The account of reading follows the reader from schema to schema: all those that it comes to have to
be shaped as it takes for granted, and all have to be supported.

* `typeOf_accounted` — the account of reading a schema;
* `refusal_accounted` — when a document gives a schema, properties and a record, when it is
  complained about, and when it is stumbled over.
-/
import PagePlan.Proofs.Requirements.Allowance
import PagePlan.Proofs.Requirements.Following

namespace PagePlan

namespace Schema

/-! ### What the reader takes for granted, and what it supports -/

/-- A value under `required` can be made a set of names. -/
def IsNameSet : Value → Prop
  | .list xs => xs.all isHashable = true
  | .tuple xs => xs.all isHashable = true
  | .dict _ => True
  | v => v.isText = true

/-- A property has a text for its name, and one that is free for a field. -/
def IsFreeName (k : Value) : Prop :=
  k.isText = true ∧ ∀ name, k = .str name → name ∉ reservedNames ∧ name.startsWith "_" = false

/-- An object has properties under free names, and names that it requires. -/
structure HasFields (es : Entries) : Prop where
  properties : ∀ v, es.get? "properties" = some v →
    ∃ properties : Entries, v = .dict properties ∧ ∀ p ∈ properties, IsFreeName p.1
  required : ∀ v, es.get? "required" = some v → IsNameSet v

/-- The names of properties have no half of a surrogate pair in them. -/
def HasSpellableFields (es : Entries) : Prop :=
  ∀ properties, es.get? "properties" = some (.dict properties) →
    ∀ p ∈ properties, ∀ t, p.1 ≠ .unpaired t

/-- One of the keywords that combine schemas stands in a value. -/
def Combines (v : Value) : Prop :=
  ∃ keyword ∈ unsupportedKeywords, mentions? v keyword = .ok true

/-- The parts that are read of a schema of some form are of the kinds that they are taken to be. -/
def HasParts (es : Entries) : Form → Prop
  | .alternatives => ∀ variants, es.get? "anyOf" = some (.list variants) →
      ∀ s ∈ variants, IsMapping s
  | .record => HasFields es
  | .plain => ∀ v, es.get? "type" = some v → ¬IsMapping v ∧ ∀ xs, v ≠ .list xs
  | _ => True

/-- A schema is a mapping with parts of the right kinds. -/
def IsShaped (v : Value) : Prop := ∃ es, v = .dict es ∧ HasParts es (form es)

/-- A schema of some form has no other parts than those that are supported. -/
def Supports (es : Entries) : Form → Prop
  | .alternatives => ∃ variants inner, es.get? "anyOf" = some variants ∧ IsOptional variants inner
  | .record => HasSpellableFields es
  | _ => True

/-- A schema combines no others but in the way that is supported. -/
def IsSupported (v : Value) : Prop := ¬Combines v ∧ ∀ es, v = .dict es → Supports es (form es)

/-- All schemas that the reader comes to are shaped. -/
def AllShaped (v : Value) : Prop := ∀ s, ComesTo v s → IsShaped s

/-- All schemas that the reader comes to are supported. -/
def AllSupported (v : Value) : Prop := ∀ s, ComesTo v s → IsSupported s

/-- The properties of an object are shaped, and so are their schemas. -/
def FieldsShaped (es : Entries) : Prop :=
  HasFields es ∧ ∀ properties, es.get? "properties" = some (.dict properties) →
    ∀ p ∈ properties, AllShaped p.2

/-- The properties of an object are supported, and so are their schemas. -/
def FieldsSupported (es : Entries) : Prop :=
  ¬Combines (.dict es) ∧ HasSpellableFields es ∧
    ∀ properties, es.get? "properties" = some (.dict properties) →
      ∀ p ∈ properties, AllSupported p.2

section

variable {es : Entries} {v : Value}

/-! ### The parts of a schema -/

/-- Keywords are looked for in texts, sequences and mappings. -/
theorem refuseUnsupported_accounted (v : Value) (keywords : List String) :
    Accounted (∀ keyword ∈ keywords, ∃ b, mentions? v keyword = .ok b)
      (¬∃ keyword ∈ keywords, mentions? v keyword = .ok true) (refuseUnsupported v keywords) := by
  induction keywords with
  | nil => exact ⟨nofun, by simp⟩
  | cons keyword keywords ih =>
    rw [refuseUnsupported]
    cases hmentions : mentions? v keyword with
    | error e =>
      have he : Stumble e := by
        cases v <;> cases hmentions
        all_goals exact .wrongKind
      refine accounted_stumble he fun h => ?_
      obtain ⟨b, hb⟩ := h keyword List.mem_cons_self
      cases hmentions.symm.trans hb
    | ok found =>
      cases found with
      | true =>
        exact accounted_complaint (.problem _) fun h => h ⟨keyword, List.mem_cons_self, hmentions⟩
      | false => exact ih.congr (by simp [hmentions]) (by simp [hmentions])

theorem combines_accounted (es : Entries) : Accounted True (¬Combines (.dict es))
    (refuseUnsupported (.dict es) unsupportedKeywords) :=
  (refuseUnsupported_accounted (.dict es) unsupportedKeywords).congr
    ⟨fun _ => trivial, fun _ _ _ => ⟨_, rfl⟩⟩ Iff.rfl

/-- Only a mapping can be asked whether it is the null schema. -/
theorem isNullSchema_accounted (v : Value) : Accounted (IsMapping v) True (isNullSchema v) := by
  cases v with
  | dict es => exact ⟨⟨es, rfl⟩, trivial⟩
  | _ => exact accounted_stumble .noEntries (by rintro ⟨es, ⟨⟩⟩)

theorem nonNull_accounted (variants : List Value) :
    Accounted (∀ s ∈ variants, IsMapping s) True (nonNull variants) := by
  induction variants with
  | nil => exact ⟨nofun, trivial⟩
  | cons s variants ih =>
    rw [nonNull]
    exact ((isNullSchema_accounted s).bind fun _ _ => ih.map _).congr
      (by rw [List.forall_mem_cons]) (and_self_iff)

theorem optionalOf?_accounted (v : Value) :
    Accounted (∀ variants, v = .list variants → ∀ s ∈ variants, IsMapping s) True
      (optionalOf? v) := by
  cases v with
  | list variants =>
    have hall : Accounted (∀ s ∈ variants, IsMapping s) True (optionalOf? (.list variants)) := by
      have hnonNull := nonNull_accounted variants
      rw [optionalOf?]
      split
      · next h => rwa [h] at hnonNull
      · next h => rwa [h] at hnonNull
      · next h => rwa [h] at hnonNull
    exact hall.congr ⟨fun h _ heq => Value.list.inj heq ▸ h, fun h => h variants rfl⟩ Iff.rfl
  | _ => exact ⟨fun _ heq => (by cases heq), trivial⟩

/-- A type is looked up by its name, unless it is a list or a mapping. -/
theorem primitiveType_accounted (type : Option Value) :
    Accounted (∀ v, type = some v → ¬IsMapping v ∧ ∀ xs, v ≠ .list xs) True
      (primitiveType type) := by
  unfold primitiveType
  split
  · exact ⟨fun v hv => by cases hv; simp [IsMapping], trivial⟩
  · exact ⟨fun v hv => by cases hv; simp [IsMapping], trivial⟩
  · exact ⟨fun v hv => by cases hv; simp [IsMapping], trivial⟩
  · exact ⟨fun v hv => by cases hv; simp [IsMapping], trivial⟩
  · exact accounted_stumble .wrongKind fun h => (h _ rfl).2 _ rfl
  · exact accounted_stumble .wrongKind fun h => (h _ rfl).1 ⟨_, rfl⟩
  · next hlist hdict =>
    refine ⟨fun v hv => ⟨?_, ?_⟩, trivial⟩
    · rintro ⟨es, rfl⟩
      exact hdict es hv
    · rintro xs rfl
      exact hlist xs hv

theorem requiredSet_accounted (es : Entries) :
    Accounted (∀ v, es.get? "required" = some v → IsNameSet v) True (requiredSet es) := by
  have hone {v : Value} (hv : es.get? "required" = some v) :
      IsNameSet v ↔ ∀ w, es.get? "required" = some w → IsNameSet w :=
    ⟨fun h w hw => Option.some.inj (hv.symm.trans hw) ▸ h, fun h => h v hv⟩
  have hitems (xs : List Value) : Accounted (xs.all isHashable = true) True
      (if xs.all isHashable then .ok xs else .error .wrongKind : Except Failure (List Value)) := by
    split
    · next h => exact ⟨h, trivial⟩
    · next h => exact accounted_stumble .wrongKind h
  unfold requiredSet
  split
  · next hnone => exact ⟨fun v hv => (Option.some_ne_none v (hv.symm.trans hnone)).elim, trivial⟩
  · next xs hv => exact (hitems xs).congr (hone hv) Iff.rfl
  · next xs hv => exact (hitems xs).congr (hone hv) Iff.rfl
  · next entries hv => exact ⟨(hone hv).1 trivial, trivial⟩
  · next v hlist htuple hdict hv =>
    cases v with
    | list xs => exact absurd rfl (hlist xs)
    | tuple xs => exact absurd rfl (htuple xs)
    | dict entries => exact absurd rfl (hdict entries)
    | str s => exact ⟨(hone hv).1 rfl, trivial⟩
    | unpaired t => exact ⟨(hone hv).1 rfl, trivial⟩
    | _ => exact accounted_stumble .wrongKind fun h => by cases (hone hv).2 h

/-- A field has a text for its name. -/
theorem nameField_accounted (f : Value × DataType × FieldNote) :
    Accounted (f.1.isText = true) (∀ t, f.1 ≠ .unpaired t) (nameField f) := by
  obtain ⟨k, t, note⟩ := f
  cases k with
  | str name => exact ⟨rfl, nofun⟩
  | unpaired t => exact accounted_complaint .unspellable fun h => h t rfl
  | _ => exact accounted_stumble .wrongKind (by simp [Value.isText])

theorem nameFields_accounted (raw : List (Value × DataType × FieldNote)) :
    Accounted (∀ f ∈ raw, f.1.isText = true) (∀ f ∈ raw, ∀ t, f.1 ≠ .unpaired t)
      (raw.mapM nameField) := by
  induction raw with
  | nil => exact ⟨nofun, nofun⟩
  | cons f raw ih =>
    rw [List.mapM_cons]
    exact ((nameField_accounted f).bind fun _ _ => ih.map _).congr
      (by rw [List.forall_mem_cons]) (by rw [List.forall_mem_cons])

theorem names_of_nameFields {raw : List (Value × DataType × FieldNote)}
    {named : List (String × DataType × FieldNote)} (h : raw.mapM nameField = .ok named) :
    raw.map Prod.fst = named.map fun f => .str f.1 := by
  have hall := forall₂_of_mapM_eq_ok h
  clear h
  induction hall with
  | nil => rfl
  | cons hf _ ih => rw [List.map_cons, List.map_cons, ih, (nameField_eq_ok hf).1]

/-- Fields are named one by one, and then all names are looked through. -/
theorem namedFields_accounted (raw : List (Value × DataType × FieldNote)) :
    Accounted (∀ f ∈ raw, IsFreeName f.1) (∀ f ∈ raw, ∀ t, f.1 ≠ .unpaired t)
      (namedFields raw) := by
  have hall : Accounted
      ((∀ f ∈ raw, f.1.isText = true) ∧ ∀ f ∈ raw, ∀ name, f.1 = .str name →
        name ∉ reservedNames ∧ name.startsWith "_" = false)
      ((∀ f ∈ raw, ∀ t, f.1 ≠ .unpaired t) ∧ True) (namedFields raw) := by
    rw [namedFields]
    refine (nameFields_accounted raw).bind fun named hnamed => ?_
    -- the names that are looked through are those of the fields
    have hnames (q : String → Prop) :
        (∀ f ∈ raw, ∀ name, f.1 = .str name → q name) ↔ ∀ f ∈ named, q f.1 :=
      calc (∀ f ∈ raw, ∀ name, f.1 = .str name → q name)
        _ ↔ ∀ k ∈ raw.map Prod.fst, ∀ name, k = .str name → q name := by
          rw [List.forall_mem_map]
        _ ↔ ∀ f ∈ named, q f.1 := by
          rw [names_of_nameFields hnamed, List.forall_mem_map]
          exact forall₂_congr fun f _ =>
            ⟨fun h => h f.1 rfl, fun h _ hname => Value.str.inj hname ▸ h⟩
    rw [hnames fun name => name ∉ reservedNames ∧ name.startsWith "_" = false]
    split
    · next hreserved =>
      obtain ⟨f, hf, hmem⟩ := List.any_eq_true.1 hreserved
      exact accounted_stumble .wrongKind fun h => (h f hf).1 (List.contains_iff_mem.1 hmem)
    · next hreserved =>
      split
      · next hstarts =>
        obtain ⟨f, hf, hstart⟩ := List.any_eq_true.1 hstarts
        exact accounted_stumble .refusedName fun h => by simp [(h f hf).2] at hstart
      · next hstarts =>
        refine ⟨fun f hf => ⟨fun hmem => hreserved ?_, ?_⟩, trivial⟩
        · exact List.any_eq_true.2 ⟨f, hf, List.contains_iff_mem.2 hmem⟩
        · by_contra hstart
          exact hstarts (List.any_eq_true.2 ⟨f, hf, by simpa using hstart⟩)
  refine hall.congr ?_ (and_iff_left trivial)
  simp only [IsFreeName, forall_and]

theorem names_of_fieldsIn {properties : Entries} {required : List Value} {name : String}
    {raw : List (Value × DataType × FieldNote)}
    (h : fieldsIn properties required name = .ok raw) :
    raw.map Prod.fst = properties.map Prod.fst := by
  induction properties generalizing raw with
  | nil =>
    rw [fieldsIn] at h
    cases h
    rfl
  | cons p properties ih =>
    rw [fieldsIn] at h
    obtain ⟨t, -, h⟩ := except_bind_eq_ok.1 h
    obtain ⟨others, hothers, h⟩ := except_bind_eq_ok.1 h
    cases h
    rw [List.map_cons, List.map_cons, ih hothers]

/-- The fields of an object are under the names of its properties. -/
theorem forall_name_of_fieldsIn {properties : Entries} {required : List Value} {name : String}
    {raw : List (Value × DataType × FieldNote)}
    (h : fieldsIn properties required name = .ok raw) (q : Value → Prop) :
    (∀ f ∈ raw, q f.1) ↔ ∀ p ∈ properties, q p.1 :=
  calc (∀ f ∈ raw, q f.1)
    _ ↔ ∀ k ∈ raw.map Prod.fst, q k := by rw [List.forall_mem_map]
    _ ↔ ∀ p ∈ properties, q p.1 := by rw [names_of_fieldsIn h, List.forall_mem_map]

/-! ### The schemas that are read -/

theorem allShaped_dict : AllShaped (.dict es) ↔
    HasParts es (form es) ∧ ∀ u, LeadsTo (.dict es) u → AllShaped u := by
  refine forall_comesTo.trans (and_congr_left fun _ => ?_)
  constructor
  · rintro ⟨es', heq, h⟩
    cases heq
    exact h
  · exact fun h => ⟨es, rfl, h⟩

theorem allSupported_dict : AllSupported (.dict es) ↔
    ¬Combines (.dict es) ∧ Supports es (form es) ∧
      ∀ u, LeadsTo (.dict es) u → AllSupported u := by
  refine forall_comesTo.trans ?_
  rw [IsSupported, and_assoc]
  refine and_congr_right fun _ => and_congr_left fun _ => ?_
  constructor
  · exact fun h => h es rfl
  · rintro h es' heq
    cases heq
    exact h

theorem not_leadsTo_of_not_isMapping (h : ¬IsMapping v) {s : Value} : ¬LeadsTo v s := by
  rintro (⟨-, -, -, -⟩ | ⟨-, -⟩ | ⟨-, -, -⟩)
  all_goals exact h ⟨_, rfl⟩

/-- What is no mapping is never read, and complained about only for the keywords in it. -/
theorem typeOf_accounted_of_not_isMapping (h : ¬IsMapping v) (name : String) :
    Accounted (AllShaped v) (AllSupported v) (typeOf v name) := by
  have hshaped : ¬AllShaped v := fun hall => by
    obtain ⟨es, rfl, -⟩ := hall v .refl
    exact h ⟨es, rfl⟩
  have hsupported : AllSupported v ↔ ¬Combines v := by
    refine forall_comesTo.trans ?_
    rw [IsSupported, and_iff_left fun u hu => absurd hu (not_leadsTo_of_not_isMapping h),
      and_iff_left]
    rintro es rfl
    exact absurd ⟨es, rfl⟩ h
  rw [typeOf_of_not_isMapping h]
  have hrefuse := refuseUnsupported_accounted v unsupportedKeywords
  cases hx : refuseUnsupported v unsupportedKeywords with
  | error e =>
    rw [hx] at hrefuse
    rcases hrefuse with ⟨he, hcombines⟩ | ⟨he, -⟩
    · exact accounted_complaint he fun hall => hcombines (hsupported.1 hall)
    · exact accounted_stumble he hshaped
  | ok _ => exact accounted_stumble .noEntries hshaped

end

mutual

/-- **Reading a schema is accounted for by the schemas that the reader comes to.** -/
theorem typeOf_accounted (v : Value) (name : String) :
    Accounted (AllShaped v) (AllSupported v) (typeOf v name) := by
  match v with
  | .dict es =>
    rw [typeOf_dict]
    refine ((combines_accounted es).bind fun _ hcombines => ?_).congr
      (by rw [true_and, allShaped_dict]) allSupported_dict.symm
    have hplain : form es ∉ [Form.alternatives, .list, .record] →
        (∀ u, LeadsTo (.dict es) u → AllShaped u) ∧ ∀ u, LeadsTo (.dict es) u → AllSupported u :=
      fun h => ⟨fun u hu => absurd hu (not_leadsTo h), fun u hu => absurd hu (not_leadsTo h)⟩
    cases hform : form es with
    | alternatives =>
      obtain ⟨variants, hvariants⟩ := exists_of_form_alternatives hform
      have := Entries.sizeOf_lt_of_get? hvariants
      rw [hvariants, Option.getD_some]
      refine ((optionalOf?_accounted variants).bind (fun found hfound => ?_)).congr
        (and_congr_left fun _ => ?_) (true_and _).to_iff
      · cases found with
        | none =>
          refine accounted_complaint (.problem _) fun h => ?_
          obtain ⟨⟨variants', inner, hvariants', hoptional⟩, -⟩ := h
          cases hvariants.symm.trans hvariants'
          cases hfound.symm.trans (optionalOf?_eq_some_iff.2 hoptional)
        | some inner =>
          have hoptional := optionalOf?_eq_some_iff.1 hfound
          have := sizeOf_lt_of_optionalOf? hfound
          refine ((typeOf_accounted inner name).map _).congr ?_ ?_
          · simp only [leadsTo_optional hform hvariants hoptional, forall_eq]
          · simp only [leadsTo_optional hform hvariants hoptional, forall_eq]
            exact (and_iff_right ⟨variants, inner, hvariants, hoptional⟩).symm
      · rw [HasParts, hvariants]
        simp only [Option.some.injEq]
    | enumeration =>
      obtain ⟨hshaped, hsupported⟩ := hplain (by simp [hform])
      exact ⟨⟨trivial, hshaped⟩, trivial, hsupported⟩
    | record =>
      have hcombined : ¬Combines (.dict es) := by
        have haccount := combines_accounted es
        rw [hcombines] at haccount
        exact haccount.2
      refine ((fieldsOf_accounted es name).map _).congr ?_ ?_
      · rw [FieldsShaped, HasParts, forall_leadsTo_property hform]
      · rw [FieldsSupported, Supports, forall_leadsTo_property hform, and_iff_right hcombined]
    | mapping =>
      obtain ⟨hshaped, hsupported⟩ := hplain (by simp [hform])
      exact ⟨⟨trivial, hshaped⟩, trivial, hsupported⟩
    | list =>
      obtain ⟨items, hitems⟩ := exists_of_form_list hform
      have := Entries.sizeOf_lt_of_get? hitems
      rw [hitems, Option.getD_some]
      refine ((typeOf_accounted items (name ++ "_item")).map _).congr ?_ ?_
      · simp only [leadsTo_item hform, hitems, Option.some.injEq, forall_eq', HasParts, true_and]
      · simp only [leadsTo_item hform, hitems, Option.some.injEq, forall_eq', Supports, true_and]
    | anyList =>
      obtain ⟨hshaped, hsupported⟩ := hplain (by simp [hform])
      exact ⟨⟨trivial, hshaped⟩, trivial, hsupported⟩
    | plain =>
      obtain ⟨hshaped, hsupported⟩ := hplain (by simp [hform])
      exact ((primitiveType_accounted _).map _).congr (and_iff_left hshaped).symm
        (and_iff_left hsupported).symm
  | .null | .bool _ | .int _ | .float _ | .str _ | .unpaired _ | .list _ | .tuple _ =>
    exact typeOf_accounted_of_not_isMapping (by rintro ⟨es, ⟨⟩⟩) name
termination_by (sizeOf v, 0)
decreasing_by
  all_goals simp only [Value.dict.sizeOf_spec]; exact Prod.Lex.left _ _ (by omega)

/-- Reading the fields of an object is accounted for by its properties. -/
theorem fieldsOf_accounted (es : Entries) (name : String) :
    Accounted (FieldsShaped es) (FieldsSupported es) (fieldsOf es name) := by
  have hall : Accounted
      (True ∧ (∀ v, es.get? "required" = some v → IsNameSet v) ∧
        (∀ v, es.get? "properties" = some v →
          ∃ properties : Entries, v = .dict properties ∧ ∀ p ∈ properties, IsFreeName p.1) ∧
        ∀ properties, es.get? "properties" = some (.dict properties) →
          ∀ p ∈ properties, AllShaped p.2)
      (¬Combines (.dict es) ∧ True ∧ HasSpellableFields es ∧
        ∀ properties, es.get? "properties" = some (.dict properties) →
          ∀ p ∈ properties, AllSupported p.2) (fieldsOf es name) := by
    rw [fieldsOf]
    refine (combines_accounted es).bind fun _ _ => ?_
    refine (requiredSet_accounted es).bind fun required _ => ?_
    split
    · next hnone =>
      refine ⟨⟨?_, ?_⟩, ?_, ?_⟩
      all_goals simp [HasSpellableFields, hnone]
    · next properties hproperties =>
      have := Entries.sizeOf_lt_of_get? hproperties
      have hfields : Accounted
          ((∀ p ∈ properties, AllShaped p.2) ∧ ∀ p ∈ properties, IsFreeName p.1)
          ((∀ p ∈ properties, AllSupported p.2) ∧ ∀ p ∈ properties, ∀ t, p.1 ≠ .unpaired t)
          (fieldsIn properties required name >>= namedFields) := by
        refine (fieldsIn_accounted properties required name).bind fun raw hraw => ?_
        exact (namedFields_accounted raw).congr (forall_name_of_fieldsIn hraw _)
          (forall_name_of_fieldsIn hraw fun k => ∀ t, k ≠ .unpaired t)
      refine hfields.congr ?_ ?_
      · simp [hproperties, and_comm]
      · simp [HasSpellableFields, hproperties, and_comm]
    · next v hv hdict =>
      refine accounted_stumble .noEntries fun h => ?_
      obtain ⟨properties, rfl, -⟩ := h.1 v hdict
      exact hv properties rfl
  refine hall.congr ?_ (by rw [true_and, FieldsSupported])
  constructor
  · exact fun ⟨_, hrequired, hproperties, hschemas⟩ => ⟨⟨hproperties, hrequired⟩, hschemas⟩
  · exact fun ⟨hfields, hschemas⟩ => ⟨trivial, hfields.required, hfields.properties, hschemas⟩
termination_by (sizeOf es, 1)
decreasing_by
  simp only [Value.dict.sizeOf_spec] at this; exact Prod.Lex.left _ _ (by omega)

theorem fieldsIn_accounted (properties : Entries) (required : List Value) (name : String) :
    Accounted (∀ p ∈ properties, AllShaped p.2) (∀ p ∈ properties, AllSupported p.2)
      (fieldsIn properties required name) := by
  match properties with
  | [] =>
    rw [fieldsIn]
    exact ⟨nofun, nofun⟩
  | (k, v) :: rest =>
    rw [fieldsIn]
    have hfirst := typeOf_accounted v (name ++ "_" ++ k.asText)
    have hrest := fieldsIn_accounted rest required name
    exact (hfirst.bind fun _ _ => hrest.map _).congr (by rw [List.forall_mem_cons])
      (by rw [List.forall_mem_cons])
termination_by (sizeOf properties, 0)
decreasing_by
  all_goals
    exact Prod.Lex.left _ _ (by simp only [List.cons.sizeOf_spec, Prod.mk.sizeOf_spec]; omega)

end

/-- A list of types is stumbled over. -/
example : typeOf (.record [("type", .list [.str "number", .str "null"])]) "price" =
    .error .wrongKind := by cbv

end Schema

/-- The outcome of a run in two parts is that of the parts. -/
theorem Run.outcome_bind {α β : Type} (r : Run α) (f : α → Run β) :
    (r >>= f).outcome = r.outcome >>= fun a => (f a).outcome := by
  cases h : r.outcome with
  | ok a => exact outcome_bind_of_ok f h
  | error e => exact outcome_bind_of_error f h

namespace Requirements

open Schema

/-! ### Documents -/

/-- A document is a value that is refused in words, or wraps a schema with definitions that can be
looked up. -/
def HasSchemaShape (v : Value) : Prop := ∀ es, v = .dict es → HasDefinitions (unwrap es)

/-- A schema is one of objects with properties; its type may be left out. -/
def IsObjectSchema (es : Entries) : Prop :=
  (∀ type, es.get? "type" = some type → type = .str "object") ∧ hasSection es "properties" = true

/-- A document is or wraps a schema whose references can be followed, one of objects with
properties. -/
def HasSupportedSchema (v : Value) : Prop :=
  ∃ es, v = .dict es ∧ CanBeFollowed (unwrap es) ∧
    ∀ ds, inlineReferences (unwrap es) = .ok (.dict ds) → IsObjectSchema ds

/-- The schema of a document describes a record with a text for its title. -/
def HasRecordShape (es : Entries) : Prop :=
  FieldsShaped es ∧ ∀ title, es.get? "title" = some title → title.isText = true

/-- The schema of a document describes a record that is supported. -/
def HasSupportedRecord (es : Entries) : Prop :=
  FieldsSupported es ∧ ∀ t, es.get? "title" ≠ some (.unpaired t)

theorem schema_document (es : Entries) : (document (.dict es)).schema =
    inlineReferences (unwrap es) >>= fun
      | .dict ds =>
        let type := (Entries.get? ds "type").getD (.str "object")
        if !type.sameKey (.str "object") then .error (.requirements (.notObject type.display))
        else if !hasSection ds "properties" then .error (.requirements .noProperties)
        else .ok ds
      | _ => .error .noEntries := rfl

theorem exists_dict_of_inlineReferences {v w : Value} (h : inlineReferences v = .ok w) :
    ∃ ds, w = .dict ds := by
  cases v with
  | dict es => exact exists_dict_of_inlineValue (inlineValue_of_inlineReferences h)
  | _ => cases h

theorem sameKey_object_iff (type : Option Value) :
    (type.getD (.str "object")).sameKey (.str "object") = true ↔
      ∀ t, type = some t → t = .str "object" := by
  rw [Value.sameKey_str]
  cases type with
  | none => simp
  | some t => simp

/-- The schema of a document is accounted for by its references, its type and its properties. -/
theorem schema_accounted (v : Value) :
    Accounted (HasSchemaShape v) (HasSupportedSchema v) (document v).schema := by
  cases v with
  | dict es =>
    have hall : Accounted
        (HasDefinitions (unwrap es) ∧ ∀ w, inlineReferences (unwrap es) = .ok w → True)
        (CanBeFollowed (unwrap es) ∧ ∀ w, inlineReferences (unwrap es) = .ok w →
          ∀ ds, w = .dict ds → IsObjectSchema ds) (document (.dict es)).schema := by
      rw [schema_document]
      refine (inlineReferences_accounted (unwrap es)).bindResult fun w hw => ?_
      obtain ⟨ds, rfl⟩ := exists_dict_of_inlineReferences hw
      dsimp only
      split
      · next htype =>
        rw [Bool.not_eq_true', ← Bool.not_eq_true, sameKey_object_iff] at htype
        exact accounted_complaint (.problem _) fun h => htype (h ds rfl).1
      · next htype =>
        rw [Bool.not_eq_true', Bool.not_eq_false, sameKey_object_iff] at htype
        split
        · next hsection =>
          refine accounted_complaint (.problem _) fun h => ?_
          simp [(h ds rfl).2] at hsection
        · next hsection =>
          refine ⟨trivial, ?_⟩
          rintro ds' heq
          cases heq
          exact ⟨htype, by simpa using hsection⟩
    refine hall.congr ?_ ?_
    · rw [and_iff_left fun _ _ => trivial]
      constructor
      · rintro h es' heq
        cases heq
        exact h
      · exact fun h => h es rfl
    · constructor
      · exact fun ⟨hfollow, h⟩ => ⟨es, rfl, hfollow, fun ds hds => h _ hds ds rfl⟩
      · rintro ⟨es', heq, hfollow, h⟩
        cases heq
        exact ⟨hfollow, fun w hw ds hds => h ds (hds ▸ hw)⟩
  | _ => exact accounted_complaint (.problem _) (by rintro ⟨es, ⟨⟩, -⟩)

theorem properties_accounted (v : Value) :
    Accounted (HasSchemaShape v) (HasSupportedSchema v) (document v).properties :=
  (schema_accounted v).map _

/-- The names of what is no mapping can be listed or not. -/
theorem listed_eq_error {v : Value} {e : Failure} (h : listed v = .error e) :
    e = .wrongKind ∧ ¬IsMapping v := by
  cases v <;> cases h
  all_goals exact ⟨rfl, by rintro ⟨es, ⟨⟩⟩⟩

/-- What is done with the schema of a document to make a record of it. -/
theorem toRecord_outcome (v : Value) : (document v).toRecord.outcome =
    (document v).schema >>= fun es => listed ((es.get? "properties").getD .null) >>= fun _ =>
      fieldsOf es ((es.get? "title").getD (.str defaultName)).asText >>= fun fields =>
        match (es.get? "title").getD (.str defaultName) with
        | .str name => .ok ⟨name, true, fields⟩
        | .unpaired _ => .error .unspellable
        | _ => .error .wrongKind := by
  rw [toRecord]
  simp only [Run.outcome_bind, Run.ofExcept_outcome, Run.log_outcome]
  congr 1
  funext es
  congr 1
  funext names
  refine congrArg (fieldsOf es _ >>= ·) (funext fun fields => ?_)
  cases (es.get? "title").getD (.str defaultName) <;> rfl

/-- The title of a record has to be a text, and one that can be spelled. -/
theorem title_accounted (title : Option Value) (fields : List (String × DataType × FieldNote)) :
    Accounted (∀ t, title = some t → t.isText = true) (∀ t, title ≠ some (.unpaired t))
      (match title.getD (.str defaultName) with
        | .str name => .ok ⟨name, true, fields⟩
        | .unpaired _ => .error .unspellable
        | _ => .error .wrongKind : Except Failure Record) := by
  cases title with
  | none => exact ⟨nofun, nofun⟩
  | some t =>
    cases t with
    | str name => exact ⟨fun t ht => by cases ht; rfl, nofun⟩
    | unpaired t => exact accounted_complaint .unspellable fun h => h t rfl
    | _ => exact accounted_stumble .wrongKind fun h => by cases h _ rfl

/-- The record that a schema describes is accounted for by its properties and its title. -/
theorem record_accounted {es : Entries} (hsection : hasSection es "properties" = true) :
    Accounted (HasRecordShape es) (HasSupportedRecord es)
      (listed ((es.get? "properties").getD .null) >>= fun _ =>
        fieldsOf es ((es.get? "title").getD (.str defaultName)).asText >>= fun fields =>
          match (es.get? "title").getD (.str defaultName) with
          | .str name => .ok ⟨name, true, fields⟩
          | .unpaired _ => .error .unspellable
          | _ => .error .wrongKind : Except Failure Record) := by
  cases hlisted : listed ((es.get? "properties").getD .null) with
  | error e =>
    obtain ⟨rfl, hmapping⟩ := listed_eq_error hlisted
    refine accounted_stumble .wrongKind fun h => hmapping ?_
    cases hproperties : es.get? "properties" with
    | none => simp [hasSection, hproperties] at hsection
    | some v =>
      obtain ⟨properties, rfl, -⟩ := h.1.1.properties v hproperties
      exact ⟨properties, rfl⟩
  | ok names =>
    exact (fieldsOf_accounted es _).bind fun fields _ => title_accounted (es.get? "title") fields

/-- A document that wraps no schema is not complained about. -/
example : (document (.record [("schema", .null)])).schema = .error .noEntries := by rfl

end Requirements

end PagePlan
