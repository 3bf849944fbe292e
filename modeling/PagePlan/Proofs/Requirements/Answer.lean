/-
# What a checked reply comes to

A reply that passes the check against a record comes to data of the shape that the schema of the
record asks for.  The shape is told here by the schema alone, down to every property and item
(`Schema.Answers`): an object with properties comes to a mapping with the names of the properties in
their order and nothing else, and each scalar is what the reply says there, read as the type of its
schema.  A property that is not required may be null, and where the reply leaves it out its declared
default stands in for it, whatever that is.

The reader of requirements makes types of schemas and the check goes by the types, so the induction
is on the schema: `Reads` tells what type it was read as, and the check is undone for that type.

* `answers_of_check` — what passes the check against a type answers the schema that it was read from;
* `answer_of_validate` — so does what passes the check against the record of a document.
-/
import PagePlan.Proofs.Requirements.Allowance

namespace PagePlan

namespace Schema

/-- A value is what another says, read as the type of a name; a text where the name is of none of
the types without parts. -/
inductive Spells : Option Value → Value → Value → Prop
  | number {d : Value} {x : Binary64} : Lenient.number d = .ok x →
      Spells (some (.str "number")) d (.float x)
  | integer {d : Value} {n : Int} : Lenient.integer d = .ok n →
      Spells (some (.str "integer")) d (.int n)
  | boolean {d : Value} {b : Bool} : Lenient.boolean d = .ok b →
      Spells (some (.str "boolean")) d (.bool b)
  | null : Spells (some (.str "null")) .null .null
  | string {type : Option Value} {s : String} :
      (∀ name ∈ ["number", "integer", "boolean", "null"], type ≠ some (.str name)) →
      Spells type (.str s) (.str s)

mutual

/-- A value is what a reply comes to where a schema asks for data. -/
inductive Answers : Value → Value → Value → Prop
  | optionalNull {es : Entries} {variants : Value} : es.get? "anyOf" = some variants →
      Answers (.dict es) .null .null
  /-- Of the alternatives, the one that is not null. -/
  | optional {es : Entries} {variants : List Value} {inner d w : Value} :
      es.get? "anyOf" = some (.list variants) → inner ∈ variants →
      (∀ s ∈ variants, s = inner ∨ isNullSchema s = .ok true) →
      Answers inner d w → Answers (.dict es) d w
  | enumeration {es : Entries} {s : String} : es.get? "anyOf" = none → es.has "enum" = true →
      Answers (.dict es) (.str s) (.str s)
  /-- An object with properties: no other keys are in the reply, and the values stand under the
  names of the properties, in their order. -/
  | record {es properties ds found : Entries} {required : List Value} :
      es.get? "anyOf" = none → es.has "enum" = false → es.get? "type" = some (.str "object") →
      es.get? "properties" = some (.dict properties) → requiredSet es = .ok required →
      (∀ e ∈ ds, e.1 ∈ properties.map Prod.fst) → FieldsAnswer required ds properties found →
      Answers (.dict es) (.dict ds) (.dict found)
  | mapping {es ds : Entries} : es.get? "anyOf" = none → es.has "enum" = false →
      es.get? "type" = some (.str "object") → hasSection es "properties" = false →
      Answers (.dict es) (.dict ds) (.dict ds)
  | list {es : Entries} {items d : Value} {xs ys : List Value} : es.get? "anyOf" = none →
      es.has "enum" = false → es.get? "type" = some (.str "array") →
      es.get? "items" = some items → items.truthy = true → d = .list xs ∨ d = .tuple xs →
      ItemsAnswer items xs ys → Answers (.dict es) d (.list ys)
  | anyList {es : Entries} {d : Value} {xs : List Value} : es.get? "anyOf" = none →
      es.has "enum" = false → es.get? "type" = some (.str "array") →
      hasSection es "items" = false → d = .list xs ∨ d = .tuple xs → Answers (.dict es) d (.list xs)
  | nullable {es : Entries} : es.get? "anyOf" = none → es.has "enum" = false →
      es.get? "type" ≠ some (.str "object") → es.get? "type" ≠ some (.str "array") →
      hasSection es "nullable" = true → Answers (.dict es) .null .null
  | primitive {es : Entries} {d w : Value} : es.get? "anyOf" = none → es.has "enum" = false →
      es.get? "type" ≠ some (.str "object") → es.get? "type" ≠ some (.str "array") →
      Spells (es.get? "type") d w → Answers (.dict es) d w

/-- Values are what the items of a reply come to, one for each. -/
inductive ItemsAnswer : Value → List Value → List Value → Prop
  | nil {items : Value} : ItemsAnswer items [] []
  | cons {items x y : Value} {xs ys : List Value} : Answers items x y → ItemsAnswer items xs ys →
      ItemsAnswer items (x :: xs) (y :: ys)

/-- Entries are what the entries of a reply come to for properties, one for each and under its name.
What is required is in the reply, with a value that answers; what is not may also be null there, or
be left out for its default. -/
inductive FieldsAnswer : List Value → Entries → Entries → Entries → Prop
  | nil {required : List Value} {ds : Entries} : FieldsAnswer required ds [] []
  | given {required : List Value} {ds properties found : Entries} {name : String} {s d w : Value} :
      ds.get? name = some d → Answers s d w → FieldsAnswer required ds properties found →
      FieldsAnswer required ds ((.str name, s) :: properties) ((.str name, w) :: found)
  | null {required : List Value} {ds properties found : Entries} {name : String} {s : Value} :
      (required.any fun r => r.sameKey (.str name)) = false → ds.get? name = some .null →
      FieldsAnswer required ds properties found →
      FieldsAnswer required ds ((.str name, s) :: properties) ((.str name, .null) :: found)
  | default {required : List Value} {ds properties found : Entries} {name : String} {s : Value} :
      (required.any fun r => r.sameKey (.str name)) = false → ds.get? name = none →
      FieldsAnswer required ds properties found →
      FieldsAnswer required ds ((.str name, s) :: properties)
        ((.str name, declaredDefault s) :: found)

end

/-- What a reply comes to has the names of the properties, in their order. -/
theorem FieldsAnswer.keys {required : List Value} {ds properties found : Entries}
    (h : FieldsAnswer required ds properties found) :
    found.map Prod.fst = properties.map Prod.fst := by
  induction properties generalizing found with
  | nil =>
    cases h
    rfl
  | cons p properties ih =>
    cases h with
    | given _ _ h => rw [List.map_cons, List.map_cons, ih h]
    | null _ _ h => rw [List.map_cons, List.map_cons, ih h]
    | default _ _ h => rw [List.map_cons, List.map_cons, ih h]

end Schema

namespace Record

open Schema

/-! ### Undoing the check -/

section

variable {top : Record} {t item : DataType} {d w : Value} {ds found : Entries}
  {fields : List (String × DataType × FieldNote)}

theorem ofKind_eq_ok {α : Type} {x : Except FaultKind α} {a : α}
    (h : Checked.ofKind x = .ok a) : x = .ok a := by
  cases x with
  | error kind => cases h
  | ok b => exact congrArg Except.ok (Except.ok.inj h)

theorem under_eq_ok {α : Type} {step : PathStep} {c : Checked α} {a : α}
    (h : c.under step = .ok a) : c = .ok a := by
  cases c with
  | error faults => cases h
  | ok b => exact congrArg Except.ok (Except.ok.inj h)

theorem both_eq_ok {α β : Type} {c : Checked α} {c' : Checked β} {p : α × β}
    (h : Checked.both c c' = .ok p) : c = .ok p.1 ∧ c' = .ok p.2 := by
  cases c <;> cases c' <;> cases h
  exact ⟨rfl, rfl⟩

/-- A check for a type or null takes null, or what the check for the type takes. -/
theorem eq_null_or_of_check_orNull (h : check top t.orNull d = .ok w) :
    (d = .null ∧ w = .null) ∨ check top t d = .ok w := by
  by_cases hopt : t.orNull = .optional t
  · rw [hopt] at h
    by_cases hnull : d = .null
    · subst hnull
      rw [check] at h
      exact Or.inl ⟨rfl, (Except.ok.inj h).symm⟩
    · rw [check] at h
      · exact Or.inr h
      · exact hnull
  · -- a type that allows null already is kept
    have hself : t.orNull = t := by
      cases t <;> first | rfl | exact absurd rfl hopt
    rw [hself] at h
    exact Or.inr h

theorem of_checkItems_cons {x : Value} {xs ys : List Value} {i : Nat}
    (h : checkItems top item i (x :: xs) = .ok ys) :
    ∃ y rest, ys = y :: rest ∧ check top item x = .ok y ∧
      checkItems top item (i + 1) xs = .ok rest := by
  rw [checkItems] at h
  obtain ⟨⟨y, rest⟩, hboth, rfl⟩ := except_map_eq_ok.1 h
  obtain ⟨hy, hrest⟩ := both_eq_ok hboth
  exact ⟨y, rest, rfl, under_eq_ok hy, hrest⟩

/-- A field that passes has a value in the mapping, or is not required and has its default. -/
theorem of_checkFields_cons {name : String} {note : FieldNote}
    (h : checkFields top ds ((name, t, note) :: fields) = .ok found) :
    ∃ w others, found = (.str name, w) :: others ∧ checkFields top ds fields = .ok others ∧
      ((∃ d, ds.get? name = some d ∧ check top t d = .ok w) ∨
        (ds.get? name = none ∧ note.required = false ∧ w = note.default)) := by
  cases hd : ds.get? name with
  | some d =>
    rw [checkFields_of_some hd] at h
    obtain ⟨⟨w, others⟩, hboth, rfl⟩ := except_map_eq_ok.1 h
    obtain ⟨hw, hothers⟩ := both_eq_ok hboth
    exact ⟨w, others, rfl, hothers, Or.inl ⟨d, rfl, under_eq_ok hw⟩⟩
  | none =>
    cases hrequired : note.required with
    | false =>
      rw [checkFields_of_none hd hrequired] at h
      obtain ⟨others, hothers, rfl⟩ := except_map_eq_ok.1 h
      exact ⟨note.default, others, rfl, hothers, Or.inr ⟨rfl, rfl, rfl⟩⟩
    | true =>
      rw [checkFields] at h
      obtain ⟨⟨w, others⟩, hboth, -⟩ := except_map_eq_ok.1 h
      obtain ⟨hw, -⟩ := both_eq_ok hboth
      split at hw
      · next d' hd' =>
        rw [hd] at hd'
        cases hd'
      · rw [hrequired] at hw
        cases hw

/-- A closed record takes a mapping only if its keys are names of fields. -/
theorem of_guardKeys {names : List String} {c : Checked Entries}
    (h : guardKeys true names ds c = .ok found) :
    c = .ok found ∧ ∀ e ∈ ds, ∃ name ∈ names, e.1 = .str name := by
  rw [guardKeys.eq_def, if_pos rfl] at h
  split at h
  · next fields hknown =>
    refine ⟨congrArg Except.ok (Except.ok.inj h), ?_⟩
    rintro ⟨k, v⟩ he
    rw [unknownKeys, List.filterMap_eq_nil_iff] at hknown
    have hkey := hknown _ he
    cases k with
    | str name =>
      simp only [ite_eq_left_iff, reduceCtorEq, imp_false, Bool.not_eq_true, Bool.not_eq_false]
        at hkey
      exact ⟨name, List.contains_iff_mem.1 hkey, rfl⟩
    | _ => cases hkey
  · cases h
  · cases h

end

/-! ### Answers to schemas -/

section

variable {top : Record} {es ds found : Entries} {d w : Value}

/-- What passes as a text is one. -/
theorem eq_str_of_check_string (h : check top .string d = .ok w) : ∃ s, d = .str s ∧ w = .str s := by
  rw [check] at h
  obtain ⟨s, hs, rfl⟩ := except_map_eq_ok.1 (ofKind_eq_ok h)
  cases d with
  | str s' => exact ⟨s', rfl, by rw [← Except.ok.inj hs]⟩
  | _ => cases hs

/-- What passes as the type that a name stands for is read as that type. -/
theorem spells_of_check {type : Option Value} {base : DataType}
    (hbase : primitiveType type = .ok base) (h : check top base d = .ok w) : Spells type d w := by
  unfold primitiveType at hbase
  split at hbase
  · obtain rfl := Except.ok.inj hbase
    rw [check] at h
    obtain ⟨x, hx, rfl⟩ := except_map_eq_ok.1 (ofKind_eq_ok h)
    exact .number hx
  · obtain rfl := Except.ok.inj hbase
    rw [check] at h
    obtain ⟨n, hn, rfl⟩ := except_map_eq_ok.1 (ofKind_eq_ok h)
    exact .integer hn
  · obtain rfl := Except.ok.inj hbase
    rw [check] at h
    obtain ⟨b, hb, rfl⟩ := except_map_eq_ok.1 (ofKind_eq_ok h)
    exact .boolean hb
  · obtain rfl := Except.ok.inj hbase
    by_cases hnull : d = .null
    · subst hnull
      rw [check] at h
      obtain rfl := Except.ok.inj h
      exact .null
    · rw [check] at h
      · cases h
      · exact hnull
  · cases hbase
  · cases hbase
  · next hnumber hinteger hboolean hnull _ _ =>
    obtain rfl := Except.ok.inj hbase
    obtain ⟨s, rfl, rfl⟩ := eq_str_of_check_string h
    refine .string ?_
    simp only [List.mem_cons, List.not_mem_nil, or_false]
    rintro name (rfl | rfl | rfl | rfl)
    · exact hnumber
    · exact hinteger
    · exact hboolean
    · exact hnull

/-- The items of a reply that pass come to items that answer. -/
theorem itemsAnswer_of_checkItems {items : Value} {item : DataType}
    (ih : ∀ x y, check top item x = .ok y → Answers items x y) {xs ys : List Value} {i : Nat}
    (h : checkItems top item i xs = .ok ys) : ItemsAnswer items xs ys := by
  induction xs generalizing i ys with
  | nil =>
    rw [checkItems] at h
    obtain rfl := Except.ok.inj h
    exact .nil
  | cons x xs ihxs =>
    obtain ⟨y, rest, rfl, hy, hrest⟩ := of_checkItems_cons h
    exact .cons (ih x y hy) (ihxs hrest)

/-- The fields that pass come to entries that answer their properties. -/
theorem fieldsAnswer_of_checkFields {required : List Value} {properties : Entries}
    {fields : List (String × DataType × FieldNote)}
    (hfields : List.Forall₂ (IsFieldOf required) properties fields)
    (ih : ∀ p ∈ properties, ∀ {d w : Value} {name : String} {t : DataType},
      typeOf p.2 name = .ok t → check top t d = .ok w → Answers p.2 d w)
    (h : checkFields top ds fields = .ok found) : FieldsAnswer required ds properties found := by
  induction hfields generalizing found with
  | nil =>
    rw [checkFields] at h
    obtain rfl := Except.ok.inj h
    exact .nil
  | @cons p field properties fields hof _ ihrest =>
    obtain ⟨k, s⟩ := p
    obtain ⟨name, t, note⟩ := field
    obtain rfl : k = .str name := hof.key
    obtain ⟨w, others, rfl, hothers, hvalue⟩ := of_checkFields_cons h
    have hrest := ihrest (fun p hp => ih p (List.mem_cons_of_mem _ hp)) hothers
    obtain ⟨typeName, read, hread, ht⟩ := hof.read
    have hanswers {d w : Value} : check top read d = .ok w → Answers s d w :=
      ih _ List.mem_cons_self hread
    rcases hvalue with ⟨d, hd, hcheck⟩ | ⟨hnone, hfree, rfl⟩
    · -- only the type of a field that is not required takes null for itself
      dsimp only at ht
      cases hrequired : note.required with
      | true =>
        rw [ht, hrequired, if_pos rfl] at hcheck
        exact .given hd (hanswers hcheck) hrest
      | false =>
        rw [ht, hrequired, if_neg Bool.false_ne_true] at hcheck
        rcases eq_null_or_of_check_orNull hcheck with ⟨rfl, rfl⟩ | hcheck
        · exact .null (hof.required_eq.symm.trans hrequired) hd hrest
        · exact .given hd (hanswers hcheck) hrest
    · have hdefault : note.default = declaredDefault s := hof.default_eq
      rw [hdefault]
      exact .default (hof.required_eq.symm.trans hfree) hnone hrest

/-- The keys of a reply that passes are those of the properties. -/
theorem mem_keys_of_fields {required : List Value} {properties : Entries}
    {fields : List (String × DataType × FieldNote)}
    (hfields : List.Forall₂ (IsFieldOf required) properties fields)
    (hkeys : ∀ e ∈ ds, ∃ name ∈ fields.map Prod.fst, e.1 = .str name) :
    ∀ e ∈ ds, e.1 ∈ properties.map Prod.fst := by
  intro e he
  obtain ⟨name, hname, hkey⟩ := hkeys e he
  obtain ⟨field, hfield, rfl⟩ := List.mem_map.1 hname
  obtain ⟨p, hp, hof⟩ := exists_left_of_forall₂ hfields field hfield
  exact List.mem_map.2 ⟨p, hp, hof.key.trans hkey.symm⟩

end

/-- A mapping that passes the check against the record of a schema comes to entries that answer the
properties, if what passes for each of them does. -/
theorem fieldsAnswer_of_fieldsOf (top : Record) {es ds found : Entries} {name : String}
    {fields : List (String × DataType × FieldNote)} (hfields : fieldsOf es name = .ok fields)
    (hsection : hasSection es "properties" = true)
    (h : guardKeys true (fields.map Prod.fst) ds (checkFields top ds fields) = .ok found)
    (ih : ∀ s, sizeOf s < sizeOf es → ∀ {d w : Value} {name : String} {t : DataType},
      typeOf s name = .ok t → check top t d = .ok w → Answers s d w) :
    ∃ properties required, es.get? "properties" = some (.dict properties) ∧
      requiredSet es = .ok required ∧ (∀ e ∈ ds, e.1 ∈ properties.map Prod.fst) ∧
      FieldsAnswer required ds properties found := by
  obtain ⟨properties, required, hget, hrequired, hall⟩ := fields_of_fieldsOf hfields hsection
  obtain ⟨hfound, hkeys⟩ := of_guardKeys h
  refine ⟨properties, required, hget, hrequired, mem_keys_of_fields hall hkeys,
    fieldsAnswer_of_checkFields hall ?_ hfound⟩
  rintro ⟨k, s⟩ hp d w name t hread hcheck
  refine ih s ?_ hread hcheck
  have hproperty := List.sizeOf_lt_of_mem hp
  have hproperties := Entries.sizeOf_lt_of_get? hget
  simp only [Prod.mk.sizeOf_spec] at hproperty
  simp only [Value.dict.sizeOf_spec] at hproperties
  omega

/-- **What passes the check against a type answers the schema that the type was read from.** -/
theorem answers_of_check (top : Record) {v d w : Value} {name : String} {t : DataType}
    (hread : typeOf v name = .ok t) (hcheck : check top t d = .ok w) : Answers v d w := by
  induction hsize : sizeOf v using Nat.strong_induction_on generalizing v d w name t with
  | _ size ih =>
  subst hsize
  obtain ⟨es, rfl, hreads⟩ := reads_of_typeOf hread
  cases hreads with
  | optional hvariants hinner hothers hread' =>
    -- either alternative may have taken the value; the other than null is smaller than the schema
    rcases eq_null_or_of_check_orNull hcheck with ⟨rfl, rfl⟩ | hcheck
    · exact .optionalNull hvariants
    · have hvariant := List.sizeOf_lt_of_mem hinner
      have hkeyword := sizeOf_keyword_lt hvariants
      simp only [Value.list.sizeOf_spec] at hkeyword
      exact .optional hvariants hinner hothers (ih _ (by omega) hread' hcheck rfl)
  | enumeration hvariants henum =>
    obtain ⟨s, rfl, rfl⟩ := eq_str_of_check_string hcheck
    exact .enumeration hvariants henum
  | record hvariants henum htype hproperties hfields =>
    rw [check.eq_def] at hcheck
    dsimp only at hcheck
    split at hcheck
    · next ds =>
      obtain ⟨found, hfound, rfl⟩ := except_map_eq_ok.1 hcheck
      obtain ⟨properties, required, hget, hrequired, hkeys, hanswer⟩ :=
        fieldsAnswer_of_fieldsOf top hfields hproperties hfound
          fun s hs {_ _ _ _} hread hcheck => ih _ (hs.trans (by simp)) hread hcheck rfl
      exact .record hvariants henum htype hget hrequired hkeys hanswer
    · cases hcheck
  | mapping hvariants henum htype hproperties =>
    rw [check.eq_def] at hcheck
    dsimp only at hcheck
    split at hcheck
    · obtain rfl := Except.ok.inj hcheck
      exact .mapping hvariants henum htype hproperties
    · cases hcheck
  | @list items item hvariants henum htype hitems htruthy hread' =>
    have hitem (x y : Value) (h : check top item x = .ok y) : Answers items x y :=
      ih _ (sizeOf_keyword_lt hitems) hread' h rfl
    rw [check.eq_def] at hcheck
    dsimp only at hcheck
    split at hcheck
    · obtain ⟨ys, hys, rfl⟩ := except_map_eq_ok.1 hcheck
      exact .list hvariants henum htype hitems htruthy (Or.inl rfl)
        (itemsAnswer_of_checkItems hitem hys)
    · obtain ⟨ys, hys, rfl⟩ := except_map_eq_ok.1 hcheck
      exact .list hvariants henum htype hitems htruthy (Or.inr rfl)
        (itemsAnswer_of_checkItems hitem hys)
    · cases hcheck
  | anyList hvariants henum htype hitems =>
    rw [check.eq_def] at hcheck
    dsimp only at hcheck
    split at hcheck
    · obtain rfl := Except.ok.inj hcheck
      exact .anyList hvariants henum htype hitems (Or.inl rfl)
    · obtain rfl := Except.ok.inj hcheck
      exact .anyList hvariants henum htype hitems (Or.inr rfl)
    · cases hcheck
  | primitive hvariants henum hobject harray hbase =>
    split at hcheck
    · next hnullable =>
      rcases eq_null_or_of_check_orNull hcheck with ⟨rfl, rfl⟩ | hcheck
      · exact .nullable hvariants henum hobject harray hnullable
      · exact .primitive hvariants henum hobject harray (spells_of_check hbase hcheck)
    · exact .primitive hvariants henum hobject harray (spells_of_check hbase hcheck)

end Record

namespace Requirements

open Schema

/-- **What passes the check against the record of a document answers its schema.** -/
theorem answer_of_validate {v d w : Value} {r : Record}
    (hr : (toRecord (.document v)).outcome = .ok r) (h : r.validate d = .ok w) :
    ∃ es properties required ds found, (document v).schema = .ok es ∧
      es.get? "properties" = some (.dict properties) ∧ requiredSet es = .ok required ∧
      d = .dict ds ∧ w = .dict found ∧ (∀ e ∈ ds, e.1 ∈ properties.map Prod.fst) ∧
      FieldsAnswer required ds properties found := by
  obtain ⟨es, fields, hes, hfields, htype⟩ := fieldsOf_of_toRecord hr
  have hrecord : r.toType = .record r.name true fields := by rw [htype, Record.toType]
  rw [Record.validate, hrecord, Record.check.eq_def] at h
  dsimp only at h
  split at h
  · next ds =>
    obtain ⟨found, hfound, rfl⟩ := except_map_eq_ok.1 h
    obtain ⟨properties, required, hget, hrequired, hkeys, hanswer⟩ :=
      Record.fieldsAnswer_of_fieldsOf r hfields (hasSection_of_schema hes) hfound
        fun s _ {_ _ _ _} => Record.answers_of_check r
    exact ⟨es, properties, required, ds, found, hes, hget, hrequired, rfl, rfl, hkeys, hanswer⟩
  · cases h

end Requirements

end PagePlan
