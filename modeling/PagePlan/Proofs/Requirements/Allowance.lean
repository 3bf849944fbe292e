/-
# Data that requirements allow

The record that is read from requirements takes the data that their schema allows, at every depth,
as long as they are plain for it.  What is not plain is refused or taken differently by design: the
reader makes one type of each schema, and an enumeration of numbers, say, is read as texts.

* `Record.passes_of_isValid` — the check against a type that was read from a schema takes what the
  schema allows;
* `Requirements.validate_of_isValid` — so does the record of a document.
-/
import Mathlib
import PagePlan.Proofs.Requirements.Agreement
import PagePlan.Proofs.Requirements.Reading
import PagePlan.Proofs.Requirements.Validity

namespace PagePlan

namespace Record

open Schema

/-! ### Values that pass -/

/-- A check takes a value. -/
def Passes (top : Record) (t : DataType) (d : Value) : Prop := ∃ w, check top t d = .ok w

section

variable {top : Record} {t item : DataType} {d : Value} {ds : Entries}
  {fields : List (String × DataType × FieldNote)}

theorem passes_optional (h : d ≠ .null → Passes top t d) : Passes top (.optional t) d := by
  by_cases hnull : d = .null
  · subst hnull
    exact ⟨.null, by rw [check]⟩
  · obtain ⟨w, hw⟩ := h hnull
    refine ⟨w, ?_⟩
    rw [check]
    · exact hw
    · exact hnull

theorem passes_orNull_null : Passes top t.orNull .null := by
  cases t with
  | null => exact ⟨.null, by rw [DataType.orNull, check]⟩
  | _ => exact passes_optional fun h => absurd rfl h

/-- What a type takes it takes if null is allowed besides. -/
theorem Passes.orNull (h : Passes top t d) : Passes top t.orNull d := by
  cases t with
  | null => exact h
  | optional t => exact h
  | _ => exact passes_optional fun _ => h

theorem passes_list {xs : List Value} (h : ∀ x ∈ xs, Passes top item x) :
    Passes top (.list item) (.list xs) := by
  have hitems : ∀ i, ∃ ys, checkItems top item i xs = .ok ys := by
    induction xs with
    | nil => exact fun i => ⟨[], by rw [checkItems]⟩
    | cons x xs ih =>
      intro i
      obtain ⟨y, hy⟩ := h x List.mem_cons_self
      obtain ⟨ys, hys⟩ := ih (fun x hx => h x (List.mem_cons_of_mem _ hx)) (i + 1)
      refine ⟨y :: ys, ?_⟩
      rw [checkItems, hy, hys]
      rfl
  obtain ⟨ys, hys⟩ := hitems 0
  refine ⟨.list ys, ?_⟩
  rw [check, hys]
  rfl

/-- A field passes if its value does, or if it is missing and not required. -/
def PassesField (top : Record) (ds : Entries) (field : String × DataType × FieldNote) : Prop :=
  (∃ v, ds.get? field.1 = some v ∧ Passes top field.2.1 v) ∨
    (ds.get? field.1 = none ∧ field.2.2.required = false)

theorem checkFields_of_some {name : String} {v : Value} {note : FieldNote}
    (hv : ds.get? name = some v) :
    checkFields top ds ((name, t, note) :: fields) =
      (Checked.both ((check top t v).under (.name name)) (checkFields top ds fields)).map
        fun (w, others) => (.str name, w) :: others := by
  rw [checkFields]
  split
  · next v' hv' =>
    obtain rfl : v = v' := Option.some.inj (hv.symm.trans hv')
    rfl
  · next hnone => simp [hv] at hnone

theorem checkFields_of_none {name : String} {note : FieldNote} (hnone : ds.get? name = none)
    (hrequired : note.required = false) :
    checkFields top ds ((name, t, note) :: fields) =
      (checkFields top ds fields).map fun others => (.str name, note.default) :: others := by
  rw [checkFields]
  split
  · next v hv => simp [hnone] at hv
  · rw [hrequired]
    cases checkFields top ds fields <;> rfl

theorem checkFields_eq_ok (h : ∀ field ∈ fields, PassesField top ds field) :
    ∃ found, checkFields top ds fields = .ok found := by
  induction fields with
  | nil => exact ⟨[], by rw [checkFields]⟩
  | cons field fields ih =>
    obtain ⟨name, t, note⟩ := field
    obtain ⟨found, hfound⟩ := ih fun f hf => h f (List.mem_cons_of_mem _ hf)
    rcases h _ List.mem_cons_self with ⟨v, hv, w, hw⟩ | ⟨hnone, hrequired⟩
    · refine ⟨(.str name, w) :: found, ?_⟩
      rw [checkFields_of_some hv, hw, hfound]
      rfl
    · refine ⟨(.str name, note.default) :: found, ?_⟩
      rw [checkFields_of_none hnone hrequired, hfound]
      rfl

/-- A mapping without other keys than the names of fields passes if the fields do. -/
theorem passes_record (name : String) (closed : Bool)
    (hnames : ∀ e ∈ ds, ∃ name ∈ fields.map Prod.fst, e.1 = .str name)
    (h : ∀ field ∈ fields, PassesField top ds field) :
    Passes top (.record name closed fields) (.dict ds) := by
  obtain ⟨found, hfound⟩ := checkFields_eq_ok h
  refine ⟨.dict found, ?_⟩
  rw [check, hfound, guardKeys_eq_ok hnames]
  rfl

end

/-! ### What a schema allows -/

section

variable {top : Record} {es ds : Entries} {d : Value}

/-- An integer, or a number without a fraction that is not too large, passes as an integer. -/
theorem passes_integer (h : isOfType "integer" d = true) (hsized : isIntegerSized d = true) :
    Passes top .integer d := by
  rcases eq_integer_of_isOfType h with ⟨n, rfl⟩ | ⟨x, rfl, hwhole⟩
  · exact ⟨.int n, by rw [check]; rfl⟩
  · have hfinite : x.isFinite = true := by
      rw [Binary64.isWhole, Bool.and_eq_true] at hwhole
      exact hwhole.1
    have hinteger : Lenient.integer (.float x) = .ok x.truncate := by
      have hsmall : x.truncate.natAbs < Decimal.twoTo 63 := by simpa [isIntegerSized] using hsized
      simp [Lenient.integer, Lenient.integerOfNumber, hfinite, hwhole, hsmall]
    exact ⟨.int x.truncate, by rw [check, hinteger]; rfl⟩

/-- A number in the range of floating-point numbers passes as a number. -/
theorem passes_number (h : isOfType "number" d = true) (hsized : isNumberSized d = true) :
    Passes top .number d := by
  rcases eq_number_of_isOfType h with ⟨n, rfl⟩ | ⟨x, rfl⟩
  · have htakes : Takes top .number (.int n) := takes_number_int hsized
    obtain ⟨w, hw, -⟩ := htakes
    exact ⟨w, hw⟩
  · exact ⟨.float x, by rw [check]; rfl⟩

theorem eq_str_of_str? (h : d.str?.isSome = true) : ∃ s, d = .str s := by
  cases d <;> simp [Value.str?] at h ⊢

theorem passes_string (h : d.str?.isSome = true) : Passes top .string d := by
  obtain ⟨s, rfl⟩ := eq_str_of_str? h
  exact ⟨.str s, by rw [check]; rfl⟩

/-- What a schema of a type without parts allows passes. -/
theorem passes_primitive {base : DataType} (hbase : primitiveType (es.get? "type") = .ok base)
    (hobject : es.get? "type" ≠ some (.str "object"))
    (harray : es.get? "type" ≠ some (.str "array")) (henum : es.has "enum" = false)
    (hmeets : meets es d = true) (hplain : isPlainHere es d = true)
    (hnull : ¬ (d = .null ∧ isNullable es = true)) : Passes top base d := by
  unfold primitiveType at hbase
  rw [isPlainHere, henum, if_neg Bool.false_ne_true] at hplain
  split at hbase
  · next htype =>
    obtain rfl := Except.ok.inj hbase
    simp only [htype] at hplain
    exact passes_number (isOfType_of_meets hmeets htype) hplain
  · next htype =>
    obtain rfl := Except.ok.inj hbase
    simp only [htype] at hplain
    exact passes_integer (isOfType_of_meets hmeets htype) hplain
  · next htype =>
    obtain rfl := Except.ok.inj hbase
    obtain ⟨b, rfl⟩ := eq_bool_of_isOfType (isOfType_of_meets hmeets htype)
    exact ⟨.bool b, by rw [check]; rfl⟩
  · next htype =>
    obtain rfl := Except.ok.inj hbase
    obtain rfl := eq_null_of_isOfType (isOfType_of_meets hmeets htype)
    exact ⟨.null, by rw [check]⟩
  · cases hbase
  · cases hbase
  · next hnumber hinteger hboolean hnulltype _ _ =>
    obtain rfl := Except.ok.inj hbase
    refine passes_string ?_
    split at hplain
    · next h => exact absurd h hobject
    · next h => exact absurd h harray
    · next h => exact absurd h hboolean
    · next h => exact absurd h hnulltype
    · next h => exact absurd h hinteger
    · next h => exact absurd h hnumber
    · rw [Bool.or_eq_true, Bool.and_eq_true] at hplain
      exact hplain.resolve_right fun hboth => hnull ⟨isNull_iff.1 hboth.1, hboth.2⟩

/-- A plain value for a type with parts is not null, so that it meets the schema's keywords. -/
theorem meets_of_isPlain_part (hvalid : isValid (.dict es) d = true)
    (hplain : isPlain (.dict es) d = true) (hvariants : es.get? "anyOf" = none)
    (henum : es.has "enum" = false)
    (htype : es.get? "type" = some (.str "object") ∨ es.get? "type" = some (.str "array")) :
    meets es d = true := by
  have hhere := isPlainHere_of_isPlain hplain hvariants
  refine meets_of_isValid hvalid ?_
  rintro ⟨rfl, -⟩
  rcases htype with htype | htype
  · simp [isPlainHere, henum, htype, Value.isNull] at hhere
  · simp [isPlainHere, henum, htype, Value.isNull] at hhere

/-- What a keyword says is smaller than the schema. -/
theorem sizeOf_keyword_lt {key : String} {v : Value} (h : es.get? key = some v) :
    sizeOf v < sizeOf (Value.dict es) := by
  have := Entries.sizeOf_lt_of_get? h
  simp only [Value.dict.sizeOf_spec]
  omega

theorem truthy_of_isNullable (h : isNullable es = true) : hasSection es "nullable" = true := by
  unfold isNullable at h
  split at h
  · next hnullable => simp [hasSection, hnullable, Value.truthy]
  · cases h

/-- Null is all that the null schema allows. -/
theorem eq_null_of_isNullSchema {s : Value} (h : isNullSchema s = .ok true)
    (hvalid : isValid s d = true) : d = .null := by
  cases s with
  | dict es =>
    simp only [isNullSchema, Except.ok.injEq] at h
    cases htype : Entries.get? es "type" with
    | none => simp [htype] at h
    | some type =>
      simp only [htype, Option.elim_some] at h
      obtain rfl := Value.sameKey_str.1 h
      by_contra hnull
      have hmeets := meets_of_isValid hvalid fun hboth => hnull hboth.1
      exact hnull (eq_null_of_isOfType (isOfType_of_meets hmeets htype))
  | _ => simp [isNullSchema] at h

/-- What a reader takes for required is what a schema requires. -/
theorem requires_eq {required : List Value} (hrequired : requiredSet es = .ok required)
    (hmeets : meets es (.dict ds) = true) (key : Value) :
    (required.any fun name => name.sameKey key) = requires es key := by
  unfold requiredSet at hrequired
  unfold requires
  cases hnames : es.get? "required" with
  | none =>
    simp only [hnames] at hrequired
    obtain rfl := Except.ok.inj hrequired
    rfl
  | some names =>
    have hlist := meets_of_get? hmeets hnames
    cases names with
    | list xs =>
      simp only [hnames] at hrequired
      split at hrequired
      · obtain rfl := Except.ok.inj hrequired
        rfl
      · cases hrequired
    | _ => simp [meets, hasNames] at hlist

end

/-- An object that the schema of a record allows passes the check against the record, if what its
properties allow does. -/
theorem passes_of_fieldsOf (top : Record) {es ds : Entries} {name : String}
    {fields : List (String × DataType × FieldNote)} (hfields : fieldsOf es name = .ok fields)
    (hproperties : hasSection es "properties" = true) (hmeets : meets es (.dict ds) = true)
    (hplain : hasPlainFields es ds = true)
    (ih : ∀ s, sizeOf s < sizeOf es → ∀ {d : Value} {name : String} {t : DataType},
      typeOf s name = .ok t → isValid s d = true → isPlain s d = true → Passes top t d) :
    Passes top (.record name true fields) (.dict ds) := by
  obtain ⟨properties, required, hget, hrequired, hall⟩ := fields_of_fieldsOf hfields hproperties
  obtain ⟨hdeclared, hvalues⟩ := meets_object hmeets hget
  refine passes_record name true ?_ ?_
  · -- every key that is declared is the name of a field
    intro e he
    obtain ⟨p, hp, hkey⟩ := hdeclared e he
    obtain ⟨field, hfield, hof⟩ := exists_right_of_forall₂ hall _ hp
    rw [hof.key, Value.str_sameKey] at hkey
    exact ⟨field.1, List.mem_map_of_mem hfield, hkey⟩
  · intro field hfield
    obtain ⟨⟨k, s⟩, hp, hof⟩ := exists_left_of_forall₂ hall _ hfield
    obtain rfl : k = .str field.1 := hof.key
    have hrequires : field.2.2.required = requires es (.str field.1) :=
      hof.required_eq.trans (requires_eq hrequired hmeets _)
    obtain ⟨name', t, hread, ht⟩ := hof.read
    cases hv : ds.get? field.1 with
    | none =>
      refine .inr ⟨hv, ?_⟩
      by_contra hnot
      rw [Bool.not_eq_false, hrequires] at hnot
      obtain ⟨v, hsome⟩ := exists_of_requires hmeets hnot
      simp [hv] at hsome
    | some v =>
      refine .inl ⟨v, hv, ?_⟩
      have hvalid := hvalues field.1 s hp v hv
      rw [ht]
      -- A field that is not required takes null whatever its schema says.
      rcases plain_field hplain hget hp hv with ⟨hfree, rfl⟩ | hsplain
      · rw [hrequires, hfree, if_neg Bool.false_ne_true]
        exact passes_orNull_null
      · have hsize : sizeOf s < sizeOf es := by
          have hproperty := List.sizeOf_lt_of_mem hp
          have hsection := Entries.sizeOf_lt_of_get? hget
          simp only [Prod.mk.sizeOf_spec] at hproperty
          simp only [Value.dict.sizeOf_spec] at hsection
          omega
        have hpasses := ih s hsize hread hvalid hsplain
        split
        · exact hpasses
        · exact hpasses.orNull

/-- **What a schema allows passes the check against the type that was read from it**, if it is plain
for the schema. -/
theorem passes_of_isValid (top : Record) {v d : Value} {name : String} {t : DataType}
    (hread : typeOf v name = .ok t) (hvalid : isValid v d = true) (hplain : isPlain v d = true) :
    Passes top t d := by
  induction hsize : sizeOf v using Nat.strong_induction_on generalizing v d name t with
  | _ size ih =>
  subst hsize
  obtain ⟨es, rfl, hreads⟩ := reads_of_typeOf hread
  cases hreads with
  | optional hvariants hinner hothers hread' =>
    by_cases hnull : d = .null
    · subst hnull
      exact passes_orNull_null
    · -- The alternative that allows the value is the one that was read, since the other is null.
      obtain ⟨s, hs, hsvalid⟩ :=
        exists_valid_variant (meets_of_isValid hvalid fun h => hnull h.1) hvariants
      rcases hothers s hs with rfl | hsnull
      · have hsplain := isPlain_variant hplain hnull hvariants hs hsvalid
        have hvariant := List.sizeOf_lt_of_mem hs
        have hkeyword := sizeOf_keyword_lt hvariants
        simp only [Value.list.sizeOf_spec] at hkeyword
        exact (ih _ (by omega) hread' hsvalid hsplain rfl).orNull
      · exact absurd (eq_null_of_isNullSchema hsnull hsvalid) hnull
  | enumeration hvariants henum =>
    have hhere := isPlainHere_of_isPlain hplain hvariants
    rw [isPlainHere, if_pos henum] at hhere
    exact passes_string hhere
  | record hvariants henum htype hproperties hfields =>
    have hmeets := meets_of_isPlain_part hvalid hplain hvariants henum (.inl htype)
    obtain ⟨ds, rfl⟩ := eq_dict_of_isOfType (isOfType_of_meets hmeets htype)
    exact passes_of_fieldsOf top hfields hproperties hmeets
      (hasPlainFields_of_isPlain hplain hvariants) fun s hs {_ _ _} hread hvalid hplain =>
        ih _ (hs.trans (by simp)) hread hvalid hplain rfl
  | mapping hvariants henum htype =>
    have hmeets := meets_of_isPlain_part hvalid hplain hvariants henum (.inl htype)
    obtain ⟨ds, rfl⟩ := eq_dict_of_isOfType (isOfType_of_meets hmeets htype)
    exact ⟨.dict ds, by rw [check]⟩
  | list hvariants henum htype hitems htruthy hread' =>
    have hmeets := meets_of_isPlain_part hvalid hplain hvariants henum (.inr htype)
    obtain ⟨xs, rfl⟩ := eq_list_of_isOfType (isOfType_of_meets hmeets htype)
    exact passes_list fun x hx => ih _ (sizeOf_keyword_lt hitems) hread'
      (isValid_item hmeets hitems x hx) (isPlain_item hplain hvariants hitems htruthy x hx) rfl
  | anyList hvariants henum htype =>
    have hmeets := meets_of_isPlain_part hvalid hplain hvariants henum (.inr htype)
    obtain ⟨xs, rfl⟩ := eq_list_of_isOfType (isOfType_of_meets hmeets htype)
    exact ⟨.list xs, by rw [check]⟩
  | @primitive base hvariants henum hobject harray hbase =>
    by_cases hnull : d = .null ∧ isNullable es = true
    · rw [if_pos (truthy_of_isNullable hnull.2), hnull.1]
      exact passes_orNull_null
    · have hbasepasses : Passes top base d := passes_primitive hbase hobject harray henum
        (meets_of_isValid hvalid hnull) (isPlainHere_of_isPlain hplain hvariants) hnull
      split
      · exact hbasepasses.orNull
      · exact hbasepasses

end Record

namespace Requirements

open Schema
open Record (Passes passes_of_fieldsOf passes_of_isValid)

/-- The schema of requirements has properties. -/
theorem hasSection_of_schema {r : Requirements} {es : Entries} (h : r.schema = .ok es) :
    hasSection es "properties" = true := by
  unfold schema at h
  dsimp only at h
  -- wherever the schema comes from, it is checked in the same way
  split at h <;>
  · obtain ⟨inlined, -, h⟩ := except_bind_eq_ok.1 h
    split at h
    · split at h
      · cases h
      · split at h
        · cases h
        · next hsection =>
          obtain rfl := Except.ok.inj h
          simpa using hsection
    · cases h

/-- The record of a document is made of its schema. -/
theorem fieldsOf_of_toRecord {v : Value} {r : Record}
    (h : (toRecord (.document v)).outcome = .ok r) :
    ∃ es fields, (document v).schema = .ok es ∧ fieldsOf es r.name = .ok fields ∧
      r = ⟨r.name, true, fields⟩ := by
  rw [toRecord] at h
  obtain ⟨es, hes, h⟩ := Run.outcome_bind_eq_ok.1 h
  obtain ⟨names, -, h⟩ := Run.outcome_bind_eq_ok.1 h
  obtain ⟨-, -, h⟩ := Run.outcome_bind_eq_ok.1 h
  obtain ⟨fields, hfields, h⟩ := Run.outcome_bind_eq_ok.1 h
  rw [Run.ofExcept_outcome] at hes hfields
  split at h
  · next name htitle =>
    obtain rfl := Except.ok.inj h
    rw [htitle, Value.asText] at hfields
    exact ⟨es, fields, hes, hfields, rfl⟩
  · cases h
  · cases h

/-- A document without a title is read under a name of its own. -/
theorem outcome_toRecord {v : Value} {es properties : Entries}
    {fields : List (String × DataType × FieldNote)} (hes : (document v).schema = .ok es)
    (htitle : es.get? "title" = none) (hproperties : es.get? "properties" = some (.dict properties))
    (hfields : fieldsOf es defaultName = .ok fields) :
    (toRecord (.document v)).outcome = .ok ⟨defaultName, true, fields⟩ := by
  have hnames : listed ((es.get? "properties").getD .null) = .ok (properties.map Prod.fst) := by
    rw [hproperties]
    rfl
  have hname : (es.get? "title").getD (.str defaultName) = .str defaultName := by
    rw [htitle]
    rfl
  rw [toRecord]
  refine Run.outcome_bind_eq_ok.2 ⟨es, by rw [hes]; rfl, ?_⟩
  rw [hname]
  refine Run.outcome_bind_eq_ok.2 ⟨_, by rw [hnames]; rfl, ?_⟩
  refine Run.outcome_bind_eq_ok.2 ⟨(), rfl, ?_⟩
  exact Run.outcome_bind_eq_ok.2 ⟨fields, by rw [Value.asText, hfields]; rfl, rfl⟩

/-- Requirements of a product with offers; the price may be null, and so may the rating. -/
def product : Entries :=
  [(.str "properties", .record [("name", .record [("type", .str "string")]),
      ("price", .record [("anyOf", .list [.record [("type", .str "null")],
        .record [("type", .str "number")]])]),
      ("rating", .record [("type", .str "integer"), ("nullable", .bool true)]),
      ("offers", .record [("type", .str "array"), ("items", .record [("type", .str "object"),
        ("properties", .record [("seller", .record [("type", .str "string")]),
          ("grade", .record [("enum", .list [.str "new", .str "used"])])]),
        ("required", .list [.str "seller"])])])]),
    (.str "required", .list [.str "name", .str "price", .str "rating"])]

/-- The record of a product. -/
def productRecord : Record where
  name := defaultName
  closed := true
  fields := [("name", .string, ⟨true, .null, none⟩),
    ("price", .optional .number, ⟨true, .null, none⟩),
    ("rating", .optional .integer, ⟨true, .null, none⟩),
    ("offers", .optional (.list (.record (defaultName ++ "_offers_item") true
      [("seller", .string, ⟨true, .null, none⟩),
        ("grade", .optional .string, ⟨false, .null, none⟩)])), ⟨false, .null, none⟩)]

/-- A product with an integer as the price, without a rating and with two offers. -/
def productData : Entries :=
  [(.str "price", .int 20), (.str "name", .str "Lamp"), (.str "rating", .null),
    (.str "offers", .list [.record [("seller", .str "A"), ("grade", .str "used")],
      .record [("seller", .str "B")]])]

/-- Requirements of an enumeration of integers, of a field without a type, of two numbers and of a
text. -/
def parcel : Entries :=
  [(.str "properties", .record [
      ("size", .record [("type", .str "integer"), ("enum", .list [.int 1, .int 2])]),
      ("note", .dict []), ("count", .record [("type", .str "integer")]),
      ("weight", .record [("type", .str "number")]),
      ("label", .record [("type", .str "string")])]),
    (.str "required", .list [.str "size", .str "note", .str "count", .str "weight", .str "label"])]

/-- The record of a parcel. -/
def parcelRecord : Record where
  name := defaultName
  closed := true
  fields := [("size", .string, ⟨true, .null, none⟩), ("note", .string, ⟨true, .null, none⟩),
    ("count", .integer, ⟨true, .null, none⟩), ("weight", .number, ⟨true, .null, none⟩),
    ("label", .string, ⟨true, .null, none⟩)]

/-- An integer in the form of a number beyond 64 bits. -/
def longCount : Binary64 := .ofInt (10 ^ 19)

/-- An integer beyond the range of floating-point numbers. -/
def vastWeight : Int := 10 ^ 400

/-- A parcel none of whose values is plain. -/
def parcelData : Entries :=
  [(.str "size", .int 1), (.str "note", .int 5), (.str "count", .float longCount),
    (.str "weight", .int vastWeight), (.str "label", .ofLetters [.half 0])]

end Requirements

end PagePlan
