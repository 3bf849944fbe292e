/-
# Replies that a strict schema accepts

The strict schema of a record goes to the provider, and what the provider replies is checked
against the record.  Both are made from the same types, and they agree: what the schema accepts, the
record takes, with the fields and the values of the reply.

* `validate_of_accepts` — a reply that the strict schema of a record accepts passes the check
  against the record.
-/
import PagePlan.Proofs.Decimal.Nearest
import PagePlan.Proofs.Requirements.Acceptance
import PagePlan.Requirements.Validation

namespace PagePlan

namespace DataType

/-! ### Agreeing values -/

mutual

/-- Whether what a check gives is what a reply says.  An integer at the place of a number becomes
the nearest floating-point number, and the fields of a record come in their order. -/
def Agrees : DataType → Value → Value → Prop
  | number, v, w =>
    (∃ x, v = .float x ∧ w = .float x) ∨
      ∃ n, v = .int n ∧ w = .float (.ofInt n) ∧ (Binary64.ofInt n).IsNearest n
  | list item, v, w => ∃ xs ys, v = .list xs ∧ w = .list ys ∧ List.Forall₂ (Agrees item) xs ys
  | optional inner, v, w => (v = .null ∧ w = .null) ∨ Agrees inner v w
  | record _ _ fields, v, w =>
    ∃ es found : Entries, v = .dict es ∧ w = .dict found ∧
      (∀ k, k ∈ found.map Prod.fst ↔ k ∈ es.map Prod.fst) ∧ FieldsAgree fields es found
  | _, v, w => v = w

/-- Whether the values found for fields are those of a mapping. -/
def FieldsAgree : List (String × DataType × FieldNote) → Entries → Entries → Prop
  | [], _, found => found = []
  | (name, t, _) :: rest, es, found =>
    ∃ v w others, es.get? name = some v ∧ found = (.str name, w) :: others ∧ Agrees t v w ∧
      FieldsAgree rest es others

end

/-- The values found for fields are under their names. -/
theorem FieldsAgree.keys {fields : List (String × DataType × FieldNote)} {es found : Entries}
    (h : FieldsAgree fields es found) :
    found.map Prod.fst = fields.map fun f => Value.str f.1 := by
  induction fields generalizing found with
  | nil =>
    rw [FieldsAgree] at h
    rw [h, List.map_nil, List.map_nil]
  | cons field rest ih =>
    obtain ⟨name, t, note⟩ := field
    rw [FieldsAgree] at h
    obtain ⟨v, w, others, -, rfl, -, hrest⟩ := h
    rw [List.map_cons, List.map_cons, ih hrest]

/-- Each field is in the mapping. -/
theorem FieldsAgree.mem {fields : List (String × DataType × FieldNote)} {es found : Entries}
    (h : FieldsAgree fields es found) : ∀ f ∈ fields, Value.str f.1 ∈ es.map Prod.fst := by
  induction fields generalizing found with
  | nil => simp
  | cons field rest ih =>
    obtain ⟨name, t, note⟩ := field
    rw [FieldsAgree] at h
    obtain ⟨v, w, others, hv, -, -, hrest⟩ := h
    intro f hf
    rcases List.mem_cons.1 hf with rfl | hf
    · exact List.mem_map_of_mem (Entries.mem_of_get? hv)
    · exact ih hrest f hf

/-! ### The schemas of fields -/

/-- The keywords of a type's schema that say something about values. -/
def checkedKeywords : List String := ["type", "properties", "items", "anyOf"]

/-- The keywords of a note on a field. -/
def noteKeywords : List String := ["default", "description", "title"]

theorem not_mem_noteKeywords {key : String} (h : key ∈ checkedKeywords) : key ∉ noteKeywords := by
  simp only [checkedKeywords, List.mem_cons, List.not_mem_nil, or_false] at h
  rcases h with rfl | rfl | rfl | rfl <;> decide

/-- A note on a field adds and removes no other keywords than its own. -/
theorem get?_withNote {key : String} (hkey : key ∉ noteKeywords) (name : String)
    (note : FieldNote) (typeName : String) (es : Entries) :
    (withNote name note typeName es).get? key = es.get? key := by
  simp only [withNote, Entries.get?_append]
  have hother {other : String} (h : other ∈ noteKeywords) (v : Value) :
      Entries.get? [(.str other, v)] key = none := by
    have hne : other ≠ key := by
      rintro rfl
      exact hkey h
    simp [Entries.get?, Value.sameKey, hne]
  have hdefault : Entries.get? (if note.required then []
      else [(Value.str "default", note.default)]) key = none := by
    split
    · rfl
    · exact hother (by decide) _
  have hdescription : Entries.get? ((note.description.map fun d =>
      [(Value.str "description", d)]).getD []) key = none := by
    cases note.description with
    | none => rfl
    | some d => exact hother (by decide) _
  have htitle : Entries.get? (if typeName = "record" then []
      else [(Value.str "title", Value.str (heading name))]) key = none := by
    split
    · rfl
    · exact hother (by decide) _
  rw [hdefault, hdescription, htitle]
  -- each keyword is kept by just one of the three filters
  by_cases hanyOf : key = "anyOf"
  · subst hanyOf
    rw [Entries.get?_filter fun v => rfl, Entries.get?_filter_eq_none fun v => rfl,
      Entries.get?_filter_eq_none fun v => rfl]
    simp
  · by_cases hitems : key = "items"
    · subst hitems
      rw [Entries.get?_filter_eq_none fun v => rfl, Entries.get?_filter fun v => rfl,
        Entries.get?_filter_eq_none fun v => rfl]
      simp
    · rw [Entries.get?_filter_eq_none fun v => by simp [Value.sameKey, hanyOf],
        Entries.get?_filter_eq_none fun v => by simp [Value.sameKey, hitems],
        Entries.get?_filter fun v => by simp [Value.sameKey, hanyOf, hitems]]
      simp

theorem get?_recordSchema_type (name : String) (closed : Bool) (required : List Value)
    (properties : Entries) :
    (recordSchema name closed required properties).get? "type" = some (.str "object") := by
  cases closed <;> cases required <;> rfl

theorem get?_recordSchema_properties (name : String) (closed : Bool) (required : List Value)
    (properties : Entries) :
    (recordSchema name closed required properties).get? "properties" =
      some (.dict properties) := by
  cases closed <;> cases required <;> rfl

theorem schema?_list_eq_some {item : DataType} {es : Entries} :
    (list item).schema? = some es ↔
      ∃ inner, item.schema? = some inner ∧
        [(.str "items", .dict inner), (.str "type", .str "array")] = es := by
  simp only [schema?, Option.bind_eq_bind, Option.bind_eq_some_iff, Option.pure_def,
    Option.some.injEq]

theorem schema?_optional_eq_some {inner : DataType} {es : Entries} :
    (optional inner).schema? = some es ↔
      ∃ others, inner.schema? = some others ∧
        [(.str "anyOf", .list [.dict others, .dict [(.str "type", .str "null")]])] = es := by
  simp only [schema?, Option.bind_eq_bind, Option.bind_eq_some_iff, Option.pure_def,
    Option.some.injEq]

theorem schema?_record_eq_some {name : String} {closed : Bool}
    {fields : List (String × DataType × FieldNote)} {es : Entries} :
    (record name closed fields).schema? = some es ↔
      ∃ properties, properties? fields = some properties ∧
        recordSchema name closed (requiredNames fields) properties = es := by
  simp only [schema?, Option.bind_eq_bind, Option.bind_eq_some_iff, Option.pure_def,
    Option.some.injEq]

/-- The schemas of fields stand under their names. -/
theorem properties?_keys {fields : List (String × DataType × FieldNote)} {properties : Entries}
    (h : properties? fields = some properties) :
    properties.map Prod.fst = fields.map fun f => Value.str f.1 := by
  induction fields generalizing properties with
  | nil =>
    rw [properties?, Option.some.injEq] at h
    rw [← h, List.map_nil, List.map_nil]
  | cons field rest ih =>
    obtain ⟨name, t, note⟩ := field
    simp only [properties?, Option.bind_eq_bind, Option.bind_eq_some_iff] at h
    obtain ⟨es, -, others, hothers, h⟩ := h
    obtain rfl := Option.some.inj h
    rw [List.map_cons, List.map_cons, ih hothers]

end DataType

namespace Record

open Schema
open DataType (Agrees FieldsAgree schema? properties? checkedKeywords get?_withNote
  not_mem_noteKeywords get?_recordSchema_type get?_recordSchema_properties properties?_keys
  schema?_list_eq_some schema?_optional_eq_some schema?_record_eq_some)

/-! ### Replies that a check takes -/

/-- A check takes a reply and gives what it says. -/
def Takes (top : Record) (t : DataType) (d : Value) : Prop :=
  ∃ w, check top t d = .ok w ∧ t.Agrees d w

/-- The check of fields takes the entries of a reply. -/
def TakesFields (top : Record) (fields : List (String × DataType × FieldNote)) (ds : Entries) :
    Prop :=
  ∃ found, checkFields top ds fields = .ok found ∧ FieldsAgree fields ds found

section

variable {top : Record} {t inner item : DataType} {d v : Value} {ds : Entries}
  {fields : List (String × DataType × FieldNote)}

theorem checkItems_of_takes {xs : List Value} (h : ∀ x ∈ xs, Takes top item x) (i : Nat) :
    ∃ ys, checkItems top item i xs = .ok ys ∧ List.Forall₂ item.Agrees xs ys := by
  induction xs generalizing i with
  | nil => exact ⟨[], by rw [checkItems], .nil⟩
  | cons x xs ih =>
    obtain ⟨y, hy, hagree⟩ := h x List.mem_cons_self
    obtain ⟨ys, hys, hagrees⟩ := ih (fun x hx => h x (List.mem_cons_of_mem _ hx)) (i + 1)
    refine ⟨y :: ys, ?_, .cons hagree hagrees⟩
    rw [checkItems, hy, hys]
    rfl

/-- A list is taken if its items are. -/
theorem takes_list {xs : List Value} (h : ∀ x ∈ xs, Takes top item x) :
    Takes top (.list item) (.list xs) := by
  obtain ⟨ys, hys, hagree⟩ := checkItems_of_takes h 0
  refine ⟨.list ys, ?_, xs, ys, rfl, rfl, hagree⟩
  rw [check, hys]
  rfl

/-- Where null is allowed, it is taken, and so is what the type takes. -/
theorem takes_optional (h : d ≠ .null → Takes top inner d) : Takes top (.optional inner) d := by
  by_cases hnull : d = .null
  · subst hnull
    exact ⟨.null, by rw [check], Or.inl ⟨rfl, rfl⟩⟩
  · obtain ⟨w, hw, hagree⟩ := h hnull
    refine ⟨w, ?_, Or.inr hagree⟩
    rw [check]
    · exact hw
    · exact hnull

/-- Fields are taken if each of them is there and its type takes its value. -/
theorem takesFields_cons {name : String} (note : FieldNote) (hv : ds.get? name = some v)
    (h : Takes top t v) (hfields : TakesFields top fields ds) :
    TakesFields top ((name, t, note) :: fields) ds := by
  obtain ⟨w, hw, hagree⟩ := h
  obtain ⟨found, hfound, hagrees⟩ := hfields
  refine ⟨(.str name, w) :: found, ?_, v, w, found, hv, rfl, hagree, hagrees⟩
  rw [checkFields]
  split
  · next v' hv' =>
    obtain rfl : v = v' := Option.some.inj (hv.symm.trans hv')
    rw [hw, hfound]
    rfl
  · next hnone => simp [hv] at hnone

/-- A mapping without other keys than the names of fields has no unknown ones. -/
theorem guardKeys_eq_ok {names : List String} (h : ∀ e ∈ ds, ∃ name ∈ names, e.1 = .str name)
    (closed : Bool) (found : Entries) : guardKeys closed names ds (.ok found) = .ok found := by
  have hknown : unknownKeys names ds = [] := by
    rw [unknownKeys, List.filterMap_eq_nil_iff]
    rintro ⟨k, v⟩ he
    obtain ⟨name, hname, rfl⟩ := h _ he
    simp [hname]
  cases closed with
  | false => rfl
  | true => simp [guardKeys, hknown]

/-- A mapping without other keys than the names of fields is taken if the fields are. -/
theorem takes_record (name : String) (closed : Bool)
    (hnames : ∀ e ∈ ds, ∃ name ∈ fields.map Prod.fst, e.1 = .str name)
    (h : TakesFields top fields ds) : Takes top (.record name closed fields) (.dict ds) := by
  obtain ⟨found, hfound, hagree⟩ := h
  refine ⟨.dict found, ?_, ds, found, rfl, rfl, ?_, hagree⟩
  · rw [check, hfound, guardKeys_eq_ok hnames]
    rfl
  · intro k
    rw [hagree.keys]
    constructor
    · intro hk
      obtain ⟨f, hf, rfl⟩ := List.mem_map.1 hk
      exact hagree.mem f hf
    · intro hk
      obtain ⟨e, he, rfl⟩ := List.mem_map.1 hk
      obtain ⟨name, hname, hkey⟩ := hnames e he
      obtain ⟨f, hf, rfl⟩ := List.mem_map.1 hname
      exact hkey ▸ List.mem_map_of_mem hf

/-- An integer in the range of floating-point numbers is taken as a number. -/
theorem takes_number_int {n : Int} (h : (Binary64.ofInt n).isFinite = true) :
    Takes top .number (.int n) := by
  refine ⟨.float (.ofInt n), ?_, Or.inr ⟨n, rfl, rfl, Binary64.isNearest_ofInt h⟩⟩
  rw [check, Lenient.number, if_pos h]
  rfl

end

/-! ### Replies that the strict schema accepts -/

mutual

/-- The check against a type takes what the strict form of its schema accepts.  `full` is the
schema, with notes on a field or without. -/
theorem takes_of_accepts (top : Record) (t : DataType) {es full : Entries} {d : Value}
    (hschema : t.schema? = some es) (hfull : ∀ key ∈ checkedKeywords, full.get? key = es.get? key)
    (haccepts : accepts (strict (.dict full)) d = true) (hreply : IsReply d) : Takes top t d := by
  have htype {name : String} (h : es.get? "type" = some (.str name)) : hasType name d = true :=
    accepts_strict_type haccepts ((hfull _ (by decide)).trans h)
  match t with
  | .string =>
    obtain rfl := Option.some.inj hschema
    have hstring := htype rfl
    obtain ⟨s, rfl⟩ : ∃ s, d = .str s := by cases hreply <;> simp [hasType] at hstring ⊢
    exact ⟨.str s, by rw [check]; rfl, rfl⟩
  | .integer =>
    obtain rfl := Option.some.inj hschema
    have hinteger := htype rfl
    obtain ⟨n, rfl⟩ : ∃ n, d = .int n := by cases hreply <;> simp [hasType] at hinteger ⊢
    exact ⟨.int n, by rw [check]; rfl, rfl⟩
  | .number =>
    obtain rfl := Option.some.inj hschema
    have hnumber := htype rfl
    cases hreply with
    | int h => exact takes_number_int h
    | @float x _ => exact ⟨.float x, by rw [check]; rfl, Or.inl ⟨x, rfl, rfl⟩⟩
    | _ => simp [hasType] at hnumber
  | .boolean =>
    obtain rfl := Option.some.inj hschema
    have hboolean := htype rfl
    obtain ⟨b, rfl⟩ : ∃ b, d = .bool b := by cases hreply <;> simp [hasType] at hboolean ⊢
    exact ⟨.bool b, by rw [check]; rfl, rfl⟩
  | .null =>
    obtain rfl := Option.some.inj hschema
    have hnull := htype rfl
    obtain rfl : d = .null := by cases hreply <;> simp [hasType] at hnull ⊢
    exact ⟨.null, by rw [check], rfl⟩
  | .mapping =>
    obtain rfl := Option.some.inj hschema
    have hobject := htype rfl
    obtain ⟨ds, rfl⟩ : ∃ ds, d = .dict ds := by cases hreply <;> simp [hasType] at hobject ⊢
    exact ⟨.dict ds, by rw [check], rfl⟩
  | .anyList =>
    obtain rfl := Option.some.inj hschema
    have harray := htype rfl
    obtain ⟨xs, rfl⟩ : ∃ xs, d = .list xs := by cases hreply <;> simp [hasType] at harray ⊢
    exact ⟨.list xs, by rw [check], rfl⟩
  | .list item =>
    obtain ⟨items, hitem, rfl⟩ := schema?_list_eq_some.1 hschema
    have harray := htype rfl
    cases hreply with
    | list hxs =>
      have hitems := accepts_strict_items haccepts ((hfull "items" (by decide)).trans rfl)
      exact takes_list fun x hx =>
        takes_of_accepts top item hitem (fun _ _ => rfl) (hitems x hx) (hxs x hx)
    | _ => simp [hasType] at harray
  | .optional inner =>
    obtain ⟨others, hinner, rfl⟩ := schema?_optional_eq_some.1 hschema
    have hsome := accepts_strict_anyOf haccepts ((hfull "anyOf" (by decide)).trans rfl)
    simp only [strictItems, acceptsSome, Bool.or_false, Bool.or_eq_true] at hsome
    apply takes_optional
    intro hnull
    rcases hsome with hsome | hsome
    · exact takes_of_accepts top inner hinner (fun _ _ => rfl) hsome hreply
    · -- the other alternative accepts null alone
      have hnone : hasType "null" d = true := accepts_strict_type hsome rfl
      exact absurd (by cases hreply <;> simp [hasType] at hnone ⊢) hnull
  | .record name closed fields =>
    obtain ⟨properties, hproperties, rfl⟩ := schema?_record_eq_some.1 hschema
    obtain ⟨ds, rfl, hdeclared, hvalues⟩ := accepts_strict_object haccepts
      ((hfull _ (by decide)).trans (get?_recordSchema_type _ _ _ _))
      ((hfull _ (by decide)).trans (get?_recordSchema_properties _ _ _ _))
    cases hreply with
    | dict _ _ hds =>
      refine takes_record name closed ?_ (takesFields_of_accepts top fields hproperties hvalues hds)
      -- every declared property is a field
      intro e he
      obtain ⟨p, hp, hkey⟩ := hdeclared e he
      have hname : p.1 ∈ fields.map fun f => Value.str f.1 :=
        properties?_keys hproperties ▸ List.mem_map_of_mem hp
      obtain ⟨f, hf, hname⟩ := List.mem_map.1 hname
      rw [← hname, Value.str_sameKey] at hkey
      exact ⟨f.1, List.mem_map_of_mem hf, hkey⟩
  | .enclosing => simp [schema?] at hschema
termination_by sizeOf t

/-- Fields are taken if the strict forms of their schemas accept their values. -/
theorem takesFields_of_accepts (top : Record) (fields : List (String × DataType × FieldNote))
    {properties ds : Entries} (hschema : properties? fields = some properties)
    (hvalues : ∀ name s, (.str name, s) ∈ properties →
      ∃ v, ds.get? name = some v ∧ accepts (strict s) v = true)
    (hreply : ∀ e ∈ ds, IsReply e.2) : TakesFields top fields ds := by
  match fields with
  | [] => exact ⟨[], by rw [checkFields], rfl⟩
  | (name, t, note) :: rest =>
    simp only [properties?, Option.bind_eq_bind, Option.bind_eq_some_iff] at hschema
    obtain ⟨es, hes, others, hothers, hschema⟩ := hschema
    obtain rfl := Option.some.inj hschema
    obtain ⟨v, hv, haccepts⟩ := hvalues name _ List.mem_cons_self
    have hfirst : Takes top t v := takes_of_accepts top t hes
      (fun key hkey => get?_withNote (not_mem_noteKeywords hkey) name note t.shape es) haccepts
      (hreply _ (Entries.mem_of_get? hv))
    exact takesFields_cons note hv hfirst (takesFields_of_accepts top rest hothers
      (fun name s hs => hvalues name s (List.mem_cons_of_mem _ hs)) hreply)
termination_by sizeOf fields

end

/-- **A reply that the strict schema of a record accepts passes the check against the record**, and
gives the fields of the record with the values of the reply.  The record may be that of any
document. -/
theorem validate_of_accepts (r : Record) {T d : Value} (hstrict : r.strictSchema = .ok T)
    (haccepts : accepts T d = true) (hreply : IsReply d) :
    ∃ w, r.validate d = .ok w ∧ r.toType.Agrees d w := by
  rw [strictSchema, schema] at hstrict
  split at hstrict
  · next es hschema =>
    obtain rfl := Except.ok.inj hstrict
    exact takes_of_accepts r r.toType hschema (fun _ _ => rfl) haccepts hreply
  · simp [Except.map] at hstrict

/-- A record of an article with a price that may be missing. -/
def article : Record where
  name := "Article"
  closed := true
  fields := [("title", .string, ⟨true, .null, none⟩),
    ("price", .optional .number, ⟨false, .null, some (.str "in euros")⟩),
    ("tags", .list .string, ⟨true, .null, none⟩),
    ("seller", .record "Seller" true [("id", .integer, ⟨true, .null, none⟩)], ⟨true, .null, none⟩)]

/-- A reply with an integer as the price. -/
def articleReply : Value :=
  .record [("seller", .record [("id", .int 7)]), ("title", .str "Lamp"), ("price", .int 20),
    ("tags", .list [.str "new"])]

theorem validate_of_accepts_article :
    ∃ w, article.validate articleReply = .ok w ∧ article.toType.Agrees articleReply w := by
  have hid : IsReply (.int 7) := .int (by decide +kernel)
  have hprice : IsReply (.int 20) := .int (by decide +kernel)
  have hseller : IsReply (.record [("id", .int 7)]) :=
    .dict (by simp) (by simp [Entries.Distinct]) (by simpa using hid)
  have htags : IsReply (.list [.str "new"]) := .list (by simpa using .str "new")
  have hreply : IsReply articleReply :=
    .dict (by simp) (by rw [Entries.Distinct]; decide)
      (by simpa using ⟨hseller, .str "Lamp", hprice, htags⟩)
  exact validate_of_accepts article rfl (by decide +kernel) hreply

end Record

end PagePlan
