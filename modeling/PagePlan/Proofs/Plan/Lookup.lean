/-
# What reading looks up in a definition

A definition is read by looking keys up in it, alias after alias, and null counts as missing.  Two
definitions in which every look-up finds the same are read as the same field, up to the raw content
that a malformed field keeps: they may differ in the names of their keys, in nulls and in keys that
nothing looks up.  `Field.bare` forgets the raw content, which no extraction looks at either.

* `Field.read_congr` — definitions that say the same are read alike,
* `Evaluator.extractField_bare` — and what is read alike is extracted alike.
-/
import PagePlan.Plan.Extraction
import PagePlan.Proofs.Plan.Classification

namespace PagePlan

namespace Field

/-! ### Without raw content -/

mutual

/-- A field without the raw content of its malformed fields. -/
def bare : Field → Field
  | primitive p => .primitive p
  | object context fields => .object context (bareFields fields)
  | primitiveArray container item => .primitiveArray container item
  | objectArray container fields => .objectArray container (bareFields fields)
  | emptyArray => .emptyArray
  | malformed _ => .malformed .null

/-- `bare` for fields under their names. -/
def bareFields : List (String × Field) → List (String × Field)
  | [] => []
  | (name, f) :: rest => (name, f.bare) :: bareFields rest

end

theorem isMalformed_bare (f : Field) : f.bare.isMalformed = f.isMalformed := by
  cases f <;> rfl

/-- `bare` for definitions that were read, before they are named. -/
def bareRead (fields : List (Value × Field)) : List (Value × Field) :=
  fields.map fun f => (f.1, f.2.bare)

/-- Naming fields looks at the names only. -/
theorem named_bareRead (part : String) (before : List Fault) (fields : List (Value × Field)) :
    named part before (bareRead fields) = (named part before fields).map bareFields := by
  have hfaults : nameFaults part (bareRead fields) = nameFaults part fields := by
    simp only [nameFaults, bareRead, List.filterMap_map]
    rfl
  have hnames (fields : List (Value × Field)) :
      (bareRead fields).filterMap (fun f => f.1.str?.map fun name => (name, f.2)) =
        bareFields (fields.filterMap fun f => f.1.str?.map fun name => (name, f.2)) := by
    induction fields with
    | nil => rfl
    | cons f fields ih =>
      obtain ⟨k, f⟩ := f
      rw [bareRead] at ih
      rw [bareRead, List.map_cons, List.filterMap_cons, List.filterMap_cons, ih]
      cases k.str? <;> rfl
  rw [named, named, hfaults]
  cases refuse (before ++ nameFaults part fields) with
  | error faults => rfl
  | ok _ => exact congrArg Except.ok (hnames fields)

/-! ### Definitions that are read alike -/

/-- Two definitions are read as one field, up to raw content, or refused for the same faults. -/
def Alike (v v' : Value) : Prop :=
  (read v).map bare = (read v').map bare

/-- Under the same keys stand definitions that are read alike. -/
def FieldsAlike (es es' : Entries) : Prop :=
  List.Forall₂ (fun e e' => e.1 = e'.1 ∧ Alike e.2 e'.2) es es'

theorem FieldsAlike.refl (es : Entries) : FieldsAlike es es :=
  List.forall₂_same.2 fun _ _ => ⟨rfl, rfl⟩

theorem map_bareRead_readFields_cons (k v : Value) (es : Entries) :
    (readFields ((k, v) :: es)).map bareRead = (do
      let f ← (read v).map bare
      let fs ← (readFields es).map bareRead
      return (k, f) :: fs) := by
  rw [readFields]
  cases read v with
  | error faults => rfl
  | ok f => cases readFields es <;> rfl

theorem FieldsAlike.readFields_eq {es es' : Entries} (h : FieldsAlike es es') :
    (readFields es).map bareRead = (readFields es').map bareRead := by
  induction h with
  | nil => rfl
  | @cons e e' es es' he _ ih =>
    obtain ⟨k, v⟩ := e
    obtain ⟨k', v'⟩ := e'
    obtain ⟨rfl, hv⟩ : k = k' ∧ Alike v v' := he
    rw [Alike] at hv
    rw [map_bareRead_readFields_cons, map_bareRead_readFields_cons, hv, ih]

/-- The fields of a record or of the items of an array. -/
theorem FieldsAlike.readNamed_eq {es es' : Entries} (h : FieldsAlike es es') (part : String)
    (before : List Fault) : (readFields es >>= named part before).map bareFields =
      (readFields es' >>= named part before).map bareFields := by
  have hnamed (es : Entries) : (readFields es >>= named part before).map bareFields =
      (readFields es).map bareRead >>= named part before := by
    cases readFields es with
    | error faults => rfl
    | ok fields => exact (named_bareRead part before fields).symm
  rw [hnamed, hnamed, h.readFields_eq]

/-! ### Definitions that say the same -/

/-- Two definitions say the same of a scalar. -/
structure SameScalar (es es' : Entries) : Prop where
  type : es.firstPresent? ["type"] = es'.firstPresent? ["type"]
  transform : es.firstPresent? ["transform"] = es'.firstPresent? ["transform"]
  query : es.firstPresent? xpathKeys = es'.firstPresent? xpathKeys

/-- Two definitions have fields that are alike, or something else that is the same. -/
inductive PropertiesAlike : Option Value → Option Value → Prop
  | same (found : Option Value) : PropertiesAlike found found
  | fields {es es' : Entries} : FieldsAlike es es' →
      PropertiesAlike (some (.dict es)) (some (.dict es'))

/-- Two array definitions have items that are alike. -/
inductive ItemsAlike : Option Value × ItemsKey → Option Value × ItemsKey → Prop
  | missing {found found' : Option Value × ItemsKey} : (∀ v ∈ found.1, v = .null) →
      (∀ v ∈ found'.1, v = .null) → ItemsAlike found found'
  | noMapping {v v' : Value} {key key' : ItemsKey} : v ≠ .null → v.dict? = none → v' ≠ .null →
      v'.dict? = none → ItemsAlike (some v, key) (some v', key')
  | scalar {item item' : Entries} {key key' : ItemsKey} :
      isScalarItem key (item.firstPresent? xpathKeys) = true →
      isScalarItem key' (item'.firstPresent? xpathKeys) = true → SameScalar item item' →
      ItemsAlike (some (.dict item), key) (some (.dict item'), key')
  | records {items items' : Entries} {key key' : ItemsKey} :
      isScalarItem key (items.firstPresent? xpathKeys) = false →
      isScalarItem key' (items'.firstPresent? xpathKeys) = false → FieldsAlike items items' →
      ItemsAlike (some (.dict items), key) (some (.dict items'), key')

theorem ItemsAlike.refl : ∀ found : Option Value × ItemsKey, ItemsAlike found found
  | (none, _) => .missing nofun nofun
  | (some .null, _) => by
    refine .missing ?_ ?_ <;>
    · rintro v ⟨⟩
      rfl
  | (some (.dict items), key) => by
    cases hscalar : isScalarItem key (Entries.firstPresent? items xpathKeys) with
    | true => exact .scalar hscalar hscalar ⟨rfl, rfl, rfl⟩
    | false => exact .records hscalar hscalar (.refl items)
  | (some (.bool _), _) | (some (.int _), _) | (some (.float _), _) | (some (.str _), _)
  | (some (.unpaired _), _) | (some (.list _), _) | (some (.tuple _), _) =>
    .noMapping nofun rfl nofun rfl

/-- Two definitions say the same, their items aside. -/
structure SaysSame (es es' : Entries) : Prop extends SameScalar es es' where
  container : es.firstPresent? containerKeys = es'.firstPresent? containerKeys
  context : es.firstPresent? contextKeys = es'.firstPresent? contextKeys
  properties : PropertiesAlike (es.firstPresent? propertiesKeys) (es'.firstPresent? propertiesKeys)

section

variable {es es' : Entries}

/-- A key has a text just if a text is found first under it. -/
theorem get?_eq_str_iff {key s : String} :
    es.get? key = some (.str s) ↔ es.firstPresent? [key] = some (.str s) := by
  rw [Entries.firstPresent?]
  cases es.get? key with
  | none => simp [Entries.firstPresent?]
  | some v => cases v <;> simp [Entries.firstPresent?]

/-- Null and a missing key declare no type alike. -/
theorem declaredType_eq : declaredType es = match es.firstPresent? ["type"] with
    | some (.str name) => if name = "" then .string else .ofName name
    | _ => .string := by
  rw [declaredType, Entries.firstPresent?]
  cases es.get? "type" with
  | none => rfl
  | some v => cases v <;> rfl

/-- Null and a missing key are no text alike. -/
theorem get?_bind_str? (es : Entries) (key : String) :
    es.get? key >>= Value.str? = es.firstPresent? [key] >>= Value.str? := by
  rw [Entries.firstPresent?]
  cases es.get? key with
  | none => rfl
  | some v => cases v <;> rfl

theorem halfFaults_cons (part : String) (found : Option Value)
    (parts : List (String × Option Value)) :
    halfFaults ((part, found) :: parts) = halfFaults [(part, found)] ++ halfFaults parts := by
  rw [halfFaults, halfFaults, halfFaults, ← List.filterMap_append]
  rfl

/-- Null and a missing key are without faults alike. -/
theorem halfFaults_get? (es : Entries) (part key : String) :
    halfFaults [(part, es.get? key)] = halfFaults [(part, es.firstPresent? [key])] := by
  rw [Entries.firstPresent?]
  cases es.get? key with
  | none => rfl
  | some v => cases v <;> rfl

theorem SameScalar.readPrimitive_eq (h : SameScalar es es') (query : Option Value) :
    readPrimitive es query = readPrimitive es' query := by
  have hfaults (es : Entries) : halfFaults [("xpath", query), ("value_type", es.get? "type"),
      ("transform", es.get? "transform")] = halfFaults [("xpath", query)] ++
        (halfFaults [("value_type", es.firstPresent? ["type"])] ++
          halfFaults [("transform", es.firstPresent? ["transform"])]) := by
    rw [halfFaults_cons, halfFaults_cons "value_type", halfFaults_get?, halfFaults_get?]
  have htype : declaredType es = declaredType es' := by
    rw [declaredType_eq, declaredType_eq, h.type]
  rw [readPrimitive, readPrimitive, hfaults, hfaults, htype, get?_bind_str? es, get?_bind_str? es',
    h.type, h.transform]

/-! ### Forms -/

theorem SaysSame.isSome_properties (h : SaysSame es es') :
    (es.firstPresent? propertiesKeys).isSome = (es'.firstPresent? propertiesKeys).isSome := by
  have hproperties := h.properties
  generalize es.firstPresent? propertiesKeys = found at hproperties ⊢
  generalize es'.firstPresent? propertiesKeys = found' at hproperties ⊢
  cases hproperties <;> rfl

theorem SaysSame.definesArray_iff (h : SaysSame es es') : DefinesArray es ↔ DefinesArray es' := by
  simp only [DefinesArray, ne_eq, get?_eq_str_iff, h.type, h.query, h.container]

theorem SaysSame.definesObject_iff (h : SaysSame es es') :
    DefinesObject es ↔ DefinesObject es' := by
  simp only [DefinesObject, ne_eq, get?_eq_str_iff, h.type, h.query, h.container,
    h.isSome_properties]

theorem SaysSame.definesScalar_iff (h : SaysSame es es') (query : Value) :
    DefinesScalar es query ↔ DefinesScalar es' query := by
  simp only [DefinesScalar, ne_eq, get?_eq_str_iff, h.type, h.query]

/-! ### The parts of a record and of an array -/

theorem readObject_of_no_properties
    (h : ∀ properties, es.firstPresent? propertiesKeys ≠ some (.dict properties)) :
    readObject es = .ok (.malformed (.dict es)) := by
  rw [readObject]
  split
  · next properties hproperties => exact absurd hproperties (h properties)
  · rfl

theorem readObject_of_no_context (h : ¬(es.firstPresent? contextKeys).all Value.isText = true) :
    readObject es = .ok (.malformed (.dict es)) := by
  rw [readObject]
  split
  · dsimp only
    rw [if_neg h]
  · rfl

theorem SaysSame.readObject_eq (h : SaysSame es es') :
    (readObject es).map bare = (readObject es').map bare := by
  have hcontext := h.context
  by_cases htext : (es.firstPresent? contextKeys).all Value.isText = true
  · have hproperties := h.properties
    generalize hfound : es.firstPresent? propertiesKeys = found at hproperties
    generalize hfound' : es'.firstPresent? propertiesKeys = found' at hproperties
    have hmap (properties : Entries) (context : Option String) (before : List Fault) :
        ((readFields properties >>= named "fields" before).map (Field.object context)).map bare =
          ((readFields properties >>= named "fields" before).map bareFields).map
            (.object context) := by
      cases readFields properties >>= named "fields" before <;> rfl
    have hfields {fields fields' : Entries} (halike : FieldsAlike fields fields')
        (hes : es.firstPresent? propertiesKeys = some (.dict fields))
        (hes' : es'.firstPresent? propertiesKeys = some (.dict fields')) :
        (readObject es).map bare = (readObject es').map bare := by
      rw [readObject_of_properties hes htext, readObject_of_properties hes' (hcontext ▸ htext),
        hcontext, hmap, hmap, halike.readNamed_eq]
    cases hproperties with
    | fields halike => exact hfields halike hfound hfound'
    | same =>
      by_cases hdict : ∃ properties, found = some (.dict properties)
      · obtain ⟨properties, rfl⟩ := hdict
        exact hfields (.refl properties) hfound hfound'
      · have hnone := not_exists.1 hdict
        rw [readObject_of_no_properties (hfound ▸ hnone),
          readObject_of_no_properties (hfound' ▸ hnone)]
        rfl
  · rw [readObject_of_no_context htext, readObject_of_no_context (hcontext ▸ htext)]
    rfl

theorem itemsOf_of_itemFields {v : Value} (h : es.get? "item_fields" = some v) :
    itemsOf es = (some v, .itemFields) := by
  rw [itemsOf, h]

theorem itemsOf_of_item {v : Value} (h : es.get? "item_fields" = none)
    (hitem : es.get? "item" = some v) : itemsOf es = (some v, .item) := by
  rw [itemsOf, h, hitem]

theorem itemsOf_of_items (h : es.get? "item_fields" = none) (hitem : es.get? "item" = none) :
    itemsOf es = (es.get? "items", .items) := by
  rw [itemsOf, h, hitem]

/-- A container that is no text, or items that are no mapping, make no array. -/
theorem readArray_of_malformed {container items : Value} {key : ItemsKey}
    (hcontainer : es.firstPresent? containerKeys = some container)
    (hitems : itemsOf es = (some items, key)) (hnull : items ≠ .null)
    (h : container.isText = false ∨ items.dict? = none) :
    readArray es = .ok (.malformed (.dict es)) := by
  rw [readArray]
  split
  · next h' => cases h'.symm.trans hcontainer
  · next h' _ => cases h'.symm.trans hitems
  · next h' _ =>
    cases h'.symm.trans hitems
    exact absurd rfl hnull
  · next h' h'' =>
    cases hcontainer.symm.trans h'
    cases hitems.symm.trans h''
    dsimp only
    rw [h.resolve_right (Option.some_ne_none _), if_pos (by decide)]
  · rfl

theorem SaysSame.readArray_eq (h : SaysSame es es')
    (hitems : (es.firstPresent? containerKeys).isSome = true →
      ItemsAlike (itemsOf es) (itemsOf es')) :
    (readArray es).map bare = (readArray es').map bare := by
  cases hcontainer : es.firstPresent? containerKeys with
  | none =>
    rw [readArray_of_empty (.inl hcontainer), readArray_of_empty (.inl (h.container ▸ hcontainer))]
  | some container =>
    have hcontainer' : es'.firstPresent? containerKeys = some container :=
      h.container.symm.trans hcontainer
    have halike := hitems (by rw [hcontainer]; rfl)
    generalize hfound : itemsOf es = found at halike
    generalize hfound' : itemsOf es' = found' at halike
    cases halike with
    | missing hnull hnull' =>
      rw [readArray_of_empty (.inr (hfound ▸ hnull)), readArray_of_empty (.inr (hfound' ▸ hnull'))]
    | noMapping hnull hdict hnull' hdict' =>
      rw [readArray_of_malformed hcontainer hfound hnull (.inr hdict),
        readArray_of_malformed hcontainer' hfound' hnull' (.inr hdict')]
      rfl
    | @scalar item item' key key' hscalar hscalar' hsame =>
      cases htext : container.isText with
      | false =>
        rw [readArray_of_malformed hcontainer hfound nofun (.inl htext),
          readArray_of_malformed hcontainer' hfound' nofun (.inl htext)]
        rfl
      | true =>
        rw [readArray_of_items hcontainer htext hfound,
          readArray_of_items hcontainer' htext hfound', if_pos hscalar, if_pos hscalar',
          hsame.readPrimitive_eq, hsame.query]
        cases readPrimitive item' (item'.firstPresent? xpathKeys) with
        | error faults => rfl
        | ok item =>
          cases item with
          | none => rfl
          | some item => rfl
    | @records items items' key key' hrecords hrecords' hfields =>
      cases htext : container.isText with
      | false =>
        rw [readArray_of_malformed hcontainer hfound nofun (.inl htext),
          readArray_of_malformed hcontainer' hfound' nofun (.inl htext)]
        rfl
      | true =>
        have hmap (items : Entries) (container : String) (before : List Fault) :
            ((readFields items >>= named "item_fields" before).map
                (Field.objectArray container)).map bare =
              ((readFields items >>= named "item_fields" before).map bareFields).map
                (.objectArray container) := by
          cases readFields items >>= named "item_fields" before <;> rfl
        rw [readArray_of_items hcontainer htext hfound,
          readArray_of_items hcontainer' htext hfound', hrecords, hrecords', if_neg (by decide),
          if_neg (by decide), hmap, hmap, hfields.readNamed_eq]

/-- **Definitions that say the same are read alike**: as one field, up to the raw content of
malformed ones, or refused for the same faults.  Items count only where there is an array with a
container. -/
theorem read_congr (h : SaysSame es es') (hitems : DefinesArray es →
    (es.firstPresent? containerKeys).isSome = true → ItemsAlike (itemsOf es) (itemsOf es')) :
    Alike (.dict es) (.dict es') := by
  rw [Alike]
  by_cases harray : DefinesArray es
  · rw [read_of_definesArray harray, read_of_definesArray (h.definesArray_iff.1 harray)]
    exact h.readArray_eq (hitems harray)
  by_cases hobject : DefinesObject es
  · rw [read_of_definesObject hobject, read_of_definesObject (h.definesObject_iff.1 hobject)]
    exact h.readObject_eq
  by_cases hscalar : ∃ query, DefinesScalar es query
  · obtain ⟨query, hquery⟩ := hscalar
    rw [read_of_definesScalar hquery,
      read_of_definesScalar ((h.definesScalar_iff query).1 hquery), h.readPrimitive_eq]
    cases readPrimitive es' (some query) with
    | error faults => rfl
    | ok found => cases found <;> rfl
  · have hnone := not_exists.1 hscalar
    rw [read_of_no_form harray hobject hnone,
      read_of_no_form (mt h.definesArray_iff.2 harray) (mt h.definesObject_iff.2 hobject)
        fun query => mt (h.definesScalar_iff query).2 (hnone query)]
    rfl

end

end Field

/-! ### Extraction -/

namespace Evaluator

variable {γ : Type} (ev : Evaluator γ)

mutual

/-- **What is read alike is extracted alike**: no extraction looks at raw content. -/
theorem extractField_bare (c : γ) : ∀ f : Field, ev.extractField c f.bare = ev.extractField c f
  | .primitive p => rfl
  | .object none fields => by
    rw [Field.bare, extractField, extractField, extractFields_bareFields]
  | .object (some xpath) fields => by
    rw [Field.bare, extractField, extractField]
    simp only [extractFields_bareFields]
  | .primitiveArray container item => rfl
  | .objectArray container fields => by
    rw [Field.bare, extractField, extractField]
    simp only [extractFields_bareFields]
  | .emptyArray => rfl
  | .malformed raw => by rw [Field.bare, extractField, extractField]

theorem extractFields_bareFields (c : γ) :
    ∀ fields, ev.extractFields c (Field.bareFields fields) = ev.extractFields c fields
  | [] => rfl
  | (name, f) :: rest => by
    rw [Field.bareFields, extractFields, extractFields, extractField_bare c f,
      extractFields_bareFields c rest]

end

end Evaluator

theorem Field.Alike.extractField_eq {v v' : Value} (h : Field.Alike v v') {γ : Type}
    (ev : Evaluator γ) (c : γ) :
    (Field.read v).map (ev.extractField c) = (Field.read v').map (ev.extractField c) := by
  have hbare (x : Except (List Fault) Field) :
      x.map (ev.extractField c) = (x.map Field.bare).map (ev.extractField c) := by
    cases x with
    | error faults => rfl
    | ok f => exact congrArg Except.ok (ev.extractField_bare c f).symm
  rw [hbare, h, ← hbare]

end PagePlan
