/-
# How one definition is read

A definition has a shape if it is put together like a field: a scalar with its query, a record with
its fields, an array of scalars or of records, or an array that is always empty.  Its tag and its
keys tell the shape, and there is at most one.  A definition without a shape is malformed and kept
as it is.

A shape says which texts the field keeps and which definitions stand in it under names.  A
definition is refused just if a text that is kept has half of a surrogate pair in it, or a name is
no string, here or in a definition within.  The keys of a plan are turned into texts before its
definitions are read, so that it takes a half to refuse one; a definition that is read by itself has
the keys that it has.

* `read_refused_or_shaped` — every definition is refused or read, and when which.
-/
import PagePlan.Proofs.Plan.Reading
import Mathlib.Data.List.Forall2
import Mathlib.Tactic.SplitIfs

namespace PagePlan

namespace Field

/-! ### Shapes -/

/-- An array is declared, or it is told from a container where there is no query. -/
def DefinesArray (es : Entries) : Prop :=
  es.get? "type" = some (.str "array") ∨
    es.get? "type" ≠ some (.str "object") ∧ es.firstPresent? xpathKeys = none ∧
      (es.firstPresent? containerKeys).isSome = true

/-- A record is declared, or it is told from fields where there is neither a query nor a
container. -/
def DefinesObject (es : Entries) : Prop :=
  es.get? "type" = some (.str "object") ∨
    es.get? "type" ≠ some (.str "array") ∧ es.firstPresent? xpathKeys = none ∧
      es.firstPresent? containerKeys = none ∧ (es.firstPresent? propertiesKeys).isSome = true

/-- Any other definition with a query is that of a scalar. -/
def DefinesScalar (es : Entries) (query : Value) : Prop :=
  es.get? "type" ≠ some (.str "array") ∧ es.get? "type" ≠ some (.str "object") ∧
    es.firstPresent? xpathKeys = some query

/-- The parts of a definition that a field is made of. -/
inductive Shape where
  | scalar (query : Value) (about : Entries)
  | object (context : Option Value) (properties : Entries)
  | scalars (container query : Value) (about : Entries)
  | records (container : Value) (properties : Entries)
  | empty

/-- A definition is put together like a field. -/
inductive HasShape : Value → Shape → Prop
  | scalar {es : Entries} {query : Value} : DefinesScalar es query → query.isText = true →
      HasShape (.dict es) (.scalar query es)
  | object {es properties : Entries} : DefinesObject es →
      es.firstPresent? propertiesKeys = some (.dict properties) →
      (es.firstPresent? contextKeys).all Value.isText = true →
      HasShape (.dict es) (.object (es.firstPresent? contextKeys) properties)
  | scalars {es item : Entries} {container query : Value} {key : ItemsKey} : DefinesArray es →
      es.firstPresent? containerKeys = some container → container.isText = true →
      itemsOf es = (some (.dict item), key) → item.firstPresent? xpathKeys = some query →
      key ≠ .itemFields → query.isText = true →
      HasShape (.dict es) (.scalars container query item)
  | records {es items : Entries} {container : Value} {key : ItemsKey} : DefinesArray es →
      es.firstPresent? containerKeys = some container → container.isText = true →
      itemsOf es = (some (.dict items), key) →
      key = .itemFields ∨ key = .items ∧ items.firstPresent? xpathKeys = none →
      HasShape (.dict es) (.records container items)
  | empty {es : Entries} : DefinesArray es →
      es.firstPresent? containerKeys = none ∨ (∀ v ∈ (itemsOf es).1, v = .null) →
      HasShape (.dict es) .empty

namespace Shape

/-- The texts of a scalar, where they are given. -/
def scalarTexts (query : Value) (about : Entries) : List (Option Value) :=
  [some query, about.get? "type", about.get? "transform"]

/-- The texts that a field keeps, where they are given. -/
def texts : Shape → List (Option Value)
  | scalar query about => scalarTexts query about
  | object context _ => [context]
  | scalars container query about => some container :: scalarTexts query about
  | records container _ => [some container]
  | empty => []

/-- The definitions within under their names. -/
def fields : Shape → Entries
  | object _ properties => properties
  | records _ properties => properties
  | _ => []

/-- The scalar with a query. -/
def primitiveOf (query : Value) (about : Entries) : Primitive :=
  ⟨query.asText, declaredType about, about.get? "transform" >>= Value.str?⟩

/-- The field of a shape, with the fields within. -/
def field (within : List (String × Field)) : Shape → Field
  | scalar query about => .primitive (primitiveOf query about)
  | object context _ => .object (context >>= Value.str?) within
  | scalars container query about => .primitiveArray container.asText (primitiveOf query about)
  | records container _ => .objectArray container.asText within
  | empty => .emptyArray

end Shape

mutual

/-- What a definition is read as: the field of its shape with what its own definitions are read as,
or else a malformed field that keeps it. -/
inductive Reads : Value → Field → Prop
  | shaped {v : Value} {shape : Shape} {within : List (String × Field)} : HasShape v shape →
      ReadsAll shape.fields within → Reads v (shape.field within)
  | malformed {v : Value} : (∀ shape, ¬HasShape v shape) → Reads v (.malformed v)

/-- What definitions under names are read as, in their order. -/
inductive ReadsAll : Entries → List (String × Field) → Prop
  | nil : ReadsAll [] []
  | cons {name : String} {v : Value} {f : Field} {es : Entries} {fs : List (String × Field)} :
      Reads v f → ReadsAll es fs → ReadsAll ((.str name, v) :: es) ((name, f) :: fs)

end

/-- A definition that cannot become a field, because a field keeps strings only and names its
fields by strings. -/
inductive Unreadable : Value → Prop
  | half {v : Value} {shape : Shape} {t : Text.Unpaired} : HasShape v shape →
      some (.unpaired t) ∈ shape.texts → Unreadable v
  | name {v : Value} {shape : Shape} {e : Value × Value} : HasShape v shape → e ∈ shape.fields →
      e.1.str? = none → Unreadable v
  | within {v : Value} {shape : Shape} {e : Value × Value} : HasShape v shape →
      e ∈ shape.fields → Unreadable e.2 → Unreadable v

/-! ### The forms of a definition -/

section Forms

variable {es : Entries}

theorem read_of_definesArray (h : DefinesArray es) : read (.dict es) = readArray es := by
  rw [read]
  rcases h with h | ⟨htype, hquery, hcontainer⟩
  · rw [h]
    rfl
  · split
    · rfl
    · next h => exact absurd h htype
    · rw [hquery]
      dsimp only
      rw [if_pos hcontainer]

theorem read_of_definesObject (h : DefinesObject es) : read (.dict es) = readObject es := by
  rw [read]
  rcases h with h | ⟨htype, hquery, hcontainer, hproperties⟩
  · rw [h]
    rfl
  · split
    · next h => exact absurd h htype
    · rfl
    · rw [hquery, hcontainer]
      dsimp only
      rw [if_neg (by decide), if_pos hproperties]

theorem read_of_definesScalar {query : Value} (h : DefinesScalar es query) : read (.dict es) =
    (readPrimitive es (some query)).map fun p => p.elim (.malformed (.dict es)) .primitive := by
  obtain ⟨harray, hobject, hquery⟩ := h
  rw [read]
  split
  · next h => exact absurd h harray
  · next h => exact absurd h hobject
  · rw [hquery]
    dsimp only
    cases readPrimitive es (some query) <;> rfl

/-- A mapping of no form is malformed. -/
theorem read_of_no_form (harray : ¬DefinesArray es) (hobject : ¬DefinesObject es)
    (hscalar : ∀ query, ¬DefinesScalar es query) :
    read (.dict es) = .ok (.malformed (.dict es)) := by
  rw [read]
  split
  · next h => exact absurd (Or.inl h) harray
  · next h => exact absurd (Or.inl h) hobject
  · next h h' =>
    split
    · next query hquery => exact absurd ⟨h, h', hquery⟩ (hscalar query)
    · next hquery =>
      rw [if_neg fun hcontainer => harray (Or.inr ⟨h', hquery, hcontainer⟩)]
      split_ifs with hproperties
      · refine absurd (Or.inr ⟨h, hquery, ?_, hproperties⟩) hobject
        by_contra hcontainer
        exact harray (Or.inr ⟨h', hquery, Option.isSome_iff_ne_none.2 hcontainer⟩)
      · rfl

theorem DefinesArray.not_object (h : DefinesArray es) : ¬DefinesObject es := by
  rintro (h' | ⟨htype, hquery, hcontainer, -⟩)
  · rcases h with h | ⟨htype, -⟩
    · rw [h] at h'
      simp at h'
    · exact htype h'
  · rcases h with h | ⟨-, -, h⟩
    · exact htype h
    · rw [hcontainer] at h
      cases h

theorem DefinesScalar.not_array {query : Value} (h : DefinesScalar es query) :
    ¬DefinesArray es := by
  rintro (h' | ⟨-, hquery, -⟩)
  · exact h.1 h'
  · rw [h.2.2] at hquery
    cases hquery

theorem DefinesScalar.not_object {query : Value} (h : DefinesScalar es query) :
    ¬DefinesObject es := by
  rintro (h' | ⟨-, hquery, -⟩)
  · exact h.2.1 h'
  · rw [h.2.2] at hquery
    cases hquery

/-- An array with a container and items is not always empty. -/
theorem not_empty_of_items {items container : Value} {key : ItemsKey}
    (hcontainer : es.firstPresent? containerKeys = some container)
    (hitems : itemsOf es = (some items, key)) (hnull : items ≠ .null) :
    ¬(es.firstPresent? containerKeys = none ∨ ∀ v ∈ (itemsOf es).1, v = .null) := by
  rintro (h | h)
  · rw [hcontainer] at h
    cases h
  · rw [hitems] at h
    exact hnull (h items rfl)

/-- A definition has one shape at most. -/
theorem HasShape.eq {v : Value} {shape shape' : Shape} (h : HasShape v shape)
    (h' : HasShape v shape') : shape = shape' := by
  -- the form tells records, arrays and scalars apart; within an array it is up to the items
  cases h with
  | scalar hform =>
    cases h' with
    | scalar hform' => rw [Option.some.inj (hform.2.2.symm.trans hform'.2.2)]
    | object hform' => exact absurd hform' hform.not_object
    | scalars hform' => exact absurd hform' hform.not_array
    | records hform' => exact absurd hform' hform.not_array
    | empty hform' => exact absurd hform' hform.not_array
  | object hform hproperties =>
    cases h' with
    | scalar hform' => exact absurd hform hform'.not_object
    | object _ hproperties' => cases hproperties.symm.trans hproperties'; rfl
    | scalars hform' => exact absurd hform hform'.not_object
    | records hform' => exact absurd hform hform'.not_object
    | empty hform' => exact absurd hform hform'.not_object
  | scalars hform hcontainer _ hitems hquery hkey =>
    cases h' with
    | scalar hform' => exact absurd hform hform'.not_array
    | object hform' => exact absurd hform' hform.not_object
    | scalars _ hcontainer' _ hitems' hquery' =>
      cases hcontainer.symm.trans hcontainer'
      cases hitems.symm.trans hitems'
      cases hquery.symm.trans hquery'
      rfl
    | records _ _ _ hitems' hkey' =>
      cases hitems.symm.trans hitems'
      rcases hkey' with rfl | ⟨-, hnone⟩
      · exact absurd rfl hkey
      · cases hquery.symm.trans hnone
    | empty _ hempty => exact absurd hempty (not_empty_of_items hcontainer hitems nofun)
  | records hform hcontainer _ hitems hkey =>
    cases h' with
    | scalar hform' => exact absurd hform hform'.not_array
    | object hform' => exact absurd hform' hform.not_object
    | scalars _ _ _ hitems' hquery' hkey' =>
      cases hitems.symm.trans hitems'
      rcases hkey with rfl | ⟨-, hnone⟩
      · exact absurd rfl hkey'
      · cases hquery'.symm.trans hnone
    | records _ hcontainer' _ hitems' =>
      cases hcontainer.symm.trans hcontainer'
      cases hitems.symm.trans hitems'
      rfl
    | empty _ hempty => exact absurd hempty (not_empty_of_items hcontainer hitems nofun)
  | empty hform hempty =>
    cases h' with
    | scalar hform' => exact absurd hform hform'.not_array
    | object hform' => exact absurd hform' hform.not_object
    | scalars _ hcontainer _ hitems =>
      exact absurd hempty (not_empty_of_items hcontainer hitems nofun)
    | records _ hcontainer _ hitems =>
      exact absurd hempty (not_empty_of_items hcontainer hitems nofun)
    | empty => rfl

end Forms

/-! ### Reading by shapes -/

theorem refuse_eq_ok_iff {faults : List Fault} {u : Unit} :
    refuse faults = .ok u ↔ faults = [] := by
  cases faults <;> simp [refuse]

/-- Parts are without faults just if none of them has a half. -/
theorem halfFaults_eq_nil_iff {parts : List (String × Option Value)} :
    halfFaults parts = [] ↔ ∀ t, some (.unpaired t) ∉ parts.map Prod.snd := by
  rw [halfFaults, List.filterMap_eq_nil_iff]
  constructor
  · intro h t ht
    obtain ⟨⟨part, v⟩, hmem, hv⟩ := List.mem_map.1 ht
    obtain rfl : v = some (.unpaired t) := hv
    cases h _ hmem
  · rintro h ⟨part, v⟩ hmem
    dsimp only
    split
    · next t => exact absurd (List.mem_map.2 ⟨_, hmem, rfl⟩) (h t)
    · rfl

/-- Names are without faults just if they are strings. -/
theorem nameFaults_eq_nil_iff {part : String} {fields : List (Value × Field)} :
    nameFaults part fields = [] ↔ ∀ f ∈ fields, f.1.str?.isSome = true := by
  rw [nameFaults, List.filterMap_eq_nil_iff]
  refine forall₂_congr fun f _ => ?_
  obtain ⟨k, f⟩ := f
  cases k <;> simp [Value.str?]

/-- A scalar with a query is read just if no text in it has a half. -/
theorem readPrimitive_eq_ok_iff {about : Entries} {query : Value} (hquery : query.isText = true)
    {p : Option Primitive} : readPrimitive about (some query) = .ok p ↔
      (∀ t, some (.unpaired t) ∉ Shape.scalarTexts query about) ∧
        p = some (Shape.primitiveOf query about) := by
  have htext : (some query).any Value.isText = true := hquery
  rw [readPrimitive, if_pos htext, except_bind_eq_ok]
  simp only [refuse_eq_ok_iff, halfFaults_eq_nil_iff]
  constructor
  · rintro ⟨-, hhalf, h⟩
    cases query with
    | str s => exact ⟨hhalf, (Except.ok.inj h).symm⟩
    | unpaired t => exact absurd List.mem_cons_self (hhalf t)
    | _ => cases hquery
  · rintro ⟨hhalf, rfl⟩
    refine ⟨(), hhalf, ?_⟩
    cases query with
    | str s => rfl
    | unpaired t => exact absurd List.mem_cons_self (hhalf t)
    | _ => cases hquery

/-- A query that is no text makes no scalar. -/
theorem readPrimitive_of_not_text {about : Entries} {query : Value} (h : ¬query.isText = true) :
    readPrimitive about (some query) = .ok none := by
  have htext : ¬(some query).any Value.isText = true := h
  rw [readPrimitive, if_neg htext]

/-- Definitions are read under their names: each name is a string, and each definition is read. -/
def NamesRead (es : Entries) (fields : List (String × Field)) : Prop :=
  List.Forall₂ (fun e f => e.1 = .str f.1 ∧ read e.2 = .ok f.2) es fields

theorem readFields_eq_ok_iff {es : Entries} {fields : List (Value × Field)} :
    readFields es = .ok fields ↔
      List.Forall₂ (fun e f => e.1 = f.1 ∧ read e.2 = .ok f.2) es fields := by
  induction es generalizing fields with
  | nil =>
    rw [readFields, List.forall₂_nil_left_iff, Except.ok.injEq]
    exact eq_comm
  | cons e es ih =>
    obtain ⟨k, v⟩ := e
    rw [readFields]
    simp only [except_bind_eq_ok, ih, List.forall₂_cons_left_iff]
    constructor
    · rintro ⟨f, hf, fs, hfs, h⟩
      exact ⟨(k, f), fs, ⟨rfl, hf⟩, hfs, (Except.ok.inj h).symm⟩
    · rintro ⟨⟨k', f⟩, fs, ⟨rfl, hf⟩, hfs, rfl⟩
      exact ⟨f, hf, fs, hfs, rfl⟩

/-- Naming definitions that were read leaves them as they are. -/
theorem named_eq_ok_iff {part : String} {before : List Fault} {read : List (Value × Field)}
    {fields : List (String × Field)} : named part before read = .ok fields ↔
      before = [] ∧ read = fields.map fun f => (.str f.1, f.2) := by
  rw [named, except_bind_eq_ok]
  simp only [refuse_eq_ok_iff, List.append_eq_nil_iff, nameFaults_eq_nil_iff]
  constructor
  · rintro ⟨-, ⟨hbefore, hnames⟩, h⟩
    obtain rfl := Except.ok.inj h
    refine ⟨hbefore, ?_⟩
    rw [List.map_filterMap, List.filterMap_congr (g := some), List.filterMap_some]
    intro e he
    obtain ⟨name, hname⟩ := Option.isSome_iff_exists.1 (hnames e he)
    obtain ⟨k, f⟩ := e
    cases k with
    | str s => rfl
    | _ => cases hname
  · rintro ⟨hbefore, rfl⟩
    refine ⟨(), ⟨hbefore, fun e he => ?_⟩, ?_⟩
    · obtain ⟨f, -, rfl⟩ := List.mem_map.1 he
      rfl
    · rw [List.filterMap_map]
      exact congrArg Except.ok List.filterMap_some

theorem readNamed_eq_ok_iff {part : String} {before : List Fault} {es : Entries}
    {fields : List (String × Field)} :
    readFields es >>= named part before = .ok fields ↔ before = [] ∧ NamesRead es fields := by
  rw [except_bind_eq_ok]
  simp only [named_eq_ok_iff, readFields_eq_ok_iff]
  constructor
  · rintro ⟨_, hread, hbefore, rfl⟩
    exact ⟨hbefore, List.forall₂_map_right_iff.1 hread⟩
  · rintro ⟨hbefore, hnames⟩
    refine ⟨fields.map fun f => (.str f.1, f.2), ?_, hbefore, rfl⟩
    exact List.forall₂_map_right_iff.2 hnames

/-! ### The parts of a record and of an array -/

section Parts

variable {es : Entries}

theorem readObject_of_properties {properties : Entries}
    (hproperties : es.firstPresent? propertiesKeys = some (.dict properties))
    (hcontext : (es.firstPresent? contextKeys).all Value.isText = true) :
    readObject es = (readFields properties >>=
      named "fields" (halfFaults [("context_xpath", es.firstPresent? contextKeys)])).map
        (.object (es.firstPresent? contextKeys >>= Value.str?)) := by
  rw [readObject]
  split
  · next h =>
    cases hproperties.symm.trans h
    rw [if_pos hcontext]
    cases readFields properties with
    | error faults => rfl
    | ok fields =>
      cases named "fields" (halfFaults [("context_xpath", es.firstPresent? contextKeys)]) fields
      all_goals rfl
  · next h => exact absurd hproperties (h properties)

theorem readArray_of_empty (h : es.firstPresent? containerKeys = none ∨
    ∀ v ∈ (itemsOf es).1, v = .null) : readArray es = .ok .emptyArray := by
  rw [readArray]
  split
  · rfl
  · rfl
  · rfl
  · next hcontainer hitems =>
    rcases h with h | h
    · rw [h] at hcontainer
      cases hcontainer
    · rw [hitems] at h
      cases h _ rfl
  · next hnone hmissing hnull hdict =>
    rcases h with h | h
    · exact absurd h hnone
    · -- items that are missing or null have been dealt with
      exfalso
      cases hitems : itemsOf es with
      | mk found key =>
        rw [hitems] at h
        cases found with
        | none => exact hmissing key hitems
        | some v =>
          obtain rfl := h v rfl
          exact hnull key hitems

/-- Items that are a mapping are one scalar or one record for each match. -/
theorem readArray_of_items {items : Entries} {container : Value} {key : ItemsKey}
    (hcontainer : es.firstPresent? containerKeys = some container)
    (htext : container.isText = true) (hitems : itemsOf es = (some (.dict items), key)) :
    readArray es = if isScalarItem key (items.firstPresent? xpathKeys) then do
        match ← readPrimitive items (items.firstPresent? xpathKeys) with
        | none => return .malformed (.dict es)
        | some item => do
          refuse (halfFaults [("container_xpath", some container)])
          return .primitiveArray container.asText item
      else (readFields items >>=
        named "item_fields" (halfFaults [("container_xpath", some container)])).map
          (.objectArray container.asText) := by
  rw [readArray]
  split
  · next h => cases h.symm.trans hcontainer
  · next h _ => cases h.symm.trans hitems
  · next h _ => cases h.symm.trans hitems
  · next h h' =>
    cases hcontainer.symm.trans h
    cases hitems.symm.trans h'
    dsimp only
    rw [htext, if_neg (by decide)]
    split_ifs
    · rfl
    · cases readFields items with
      | error faults => rfl
      | ok fields =>
        cases named "item_fields" (halfFaults [("container_xpath", some container)]) fields
        all_goals rfl
  · next h => exact absurd hitems (h container items key hcontainer)

end Parts

section Shapes

variable {v : Value} {shape : Shape}

/-- **A definition with a shape is read just if the texts in it are strings and its own definitions
are read under their names.** -/
theorem read_eq_ok_iff (h : HasShape v shape) {f : Field} :
    read v = .ok f ↔ (∀ t, some (.unpaired t) ∉ shape.texts) ∧
      ∃ within, NamesRead shape.fields within ∧ f = shape.field within := by
  cases h with
  | scalar hform hquery =>
    rw [read_of_definesScalar hform, except_map_eq_ok]
    simp only [readPrimitive_eq_ok_iff hquery]
    constructor
    · rintro ⟨_, ⟨hhalf, rfl⟩, rfl⟩
      exact ⟨hhalf, [], .nil, rfl⟩
    · rintro ⟨hhalf, _, _, rfl⟩
      exact ⟨_, ⟨hhalf, rfl⟩, rfl⟩
  | object hform hproperties hcontext =>
    rw [read_of_definesObject hform, readObject_of_properties hproperties hcontext,
      except_map_eq_ok]
    simp only [readNamed_eq_ok_iff, halfFaults_eq_nil_iff]
    constructor
    · rintro ⟨within, ⟨hhalf, hnames⟩, rfl⟩
      exact ⟨hhalf, within, hnames, rfl⟩
    · rintro ⟨hhalf, within, hnames, rfl⟩
      exact ⟨within, ⟨hhalf, hnames⟩, rfl⟩
  | @scalars es item container query key hform hcontainer htext hitems hquery hkey hquerytext =>
    -- whatever has a query is a scalar, unless its key says that it holds fields
    have hscalar : isScalarItem key (some query) = true := by
      cases key with
      | itemFields => exact absurd rfl hkey
      | item => rfl
      | items => rfl
    rw [read_of_definesArray hform, readArray_of_items hcontainer htext hitems, hquery,
      if_pos hscalar, except_bind_eq_ok]
    simp only [readPrimitive_eq_ok_iff hquerytext]
    constructor
    · rintro ⟨_, ⟨hhalf, rfl⟩, h⟩
      obtain ⟨_, hrefuse, h⟩ := except_bind_eq_ok.1 h
      rw [refuse_eq_ok_iff, halfFaults_eq_nil_iff] at hrefuse
      refine ⟨fun t ht => ?_, [], .nil, (Except.ok.inj h).symm⟩
      rcases List.mem_cons.1 ht with ht | ht
      · exact hrefuse t (List.mem_singleton.2 ht)
      · exact hhalf t ht
    · rintro ⟨hhalf, _, _, rfl⟩
      refine ⟨_, ⟨fun t ht => hhalf t (List.mem_cons_of_mem _ ht), rfl⟩, ?_⟩
      refine except_bind_eq_ok.2 ⟨(), refuse_eq_ok_iff.2 (halfFaults_eq_nil_iff.2 ?_), rfl⟩
      intro t ht
      exact hhalf t (List.mem_singleton.1 ht ▸ List.mem_cons_self)
  | @records es items container key hform hcontainer htext hitems hkey =>
    have hrecord : isScalarItem key (items.firstPresent? xpathKeys) = false := by
      rcases hkey with rfl | ⟨rfl, hquery⟩
      · rfl
      · rw [hquery]
        rfl
    rw [read_of_definesArray hform, readArray_of_items hcontainer htext hitems, hrecord,
      if_neg (by decide), except_map_eq_ok]
    simp only [readNamed_eq_ok_iff, halfFaults_eq_nil_iff]
    constructor
    · rintro ⟨within, ⟨hhalf, hnames⟩, rfl⟩
      exact ⟨hhalf, within, hnames, rfl⟩
    · rintro ⟨hhalf, within, hnames, rfl⟩
      exact ⟨within, ⟨hhalf, hnames⟩, rfl⟩
  | empty hform hempty =>
    rw [read_of_definesArray hform, readArray_of_empty hempty]
    constructor
    · intro h
      exact ⟨fun _ => List.not_mem_nil, [], .nil, (Except.ok.inj h).symm⟩
    · rintro ⟨-, _, _, rfl⟩
      rfl

theorem readObject_of_no_shape {es : Entries} (hform : DefinesObject es)
    (h : ∀ shape, ¬HasShape (.dict es) shape) : readObject es = .ok (.malformed (.dict es)) := by
  rw [readObject]
  split
  · next hproperties =>
    dsimp only
    split_ifs with hcontext
    · exact absurd (.object hform hproperties hcontext) (h _)
    · rfl
  · rfl

theorem readArray_of_no_shape {es : Entries} (hform : DefinesArray es)
    (h : ∀ shape, ¬HasShape (.dict es) shape) : readArray es = .ok (.malformed (.dict es)) := by
  have hempty := fun hempty => h _ (.empty hform hempty)
  rw [readArray]
  split
  · next hcontainer => exact absurd (Or.inl hcontainer) hempty
  · next hitems _ =>
    refine absurd (Or.inr ?_) hempty
    rw [hitems]
    exact fun _ hv => absurd hv (Option.not_mem_none _)
  · next hitems _ =>
    refine absurd (Or.inr ?_) hempty
    rw [hitems]
    rintro v ⟨⟩
    rfl
  · next container items key hcontainer hitems =>
    dsimp only
    split_ifs with htext hscalar
    · rfl
    · have hcontainertext : container.isText = true := by simpa using htext
      cases hquery : Entries.firstPresent? items xpathKeys with
      | none => rfl
      | some query =>
        by_cases hquerytext : query.isText = true
        · refine absurd (.scalars hform hcontainer hcontainertext hitems hquery ?_ hquerytext) (h _)
          rintro rfl
          cases hscalar
        · rw [readPrimitive_of_not_text hquerytext]
          rfl
    · refine absurd (.records hform hcontainer (by simpa using htext) hitems ?_) (h _)
      cases key with
      | itemFields => exact Or.inl rfl
      | item => exact absurd rfl hscalar
      | items =>
        refine Or.inr ⟨rfl, ?_⟩
        simpa [isScalarItem] using hscalar
  · rfl

/-- A definition without a shape is malformed. -/
theorem read_of_no_shape (h : ∀ shape, ¬HasShape v shape) : read v = .ok (.malformed v) := by
  cases v with
  | dict es =>
    by_cases harray : DefinesArray es
    · rw [read_of_definesArray harray]
      exact readArray_of_no_shape harray h
    by_cases hobject : DefinesObject es
    · rw [read_of_definesObject hobject]
      exact readObject_of_no_shape hobject h
    by_cases hscalar : ∃ query, DefinesScalar es query
    · obtain ⟨query, hquery⟩ := hscalar
      have htext : ¬query.isText = true := fun htext => h _ (.scalar hquery htext)
      rw [read_of_definesScalar hquery, readPrimitive_of_not_text htext]
      rfl
    · exact read_of_no_form harray hobject (not_exists.1 hscalar)
  | _ => rw [read]; nofun

theorem HasShape.sizeOf_fields_lt (h : HasShape v shape) : ∀ e ∈ shape.fields,
    sizeOf e.2 < sizeOf v := by
  have hwithin {es properties : Entries} (hlt : sizeOf (Value.dict properties) < sizeOf es) :
      ∀ e ∈ properties, sizeOf e.2 < sizeOf (Value.dict es) := by
    intro e he
    have := Value.sizeOf_value_lt he
    simp only [Value.dict.sizeOf_spec] at hlt ⊢
    omega
  cases h with
  | object _ hproperties _ => exact hwithin (Entries.sizeOf_lt_of_firstPresent? hproperties)
  | records _ _ _ hitems _ => exact hwithin (sizeOf_lt_of_itemsOf hitems)
  | _ => nofun

theorem NamesRead.exists_read {es : Entries} {fields : List (String × Field)}
    (h : NamesRead es fields) : ∀ e ∈ es, (∃ name, e.1 = .str name) ∧ ∃ f, read e.2 = .ok f := by
  induction h with
  | nil => nofun
  | cons hef _ ih => exact List.forall_mem_cons.2 ⟨⟨⟨_, hef.1⟩, _, hef.2⟩, ih⟩

theorem exists_namesRead {es : Entries}
    (h : ∀ e ∈ es, e.1.str?.isSome = true ∧ ∃ f, read e.2 = .ok f) :
    ∃ fields, NamesRead es fields := by
  induction es with
  | nil => exact ⟨[], .nil⟩
  | cons e es ih =>
    obtain ⟨⟨hname, f, hf⟩, hes⟩ := List.forall_mem_cons.1 h
    obtain ⟨fields, hfields⟩ := ih hes
    obtain ⟨k, v⟩ := e
    cases k with
    | str name => exact ⟨(name, f) :: fields, .cons ⟨rfl, hf⟩ hfields⟩
    | _ => cases hname

/-- An unreadable definition is not read. -/
theorem Unreadable.read_ne_ok (h : Unreadable v) (f : Field) : read v ≠ .ok f := by
  induction h generalizing f with
  | half hshape ht => exact fun hread => ((read_eq_ok_iff hshape).1 hread).1 _ ht
  | name hshape he hname =>
    intro hread
    obtain ⟨-, within, hnames, -⟩ := (read_eq_ok_iff hshape).1 hread
    obtain ⟨⟨name, heq⟩, -⟩ := hnames.exists_read _ he
    rw [heq] at hname
    cases hname
  | within hshape he _ ih =>
    intro hread
    obtain ⟨-, within, hnames, -⟩ := (read_eq_ok_iff hshape).1 hread
    obtain ⟨-, g, hg⟩ := hnames.exists_read _ he
    exact ih g hg

end Shapes

theorem readsAll_of_namesRead {es : Entries} {within : List (String × Field)}
    (h : NamesRead es within)
    (hes : ∀ e ∈ es, ∀ f, read e.2 = .ok f → Reads e.2 f) : ReadsAll es within := by
  induction h with
  | nil => exact .nil
  | @cons e f es fs hef _ ih =>
    obtain ⟨hread, hrest⟩ := List.forall_mem_cons.1 hes
    obtain ⟨k, v⟩ := e
    obtain ⟨rfl, hf⟩ : k = .str f.1 ∧ read v = .ok f.2 := hef
    exact .cons (hread f.2 hf) (ih hrest)

/-- What a definition is read as. -/
theorem reads_of_read (v : Value) {f : Field} (h : read v = .ok f) : Reads v f := by
  by_cases hshape : ∃ shape, HasShape v shape
  · obtain ⟨shape, hshape⟩ := hshape
    obtain ⟨-, within, hnames, rfl⟩ := (read_eq_ok_iff hshape).1 h
    refine .shaped hshape (readsAll_of_namesRead hnames fun e he f hf => ?_)
    -- the definitions within are smaller, though no parts of the definition by its own structure
    have := hshape.sizeOf_fields_lt e he
    exact reads_of_read e.2 hf
  · have hnone := not_exists.1 hshape
    obtain rfl := Except.ok.inj (h.symm.trans (read_of_no_shape hnone))
    exact .malformed hnone
termination_by sizeOf v

mutual

/-- A definition is read in one way. -/
theorem Reads.eq {v : Value} {f g : Field} : Reads v f → Reads v g → f = g
  | .shaped hshape hall, .shaped hshape' hall' => by
    obtain rfl := hshape.eq hshape'
    rw [hall.eq hall']
  | .shaped hshape _, .malformed hnone => absurd hshape (hnone _)
  | .malformed hnone, .shaped hshape _ => absurd hshape (hnone _)
  | .malformed _, .malformed _ => rfl

theorem ReadsAll.eq {es : Entries} {fs gs : List (String × Field)} :
    ReadsAll es fs → ReadsAll es gs → fs = gs
  | .nil, .nil => rfl
  | .cons hread hall, .cons hread' hall' => by rw [hread.eq hread', hall.eq hall']

end

/-- A definition that is not unreadable is read. -/
theorem exists_read_of_not (v : Value) (h : ¬Unreadable v) : ∃ f, read v = .ok f := by
  by_cases hshape : ∃ shape, HasShape v shape
  · obtain ⟨shape, hshape⟩ := hshape
    have hfields : ∀ e ∈ shape.fields, e.1.str?.isSome = true ∧ ∃ f, read e.2 = .ok f := by
      intro e he
      have := hshape.sizeOf_fields_lt e he
      refine ⟨?_, exists_read_of_not e.2 fun hwithin => h (.within hshape he hwithin)⟩
      by_contra hname
      exact h (.name hshape he (Option.not_isSome_iff_eq_none.1 hname))
    obtain ⟨within, hnames⟩ := exists_namesRead hfields
    exact ⟨_, (read_eq_ok_iff hshape).2 ⟨fun t ht => h (.half hshape ht), within, hnames, rfl⟩⟩
  · exact ⟨_, read_of_no_shape (not_exists.1 hshape)⟩
termination_by sizeOf v

/-- The fields of a record have to be named by strings: a number is no name. -/
example : Unreadable (.dict [(.str "type", .str "object"),
    (.str "properties", .dict [(.int 1, .dict [(.str "xpath", .str "//h1")])])]) :=
  .name (.object (Or.inl rfl) rfl rfl) List.mem_cons_self rfl

end Field

end PagePlan
