/-
# Aliases are interchangeable

A definition with aliases says the same as the one without: its scalars, contexts and containers are
found as before, its fields are read alike by induction, and its items are found under a key that
tells scalars from records as before.  So the plan that is read stays the same, up to the raw
content of malformed fields, and so does what it extracts.

* `Field.alike_aliased` — a definition is read like the same one with aliases;
* `Plan.extract_withAliases` — aliases change nothing.
-/
import PagePlan.Extract
import PagePlan.Proofs.Plan.Alias
import PagePlan.Proofs.Plan.Data

namespace PagePlan

namespace Field

open Value

/-! ### Fields -/

theorem FieldsAlike.set {es es' : Entries} (h : FieldsAlike es es') (k : Value) {v v' : Value}
    (hv : Alike v v') : FieldsAlike (es.set k v) (es'.set k v') := by
  induction h with
  | nil => exact .cons ⟨rfl, hv⟩ .nil
  | @cons e e' es es' he hrest ih =>
    obtain ⟨l, w⟩ := e
    obtain ⟨l', w'⟩ := e'
    obtain ⟨rfl, hw⟩ : l = l' ∧ Alike w w' := he
    rw [Entries.set, Entries.set]
    split_ifs
    · exact .cons ⟨rfl, hv⟩ hrest
    · exact .cons ⟨rfl, hw⟩ ih

/-- Fields are alike once keys have been turned into texts, if each is. -/
theorem fieldsAlike_stringifyEntries {before before' es es' : Entries}
    (hbefore : FieldsAlike before before')
    (h : List.Forall₂ (fun e e' => e.1 = e'.1 ∧ Alike e.2.stringifyKeys e'.2.stringifyKeys)
      es es') : FieldsAlike (stringifyEntries before es) (stringifyEntries before' es') := by
  induction h generalizing before before' with
  | nil => exact hbefore
  | @cons e e' es es' he _ ih =>
    obtain ⟨k, v⟩ := e
    obtain ⟨k', v'⟩ := e'
    obtain ⟨rfl, hv⟩ : k = k' ∧ Alike v.stringifyKeys v'.stringifyKeys := he
    exact ih (hbefore.set _ hv)

section Fields

variable {chosen : List Value → Bool} {place : List Value} {es : Entries}

theorem aliasedFields_eq_map : aliasedFields chosen place es =
    es.map fun e => (e.1, aliased chosen (e.1 :: place) e.2) := by
  induction es with
  | nil => rfl
  | cons e es ih => rw [aliasedFields, ih, List.map_cons]

theorem distinct_aliasedFields (hes : es.Distinct) :
    (aliasedFields chosen place es).Distinct := by
  rw [aliasedFields_eq_map, Entries.distinct_iff_keys, List.map_map]
  exact Entries.distinct_iff_keys.1 hes

theorem isNull_aliased (v : Value) : (aliased chosen place v).isNull = v.isNull := by
  cases v <;> rfl

theorem get?_aliasedFields (key : String) : (aliasedFields chosen place es).get? key =
    (es.get? key).map (aliased chosen (.str key :: place)) := by
  induction es with
  | nil => rfl
  | cons e es ih =>
    obtain ⟨k, v⟩ := e
    rw [aliasedFields, Entries.get?_cons, Entries.get?_cons, ih]
    split_ifs with hk
    · rw [sameKey_str.1 hk]
      rfl
    · rfl

/-- A field is found under one of several names as before. -/
theorem isSome_firstPresent?_aliasedFields (keys : List String) :
    ((aliasedFields chosen place es).firstPresent? keys).isSome =
      (es.firstPresent? keys).isSome := by
  induction keys with
  | nil => rfl
  | cons key keys ih =>
    rw [firstPresent?_cons, firstPresent?_cons es, Option.isSome_or, Option.isSome_or, ih,
      firstPresent?_singleton, firstPresent?_singleton, get?_aliasedFields, Option.filter_map,
      Option.isSome_map]
    simp only [Function.comp_def, isNull_aliased]

variable (place) in
/-- Fields are alike with aliases, if each definition is. -/
theorem fieldsAlike_aliasedFields (h : ∀ e ∈ es, ∀ place,
    Alike e.2.stringifyKeys (aliased chosen place e.2).stringifyKeys) :
    FieldsAlike (stringifyEntries [] es)
      (stringifyEntries [] (aliasedFields chosen place es)) := by
  refine fieldsAlike_stringifyEntries .nil ?_
  rw [aliasedFields_eq_map, List.forall₂_map_right_iff]
  exact List.forall₂_same.2 fun e he => ⟨rfl, h e he _⟩

end Fields

/-! ### Items -/

section Items

variable {chosen : List Value → Bool} {place : List Value} {es : Entries} {renamed : Bool}

/-- The name of a key for items. -/
def ItemsKey.name : ItemsKey → String
  | itemFields => "item_fields"
  | item => "item"
  | items => "items"

/-- Items under one key alone are found there. -/
theorem itemsOf_of_only {key : ItemsKey} {v : Value} (h : es.get? key.name = some v)
    (hothers : ∀ other, other ≠ key → es.get? other.name = none) : itemsOf es = (some v, key) := by
  cases key with
  | itemFields => exact itemsOf_of_itemFields h
  | item => exact itemsOf_of_item (hothers .itemFields nofun) h
  | items => exact h ▸ itemsOf_of_items (hothers .itemFields nofun) (hothers .item nofun)

/-- Items that are a mapping are a scalar under a key just if they have a query. -/
def ToldByQuery (key : ItemsKey) (v : Value) : Prop :=
  ∀ items : Entries, v = .dict items → ∀ query : Option Value,
    query.isSome = (items.firstPresent? xpathKeys).isSome →
      isScalarItem key query = query.isSome

theorem toldByQuery_items (v : Value) : ToldByQuery .items v := by
  rintro items - query -
  simp [isScalarItem]

/-- The alias of `items` is a key under which these are a scalar just if they have a query. -/
theorem exists_aliasOf_items (v : Value) :
    ∃ key : ItemsKey, aliasOf "items" v = key.name ∧ ToldByQuery key v := by
  cases v with
  | dict items =>
    cases hquery : (Entries.firstPresent? items xpathKeys).isSome with
    | true =>
      refine ⟨.item, if_pos hquery, ?_⟩
      rintro _ ⟨⟩ query hsome
      rw [hsome, hquery]
      rfl
    | false =>
      refine ⟨.itemFields, if_neg (Bool.eq_false_iff.1 hquery), ?_⟩
      rintro _ ⟨⟩ query hsome
      rw [hsome, hquery]
      rfl
  | _ => exact ⟨.items, rfl, nofun⟩

variable (chosen place) in
/-- The items of a definition with aliases are those of the definition, under a key that tells
scalars from records alike. -/
theorem itemsOf_aliasedParts (hes : es.Distinct)
    (h : renamed = true → usesCanonicalKeys es = true) :
    itemsOf (aliasedParts chosen place renamed es) = itemsOf es ∨ ∃ v key,
      es.get? "items" = some v ∧ itemsOf es = (some v, .items) ∧
      itemsOf (aliasedParts chosen place renamed es) =
        (some (partOf chosen place "items" v), key) ∧ ToldByQuery key v := by
  cases renamed with
  | false =>
    have hget {key : String} {found : Option Value} (hne : key ≠ "properties" ∧ key ≠ "items")
        (hkey : es.get? key = found) : (aliasedParts chosen place false es).get? key = found := by
      rw [get?_aliasedParts_false, partOf_of_ne hne.1 hne.2, Option.map_id_fun, id, hkey]
    cases hfields : es.get? "item_fields" with
    | some v =>
      left
      rw [itemsOf_of_itemFields hfields, itemsOf_of_itemFields (hget (by decide) hfields)]
    | none =>
      have hfields' := hget (by decide) hfields
      cases hitem : es.get? "item" with
      | some v =>
        left
        rw [itemsOf_of_item hfields hitem, itemsOf_of_item hfields' (hget (by decide) hitem)]
      | none =>
        rw [itemsOf_of_items hfields hitem, itemsOf_of_items hfields' (hget (by decide) hitem),
          get?_aliasedParts_false]
        cases es.get? "items" with
        | none => exact .inl rfl
        | some v =>
          exact .inr ⟨v, .items, rfl, rfl, rfl, toldByQuery_items v⟩
  | true =>
    have hcanonical := h rfl
    have hitems := itemsOf_of_items (get?_of_usesCanonicalKeys hcanonical (by decide))
      (get?_of_usesCanonicalKeys hcanonical (by decide))
    have hget (key : ItemsKey) : (aliasedParts chosen place true es).get? key.name =
        ((es.get? "items").filter fun v => aliasOf "items" v = key.name).map
          (partOf chosen place "items") := by
      have hstands : canonicalOf key.name = "items" := by cases key <;> rfl
      rw [get?_aliasedParts_true hes hcanonical, hstands]
    cases hfound : es.get? "items" with
    | none =>
      left
      have hnone (key : ItemsKey) : (aliasedParts chosen place true es).get? key.name = none := by
        rw [hget, hfound]
        rfl
      rw [hitems, itemsOf_of_items (hnone .itemFields) (hnone .item), hfound]
      exact congrArg (·, ItemsKey.items) (hnone .items)
    | some v =>
      obtain ⟨key, halias, hscalar⟩ := exists_aliasOf_items v
      refine .inr ⟨v, key, rfl, hfound ▸ hitems, ?_, hscalar⟩
      apply itemsOf_of_only
      · rw [hget, hfound, Option.filter_some_pos (by simpa using halias)]
        rfl
      · intro other hne
        have hname : key.name ≠ other.name := by
          revert hne
          cases key <;> cases other <;> decide
        rw [hget, hfound, Option.filter_some, if_neg (by simpa [halias] using hname)]
        rfl

/-- Items with a query are the definition of a scalar, and others are fields. -/
theorem partOf_items (items : Entries) : partOf chosen place "items" (.dict items) =
    if (items.firstPresent? xpathKeys).isSome then
      aliased chosen (.str "items" :: place) (.dict items)
    else .dict (aliasedFields chosen (.str "items" :: place) items) := by
  rw [partOf, aliasedPart, if_neg (by decide), if_pos (by decide)]
  rfl

variable (hfields : ∀ {key : String} {fields : Entries}, es.get? key = some (.dict fields) →
  fields.Distinct ∧ ∀ place, FieldsAlike (stringifyEntries [] fields)
    (stringifyEntries [] (aliasedFields chosen place fields)))

include hfields

/-- The items of a definition are alike with aliases, if each mapping of fields in it is. -/
theorem itemsAlike_aliasedParts (hes : es.Distinct)
    (h : renamed = true → usesCanonicalKeys es = true) :
    ItemsAlike (itemsOf (stringifyEntries [] es))
      (itemsOf (stringifyEntries [] (aliasedParts chosen place renamed es))) := by
  rw [itemsOf_stringifyEntries hes, itemsOf_stringifyEntries (distinct_aliasedParts hes h)]
  rcases itemsOf_aliasedParts chosen place hes h with
    heq | ⟨v, key, hget, hitems, hitems', htold⟩
  · rw [heq]
    exact .refl _
  rw [hitems, hitems']
  cases v with
  | dict items =>
    obtain ⟨hdistinct, halike⟩ := hfields hget
    have hquery : ((stringifyEntries [] items).firstPresent? xpathKeys).isSome =
        (Entries.firstPresent? items xpathKeys).isSome := by
      rw [firstPresent?_stringifyEntries hdistinct (by decide), Option.isSome_map]
    have htold' := toldByQuery_items (.dict items) items rfl _ hquery
    rw [partOf_items]
    cases hsome : (Entries.firstPresent? items xpathKeys).isSome with
    | true =>
      have hcanonical := @Bool.and_elim_right (chosen (.str "items" :: place))
        (usesCanonicalKeys items)
      have hscalar := sameScalar_aliasedParts chosen (.str "items" :: place) hdistinct hcanonical
      have hquery' := hscalar.query ▸ hquery
      exact .scalar (htold'.trans (hquery.trans hsome))
        ((htold items rfl _ hquery').trans (hquery'.trans hsome)) hscalar
    | false =>
      have hquery' : ((stringifyEntries [] (aliasedFields chosen (.str "items" :: place)
          items)).firstPresent? xpathKeys).isSome =
            (Entries.firstPresent? items xpathKeys).isSome := by
        rw [firstPresent?_stringifyEntries (distinct_aliasedFields hdistinct) (by decide),
          Option.isSome_map, isSome_firstPresent?_aliasedFields]
      exact .records (htold'.trans (hquery.trans hsome))
        ((htold items rfl _ hquery').trans (hquery'.trans hsome)) (halike _)
  | null =>
    refine .missing ?_ ?_ <;>
    · rintro v ⟨⟩
      rfl
  | _ => exact .noMapping nofun rfl nofun rfl

/-! ### Definitions -/

/-- A definition with aliases says the same, if each mapping of fields in it is alike. -/
theorem saysSame_aliasedParts (hes : es.Distinct)
    (h : renamed = true → usesCanonicalKeys es = true) : SaysSame (stringifyEntries [] es)
      (stringifyEntries [] (aliasedParts chosen place renamed es)) := by
  have hes' : (aliasedParts chosen place renamed es).Distinct := distinct_aliasedParts hes h
  refine ⟨sameScalar_aliasedParts chosen place hes h, ?_, ?_, ?_⟩
  · rw [firstPresent?_stringifyEntries hes (by decide),
      firstPresent?_stringifyEntries hes' (by decide), containerKeys,
      firstPresent?_aliasedParts_of_ne hes h hasAlias_container (by decide) (by decide)]
  · rw [firstPresent?_stringifyEntries hes (by decide),
      firstPresent?_stringifyEntries hes' (by decide), contextKeys,
      firstPresent?_aliasedParts_of_ne hes h hasAlias_context (by decide) (by decide)]
  · rw [firstPresent?_stringifyEntries hes (by decide),
      firstPresent?_stringifyEntries hes' (by decide), propertiesKeys,
      firstPresent?_aliasedParts hes h hasAlias_properties, firstPresent?_cons]
    cases hfound : es.firstPresent? ["properties"] with
    | none => exact .same _
    | some v =>
      have hget : es.get? "properties" = some v := by
        rw [firstPresent?_singleton] at hfound
        exact (Option.filter_eq_some_iff.1 hfound).1
      cases v with
      | dict fields => exact .fields ((hfields hget).2 _)
      | _ => exact .same _

end Items

/-- A definition is read like the same one with aliases in the chosen definitions. -/
theorem alike_aliased (chosen : List Value → Bool) (v : Value) (hv : DistinctKeyed v)
    (place : List Value) :
    Alike v.stringifyKeys (aliased chosen place v).stringifyKeys := by
  cases v with
  | dict es =>
    have hcanonical := @Bool.and_elim_right (chosen place) (usesCanonicalKeys es)
    have hfields {key : String} {fields : Entries}
        (hget : Entries.get? es key = some (.dict fields)) :
        fields.Distinct ∧ ∀ place, FieldsAlike (stringifyEntries [] fields)
          (stringifyEntries [] (aliasedFields chosen place fields)) := by
      have hkeyed := hv.of_get? hget
      refine ⟨hkeyed.distinct, fun place => fieldsAlike_aliasedFields place fun e he place => ?_⟩
      have hfield := sizeOf_value_lt he
      have hpart := Entries.sizeOf_lt_of_get? hget
      exact alike_aliased chosen e.2 (hkeyed.values e he) place
    exact read_congr (saysSame_aliasedParts hfields hv.distinct hcanonical)
      fun _ _ => itemsAlike_aliasedParts hfields hv.distinct hcanonical
  | _ => rfl
termination_by sizeOf v
decreasing_by
  subst_vars
  simp only [Value.dict.sizeOf_spec] at hpart ⊢
  omega

end Field

/-! ### Plans -/

/-- A saved plan with aliases in the chosen definitions. -/
def Value.withAliases (chosen : List Value → Bool) : Value → Value
  | .dict es => .dict (Field.aliasedFields chosen [] es)
  | v => v

namespace Plan

/-- A plan without the raw content of its malformed fields. -/
def bare (p : Plan) : Plan := ⟨Field.bareFields p.fields⟩

theorem malformedNames_bare (p : Plan) : p.bare.malformedNames = p.malformedNames := by
  obtain ⟨fields⟩ := p
  rw [malformedNames, malformedNames, bare]
  induction fields with
  | nil => rfl
  | cons f fields ih =>
    obtain ⟨name, f⟩ := f
    rw [Field.bareFields, List.filter_cons, List.filter_cons, Field.isMalformed_bare]
    split_ifs
    · rw [List.map_cons, List.map_cons, ih]
    · exact ih

theorem extractFrom_bare (p : Plan) (page : PageSource) :
    p.bare.extractFrom page = p.extractFrom page := by
  rw [extractFrom, extractFrom, Evaluator.extract, Evaluator.extract, bare,
    Evaluator.extractFields_bareFields]

theorem map_bare_ofValue_dict (es : Entries) : (ofValue (.dict es)).map bare =
    match (Field.readFields (Value.stringifyEntries [] es) >>=
      Field.named "fields" []).map Field.bareFields with
    | .ok fields => .ok ⟨fields⟩
    | .error faults => .error (.invalid faults) := by
  rw [ofValue, Value.stringifyKeys]
  dsimp only
  cases Field.readFields (Value.stringifyEntries [] es) >>= Field.named "fields" [] <;> rfl

/-- A mapping holds the same plan with aliases. -/
theorem ofValue_withAliases (chosen : List Value → Bool) {v : Value} (hv : v.DistinctKeyed) :
    (ofValue (v.withAliases chosen)).map bare = (ofValue v).map bare := by
  cases v with
  | dict es =>
    have halike := Field.fieldsAlike_aliasedFields [] fun e he place =>
      Field.alike_aliased chosen e.2 (hv.values e he) place
    rw [Value.withAliases, map_bare_ofValue_dict, map_bare_ofValue_dict, halike.readNamed_eq]
  | _ => rfl

theorem map_bare_noted (p : Plan) : bare <$> noted p = noted p.bare := by
  rw [noted, noted, malformedNames_bare]
  cases p.malformedNames with
  | nil => exact map_pure bare p
  | cons name names => simp only [map_bind, map_pure]

/-- What is noted of a plan is up to what it is without raw content. -/
theorem map_bare_read {source : PlanSource} {v : Value} (h : source.read = .ok v) :
    bare <$> read source = Run.ofExcept ((ofValue v).map bare) >>= noted := by
  rw [read_eq_noted h]
  cases ofValue v with
  | error e => rfl
  | ok p =>
    calc bare <$> (Run.ofExcept (.ok p) >>= noted) = bare <$> noted p :=
          congrArg _ (pure_bind p noted)
      _ = noted p.bare := map_bare_noted p
      _ = Run.ofExcept (.ok p.bare) >>= noted := (pure_bind p.bare noted).symm

/-- Plans that are the same but for raw content extract the same. -/
theorem extract_of_bare {source source' : PlanSource}
    (h : bare <$> read source = bare <$> read source') (page : PageSource) :
    extract page source = extract page source' := by
  have hextract (source : PlanSource) :
      extract page source = (bare <$> read source) >>= fun p => p.extractFrom page := by
    rw [bind_map_left]
    simp only [extractFrom_bare]
    rfl
  rw [hextract, hextract, h]

/-- **Aliases change nothing.**  If in any choice of the definitions of a saved plan, at any depth,
the canonical keys are replaced by their aliases, the plan that is read is the same but for the raw
content of its malformed fields, and it extracts the same from every page. -/
theorem extract_withAliases {source source' : PlanSource} {v : Value} (hread : source.read = .ok v)
    (hv : v.DistinctKeyed) (chosen : List Value → Bool)
    (hread' : source'.read = .ok (v.withAliases chosen)) :
    bare <$> read source' = bare <$> read source ∧
      ∀ page, extract page source' = extract page source := by
  have hplan : bare <$> read source' = bare <$> read source := by
    rw [map_bare_read hread', map_bare_read hread, ofValue_withAliases chosen hv]
  exact ⟨hplan, extract_of_bare hplan⟩

/-- A plan with a list of texts and a record, which has a field named like a key. -/
def shelfPlan : Value :=
  .record [
    ("titles", .record [("type", .str "array"), ("container_xpath", .str "//li"),
      ("items", .record [("xpath", .str ".")])]),
    ("shelf", .record [("context_xpath", .str "//h1"), ("properties", .record [
      ("xpath", .record [("xpath", .str "string(@id)"), ("type", .str "integer")])])])]

/-- The plan with aliases in all of its definitions but the last. -/
def aliasedShelfPlan : Value :=
  .record [
    ("titles", .record [("type", .str "array"), ("container_path_query", .str "//li"),
      ("item", .record [("path_query", .str ".")])]),
    ("shelf", .record [("context_path_query", .str "//h1"), ("fields", .record [
      ("xpath", .record [("xpath", .str "string(@id)"), ("type", .str "integer")])])])]

theorem extract_withAliases_shelfPlan :
    shelfPlan.withAliases (fun place => place.length ≠ 3) = aliasedShelfPlan ∧
      ∀ page, extract page (.value aliasedShelfPlan) = extract page (.value shelfPlan) := by
  have hkeys : shelfPlan.DistinctKeyed := Value.distinctKeyed_stringifyKeys shelfPlan
  have halias : shelfPlan.withAliases (fun place => place.length ≠ 3) = aliasedShelfPlan := rfl
  refine ⟨halias, (extract_withAliases rfl hkeys (fun place => place.length ≠ 3) ?_).2⟩
  rw [halias]
  rfl

end Plan

end PagePlan
