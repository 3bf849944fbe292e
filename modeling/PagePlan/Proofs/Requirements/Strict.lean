/-
# What making a schema strict keeps

A schema is strict if none of the keywords that are left out stands in it and every object in it is
closed; the names of properties are no keywords.  The strict form of a schema is strict, and a
strict schema is its own strict form, so that making it strict once is enough.

The schemas in a schema are found by steps: to a property, to what stands under one of the keywords
`items`, `anyOf` and `additionalProperties`, or to one of the schemas listed there.  At every place
the strict form has the strict form of what was there, but for what an object said of additional
properties, which is replaced.

* `isStrict_strict`, `IsStrict.strict_eq` — strict forms are the strict schemas;
* `at?_strict` — the strict form of a schema, place by place;
* `strict_keeps_names` — a strict form again, with the names of properties at every place.
-/
import PagePlan.Proofs.Requirements.Acceptance

namespace PagePlan.Schema

/-! ### Strict schemas -/

/-- Whether a value is neither a mapping nor a list. -/
def isLeaf : Value → Bool
  | .dict _ => false
  | .list _ => false
  | _ => true

/-- The keys of all mappings in a value are texts, as those of JSON are. -/
inductive HasTextKeys : Value → Prop
  | dict {es : Entries} : (∀ e ∈ es, e.1.isText = true) → (∀ e ∈ es, HasTextKeys e.2) →
      HasTextKeys (.dict es)
  | list {xs : List Value} : (∀ x ∈ xs, HasTextKeys x) → HasTextKeys (.list xs)
  | leaf {v : Value} : isLeaf v = true → HasTextKeys v

theorem HasTextKeys.keys {es : Entries} (h : HasTextKeys (.dict es)) :
    ∀ e ∈ es, e.1.isText = true := by
  cases h with
  | dict hkeys _ => exact hkeys
  | leaf hleaf => cases hleaf

theorem HasTextKeys.values {es : Entries} (h : HasTextKeys (.dict es)) :
    ∀ e ∈ es, HasTextKeys e.2 := by
  cases h with
  | dict _ hvalues => exact hvalues
  | leaf hleaf => cases hleaf

/-- The schemas that an entry of a schema holds: those of the properties, or its one value. -/
def schemasOf : Value × Value → List Value
  | (.str "properties", .dict properties) => properties.map Prod.snd
  | (_, v) => [v]

/-- An object schema allows no other properties than its own and requires all of these. -/
def Closed (es : Entries) : Prop :=
  ∀ properties, es.get? "type" = some (.str "object") →
    es.get? "properties" = some (.dict properties) →
    es.get? "additionalProperties" = some (.bool false) ∧
      es.get? "required" = some (.list (properties.map Prod.fst))

/-- None of the keywords that are left out stands in a schema, and every object in it is closed. -/
inductive IsStrict : Value → Prop
  | dict {es : Entries} : (∀ e ∈ es, isDropped e.1 = false) →
      (∀ e ∈ es, ∀ s ∈ schemasOf e, IsStrict s) → Closed es → IsStrict (.dict es)
  | list {xs : List Value} : (∀ x ∈ xs, IsStrict x) → IsStrict (.list xs)
  | leaf {v : Value} : isLeaf v = true → IsStrict v

theorem strict_of_isLeaf {v : Value} (h : isLeaf v = true) : strict v = v := by
  cases v with
  | dict es => cases h
  | list xs => cases h
  | _ => rw [strict]; all_goals (intro _ hv; cases hv)

theorem isStrict_of_isText {v : Value} (h : v.isText = true) : IsStrict v := by
  cases v with
  | str s => exact .leaf rfl
  | unpaired t => exact .leaf rfl
  | _ => cases h

theorem strictItems_eq_map (xs : List Value) : strictItems xs = xs.map strict := by
  induction xs with
  | nil => rw [strictItems, List.map_nil]
  | cons x xs ih => rw [strictItems, ih, List.map_cons]

/-- The strict form of the value under a key. -/
def strictUnder (k v : Value) : Value :=
  if k.sameKey (.str "properties") then strictSection v else strict v

theorem strictEntries_eq_map (es : Entries) : strictEntries es =
    (es.filter fun e => !isDropped e.1).map fun e => (e.1, strictUnder e.1 e.2) := by
  induction es with
  | nil => rw [strictEntries, List.filter_nil, List.map_nil]
  | cons e es ih =>
    obtain ⟨k, v⟩ := e
    rw [strictEntries, ih]
    by_cases hk : isDropped k = true
    · rw [if_pos hk, List.filter_cons_of_neg (by simp [hk])]
    · rw [if_neg hk, List.filter_cons_of_pos (by simp [hk]), List.map_cons]
      by_cases hproperties : k.sameKey (.str "properties") = true
      · rw [if_pos hproperties, strictUnder, if_pos hproperties]
      · rw [if_neg hproperties, strictUnder, if_neg hproperties]

theorem exists_of_strictSection {v : Value} {properties : Entries}
    (h : strictSection v = .dict properties) : ∃ ps, v = .dict ps ∧
      properties = ps.map fun p => (p.1, strict p.2) := by
  cases v with
  | dict ps =>
    rw [strictSection, strictProperties_eq_map] at h
    exact ⟨ps, rfl, (Value.dict.inj h).symm⟩
  | list xs => rw [strictSection] at h; cases h
  | _ => rw [strictSection] at h; cases h; all_goals (intro _ hv; cases hv)

theorem strict_ne_dict {v : Value} (h : ∀ es, v ≠ .dict es) (es : Entries) :
    strict v ≠ .dict es := by
  cases v with
  | dict es' => exact absurd rfl (h es')
  | list xs => rw [strict]; rintro ⟨⟩
  | _ => rw [strict_of_isLeaf (by rfl)]; rintro ⟨⟩

/-- An entry holds the schemas of properties, or one schema, before and after it is made strict. -/
theorem schemasOf_cases (k v : Value) :
    (∃ properties, k = .str "properties" ∧ v = .dict properties ∧
      strictUnder k v = .dict (properties.map fun p => (p.1, strict p.2))) ∨
    (schemasOf (k, v) = [v] ∧ strictUnder k v = strict v ∧
      schemasOf (k, strict v) = [strict v]) := by
  have hone {w : Value} (h : k ≠ .str "properties" ∨ ∀ es, w ≠ .dict es) :
      schemasOf (k, w) = [w] := by
    rw [schemasOf]
    rintro properties rfl rfl
    exact h.elim (absurd rfl) fun h => h properties rfl
  by_cases hk : k = .str "properties"
  · have hkey : k.sameKey (.str "properties") = true := Value.sameKey_str.2 hk
    by_cases hv : ∃ properties, v = .dict properties
    · obtain ⟨properties, rfl⟩ := hv
      refine Or.inl ⟨properties, hk, rfl, ?_⟩
      rw [strictUnder, if_pos hkey, strictSection, strictProperties_eq_map]
    · have hv := not_exists.1 hv
      refine Or.inr ⟨hone (Or.inr hv), ?_, hone (Or.inr (strict_ne_dict hv))⟩
      rw [strictUnder, if_pos hkey]
      cases v with
      | dict es => exact absurd rfl (hv es)
      | list xs => rw [strictSection, strict]
      | _ => rw [strict_of_isLeaf (by rfl), strictSection]; all_goals (intro _ hv; cases hv)
  · refine Or.inr ⟨hone (Or.inl hk), ?_, hone (Or.inl hk)⟩
    rw [strictUnder, if_neg (mt Value.sameKey_str.1 hk)]

/-! ### Strict forms are the strict schemas -/

/-- An entry whose schemas are their own strict forms stays as it is. -/
theorem strictUnder_eq_self {k v : Value} (h : ∀ s ∈ schemasOf (k, v), strict s = s) :
    strictUnder k v = v := by
  rcases schemasOf_cases k v with ⟨properties, rfl, rfl, hunder⟩ | ⟨hone, hunder, -⟩
  · rw [hunder]
    have hself : ∀ p ∈ properties, (p.1, strict p.2) = p := fun p hp =>
      Prod.ext rfl (h p.2 (List.mem_map_of_mem hp))
    rw [List.map_congr_left hself, List.map_id']
  · rw [hunder]
    exact h v (hone ▸ List.mem_singleton_self v)

/-- The schemas of an entry that was made strict are strict if those of the entry become so. -/
theorem isStrict_strictUnder {k v : Value} (h : ∀ s ∈ schemasOf (k, v), IsStrict (strict s)) :
    ∀ s ∈ schemasOf (k, strictUnder k v), IsStrict s := by
  intro s hs
  rcases schemasOf_cases k v with ⟨properties, rfl, rfl, hunder⟩ | ⟨hone, hunder, hstrict⟩
  · rw [hunder, schemasOf, List.map_map] at hs
    obtain ⟨p, hp, rfl⟩ := List.mem_map.1 hs
    exact h p.2 (List.mem_map_of_mem hp)
  · rw [hunder, hstrict] at hs
    obtain rfl := List.mem_singleton.1 hs
    exact h v (hone ▸ List.mem_singleton_self v)

/-- A closed object is left as it is by closing it. -/
theorem Closed.close_eq {es : Entries} (h : Closed es) : close es = es := by
  rw [close]
  split
  · next properties htype hproperties =>
    obtain ⟨hadditional, hrequired⟩ := h properties htype hproperties
    rw [Entries.insert_of_get? hadditional, Entries.insert_of_get? hrequired]
  · rfl

/-- **A strict schema is its own strict form.** -/
theorem IsStrict.strict_eq {v : Value} (h : IsStrict v) : strict v = v := by
  induction h with
  | @dict es hkept _ hclosed ih =>
    have hentries : strictEntries es = es := by
      rw [strictEntries_eq_map, List.filter_eq_self.2 fun e he => by simp [hkept e he]]
      have hself : ∀ e ∈ es, (e.1, strictUnder e.1 e.2) = e := fun e he =>
        Prod.ext rfl (strictUnder_eq_self (ih e he))
      rw [List.map_congr_left hself, List.map_id']
    rw [strict, hentries, hclosed.close_eq]
  | @list xs _ ih => rw [strict, strictItems_eq_map, List.map_congr_left ih, List.map_id']
  | leaf hleaf => exact strict_of_isLeaf hleaf

theorem strictEntries_kept {es : Entries} : ∀ e ∈ strictEntries es, isDropped e.1 = false := by
  intro e he
  rw [strictEntries_eq_map] at he
  obtain ⟨e', he', rfl⟩ := List.mem_map.1 he
  simpa using (List.mem_filter.1 he').2

/-- The entries of a closed schema are those that it had, and two that hold no schema of their
own. -/
theorem mem_close {es : Entries} {e : Value × Value} (h : e ∈ close es) :
    e ∈ es ∨ e = (.str "additionalProperties", .bool false) ∨
      ∃ properties, es.get? "properties" = some (.dict properties) ∧
        e = (.str "required", .list (properties.map Prod.fst)) := by
  rw [close] at h
  split at h
  · next properties _ hproperties =>
    rcases Entries.mem_insert h with h | rfl
    · exact (Entries.mem_insert h).imp_right Or.inl
    · exact Or.inr (Or.inr ⟨properties, hproperties, rfl⟩)
  · exact Or.inl h

theorem closed_close (es : Entries) : Closed (close (strictEntries es)) := by
  intro properties htype hproperties
  rw [get?_close (by decide) (by decide)] at htype hproperties
  exact get?_close_of_object htype hproperties

/-- The names of the properties of a strict form are texts if the keys of the schema are. -/
theorem names_isText {es properties : Entries} (h : HasTextKeys (.dict es))
    (hproperties : (strictEntries es).get? "properties" = some (.dict properties)) :
    ∀ name ∈ properties.map Prod.fst, name.isText = true := by
  rw [get?_strictEntries (by decide), Option.map_eq_some_iff] at hproperties
  obtain ⟨v, hv, hstrict⟩ := hproperties
  obtain ⟨ps, rfl, rfl⟩ := exists_of_strictSection hstrict
  have hkeys := (h.values _ (Entries.mem_of_get? hv)).keys
  intro name hname
  rw [List.map_map] at hname
  obtain ⟨p, hp, rfl⟩ := List.mem_map.1 hname
  exact hkeys p hp

theorem HasTextKeys.of_mem_schemasOf {es : Entries} (h : HasTextKeys (.dict es))
    {e : Value × Value} (he : e ∈ es) {s : Value} (hs : s ∈ schemasOf e) : HasTextKeys s := by
  have hvalue := h.values e he
  obtain ⟨k, v⟩ := e
  rcases schemasOf_cases k v with ⟨properties, rfl, rfl, -⟩ | ⟨hone, -, -⟩
  · obtain ⟨p, hp, rfl⟩ := List.mem_map.1 hs
    exact hvalue.values p hp
  · rw [hone] at hs
    exact List.mem_singleton.1 hs ▸ hvalue

theorem sizeOf_lt_of_mem_schemasOf {es : Entries} {e : Value × Value} (he : e ∈ es) {s : Value}
    (hs : s ∈ schemasOf e) : sizeOf s < sizeOf es := by
  have hlt := Value.sizeOf_value_lt he
  obtain ⟨k, v⟩ := e
  rcases schemasOf_cases k v with ⟨properties, rfl, rfl, -⟩ | ⟨hone, -, -⟩
  · obtain ⟨p, hp, rfl⟩ := List.mem_map.1 hs
    have := Value.sizeOf_value_lt hp
    simp only [Value.dict.sizeOf_spec] at hlt
    omega
  · rw [hone] at hs
    exact List.mem_singleton.1 hs ▸ hlt

/-- **The strict form of a schema is strict.** -/
theorem isStrict_strict {v : Value} (h : HasTextKeys v) : IsStrict (strict v) := by
  cases h with
  | @dict es hkeys hvalues =>
    have h : HasTextKeys (.dict es) := .dict hkeys hvalues
    rw [strict]
    refine .dict ?_ ?_ (closed_close es)
    · intro e he
      rcases mem_close he with he | rfl | ⟨properties, -, rfl⟩
      · exact strictEntries_kept e he
      · rfl
      · rfl
    · intro e he
      rcases mem_close he with he | rfl | ⟨properties, hproperties, rfl⟩
      · rw [strictEntries_eq_map] at he
        obtain ⟨e', he', rfl⟩ := List.mem_map.1 he
        have hmem := (List.mem_filter.1 he').1
        refine isStrict_strictUnder fun s hs => ?_
        -- the schemas of properties are two levels down, so that the recursion is by size
        have := sizeOf_lt_of_mem_schemasOf hmem hs
        exact isStrict_strict (h.of_mem_schemasOf hmem hs)
      · rintro s hs
        obtain rfl := List.mem_singleton.1 hs
        exact .leaf rfl
      · rintro s hs
        obtain rfl := List.mem_singleton.1 hs
        exact .list fun name hname => isStrict_of_isText (names_isText h hproperties name hname)
  | @list xs hitems =>
    rw [strict, strictItems_eq_map]
    refine .list fun y hy => ?_
    obtain ⟨x, hx, rfl⟩ := List.mem_map.1 hy
    have := List.sizeOf_lt_of_mem hx
    exact isStrict_strict (hitems x hx)
  | leaf hleaf =>
    rw [strict_of_isLeaf hleaf]
    exact .leaf hleaf
termination_by sizeOf v
decreasing_by
  · simp only [Value.dict.sizeOf_spec]; omega
  · simp only [Value.list.sizeOf_spec]; omega

/-! ### The schemas in a schema -/

/-- The keywords, properties aside, under which a schema has other schemas. -/
inductive Keyword where
  | items
  | anyOf
  | additional
deriving DecidableEq

/-- The key of a keyword. -/
def Keyword.key : Keyword → String
  | items => "items"
  | anyOf => "anyOf"
  | additional => "additionalProperties"

/-- The way from a schema to one that it is built from. -/
inductive Step where
  /-- To a property, by its number. -/
  | property (i : Nat)
  /-- To what stands under a keyword. -/
  | under (k : Keyword)
  /-- To one of the schemas that are listed under a keyword. -/
  | listed (k : Keyword) (i : Nat)

/-- Whether a step goes to what is said of additional properties. -/
def Step.isAdditional : Step → Bool
  | property _ => false
  | under k => k = .additional
  | listed k _ => k = .additional

/-- What stands under a key of a schema. -/
def keyword? (s : Value) (key : String) : Option Value :=
  s.dict? >>= fun es => Entries.get? es key

/-- The properties of a schema. -/
def propertyMap? (s : Value) : Option Entries :=
  keyword? s "properties" >>= Value.dict?

/-- The names of the properties of a schema, in their order. -/
def propertyNames? (s : Value) : Option (List Value) :=
  (propertyMap? s).map fun properties => properties.map Prod.fst

/-- A schema has the type of objects and a mapping of properties. -/
def IsObject (s : Value) : Prop :=
  keyword? s "type" = some (.str "object") ∧ (propertyMap? s).isSome = true

/-- The schema that a step leads to. -/
def child? (s : Value) : Step → Option Value
  | .property i => propertyMap? s >>= fun properties => properties[i]?.map Prod.snd
  | .under k => keyword? s k.key
  | .listed k i =>
    match keyword? s k.key with
    | some (.list xs) => xs[i]?
    | _ => none

/-- The schema at the end of some steps. -/
def at? (s : Value) : List Step → Option Value
  | [] => some s
  | step :: path => child? s step >>= fun t => at? t path

/-- The place at the end of some steps is kept: no object on the way is left by what it says of
additional properties. -/
def KeepsPlace (s : Value) : List Step → Prop
  | [] => True
  | step :: path =>
    ¬(IsObject s ∧ step.isAdditional = true) ∧ ∀ t ∈ child? s step, KeepsPlace t path

section Places

variable {s : Value}

theorem eq_str_of_strict {v : Value} {t : String} (h : strict v = .str t) : v = .str t := by
  cases v with
  | dict es => rw [strict] at h; cases h
  | list xs => rw [strict] at h; cases h
  | _ => rw [strict_of_isLeaf (by rfl)] at h; exact h

/-- Nothing is closed in a schema that is no object. -/
theorem close_strictEntries {es : Entries} (h : ¬IsObject (.dict es)) :
    close (strictEntries es) = strictEntries es := by
  rw [close]
  split
  · next properties htype hproperties =>
    rw [get?_strictEntries (by decide), Option.map_eq_some_iff] at htype hproperties
    obtain ⟨t, ht, htype⟩ := htype
    obtain ⟨v, hv, hproperties⟩ := hproperties
    obtain rfl := eq_str_of_strict htype
    obtain ⟨ps, rfl, -⟩ := exists_of_strictSection hproperties
    refine absurd ⟨ht, ?_⟩ h
    change ((Entries.get? es "properties") >>= Value.dict?).isSome = true
    rw [hv]
    rfl
  · rfl

/-- What stands under a keyword that is not left out stands in the strict form in its strict form,
unless the schema is an object and the keyword is one that closes it. -/
theorem keyword?_strict {key : String} (hkept : isDropped (.str key) = false)
    (hkey : IsObject s → key ≠ "additionalProperties" ∧ key ≠ "required") :
    keyword? (strict s) key =
      (keyword? s key).map (if key = "properties" then strictSection else strict) := by
  cases s with
  | dict es =>
    have hget : (close (strictEntries es)).get? key = (strictEntries es).get? key := by
      by_cases hobject : IsObject (.dict es)
      · exact get?_close (hkey hobject).1 (hkey hobject).2 _
      · rw [close_strictEntries hobject]
    rw [strict]
    change (close (strictEntries es)).get? key = (Entries.get? es key).map _
    rw [hget, get?_strictEntries hkept]
  | list xs => rw [strict]; rfl
  | _ => rw [strict_of_isLeaf (by rfl)]; rfl

/-- A keyword that is left out is not there. -/
theorem keyword?_strict_of_isDropped {key : String} (h : isDropped (.str key) = true) :
    keyword? (strict s) key = none := by
  cases s with
  | dict es =>
    rw [strict]
    change (close (strictEntries es)).get? key = none
    refine Option.eq_none_iff_forall_ne_some.2 fun v hv => ?_
    have hmem := Entries.mem_of_get? hv
    rcases mem_close hmem with hmem | heq | ⟨_, -, heq⟩
    · rw [strictEntries_kept _ hmem] at h
      cases h
    · cases heq
      cases h
    · cases heq
      cases h
  | list xs => rw [strict]; rfl
  | _ => rw [strict_of_isLeaf (by rfl)]; rfl

/-- The properties of the strict form are those of the schema, in their strict forms. -/
theorem propertyMap?_strict : propertyMap? (strict s) =
    (propertyMap? s).map fun properties => properties.map fun p => (p.1, strict p.2) := by
  rw [propertyMap?, keyword?_strict (by decide) fun _ => by decide, if_pos rfl, propertyMap?]
  cases keyword? s "properties" with
  | none => rfl
  | some v =>
    cases v with
    | dict properties =>
      change (strictSection (.dict properties)).dict? = some _
      rw [strictSection, strictProperties_eq_map]
      rfl
    | list xs => change (strictSection (.list xs)).dict? = none; rw [strictSection]; rfl
    | _ => rfl

theorem propertyNames?_strict : propertyNames? (strict s) = propertyNames? s := by
  rw [propertyNames?, propertyNames?, propertyMap?_strict, Option.map_map]
  congr 1
  funext properties
  exact List.map_map

theorem isObject_strict : IsObject (strict s) ↔ IsObject s := by
  rw [IsObject, IsObject, propertyMap?_strict, Option.isSome_map,
    keyword?_strict (by decide) fun _ => by decide, if_neg (by decide), Option.map_eq_some_iff]
  refine and_congr_left fun _ => ⟨?_, fun h => ⟨_, h, strict_of_isLeaf rfl⟩⟩
  rintro ⟨v, hv, hstrict⟩
  rw [hv, eq_str_of_strict hstrict]

theorem exists_dict_of_propertyMap? {properties : Entries}
    (h : propertyMap? s = some properties) :
    ∃ es, s = .dict es ∧ Entries.get? es "properties" = some (.dict properties) := by
  obtain ⟨v, hv, hdict⟩ := Option.bind_eq_some_iff.1 h
  obtain ⟨es, hes, hv⟩ := Option.bind_eq_some_iff.1 hv
  cases s with
  | dict es =>
    cases hes
    cases v with
    | dict properties' =>
      cases hdict
      exact ⟨es, rfl, hv⟩
    | _ => cases hdict
  | _ => cases hes

/-- The strict form of an object is closed. -/
theorem keyword?_of_isObject (h : IsObject s) {names : List Value}
    (hnames : propertyNames? s = some names) :
    keyword? (strict s) "additionalProperties" = some (.bool false) ∧
      keyword? (strict s) "required" = some (.list names) := by
  obtain ⟨htype, -⟩ := isObject_strict.2 h
  rw [← propertyNames?_strict] at hnames
  obtain ⟨properties, hproperties, rfl⟩ := Option.map_eq_some_iff.1 hnames
  cases s with
  | dict es =>
    rw [strict] at htype hproperties ⊢
    obtain ⟨es', hes, hget⟩ := exists_dict_of_propertyMap? hproperties
    cases hes
    exact closed_close es properties htype hget
  | _ => cases h.1

/-- The key of a keyword is none that is left out or that a property has. -/
theorem Keyword.key_kept (k : Keyword) :
    isDropped (.str k.key) = false ∧ k.key ≠ "properties" ∧ k.key ≠ "required" := by
  cases k <;> decide

theorem keyword?_strict_key {k : Keyword} (h : ¬(IsObject s ∧ k = .additional)) :
    keyword? (strict s) k.key = (keyword? s k.key).map strict := by
  obtain ⟨hkept, hproperties, hrequired⟩ := k.key_kept
  rw [keyword?_strict hkept, if_neg hproperties]
  intro hobject
  refine ⟨?_, hrequired⟩
  cases k with
  | items => decide
  | anyOf => decide
  | additional => exact absurd ⟨hobject, rfl⟩ h

/-- A step leads from the strict form to the strict form of where it leads. -/
theorem child?_strict {step : Step} (h : ¬(IsObject s ∧ step.isAdditional = true)) :
    child? (strict s) step = (child? s step).map strict := by
  cases step with
  | property i =>
    rw [child?, child?, propertyMap?_strict]
    cases propertyMap? s with
    | none => rfl
    | some properties =>
      change (properties.map _)[i]?.map Prod.snd = (properties[i]?.map Prod.snd).map strict
      rw [List.getElem?_map, Option.map_map, Option.map_map]
      rfl
  | under k =>
    simp only [Step.isAdditional, decide_eq_true_eq] at h
    exact keyword?_strict_key h
  | listed k i =>
    simp only [Step.isAdditional, decide_eq_true_eq] at h
    rw [child?, child?, keyword?_strict_key h]
    cases keyword? s k.key with
    | none => rfl
    | some v =>
      cases v with
      | list xs =>
        simp only [Option.map_some, strict, strictItems_eq_map, List.getElem?_map]
      | dict es => simp only [Option.map_some, strict, Option.map_none]
      | _ => rw [Option.map_some, strict_of_isLeaf (by rfl)]; rfl

/-- What an object says of additional properties is replaced, and nothing is built from it. -/
theorem child?_strict_of_isObject (h : IsObject s) {step : Step}
    (hstep : step.isAdditional = true) {t : Value} (ht : child? (strict s) step = some t) :
    t = .bool false := by
  obtain ⟨properties, hproperties⟩ := Option.isSome_iff_exists.1 h.2
  have hclosed := (keyword?_of_isObject h (congrArg _ hproperties)).1
  cases step with
  | property i => cases hstep
  | under k =>
    obtain rfl : k = .additional := of_decide_eq_true hstep
    exact Option.some.inj (ht.symm.trans hclosed)
  | listed k i =>
    obtain rfl : k = .additional := of_decide_eq_true hstep
    rw [child?, Keyword.key, hclosed] at ht
    cases ht

end Places

/-! ### The strict form, place by place -/

theorem eq_of_at?_of_isLeaf {path : List Step} {t n : Value} (h : isLeaf t = true)
    (hn : at? t path = some n) : n = t := by
  cases path with
  | nil => exact (Option.some.inj hn).symm
  | cons step path =>
    have hchild : child? t step = none := by
      cases t with
      | dict es => cases h
      | list xs => cases h
      | _ => cases step <;> rfl
    rw [at?, hchild] at hn
    cases hn

/-- **At every place that is kept stands the strict form of what stood there.** -/
theorem at?_strict {s : Value} {path : List Step} (h : KeepsPlace s path) :
    at? (strict s) path = (at? s path).map strict := by
  induction path generalizing s with
  | nil => rfl
  | cons step path ih =>
    obtain ⟨hstep, hrest⟩ := h
    rw [at?, at?, child?_strict hstep]
    cases hchild : child? s step with
    | none => rfl
    | some t => exact ih (hrest t hchild)

/-- At a place that is not kept stands nothing but that no other properties are allowed. -/
theorem eq_false_of_at?_strict {s : Value} {path : List Step} (h : ¬KeepsPlace s path) {n : Value}
    (hn : at? (strict s) path = some n) : n = .bool false := by
  induction path generalizing s with
  | nil => exact absurd trivial h
  | cons step path ih =>
    obtain ⟨t, ht, hn⟩ := Option.bind_eq_some_iff.1 hn
    by_cases hstep : IsObject s ∧ step.isAdditional = true
    · obtain rfl := child?_strict_of_isObject hstep.1 hstep.2 ht
      exact eq_of_at?_of_isLeaf rfl hn
    · rw [child?_strict hstep] at ht
      obtain ⟨m, hm, rfl⟩ := Option.map_eq_some_iff.1 ht
      refine ih (fun hkeeps => h ⟨hstep, fun t ht => ?_⟩) hn
      rw [Option.mem_def, hm] at ht
      exact Option.some.inj ht ▸ hkeeps

/-- A schema has the properties of another under the same names, none of the keywords that are left
out, and is closed if it is an object. -/
structure IsTightened (s t : Value) : Prop where
  names : propertyNames? t = propertyNames? s
  dropped : ∀ key ∈ droppedKeywords, keyword? t key = none
  closed : ∀ names, keyword? t "type" = some (.str "object") → propertyNames? t = some names →
    keyword? t "additionalProperties" = some (.bool false) ∧
      keyword? t "required" = some (.list names)

theorem isTightened_strict (s : Value) : IsTightened s (strict s) where
  names := propertyNames?_strict
  dropped key hkey := by
    refine keyword?_strict_of_isDropped ?_
    rw [isDropped, List.any_eq_true]
    exact ⟨key, hkey, Value.sameKey_str.2 rfl⟩
  closed names htype hnames := by
    rw [propertyNames?_strict] at hnames
    obtain ⟨properties, hproperties, -⟩ := Option.map_eq_some_iff.1 hnames
    refine keyword?_of_isObject (isObject_strict.1 ⟨htype, ?_⟩) hnames
    rw [propertyMap?_strict, hproperties]
    rfl

/-- **Making a schema strict keeps the names of all properties, and need not be done twice.**  The
strict form of a schema is its own strict form.  At every place of the schema, unless it is one
below what an object says of additional properties, the strict form has a schema with the same names
of properties in the same order, with none of the keywords that are left out, and closed if it is an
object; and the strict form has nothing else, but for the word of its objects that they allow no
other properties. -/
theorem strict_keeps_names {s : Value} (hs : HasTextKeys s) :
    strict (strict s) = strict s ∧
      (∀ path m, KeepsPlace s path → at? s path = some m →
        ∃ n, at? (strict s) path = some n ∧ IsTightened m n) ∧
      ∀ path n, at? (strict s) path = some n →
        (KeepsPlace s path ∧ ∃ m, at? s path = some m ∧ IsTightened m n) ∨
          ¬KeepsPlace s path ∧ n = .bool false := by
  refine ⟨(isStrict_strict hs).strict_eq, ?_, ?_⟩
  · intro path m hkeeps hm
    refine ⟨strict m, ?_, isTightened_strict m⟩
    rw [at?_strict hkeeps, hm, Option.map_some]
  · intro path n hn
    by_cases hkeeps : KeepsPlace s path
    · rw [at?_strict hkeeps] at hn
      obtain ⟨m, hm, rfl⟩ := Option.map_eq_some_iff.1 hn
      exact Or.inl ⟨hkeeps, m, hm, isTightened_strict m⟩
    · exact Or.inr ⟨hkeeps, eq_false_of_at?_strict hkeeps hn⟩

/-- The schema of a book, whose properties have the names of keywords. -/
def bookProperties : Value :=
  .record [("title", .record [("type", .str "string"), ("title", .str "Title")]),
    ("properties", .record [("type", .str "array"),
      ("items", .record [("pattern", .str "[a-z]+"), ("type", .str "string")])])]

/-- The schema of a book. -/
def bookSchema : Value :=
  .record [("title", .str "Book"), ("type", .str "object"), ("properties", bookProperties)]

theorem hasTextKeys_record {fields : List (String × Value)}
    (h : ∀ f ∈ fields, HasTextKeys f.2) : HasTextKeys (.record fields) := by
  refine .dict ?_ ?_
  · intro e he
    obtain ⟨f, -, rfl⟩ := List.mem_map.1 he
    rfl
  · intro e he
    obtain ⟨f, hf, rfl⟩ := List.mem_map.1 he
    exact h f hf

theorem hasTextKeys_bookSchema : HasTextKeys bookSchema := by
  have hstr (s : String) : HasTextKeys (.str s) := .leaf rfl
  have hleaves (fields : List (String × String)) :
      HasTextKeys (.record (fields.map fun f => (f.1, .str f.2))) := by
    refine hasTextKeys_record fun f hf => ?_
    obtain ⟨g, -, rfl⟩ := List.mem_map.1 hf
    exact hstr g.2
  have htitle := hleaves [("type", "string"), ("title", "Title")]
  have hitem := hleaves [("pattern", "[a-z]+"), ("type", "string")]
  have hlist : HasTextKeys (.record [("type", .str "array"), ("items", _)]) :=
    hasTextKeys_record (by simpa using ⟨hstr "array", hitem⟩)
  have hproperties : HasTextKeys bookProperties :=
    hasTextKeys_record (by simpa using ⟨htitle, hlist⟩)
  exact hasTextKeys_record (by simpa using ⟨hstr "Book", hstr "object", hproperties⟩)

/-- The properties named like keywords are kept, and the schemas below them are made strict. -/
theorem strict_keeps_names_book : HasTextKeys bookSchema ∧
    strict (strict bookSchema) = strict bookSchema ∧
    (∃ n, at? (strict bookSchema) [] = some n ∧ IsTightened bookSchema n) ∧
    propertyNames? bookSchema = some [.str "title", .str "properties"] :=
  have hkeeps := strict_keeps_names hasTextKeys_bookSchema
  ⟨hasTextKeys_bookSchema, hkeeps.1, hkeeps.2.1 [] bookSchema trivial rfl, rfl⟩

end PagePlan.Schema
