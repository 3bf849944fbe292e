/-
# Other names for the keys of a definition

Most keys of a definition have a canonical name and an alias, and `items` has two: `item` for the
definition of scalar items and `item_fields` for fields.  In any choice of definitions, at any
depth, the canonical keys may be replaced by their aliases (`aliased`).  Names of fields are no keys
of definitions: a field may be called `xpath` or `items`.  So the replacement goes through
definitions and mappings of fields in turn, like reading does.

A key that was replaced is found under its alias and nowhere else, since no two keys have one alias
(`canonicalOf_aliasOf`) and no alias was there before.

* `get?_aliasedParts_true` — what is found under a key once the keys have been replaced;
* `firstPresent?_aliasedParts` — key or alias, the same part is found.
-/
import PagePlan.Proofs.Plan.Keys
import PagePlan.Proofs.Plan.Lookup

namespace PagePlan

namespace Field

open Value

/-! ### Aliases -/

/-- The keys that stand for canonical ones. -/
def aliasKeys : List String :=
  ["path_query", "container_path_query", "context_path_query", "fields", "item", "item_fields"]

/-- Whether no key of a definition is an alias. -/
def usesCanonicalKeys (es : Entries) : Bool :=
  aliasKeys.all fun key => !es.has key

/-- The alias of a key.  That of `items` depends on what the items are. -/
def aliasOf (key : String) (v : Value) : String :=
  if key = "xpath" then "path_query"
  else if key = "container_xpath" then "container_path_query"
  else if key = "context_xpath" then "context_path_query"
  else if key = "properties" then "fields"
  else if key = "items" then
    match v with
    | .dict items =>
      if (Entries.firstPresent? items xpathKeys).isSome then "item" else "item_fields"
    | _ => "items"
  else key

/-- The canonical key that an alias stands for. -/
def canonicalOf (key : String) : String :=
  if key = "path_query" then "xpath"
  else if key = "container_path_query" then "container_xpath"
  else if key = "context_path_query" then "context_xpath"
  else if key = "fields" then "properties"
  else if key = "item" || key = "item_fields" then "items"
  else key

/-- The key of a part of a definition, or its alias. -/
def keyOf (renamed : Bool) : Value → Value → Value
  | .str key, v => .str (if renamed then aliasOf key v else key)
  | k, _ => k

mutual

/-- A definition with aliases in the chosen definitions.  The place of a definition is the keys that
lead to it, the last one first. -/
def aliased (chosen : List Value → Bool) (place : List Value) : Value → Value
  | .dict es => .dict (aliasedParts chosen place (chosen place && usesCanonicalKeys es) es)
  | v => v
termination_by structural v => v

/-- The parts of a definition, under aliases where it is chosen. -/
def aliasedParts (chosen : List Value → Bool) (place : List Value) (renamed : Bool) :
    List (Value × Value) → Entries
  | [] => []
  | (k, v) :: es =>
    (keyOf renamed k v, aliasedPart chosen (k :: place) k v) ::
      aliasedParts chosen place renamed es
termination_by structural es => es

/-- A part of a definition: fields, or the definition of the items of an array. -/
def aliasedPart (chosen : List Value → Bool) (place : List Value) (k : Value) : Value → Value
  | .dict es =>
    if k.sameKey (.str "properties") then .dict (aliasedFields chosen place es)
    else if k.sameKey (.str "items") then
      if (Entries.firstPresent? es xpathKeys).isSome then
        .dict (aliasedParts chosen place (chosen place && usesCanonicalKeys es) es)
      else .dict (aliasedFields chosen place es)
    else .dict es
  | v => v
termination_by structural v => v

/-- The definitions of fields under their names. -/
def aliasedFields (chosen : List Value → Bool) (place : List Value) :
    List (Value × Value) → Entries
  | [] => []
  | (k, v) :: es => (k, aliased chosen (k :: place) v) :: aliasedFields chosen place es
termination_by structural es => es

end

/-! ### Keys -/

theorem canonicalOf_aliasOf {key : String} (h : key ∉ aliasKeys) (v : Value) :
    canonicalOf (aliasOf key v) = key := by
  simp only [aliasKeys, List.mem_cons, List.not_mem_nil, or_false, not_or] at h
  obtain ⟨hxpath, hcontainer, hcontext, hfields, hitem, hitemFields⟩ := h
  unfold aliasOf
  split_ifs with h₁ h₂ h₃ h₄ h₅
  · rw [h₁]
    rfl
  · rw [h₂]
    rfl
  · rw [h₃]
    rfl
  · rw [h₄]
    rfl
  · rw [h₅]
    split
    · split_ifs <;> rfl
    · rfl
  · simp [canonicalOf, hxpath, hcontainer, hcontext, hfields, hitem, hitemFields]

/-- A key has one alias. -/
structure HasAlias (key other : String) : Prop where
  aliasOf_eq : ∀ v, aliasOf key v = other
  canonical : canonicalOf key = key
  stands_for : canonicalOf other = key
  mem : other ∈ aliasKeys

theorem hasAlias_xpath : HasAlias "xpath" "path_query" := ⟨fun _ => rfl, rfl, rfl, by decide⟩

theorem hasAlias_container : HasAlias "container_xpath" "container_path_query" :=
  ⟨fun _ => rfl, rfl, rfl, by decide⟩

theorem hasAlias_context : HasAlias "context_xpath" "context_path_query" :=
  ⟨fun _ => rfl, rfl, rfl, by decide⟩

theorem hasAlias_properties : HasAlias "properties" "fields" :=
  ⟨fun _ => rfl, rfl, rfl, by decide⟩

theorem HasAlias.ne {key other : String} (h : HasAlias key other) : other ≠ key := by
  rintro rfl
  have hall : ∀ other ∈ aliasKeys, canonicalOf other ≠ other := by decide
  exact hall _ h.mem h.stands_for

theorem get?_of_usesCanonicalKeys {es : Entries} (h : usesCanonicalKeys es = true) {key : String}
    (hkey : key ∈ aliasKeys) : es.get? key = none := by
  have hmissing := List.all_eq_true.1 h key hkey
  simpa [Entries.has] using hmissing

theorem not_mem_aliasKeys {es : Entries} (h : usesCanonicalKeys es = true) {key : String}
    {v : Value} (he : (.str key, v) ∈ es) : key ∉ aliasKeys := by
  intro hkey
  obtain ⟨w, hw⟩ := Entries.get?_of_any (List.any_eq_true.2 ⟨_, he, sameKey_str.2 rfl⟩)
  rw [get?_of_usesCanonicalKeys h hkey] at hw
  cases hw

theorem keyOf_false (k v : Value) : keyOf false k v = k := by
  cases k <;> rfl

section Parts

variable {chosen : List Value → Bool} {place : List Value} {es : Entries}

/-- A part of a definition that stands under a text. -/
def partOf (chosen : List Value → Bool) (place : List Value) (key : String) : Value → Value :=
  aliasedPart chosen (.str key :: place) (.str key)

theorem isNull_partOf (key : String) (v : Value) :
    (partOf chosen place key v).isNull = v.isNull := by
  cases v with
  | dict es =>
    rw [partOf, aliasedPart]
    split_ifs <;> rfl
  | _ => rfl

/-- What is neither fields nor items is left as it is. -/
theorem partOf_of_ne {key : String} (hproperties : key ≠ "properties") (hitems : key ≠ "items") :
    partOf chosen place key = id := by
  funext v
  cases v with
  | dict es =>
    rw [partOf, aliasedPart, if_neg (by simpa [sameKey] using hproperties),
      if_neg (by simpa [sameKey] using hitems)]
    rfl
  | _ => rfl

/-- The parts of a definition are found under their keys. -/
theorem get?_aliasedParts_false (key : String) : (aliasedParts chosen place false es).get? key =
    (es.get? key).map (partOf chosen place key) := by
  induction es with
  | nil => rfl
  | cons e es ih =>
    obtain ⟨k, v⟩ := e
    rw [aliasedParts, Entries.get?_cons, Entries.get?_cons, keyOf_false, ih]
    split_ifs with hk
    · rw [sameKey_str.1 hk]
      rfl
    · rfl

/-- A part of a definition with aliases is found under the alias of its key alone. -/
theorem get?_aliasedParts_true (hes : es.Distinct) (hcanonical : usesCanonicalKeys es = true)
    (key : String) : (aliasedParts chosen place true es).get? key =
      ((es.get? (canonicalOf key)).filter fun v => aliasOf (canonicalOf key) v = key).map
        (partOf chosen place (canonicalOf key)) := by
  have hkeys : ∀ e ∈ es, ∀ s, e.1 = .str s → s ∉ aliasKeys := by
    rintro ⟨_, v⟩ he s rfl
    exact not_mem_aliasKeys hcanonical he
  clear hcanonical
  induction es with
  | nil => rfl
  | cons e es ih =>
    obtain ⟨k, v⟩ := e
    obtain ⟨hkey, hothers⟩ := List.forall_mem_cons.1 hkeys
    rw [aliasedParts, Entries.get?_cons, Entries.get?_cons,
      ih (List.pairwise_cons.1 hes).2 hothers]
    cases k with
    | str s =>
      have hcanonical := canonicalOf_aliasOf (hkey s rfl) v
      by_cases halias : aliasOf s v = key
      · subst halias
        rw [hcanonical, keyOf, if_pos rfl, if_pos (sameKey_str.2 rfl), if_pos (sameKey_str.2 rfl)]
        simp [partOf]
      · have hne : ¬(keyOf true (.str s) v).sameKey (.str key) = true := by
          simpa [keyOf, sameKey] using halias
        rw [if_neg hne]
        by_cases hs : s = canonicalOf key
        · -- the key has another alias, and is not there again
          subst hs
          have hnone : Entries.get? es (canonicalOf key) = none := hes.get?_tail
          rw [if_pos (sameKey_str.2 rfl), hnone]
          simp [halias]
        · rw [if_neg (by simpa [sameKey] using hs)]
    | _ => rw [if_neg (by simp [keyOf, sameKey]), if_neg (by simp [sameKey])]

theorem aliasedParts_eq_map (renamed : Bool) : aliasedParts chosen place renamed es =
    es.map fun e => (keyOf renamed e.1 e.2, aliasedPart chosen (e.1 :: place) e.1 e.2) := by
  induction es with
  | nil => rfl
  | cons e es ih => rw [aliasedParts, ih, List.map_cons]

/-- Keys that differ have aliases that differ. -/
theorem sameKey_keyOf {k l v w : Value}
    (hk : ∀ s, k = .str s → s ∉ aliasKeys) (hl : ∀ s, l = .str s → s ∉ aliasKeys)
    (h : k.sameKey l = false) : (keyOf true k v).sameKey (keyOf true l w) = false := by
  cases k with
  | str s =>
    cases l with
    | str t =>
      have hne : s ≠ t := by simpa [sameKey] using h
      have halias : aliasOf s v ≠ aliasOf t w := by
        intro heq
        refine hne ?_
        rw [← canonicalOf_aliasOf (hk s rfl) v, heq, canonicalOf_aliasOf (hl t rfl) w]
      simpa [keyOf, sameKey] using halias
    | _ => rfl
  | _ =>
    cases l with
    | str t => rfl
    | _ => exact h

/-- No key of a definition is there twice for its aliases. -/
theorem distinct_aliasedParts (hes : es.Distinct) {renamed : Bool}
    (h : renamed = true → usesCanonicalKeys es = true) :
    (aliasedParts chosen place renamed es).Distinct := by
  rw [aliasedParts_eq_map]
  cases renamed with
  | false =>
    rw [Entries.distinct_iff_keys, List.map_map]
    simp only [Function.comp_def, keyOf_false]
    exact Entries.distinct_iff_keys.1 hes
  | true =>
    have hkeys {e : Value × Value} (he : e ∈ es) (s : String) (hs : e.1 = .str s) :
        s ∉ aliasKeys := by
      obtain ⟨k, v⟩ := e
      obtain rfl : k = .str s := hs
      exact not_mem_aliasKeys (h rfl) he
    rw [Entries.Distinct, List.pairwise_map]
    exact hes.imp_of_mem fun ha hb hdiffer => sameKey_keyOf (hkeys ha) (hkeys hb) hdiffer

/-! ### What is found under aliases -/

variable {renamed : Bool}

/-- A key without an alias is looked up as before. -/
theorem get?_aliasedParts_of_plain (hes : es.Distinct)
    (h : renamed = true → usesCanonicalKeys es = true) {key : String}
    (halias : ∀ v, aliasOf key v = key) (hcanonical : canonicalOf key = key)
    (hproperties : key ≠ "properties") (hitems : key ≠ "items") :
    (aliasedParts chosen place renamed es).get? key = es.get? key := by
  have hpart : partOf chosen place key = id := partOf_of_ne hproperties hitems
  cases renamed with
  | false => rw [get?_aliasedParts_false, hpart, Option.map_id_fun, id]
  | true =>
    rw [get?_aliasedParts_true hes (h rfl), hcanonical, hpart, Option.map_id_fun, id]
    cases es.get? key <;> simp [halias]

/-- A part is found under its key or under its alias. -/
theorem firstPresent?_aliasedParts (hes : es.Distinct)
    (h : renamed = true → usesCanonicalKeys es = true) {key other : String}
    (halias : HasAlias key other) :
    (aliasedParts chosen place renamed es).firstPresent? [key, other] =
      ((es.firstPresent? [key]).map (partOf chosen place key)).or (es.firstPresent? [other]) := by
  have hid : partOf chosen place other = id := by
    refine partOf_of_ne ?_ ?_ <;>
    · rintro rfl
      exact absurd halias.mem (by decide)
  rw [firstPresent?_cons, firstPresent?_singleton, firstPresent?_singleton es key,
    firstPresent?_singleton, firstPresent?_singleton es other]
  cases renamed with
  | false =>
    rw [get?_aliasedParts_false, get?_aliasedParts_false, hid, Option.map_id_fun, id,
      Option.filter_map]
    simp only [Function.comp_def, isNull_partOf]
  | true =>
    rw [get?_aliasedParts_true hes (h rfl), get?_aliasedParts_true hes (h rfl), halias.canonical,
      halias.stands_for, get?_of_usesCanonicalKeys (h rfl) halias.mem]
    cases es.get? key with
    | none => rfl
    | some v =>
      cases hnull : v.isNull <;>
        simp [Option.filter_some, halias.aliasOf_eq, halias.ne, isNull_partOf, hnull]

/-- A part that is neither fields nor items is found as before. -/
theorem firstPresent?_aliasedParts_of_ne (hes : es.Distinct)
    (h : renamed = true → usesCanonicalKeys es = true) {key other : String}
    (halias : HasAlias key other) (hproperties : key ≠ "properties") (hitems : key ≠ "items") :
    (aliasedParts chosen place renamed es).firstPresent? [key, other] =
      es.firstPresent? [key, other] := by
  rw [firstPresent?_aliasedParts hes h halias, partOf_of_ne hproperties hitems, Option.map_id_fun,
    id, ← firstPresent?_cons]

variable (chosen place) in
/-- A scalar is said the same with aliases. -/
theorem sameScalar_aliasedParts (hes : es.Distinct)
    (h : renamed = true → usesCanonicalKeys es = true) :
    SameScalar (stringifyEntries [] es)
      (stringifyEntries [] (aliasedParts chosen place renamed es)) := by
  have hes' : (aliasedParts chosen place renamed es).Distinct := distinct_aliasedParts hes h
  have hplain {key : String} (hmem : key ∈ persistedKeys)
      (hget : (aliasedParts chosen place renamed es).get? key = es.get? key) :
      (stringifyEntries [] es).firstPresent? [key] =
        (stringifyEntries [] (aliasedParts chosen place renamed es)).firstPresent? [key] := by
    rw [firstPresent?_singleton, firstPresent?_singleton, get?_stringifyEntries hmem hes,
      get?_stringifyEntries hmem hes', hget]
  constructor
  · exact hplain (by decide)
      (get?_aliasedParts_of_plain hes h (fun _ => rfl) rfl (by decide) (by decide))
  · exact hplain (by decide)
      (get?_aliasedParts_of_plain hes h (fun _ => rfl) rfl (by decide) (by decide))
  · rw [firstPresent?_stringifyEntries hes (by decide),
      firstPresent?_stringifyEntries hes' (by decide), xpathKeys,
      firstPresent?_aliasedParts_of_ne hes h hasAlias_xpath (by decide) (by decide)]

end Parts

end Field

end PagePlan
