/-
# Looking up keys that have been turned into texts

The keys of a plan are turned into texts before its definitions are read.  No other key turns into
a text that a definition is saved with, so that such a text is looked up as it was before, and the
value under it is the one before with its keys turned into texts.

* `get?_stringifyEntries` — what is found under a key of a definition.
-/
import PagePlan.Proofs.Decimal.Layout
import PagePlan.Proofs.Plan.Classification

namespace PagePlan.Field

open Value

/-- The keys that definitions are saved with. -/
def persistedKeys : List String :=
  ["type", "transform"] ++ xpathKeys ++ containerKeys ++ contextKeys ++ propertiesKeys ++
    ["items", "item", "item_fields"]

/-! ### Texts of other values -/

/-- A letter that no number is written with. -/
def isFarLetter (c : Char) : Bool := ['t', 'x', 'p', 'c', 'l'].contains c

theorem exists_farLetter {key : String} (h : key ∈ persistedKeys) :
    ∃ c ∈ key.toList, isFarLetter c = true := by
  have hall : ∀ key ∈ persistedKeys, (key.toList.any isFarLetter) = true := by decide
  exact List.any_eq_true.1 (hall key h)

theorem text_not_persisted (x : Binary64) : x.text ∉ persistedKeys := by
  intro h
  obtain ⟨c, hc, hfar⟩ := exists_farLetter h
  have hwrites := Decimal.Layout.writes_of_mem_write hc
  simp only [isFarLetter, List.contains_eq_mem, List.mem_cons, List.not_mem_nil, or_false,
    decide_eq_true_eq] at hfar
  rcases hfar with rfl | rfl | rfl | rfl | rfl <;>
    simp [Decimal.Layout.Writes, Decimal.numberLayout] at hwrites

theorem ofInt_not_persisted (n : Int) : String.ofList (Decimal.ofInt n) ∉ persistedKeys := by
  intro h
  obtain ⟨c, hc, hfar⟩ := exists_farLetter h
  rw [String.toList_ofList] at hc
  have hdigit : c = '-' ∨ c.isDigit = true := by
    cases n with
    | ofNat n => exact .inr (Decimal.isDigit_of_mem_ofNat hc)
    | negSucc n => exact (List.mem_cons.1 hc).imp id Decimal.isDigit_of_mem_ofNat
  simp only [isFarLetter, List.contains_eq_mem, List.mem_cons, List.not_mem_nil, or_false,
    decide_eq_true_eq] at hfar
  rcases hfar with rfl | rfl | rfl | rfl | rfl <;> revert hdigit <;> decide

/-- What begins with a bracket is no key of a definition. -/
theorem bracketed_not_persisted {opening : String} (hopening : opening ∈ ["[", "(", "\x7b"])
    (rest : String) : opening ++ rest ∉ persistedKeys := by
  have hall : ∀ key ∈ persistedKeys, ∀ opening ∈ ["[", "(", "\x7b"],
      ¬opening.toList.isPrefixOf key.toList = true := by
    decide
  intro h
  refine hall _ h opening hopening ?_
  rw [String.toList_append, List.isPrefixOf_iff_prefix]
  exact List.prefix_append _ _

/-- What is no text is shown as something else than a key of a definition. -/
theorem display_not_persisted {k : Value} (h : k.isText = false) : k.display ∉ persistedKeys := by
  cases k with
  | str s => cases h
  | unpaired t => cases h
  | null => decide
  | bool b => cases b <;> decide
  | int n => exact ofInt_not_persisted n
  | float x => exact text_not_persisted x
  | list xs =>
    rw [display, String.append_assoc]
    exact bracketed_not_persisted (by decide) _
  | tuple xs =>
    match xs with
    | [x] =>
      rw [display, String.append_assoc]
      exact bracketed_not_persisted (by decide) _
    | [] => decide
    | x :: y :: rest =>
      rw [display, String.append_assoc]
      · exact bracketed_not_persisted (by decide) _
      · nofun
  | dict es =>
    rw [display, String.append_assoc]
    exact bracketed_not_persisted (by decide) _

/-- No other key than itself turns into the text of a key of a definition. -/
theorem eq_str_of_asKey {k : Value} {key : String} (hkey : key ∈ persistedKeys)
    (h : k.asKey = .str key) : k = .str key := by
  have hshown (hk : k.isText = false) (hdisplay : Value.str k.display = .str key) : False :=
    display_not_persisted hk (Value.str.inj hdisplay ▸ hkey)
  cases k with
  | str s => exact h
  | unpaired t => cases h
  | _ => exact (hshown rfl h).elim

/-! ### Looking up -/

/-- A key of a definition is found among the entries that are added or those before. -/
theorem get?_stringifyEntries_before {key : String} (hkey : key ∈ persistedKeys) {es : Entries}
    (hes : es.Distinct) (before : Entries) : (stringifyEntries before es).get? key =
      ((es.get? key).map stringifyKeys).or (before.get? key) := by
  induction es generalizing before with
  | nil => rfl
  | cons e es ih =>
    obtain ⟨k, v⟩ := e
    rw [stringifyEntries, ih (List.pairwise_cons.1 hes).2, Entries.get?_cons]
    by_cases hk : k = .str key
    · have hnone : Entries.get? es key = none := (hk ▸ hes).get?_tail
      have hset : (before.set k.asKey v.stringifyKeys).get? key = some v.stringifyKeys := by
        rw [hk]
        exact (Entries.get?_insert before key key _).trans (if_pos rfl)
      rw [hnone, hset, if_pos (sameKey_str.2 hk)]
      rfl
    · rw [Entries.get?_set_of_ne fun h => hk (eq_str_of_asKey hkey h),
        if_neg (mt sameKey_str.1 hk)]

/-- What is found under a key of a definition, once keys have been turned into texts. -/
theorem get?_stringifyEntries {key : String} (hkey : key ∈ persistedKeys) {es : Entries}
    (hes : es.Distinct) :
    (stringifyEntries [] es).get? key = (es.get? key).map stringifyKeys :=
  (get?_stringifyEntries_before hkey hes []).trans Option.or_none

theorem isNull_stringifyKeys (v : Value) : v.stringifyKeys.isNull = v.isNull := by
  cases v <;> rfl

theorem firstPresent?_singleton (es : Entries) (key : String) :
    es.firstPresent? [key] = (es.get? key).filter fun v => !v.isNull := by
  rw [Entries.firstPresent?]
  cases es.get? key with
  | none => rfl
  | some v => cases v <;> rfl

/-- Looking up the first present value of several keys goes on from key to key. -/
theorem firstPresent?_cons (es : Entries) (key : String) (keys : List String) :
    es.firstPresent? (key :: keys) = (es.firstPresent? [key]).or (es.firstPresent? keys) := by
  rw [Entries.firstPresent?, Entries.firstPresent?]
  cases es.get? key with
  | none => rfl
  | some v => cases v <;> rfl

/-- Values that are changed, but not to null or from null, are found present as before. -/
theorem firstPresent?_map {es es' : Entries} {f : Value → Value}
    (hf : ∀ v, (f v).isNull = v.isNull) {keys : List String}
    (h : ∀ key ∈ keys, es'.get? key = (es.get? key).map f) :
    es'.firstPresent? keys = (es.firstPresent? keys).map f := by
  induction keys with
  | nil => rfl
  | cons key keys ih =>
    obtain ⟨hkey, hkeys⟩ := List.forall_mem_cons.1 h
    rw [firstPresent?_cons, firstPresent?_cons es, ih hkeys, firstPresent?_singleton,
      firstPresent?_singleton, hkey, Option.map_or, Option.filter_map]
    simp only [Function.comp_def, hf]

/-- The first present value of keys of definitions, once keys have been turned into texts. -/
theorem firstPresent?_stringifyEntries {es : Entries} (hes : es.Distinct) {keys : List String}
    (hkeys : ∀ key ∈ keys, key ∈ persistedKeys) :
    (stringifyEntries [] es).firstPresent? keys = (es.firstPresent? keys).map stringifyKeys :=
  firstPresent?_map isNull_stringifyKeys fun key hkey =>
    get?_stringifyEntries (hkeys key hkey) hes

/-- The items of an array, once keys have been turned into texts. -/
theorem itemsOf_stringifyEntries {es : Entries} (hes : es.Distinct) :
    itemsOf (stringifyEntries [] es) = ((itemsOf es).1.map stringifyKeys, (itemsOf es).2) := by
  rw [itemsOf, itemsOf, get?_stringifyEntries (by decide) hes,
    get?_stringifyEntries (by decide) hes, get?_stringifyEntries (by decide) hes]
  cases es.get? "item_fields" with
  | some v => rfl
  | none => cases es.get? "item" <;> rfl

end PagePlan.Field
