/-
# Null under a key of a definition

Queries, contexts, containers and nested fields are looked up alias by alias, and null counts as
missing there; a type or a transform that is no text counts as missing too.  The items of an array
are chosen otherwise: the most specific key that is present counts, so that a null under it hides
the items under the others.

* `extractField_erase_null` — a null may be taken away unless it hides the items of an array.
-/
import PagePlan.Proofs.Plan.Isolation
import PagePlan.Proofs.Plan.Lookup

namespace PagePlan

/-- Null counts as missing where the first present value is looked up. -/
theorem Entries.firstPresent?_erase_null {es : Entries} {key : String}
    (h : es.get? key = some .null) (keys : List String) :
    (es.erase key).firstPresent? keys = es.firstPresent? keys := by
  induction keys with
  | nil => rfl
  | cons first keys ih =>
    rw [firstPresent?, firstPresent?, ih, get?_erase]
    split_ifs with hkey
    · rw [← hkey, h]
    · rfl

namespace Field

variable {es : Entries} {key : String}

theorem saysSame_erase_null (h : es.get? key = some .null) : SaysSame (es.erase key) es where
  type := Entries.firstPresent?_erase_null h _
  transform := Entries.firstPresent?_erase_null h _
  query := Entries.firstPresent?_erase_null h _
  container := Entries.firstPresent?_erase_null h _
  context := Entries.firstPresent?_erase_null h _
  properties := by
    rw [Entries.firstPresent?_erase_null h]
    exact .same _

/-! ### Items -/

/-- A null under a key hides the items under a less specific one. -/
inductive HidesItems (es : Entries) : String → Prop
  | item : (es.firstPresent? ["item"]).isSome = true → HidesItems es "item_fields"
  | items : es.get? "item" = none → (es.firstPresent? ["items"]).isSome = true →
      HidesItems es "item_fields"
  | itemsOfItem : es.get? "item_fields" = none → (es.firstPresent? ["items"]).isSome = true →
      HidesItems es "item"

/-- What is found under a key is missing or null just if nothing is present there. -/
theorem isSome_firstPresent?_iff :
    (es.firstPresent? [key]).isSome = true ↔ ¬∀ v ∈ es.get? key, v = .null := by
  rw [Entries.firstPresent?]
  cases es.get? key with
  | none => simp [Entries.firstPresent?]
  | some v => cases v <;> simp [Entries.firstPresent?]

/-- A null that is taken away changes the items of an array only where it was found for them. -/
theorem itemsOf_erase_null (h : es.get? key = some .null) :
    itemsOf (es.erase key) = itemsOf es ∨ (∀ v ∈ (itemsOf es).1, v = .null) ∧
      (HidesItems es key ∨ ∀ v ∈ (itemsOf (es.erase key)).1, v = .null) := by
  have hgone {name : String} (hname : es.get? name = none) : (es.erase key).get? name = none := by
    rw [Entries.get?_erase, hname, ite_self]
  have hnull : ∀ v ∈ some Value.null, v = .null := by
    rintro v ⟨⟩
    rfl
  cases hfields : es.get? "item_fields" with
  | some v =>
    by_cases hkey : key = "item_fields"
    · subst hkey
      obtain rfl : v = .null := Option.some.inj (hfields.symm.trans h)
      have hself := Entries.get?_erase_self es "item_fields"
      refine .inr ⟨by rw [itemsOf_of_itemFields hfields]; exact hnull, ?_⟩
      -- the key that counts next is `item` if it is there, and else `items`
      cases hitem : es.get? "item" with
      | some w =>
        rw [itemsOf_of_item hself (hitem ▸ Entries.get?_erase_of_ne es (by decide))]
        by_cases hw : w = .null
        · exact .inr (hw ▸ hnull)
        · exact .inl (.item (isSome_firstPresent?_iff.2 fun hall => hw (hall w hitem)))
      | none =>
        rw [itemsOf_of_items hself (hgone hitem), Entries.get?_erase_of_ne es (by decide)]
        by_cases hall : ∀ v ∈ es.get? "items", v = .null
        · exact .inr hall
        · exact .inl (.items hitem (isSome_firstPresent?_iff.2 hall))
    · left
      rw [itemsOf_of_itemFields hfields,
        itemsOf_of_itemFields (hfields ▸ Entries.get?_erase_of_ne es hkey)]
  | none =>
    cases hitem : es.get? "item" with
    | some v =>
      by_cases hkey : key = "item"
      · subst hkey
        obtain rfl : v = .null := Option.some.inj (hitem.symm.trans h)
        refine .inr ⟨by rw [itemsOf_of_item hfields hitem]; exact hnull, ?_⟩
        rw [itemsOf_of_items (hgone hfields) (Entries.get?_erase_self es "item"),
          Entries.get?_erase_of_ne es (by decide)]
        by_cases hall : ∀ v ∈ es.get? "items", v = .null
        · exact .inr hall
        · exact .inl (.itemsOfItem hfields (isSome_firstPresent?_iff.2 hall))
      · left
        rw [itemsOf_of_item hfields hitem,
          itemsOf_of_item (hgone hfields) (hitem ▸ Entries.get?_erase_of_ne es hkey)]
    | none =>
      rw [itemsOf_of_items hfields hitem, itemsOf_of_items (hgone hfields) (hgone hitem)]
      by_cases hkey : key = "items"
      · subst hkey
        rw [h, Entries.get?_erase_self]
        exact .inr ⟨hnull, .inr nofun⟩
      · rw [Entries.get?_erase_of_ne es hkey]
        exact .inl rfl

/-- Items that were hidden are found without the key. -/
theorem HidesItems.exists_items (h : HidesItems es key) : ∃ items other, items ≠ .null ∧
    itemsOf (es.erase key) = (some items, other) := by
  have hfound {name : String} (hname : (es.firstPresent? [name]).isSome = true)
      (hne : key ≠ name) : ∃ v, v ≠ .null ∧ (es.erase key).get? name = some v := by
    have hnot := isSome_firstPresent?_iff.1 hname
    push Not at hnot
    obtain ⟨v, hv, hnull⟩ := hnot
    exact ⟨v, hnull, (Entries.get?_erase_of_ne es hne).trans hv⟩
  have hself := Entries.get?_erase_self es key
  have hgone {name : String} (hname : es.get? name = none) : (es.erase key).get? name = none := by
    rw [Entries.get?_erase, hname, ite_self]
  cases h with
  | item hitem =>
    obtain ⟨v, hnull, hv⟩ := hfound hitem (by decide)
    exact ⟨v, .item, hnull, itemsOf_of_item hself hv⟩
  | items hnone hitems =>
    obtain ⟨v, hnull, hv⟩ := hfound hitems (by decide)
    exact ⟨v, .items, hnull, hv ▸ itemsOf_of_items hself (hgone hnone)⟩
  | itemsOfItem hnone hitems =>
    obtain ⟨v, hnull, hv⟩ := hfound hitems (by decide)
    exact ⟨v, .items, hnull, hv ▸ itemsOf_of_items (hgone hnone) hself⟩

theorem HidesItems.found_null (h : HidesItems es key) (hkey : es.get? key = some .null) :
    ∀ v ∈ (itemsOf es).1, v = .null := by
  have hfound : ∃ other, itemsOf es = (some .null, other) := by
    cases h with
    | item hitem => exact ⟨_, itemsOf_of_itemFields hkey⟩
    | items hnone hitems => exact ⟨_, itemsOf_of_itemFields hkey⟩
    | itemsOfItem hnone hitems => exact ⟨_, itemsOf_of_item hnone hkey⟩
  obtain ⟨other, hother⟩ := hfound
  rw [hother]
  rintro v ⟨⟩
  rfl

/-! ### Arrays with items -/

/-- An array with a container and items is read as one, or it is malformed. -/
theorem read_array_cases {container items : Value} {other : ItemsKey} (hform : DefinesArray es)
    (hcontainer : es.firstPresent? containerKeys = some container)
    (hitems : itemsOf es = (some items, other)) (hnull : items ≠ .null) {f : Field}
    (h : read (.dict es) = .ok f) : (∃ raw, f = .malformed raw) ∨
      (∃ item, f = .primitiveArray container.asText item) ∨
      ∃ fields, f = .objectArray container.asText fields := by
  cases reads_of_read _ h with
  | malformed _ => exact .inl ⟨_, rfl⟩
  | shaped hshape _ =>
    cases hshape with
    | scalar hscalar => exact absurd hform hscalar.not_array
    | object hobject => exact absurd hobject hform.not_object
    | scalars _ hfound =>
      cases hfound.symm.trans hcontainer
      exact .inr (.inl ⟨_, rfl⟩)
    | records _ hfound =>
      cases hfound.symm.trans hcontainer
      exact .inr (.inr ⟨_, rfl⟩)
    | empty _ hempty => exact absurd hempty (not_empty_of_items hcontainer hitems hnull)

end Field

namespace Evaluator

variable {γ : Type} {ev : Evaluator γ} {c : γ}

/-- An array with items is empty only where its container matches nothing. -/
theorem containers_of_extractField_nil {container : String} {f : Field}
    (hf : (∃ raw, f = .malformed raw) ∨ (∃ item, f = .primitiveArray container item) ∨
      ∃ fields, f = .objectArray container fields)
    (h : (ev.extractField c f).outcome = .ok (.list [])) :
    (ev.containers c container).outcome = .ok [] := by
  have hitems {read : γ → Run Value}
      (hread : (do
        let found ← ev.containers c container
        return Value.list (← found.mapM read) : Run Value).outcome = .ok (.list [])) :
      (ev.containers c container).outcome = .ok [] := by
    obtain ⟨found, hfound, hread⟩ := Run.outcome_bind_eq_ok.1 hread
    obtain ⟨values, hvalues, hread⟩ := Run.outcome_bind_eq_ok.1 hread
    obtain rfl : values = [] := Value.list.inj (Except.ok.inj hread)
    rw [List.forall₂_nil_right_iff.1 (Run.outcome_mapM_eq_ok.1 hvalues)] at hfound
    exact hfound
  rcases hf with ⟨raw, rfl⟩ | ⟨item, rfl⟩ | ⟨fields, rfl⟩
  · rw [extractField] at h
    cases h
  · rw [extractField] at h
    exact hitems h
  · rw [extractField] at h
    exact hitems h

end Evaluator

namespace Field

variable {es : Entries} {key : String}

/-- A null under a key of an array definition counts: it hides the items of an array that has a
container. -/
structure NullCounts (es : Entries) (key : String) : Prop where
  array : DefinesArray es
  container : (es.firstPresent? containerKeys).isSome = true
  hides : HidesItems es key

/-- **A null may be taken away unless it hides the items of an array.**  Elsewhere the definition
without the key is extracted as it was.  Hidden items make the array one that is always empty, and
without the key it is empty only where its container matches nothing. -/
theorem extractField_erase_null (h : es.get? key = some .null) :
    (¬NullCounts es key → ∀ {γ : Type} (ev : Evaluator γ) (c : γ),
      (read (.dict (es.erase key))).map (ev.extractField c) =
        (read (.dict es)).map (ev.extractField c)) ∧
    (NullCounts es key → read (.dict es) = .ok .emptyArray ∧
      ∀ f, read (.dict (es.erase key)) = .ok f → f ≠ .emptyArray ∧
        ∀ {γ : Type} (ev : Evaluator γ) (c : γ),
          (ev.extractField c f).outcome = .ok (.list []) →
          ∃ container, es.firstPresent? containerKeys = some container ∧
            (ev.containers c container.asText).outcome = .ok []) := by
  have hsame := saysSame_erase_null h
  constructor
  · intro hcounts γ ev c
    have halike : Alike (.dict (es.erase key)) (.dict es) := by
      refine read_congr hsame fun harray hcontainer => ?_
      rcases itemsOf_erase_null h with heq | ⟨hfound, hhides | hmissing⟩
      · rw [heq]
        exact .refl _
      · rw [hsame.container] at hcontainer
        exact absurd ⟨hsame.definesArray_iff.1 harray, hcontainer, hhides⟩ hcounts
      · exact .missing hmissing hfound
    exact halike.extractField_eq ev c
  · rintro ⟨harray, hcontainer, hhides⟩
    obtain ⟨container, hcontainer⟩ := Option.isSome_iff_exists.1 hcontainer
    obtain ⟨items, other, hnull, hitems⟩ := hhides.exists_items
    refine ⟨?_, fun f hf => ?_⟩
    · rw [read_of_definesArray harray, readArray_of_empty (.inr (hhides.found_null h))]
    · have hcases := read_array_cases (hsame.definesArray_iff.2 harray)
        (hsame.container.trans hcontainer) hitems hnull hf
      refine ⟨?_, fun ev c hempty => ⟨container, hcontainer, ?_⟩⟩
      · rintro rfl
        rcases hcases with ⟨_, hcases⟩ | ⟨_, hcases⟩ | ⟨_, hcases⟩ <;> cases hcases
      · exact Evaluator.containers_of_extractField_nil hcases hempty

/-- An array with a null under a key that it could do without. -/
def hiddenItems : Entries :=
  [(.str "type", .str "array"), (.str "container_xpath", .str "//li"), (.str "item_fields", .null),
    (.str "items", .record [("xpath", .str ".")])]

/-- With the null the array is always empty, and without it has an item for each match. -/
theorem extractField_erase_null_hiddenItems : NullCounts hiddenItems "item_fields" ∧
    read (.dict hiddenItems) = .ok .emptyArray ∧
    read (.dict (hiddenItems.erase "item_fields")) ≠ .ok .emptyArray := by
  have hnull : hiddenItems.get? "item_fields" = some .null := rfl
  have hcounts : NullCounts hiddenItems "item_fields" := ⟨.inl rfl, rfl, .items rfl rfl⟩
  obtain ⟨hread, herased⟩ := (extractField_erase_null hnull).2 hcounts
  exact ⟨hcounts, hread, fun h => (herased _ h).1 rfl⟩

end Field

end PagePlan
