/-
# What can go wrong in reading a plan

A plan is read from a text, from bytes or from a value.  A definition that fits nothing is kept as
malformed, so what is left to go wrong lies with the document as a whole: it is no JSON, or no
mapping.  Both are problems of the plan.

Three other failures come through as they are.  Bytes may be no text in their encoding; a whole
number may have too many digits; and a text that a plan has to keep may have half of a surrogate
pair in it, which is found when the parts of the plan are checked.  No other fault is found then:
the keys of a mapping have been turned into texts before (`TextKeyed`), so that a name is a text
wherever one is asked for.

* `refused_of_readFields` — definitions are refused only for a text with a half in it;
* `read_outcome_cases` — how reading a plan may end.
-/
import PagePlan.Model.Chat
import PagePlan.Plan.Reading
import PagePlan.Proofs.Outcome
import PagePlan.Proofs.Plan.TextKeys

namespace PagePlan

namespace Value

/-! ### Texts with a half -/

theorem isPairedItems_iff {xs : List Value} :
    isPairedItems xs = true ↔ ∀ x ∈ xs, x.isPaired = true := by
  induction xs with
  | nil => simp [isPairedItems]
  | cons x xs ih => simp [isPairedItems, ih]

theorem isPairedEntries_iff {es : Entries} :
    isPairedEntries es = true ↔ ∀ e ∈ es, e.1.isPaired = true ∧ e.2.isPaired = true := by
  induction es with
  | nil => simp [isPairedEntries]
  | cons e es ih => simp [isPairedEntries, ih]

/-- A mapping has a text with a half if one of its values has. -/
theorem isPaired_dict_of_value {es : Entries} {e : Value × Value} (he : e ∈ es)
    (h : e.2.isPaired = false) : (dict es).isPaired = false := by
  rw [isPaired, Bool.eq_false_iff, Ne, isPairedEntries_iff]
  intro hall
  rw [(hall e he).2] at h
  cases h

/-- A mapping has a text with a half if one of its keys is such a text. -/
theorem isPaired_dict_of_key {es : Entries} {t : Text.Unpaired} {v : Value}
    (he : (unpaired t, v) ∈ es) : (dict es).isPaired = false := by
  rw [isPaired, Bool.eq_false_iff, Ne, isPairedEntries_iff]
  intro hall
  have hkey := (hall _ he).1
  rw [isPaired] at hkey
  cases hkey

theorem isPaired_asKey {k : Value} (h : k.isPaired = true) : k.asKey.isPaired = true := by
  cases k with
  | unpaired t => simp [isPaired] at h
  | _ => rfl

/-! ### Keys that are texts -/

/-- The keys of a mapping are texts, and so are those of the mappings in it. -/
inductive TextKeyed : Value → Prop
  | dict {es : Entries} : (∀ e ∈ es, e.1.isText = true) → (∀ e ∈ es, TextKeyed e.2) →
      TextKeyed (.dict es)
  | other {v : Value} : v.dict? = none → TextKeyed v

theorem TextKeyed.keys {es : Entries} (h : TextKeyed (.dict es)) : ∀ e ∈ es, e.1.isText = true := by
  cases h with
  | dict hkeys hvalues => exact hkeys
  | other h => cases h

theorem TextKeyed.values {es : Entries} (h : TextKeyed (.dict es)) : ∀ e ∈ es, TextKeyed e.2 := by
  cases h with
  | dict hkeys hvalues => exact hvalues
  | other h => cases h

theorem TextKeyed.of_get? {es : Entries} (h : TextKeyed (.dict es)) {key : String} {v : Value}
    (hv : es.get? key = some v) : TextKeyed v :=
  h.values _ (Entries.mem_of_get? hv)

theorem TextKeyed.tail {e : Value × Value} {es : Entries} (h : TextKeyed (.dict (e :: es))) :
    TextKeyed (.dict es) :=
  .dict (fun e' he' => h.keys e' (List.mem_cons_of_mem _ he'))
    fun e' he' => h.values e' (List.mem_cons_of_mem _ he')

theorem Throughout.textKeyed {v : Value} (h : v.Throughout KeyedByTexts) : TextKeyed v := by
  induction h with
  | @intro v hkeys _ ih =>
    cases v with
    | dict es => exact .dict hkeys fun e he => ih _ (List.mem_map_of_mem he)
    | _ => exact .other rfl

/-- The keys of a mapping are texts once they have been turned into texts. -/
theorem textKeyed_stringifyKeys (v : Value) : TextKeyed v.stringifyKeys :=
  (keyedByTexts_stringifyKeys v).textKeyed

theorem isPairedItems_stringifyItems {xs : List Value}
    (h : ∀ x ∈ xs, x.isPaired = true → x.stringifyKeys.isPaired = true)
    (hxs : isPairedItems xs = true) : isPairedItems (stringifyItems xs) = true := by
  rw [isPairedItems_iff] at hxs
  rw [isPairedItems_iff, stringifyItems_eq_map]
  intro y hy
  obtain ⟨x, hx, rfl⟩ := List.mem_map.1 hy
  exact h x hx (hxs x hx)

/-- Turning keys into texts brings in no text with a half. -/
theorem isPaired_stringifyKeys (v : Value) :
    v.isPaired = true → v.stringifyKeys.isPaired = true := by
  cases v with
  | dict es =>
    intro h
    rw [isPaired, isPairedEntries_iff] at h
    rw [stringifyKeys, isPaired, isPairedEntries_iff]
    intro e he
    obtain ⟨e', he', rfl⟩ := exists_of_mem_stringifyEntries he
    have := sizeOf_value_lt he'
    exact ⟨isPaired_asKey (h e' he').1, isPaired_stringifyKeys e'.2 (h e' he').2⟩
  | list xs =>
    refine isPairedItems_stringifyItems fun x hx => ?_
    have := List.sizeOf_lt_of_mem hx
    exact isPaired_stringifyKeys x
  | tuple xs =>
    refine isPairedItems_stringifyItems fun x hx => ?_
    have := List.sizeOf_lt_of_mem hx
    exact isPaired_stringifyKeys x
  | _ => exact id
termination_by sizeOf v

end Value

namespace Field

open Value

/-! ### Definitions that are refused -/

/-- There are faults, and each is of a text with a half, of which the value has one. -/
def Refused (v : Value) (faults : List Fault) : Prop :=
  faults ≠ [] ∧ ∀ f ∈ faults, f.kind = .stringUnicode ∧ v.isPaired = false

/-- A mapping is refused where one of its values is. -/
theorem Refused.of_mem {es : Entries} {e : Value × Value} {faults : List Fault}
    (h : Refused e.2 faults) (he : e ∈ es) : Refused (.dict es) faults :=
  ⟨h.1, fun f hf => ⟨(h.2 f hf).1, isPaired_dict_of_value he (h.2 f hf).2⟩⟩

theorem Refused.of_get? {es : Entries} {key : String} {v : Value} {faults : List Fault}
    (h : Refused v faults) (hv : es.get? key = some v) : Refused (.dict es) faults :=
  h.of_mem (e := (.str key, v)) (Entries.mem_of_get? hv)

theorem Refused.cons {es : Entries} {faults : List Fault} (h : Refused (.dict es) faults)
    (e : Value × Value) : Refused (.dict (e :: es)) faults := by
  refine ⟨h.1, fun f hf => ⟨(h.2 f hf).1, ?_⟩⟩
  obtain ⟨k, v⟩ := e
  have hes := (h.2 f hf).2
  rw [isPaired] at hes
  rw [isPaired, isPairedEntries, hes, Bool.and_false]

theorem refused_of_refuse {v : Value} {found faults : List Fault}
    (hfound : ∀ f ∈ found, f.kind = .stringUnicode ∧ v.isPaired = false)
    (h : refuse found = .error faults) : Refused v faults := by
  cases found with
  | nil => cases h
  | cons f found =>
    obtain rfl := Except.error.inj h
    exact ⟨List.cons_ne_nil _ _, hfound⟩

/-- A fault of a part is of a text with a half. -/
theorem mem_halfFaults {parts : List (String × Option Value)} {f : Fault}
    (h : f ∈ halfFaults parts) :
    f.kind = .stringUnicode ∧ ∃ part t, (part, some (.unpaired t)) ∈ parts := by
  rw [halfFaults, List.mem_filterMap] at h
  obtain ⟨⟨part, v⟩, hmem, hf⟩ := h
  simp only at hf
  split at hf
  · next t =>
    obtain rfl := Option.some.inj hf
    exact ⟨rfl, part, t, hmem⟩
  · cases hf

theorem exists_get?_of_firstPresent? {es : Entries} {keys : List String} {v : Value}
    (h : es.firstPresent? keys = some v) : ∃ key, es.get? key = some v := by
  induction keys with
  | nil => cases h
  | cons key keys ih =>
    rw [Entries.firstPresent?] at h
    split at h
    · exact ih h
    · exact ih h
    · next w _ hw => exact ⟨key, by rw [hw, h]⟩

theorem exists_get?_of_itemsOf {es : Entries} {v : Value} {key : ItemsKey}
    (h : itemsOf es = (some v, key)) : ∃ name, es.get? name = some v := by
  rw [itemsOf] at h
  split at h
  · next w hw => exact ⟨"item_fields", by rw [hw, (Prod.mk.inj h).1]⟩
  · split at h
    · next w hw => exact ⟨"item", by rw [hw, (Prod.mk.inj h).1]⟩
    · exact ⟨"items", (Prod.mk.inj h).1⟩

/-- Parts of a mapping have faults only if it has a text with a half. -/
theorem halfFaults_of_parts {es : Entries} {parts : List (String × Option Value)}
    (hparts : ∀ p ∈ parts, ∀ v, p.2 = some v → ∃ key, es.get? key = some v) :
    ∀ f ∈ halfFaults parts, f.kind = .stringUnicode ∧ (dict es).isPaired = false := by
  intro f hf
  obtain ⟨hkind, part, t, hmem⟩ := mem_halfFaults hf
  obtain ⟨key, hkey⟩ := hparts _ hmem _ rfl
  exact ⟨hkind, isPaired_dict_of_value (Entries.mem_of_get? hkey) rfl⟩

theorem refused_of_readPrimitive {es : Entries} {faults : List Fault} {xpath : Option Value}
    (hxpath : ∀ v, xpath = some v → ∃ key, es.get? key = some v)
    (h : readPrimitive es xpath = .error faults) : Refused (.dict es) faults := by
  rw [readPrimitive] at h
  split at h
  · rcases except_bind_eq_error.1 h with h | ⟨_, _, h⟩
    · refine refused_of_refuse (halfFaults_of_parts ?_) h
      rintro p hp v hv
      simp only [List.mem_cons, List.not_mem_nil, or_false] at hp
      rcases hp with rfl | rfl | rfl
      · exact hxpath v hv
      · exact ⟨"type", hv⟩
      · exact ⟨"transform", hv⟩
    · cases h
  · cases h

/-- Names that are texts are refused only for a half in one of them. -/
theorem nameFaults_of_keys {part : String} {es : Entries} {fields : List (Value × Field)}
    (hkeys : fields.map Prod.fst = es.map Prod.fst) (htexts : ∀ e ∈ es, e.1.isText = true) :
    ∀ f ∈ nameFaults part fields, f.kind = .stringUnicode ∧ (dict es).isPaired = false := by
  intro f hf
  rw [nameFaults, List.mem_filterMap] at hf
  obtain ⟨⟨k, g⟩, hmem, hf⟩ := hf
  have hk : k ∈ es.map Prod.fst := hkeys ▸ List.mem_map_of_mem hmem
  obtain ⟨⟨k, v⟩, he, rfl⟩ := List.mem_map.1 hk
  have htext := htexts _ he
  cases k with
  | str s => cases hf
  | unpaired t =>
    obtain rfl := Option.some.inj hf
    exact ⟨rfl, isPaired_dict_of_key he⟩
  | _ => cases htext

/-- Definitions are read under the keys that they stand under. -/
theorem keys_of_readFields {es : Entries} {fields : List (Value × Field)}
    (h : readFields es = .ok fields) : fields.map Prod.fst = es.map Prod.fst := by
  induction es generalizing fields with
  | nil =>
    rw [readFields] at h
    obtain rfl := Except.ok.inj h
    rfl
  | cons e es ih =>
    obtain ⟨k, v⟩ := e
    rw [readFields] at h
    obtain ⟨f, -, h⟩ := except_bind_eq_ok.1 h
    obtain ⟨fs, hfs, h⟩ := except_bind_eq_ok.1 h
    obtain rfl := Except.ok.inj h
    rw [List.map_cons, List.map_cons, ih hfs]

/-- Naming the fields of a mapping fails only for texts with a half. -/
theorem refused_of_named {part : String} {es : Entries} {before faults : List Fault}
    {fields : List (Value × Field)} (htexts : ∀ e ∈ es, e.1.isText = true)
    (hfields : readFields es = .ok fields) {v : Value}
    (hpart : (dict es).isPaired = false → v.isPaired = false)
    (hbefore : ∀ f ∈ before, f.kind = .stringUnicode ∧ v.isPaired = false)
    (h : named part before fields = .error faults) : Refused v faults := by
  rcases except_bind_eq_error.1 h with h | ⟨_, _, h⟩
  · refine refused_of_refuse (fun f hf => ?_) h
    rcases List.mem_append.1 hf with hf | hf
    · exact hbefore f hf
    · obtain ⟨hkind, hpaired⟩ := nameFaults_of_keys (keys_of_readFields hfields) htexts f hf
      exact ⟨hkind, hpart hpaired⟩
  · cases h

mutual

/-- A definition is refused only for a text with a half. -/
theorem refused_of_read (v : Value) (hv : TextKeyed v) {faults : List Fault}
    (h : read v = .error faults) : Refused v faults := by
  cases v with
  | dict es =>
    rw [read] at h
    split at h
    · exact refused_of_readArray es hv h
    · exact refused_of_readObject es hv h
    · split at h
      · next xpath hxpath =>
        rcases except_bind_eq_error.1 h with h | ⟨_, _, h⟩
        · refine refused_of_readPrimitive (fun w hw => ?_) h
          obtain rfl := Option.some.inj hw
          exact exists_get?_of_firstPresent? hxpath
        · cases h
      · split at h
        · exact refused_of_readArray es hv h
        · split at h
          · exact refused_of_readObject es hv h
          · cases h
  | _ => simp [read] at h
termination_by (sizeOf v, 0)

theorem refused_of_readObject (es : Entries) (hes : TextKeyed (.dict es)) {faults : List Fault}
    (h : readObject es = .error faults) : Refused (.dict es) faults := by
  rw [readObject] at h
  split at h
  · next properties hproperties =>
    have hlt := Entries.sizeOf_lt_of_firstPresent? hproperties
    obtain ⟨key, hkey⟩ := exists_get?_of_firstPresent? hproperties
    have htexts := hes.of_get? hkey
    simp only at h
    split at h
    · rcases except_bind_eq_error.1 h with h | ⟨fields, hfields, h⟩
      · exact (refused_of_readFields properties htexts h).of_get? hkey
      · rcases except_bind_eq_error.1 h with h | ⟨_, _, h⟩
        · refine refused_of_named htexts.keys hfields
            (isPaired_dict_of_value (Entries.mem_of_get? hkey)) (halfFaults_of_parts ?_) h
          rintro p hp v hv
          obtain rfl := List.mem_singleton.1 hp
          exact exists_get?_of_firstPresent? hv
        · cases h
    · cases h
  · cases h
termination_by (sizeOf es, 1)
decreasing_by
  simp only [Value.dict.sizeOf_spec] at hlt
  exact Prod.Lex.left _ _ (by omega)

theorem refused_of_readArray (es : Entries) (hes : TextKeyed (.dict es)) {faults : List Fault}
    (h : readArray es = .error faults) : Refused (.dict es) faults := by
  rw [readArray] at h
  split at h
  · cases h
  · cases h
  · cases h
  · next container items key hcontainer hitems =>
    have hlt := sizeOf_lt_of_itemsOf hitems
    obtain ⟨itemsKey, hkey⟩ := exists_get?_of_itemsOf hitems
    have htexts := hes.of_get? hkey
    have hfaults : ∀ f ∈ halfFaults [("container_xpath", some container)],
        f.kind = .stringUnicode ∧ (dict es).isPaired = false := by
      refine halfFaults_of_parts ?_
      rintro p hp v hv
      obtain rfl := List.mem_singleton.1 hp
      obtain rfl := Option.some.inj hv
      exact exists_get?_of_firstPresent? hcontainer
    simp only at h
    split at h
    · cases h
    · split at h
      · -- one scalar for each match
        rcases except_bind_eq_error.1 h with h | ⟨item, _, h⟩
        · refine (refused_of_readPrimitive (fun v hv => ?_) h).of_get? hkey
          exact exists_get?_of_firstPresent? hv
        · cases item with
          | none => cases h
          | some item =>
            rcases except_bind_eq_error.1 h with h | ⟨_, _, h⟩
            · exact refused_of_refuse hfaults h
            · cases h
      · -- one record for each match
        rcases except_bind_eq_error.1 h with h | ⟨fields, hfields, h⟩
        · exact (refused_of_readFields items htexts h).of_get? hkey
        · rcases except_bind_eq_error.1 h with h | ⟨_, _, h⟩
          · exact refused_of_named htexts.keys hfields
              (isPaired_dict_of_value (Entries.mem_of_get? hkey)) hfaults h
          · cases h
  · cases h
termination_by (sizeOf es, 1)
decreasing_by
  simp only [Value.dict.sizeOf_spec] at hlt
  exact Prod.Lex.left _ _ (by omega)

/-- The definitions of a mapping are refused only for a text with a half. -/
theorem refused_of_readFields : ∀ (es : Entries), TextKeyed (.dict es) → ∀ {faults : List Fault},
    readFields es = .error faults → Refused (.dict es) faults
  | [], _, _, h => by
    rw [readFields] at h
    cases h
  | (k, v) :: rest, hes, _, h => by
    rw [readFields] at h
    rcases except_bind_eq_error.1 h with h | ⟨_, _, h⟩
    · have hv : TextKeyed v := hes.values _ List.mem_cons_self
      exact (refused_of_read v hv h).of_mem (e := (k, v)) List.mem_cons_self
    · rcases except_bind_eq_error.1 h with h | ⟨_, _, h⟩
      · exact (refused_of_readFields rest hes.tail h).cons (k, v)
      · cases h
termination_by es => (sizeOf es, 0)
decreasing_by
  · apply Prod.Lex.left; simp only [List.cons.sizeOf_spec, Prod.mk.sizeOf_spec]; omega
  · apply Prod.Lex.left; simp only [List.cons.sizeOf_spec, Prod.mk.sizeOf_spec]; omega

end

end Field

namespace PlanSource

/-! ### Reading a plan -/

theorem readText_cases (s : List Text.Letter) :
    (∃ v, readText s = .ok v) ∨ (∃ e, readText s = .error (.plan (.notJson e))) ∨
      ∃ n, readText s = .error (.tooManyDigits n) := by
  rw [readText]
  split
  · next v _ => exact Or.inl ⟨v, rfl⟩
  · next e _ => exact Or.inr (Or.inl ⟨e, rfl⟩)
  · next n _ => exact Or.inr (Or.inr ⟨n, rfl⟩)

/-- A source is a text, or a value, or of bytes that are no text. -/
theorem read_eq (source : PlanSource) :
    (∃ s, source.read = readText s) ∨ (∃ v, source.read = .ok v) ∨
      ∃ bs, source = .bytes bs ∧ Text.ofJsonBytes? bs = none ∧
        source.read = .error .undecodable := by
  cases source with
  | value v =>
    cases v with
    | str s => exact Or.inl ⟨_, rfl⟩
    | unpaired t => exact Or.inl ⟨_, rfl⟩
    | _ => exact Or.inr (Or.inl ⟨_, rfl⟩)
  | bytes bs =>
    cases hbs : Text.ofJsonBytes? bs with
    | some s => exact Or.inl ⟨s, by rw [read, hbs]⟩
    | none => exact Or.inr (Or.inr ⟨bs, rfl, hbs, by rw [read, hbs]⟩)

theorem read_cases (source : PlanSource) :
    (∃ v, source.read = .ok v) ∨ (∃ e, source.read = .error (.plan (.notJson e))) ∨
      (∃ n, source.read = .error (.tooManyDigits n)) ∨
      ∃ bs, source = .bytes bs ∧ Text.ofJsonBytes? bs = none ∧
        source.read = .error .undecodable := by
  rcases source.read_eq with ⟨s, hs⟩ | hv | hbytes
  · rw [hs]
    rcases readText_cases s with h | h | h
    · exact Or.inl h
    · exact Or.inr (Or.inl h)
    · exact Or.inr (Or.inr (Or.inl h))
  · exact Or.inl hv
  · exact Or.inr (Or.inr (Or.inr hbytes))

end PlanSource

namespace Plan

/-- A mapping holds a plan unless a text in it has a half. -/
theorem ofValue_dict (es : Entries) :
    (∃ plan, ofValue (.dict es) = .ok plan) ∨
      ∃ faults, ofValue (.dict es) = .error (.invalid faults) ∧ faults ≠ [] ∧
        ∀ f ∈ faults, f.kind = .stringUnicode ∧ (Value.dict es).isPaired = false := by
  have htexts := Value.textKeyed_stringifyKeys (.dict es)
  have hhalf := Value.isPaired_stringifyKeys (.dict es)
  rw [Value.stringifyKeys] at htexts hhalf
  rw [ofValue, Value.stringifyKeys]
  simp only
  split
  · next fields h => exact Or.inl ⟨_, rfl⟩
  · next faults h =>
    have hrefused : Field.Refused (.dict (Value.stringifyEntries [] es)) faults := by
      rcases except_bind_eq_error.1 h with h | ⟨fields, hfields, h⟩
      · exact Field.refused_of_readFields _ htexts h
      · exact Field.refused_of_named htexts.keys hfields id (List.forall_mem_nil _) h
    refine Or.inr ⟨faults, rfl, hrefused.1, fun f hf => ⟨(hrefused.2 f hf).1, ?_⟩⟩
    have hf := (hrefused.2 f hf).2
    cases hpaired : (Value.dict es).isPaired with
    | false => rfl
    | true => rw [hhalf hpaired] at hf; cases hf

/-- What is no mapping holds no plan. -/
theorem ofValue_other {v : Value} (h : v.dict? = none) :
    ofValue v = .error (.plan (.notMapping v.kindName)) := by
  cases v with
  | dict es => cases h
  | _ => rfl

/-- Noting the fields that could not be understood changes nothing. -/
theorem read_outcome (source : PlanSource) :
    (Plan.read source).outcome = source.read >>= ofValue := by
  cases hread : source.read with
  | error e =>
    rw [Plan.read, Run.outcome_bind_of_error _ ((Run.ofExcept_outcome _).trans hread)]
    rfl
  | ok v =>
    rw [Plan.read, Run.outcome_bind_of_ok _ ((Run.ofExcept_outcome _).trans hread)]
    cases hplan : ofValue v with
    | error e =>
      rw [Run.outcome_bind_of_error _ (Run.ofExcept_outcome _)]
      exact hplan.symm
    | ok p =>
      rw [Run.outcome_bind_of_ok _ (Run.ofExcept_outcome _)]
      cases p.malformedNames <;> exact hplan.symm

/-- A byte that starts no character of a text. -/
example : (Plan.read (.bytes [0xFF])).outcome = .error .undecodable := by rfl

end Plan

end PagePlan
