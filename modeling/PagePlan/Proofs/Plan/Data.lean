/-
# The data that a plan finds can be written

What extraction gives can be held by JSON text: whole numbers have no more digits than are
converted, no number is undefined, and texts are of whole characters.  That no mapping has a name
twice is owed to the reading of plans.  Keys that come to one text are merged when the keys of a
document are turned into texts (`DistinctKeyed`), so the names of the fields of one record differ
(`Unambiguous`), and the entries of the data have just these names.

* `unambiguous_of_read` — a plan that was read has no name twice in a record.
* `extractFrom_isData` — the data of such a plan can be written.
-/
import PagePlan.Extract
import PagePlan.Proofs.Json.Data
import PagePlan.Proofs.Plan.Classification
import PagePlan.Proofs.Plan.Isolation

namespace PagePlan

namespace Value

/-! ### Keys that are there once -/

/-- No key of a mapping is there twice, nor in the mappings that are its values. -/
inductive DistinctKeyed : Value → Prop
  | dict {es : Entries} : es.Distinct → (∀ e ∈ es, DistinctKeyed e.2) → DistinctKeyed (.dict es)
  | other {v : Value} : v.dict? = none → DistinctKeyed v

theorem DistinctKeyed.distinct {es : Entries} (h : DistinctKeyed (.dict es)) : es.Distinct := by
  cases h with
  | dict hdistinct hvalues => exact hdistinct
  | other h => cases h

theorem DistinctKeyed.values {es : Entries} (h : DistinctKeyed (.dict es)) :
    ∀ e ∈ es, DistinctKeyed e.2 := by
  cases h with
  | dict hdistinct hvalues => exact hvalues
  | other h => cases h

theorem DistinctKeyed.of_get? {es : Entries} (h : DistinctKeyed (.dict es)) {key : String}
    {v : Value} (hv : es.get? key = some v) : DistinctKeyed v :=
  h.values _ (Entries.mem_of_get? hv)

theorem Throughout.distinctKeyed {v : Value} (h : v.Throughout KeyedOnce) : DistinctKeyed v := by
  induction h with
  | @intro v honce _ ih =>
    cases v with
    | dict es => exact .dict honce fun e he => ih _ (List.mem_map_of_mem he)
    | _ => exact .other rfl

/-- No key is there twice once the keys have been turned into texts. -/
theorem distinctKeyed_stringifyKeys (v : Value) : DistinctKeyed v.stringifyKeys :=
  (keyedOnce_stringifyKeys v).distinctKeyed

end Value

namespace Field

open Value

/-! ### Fields under different names -/

/-- The fields of every record of a definition have different names. -/
inductive Unambiguous : Field → Prop
  | primitive (p : Primitive) : Unambiguous (.primitive p)
  | object {context : Option String} {fields : List (String × Field)} :
      (fields.map Prod.fst).Nodup → (∀ e ∈ fields, Unambiguous e.2) →
      Unambiguous (.object context fields)
  | primitiveArray (container : String) (item : Primitive) :
      Unambiguous (.primitiveArray container item)
  | objectArray {container : String} {fields : List (String × Field)} :
      (fields.map Prod.fst).Nodup → (∀ e ∈ fields, Unambiguous e.2) →
      Unambiguous (.objectArray container fields)
  | emptyArray : Unambiguous .emptyArray
  | malformed (raw : Value) : Unambiguous (.malformed raw)

/-- The definitions within a definition stand in it, under keys that are there once if its own
are. -/
theorem HasShape.distinctKeyed {v : Value} {shape : Shape} (h : HasShape v shape)
    (hv : DistinctKeyed v) : DistinctKeyed (.dict shape.fields) := by
  have hnone : DistinctKeyed (.dict []) := .dict List.Pairwise.nil (List.forall_mem_nil _)
  cases h with
  | scalar => exact hnone
  | object _ hproperties =>
    obtain ⟨key, hkey⟩ := exists_get?_of_firstPresent? hproperties
    exact hv.of_get? hkey
  | scalars => exact hnone
  | records _ _ _ hitems =>
    obtain ⟨key, hkey⟩ := exists_get?_of_itemsOf hitems
    exact hv.of_get? hkey
  | empty => exact hnone

theorem Shape.unambiguous_field {within : List (String × Field)}
    (hnodup : (within.map Prod.fst).Nodup) (hall : ∀ e ∈ within, e.2.Unambiguous)
    (shape : Shape) : (shape.field within).Unambiguous := by
  cases shape with
  | scalar => exact .primitive _
  | object => exact .object hnodup hall
  | scalars => exact .primitiveArray _ _
  | records => exact .objectArray hnodup hall
  | empty => exact .emptyArray

/-- Definitions are read under the names that they stand under. -/
theorem ReadsAll.keys {es : Entries} {fields : List (String × Field)} (h : ReadsAll es fields) :
    es.map Prod.fst = (fields.map Prod.fst).map Value.str := by
  induction fields generalizing es with
  | nil =>
    cases h
    rfl
  | cons f fields ih =>
    cases h with
    | cons _ hall => rw [List.map_cons, List.map_cons, List.map_cons, ih hall]

theorem ReadsAll.nodup {es : Entries} {fields : List (String × Field)} (h : ReadsAll es fields)
    (hes : es.Distinct) : (fields.map Prod.fst).Nodup :=
  (Entries.distinct_iff_nodup h.keys).1 hes

mutual

/-- A definition that was read has no name twice in a record. -/
theorem Reads.unambiguous {v : Value} {f : Field} : Reads v f → DistinctKeyed v → f.Unambiguous
  | .shaped hshape hall, hv =>
    have hfields := hshape.distinctKeyed hv
    Shape.unambiguous_field (hall.nodup hfields.distinct) (hall.unambiguous hfields.values) _
  | .malformed _, _ => .malformed _

/-- The definitions under the keys of a mapping have no name twice in a record. -/
theorem ReadsAll.unambiguous {es : Entries} {fields : List (String × Field)} :
    ReadsAll es fields → (∀ e ∈ es, DistinctKeyed e.2) → ∀ f ∈ fields, f.2.Unambiguous
  | .nil, _ => List.forall_mem_nil _
  | .cons hread hall, hes =>
    have ⟨hv, hrest⟩ := List.forall_mem_cons.1 hes
    List.forall_mem_cons.2 ⟨hread.unambiguous hv, hall.unambiguous hrest⟩

end

end Field

/-- The fields of a plan, and of every record in it, have different names. -/
def Plan.Unambiguous (plan : Plan) : Prop :=
  (plan.fields.map Prod.fst).Nodup ∧ ∀ e ∈ plan.fields, e.2.Unambiguous

/-- **A plan that was read has no name twice in a record.** -/
theorem Plan.unambiguous_of_read {source : PlanSource} {plan : Plan}
    (h : (Plan.read source).outcome = .ok plan) : plan.Unambiguous := by
  rw [read_outcome] at h
  obtain ⟨v, -, h⟩ := except_bind_eq_ok.1 h
  have hkeyed := Value.distinctKeyed_stringifyKeys v
  unfold ofValue at h
  split at h
  · next es hes =>
    rw [hes] at hkeyed
    split at h
    · next fields hfields =>
      obtain rfl := Except.ok.inj h
      have hall := Field.readsAll_of_namesRead (Field.readNamed_eq_ok_iff.1 hfields).2
        fun e _ _ => Field.reads_of_read e.2
      exact ⟨hall.nodup hkeyed.distinct, hall.unambiguous hkeyed.values⟩
    · cases h
  · cases h

/-! ### Data -/

/-- A value that JSON text can hold, its texts being of whole characters. -/
structure Value.IsData (v : Value) : Prop where
  json : Json.IsJson v
  paired : v.isPaired = true

namespace Value

theorem isData_null : IsData .null := ⟨.null, rfl⟩

theorem isData_list {xs : List Value} (h : ∀ x ∈ xs, x.IsData) : IsData (.list xs) :=
  ⟨.list fun x hx => (h x hx).json, by
    rw [isPaired, isPairedItems_iff]
    exact fun x hx => (h x hx).paired⟩

/-- Entries with different names make a mapping. -/
theorem isData_dict {names : List String} {es : Entries} (hnodup : names.Nodup)
    (hkeys : es.map Prod.fst = names.map Value.str) (h : ∀ e ∈ es, e.2.IsData) :
    IsData (.dict es) := by
  have hstr : ∀ e ∈ es, ∃ s, e.1 = .str s := by
    intro e he
    have hmem : e.1 ∈ names.map Value.str := hkeys ▸ List.mem_map_of_mem he
    obtain ⟨s, -, hs⟩ := List.mem_map.1 hmem
    exact ⟨s, hs.symm⟩
  refine ⟨.dict (fun e he => ?_) ((Entries.distinct_iff_nodup hkeys).2 hnodup)
    fun e he => (h e he).json, ?_⟩
  · obtain ⟨s, hs⟩ := hstr e he
    rw [hs]
    rfl
  · rw [isPaired, isPairedEntries_iff]
    intro e he
    obtain ⟨s, hs⟩ := hstr e he
    rw [hs]
    exact ⟨rfl, (h e he).paired⟩

end Value

/-- A whole number that a text holds has no more digits than are converted. -/
theorem length_ofNat_of_toInteger {raw : String} {n : Int} (h : toInteger raw = .ok n) :
    (Decimal.ofNat n.natAbs).length ≤ Json.digitLimit := by
  unfold toInteger at h
  generalize leadingInteger (raw.toList.filter isIntegerChar) = found at h
  obtain ⟨negative, ds⟩ := found
  simp only at h
  split at h
  · cases h
  · next hshort =>
    obtain rfl := Except.ok.inj h
    have hnatAbs : (if negative = true then -(Decimal.toNat ds : Int)
        else Decimal.toNat ds).natAbs = Decimal.toNat ds := by
      split <;> simp
    rw [hnatAbs]
    by_cases hne : ds = []
    · rw [hne, show Decimal.toNat [] = 0 from rfl, Decimal.ofNat]
      decide
    · exact (Decimal.length_ofNat_toNat_le hne).trans (Nat.not_lt.1 hshort)

theorem isNaN_toNumber (raw : String) : (toNumber raw).isNaN = false := by
  unfold toNumber
  simp only
  split
  · decide
  · exact Binary64.isNaN_ofDecimal _ _ _

/-- What a text is coerced to can be written. -/
theorem isData_of_coerce {raw : String} {t : ValueType} {v : Value} (h : coerce raw t = .ok v) :
    v.IsData := by
  cases t with
  | string =>
    obtain rfl := Except.ok.inj h
    exact ⟨.str _, rfl⟩
  | integer =>
    obtain ⟨n, hn, rfl⟩ := except_map_eq_ok.1 h
    exact ⟨.int (length_ofNat_of_toInteger hn), rfl⟩
  | number =>
    obtain rfl := Except.ok.inj h
    refine ⟨.float fun hnan => ?_, rfl⟩
    rw [isNaN_toNumber] at hnan
    cases hnan
  | boolean =>
    obtain rfl := Except.ok.inj h
    exact ⟨.bool _, rfl⟩
  | other name =>
    obtain rfl := Except.ok.inj h
    exact ⟨.str _, rfl⟩

namespace Evaluator

variable {γ : Type} {ev : Evaluator γ}

theorem extractPrimitive_isData {c : γ} {p : Primitive} {v : Value}
    (h : (ev.extractPrimitive c p).outcome = .ok v) : v.IsData := by
  obtain ⟨a, -, h⟩ := Run.outcome_bind_eq_ok.1 h
  split at h
  · obtain rfl := Except.ok.inj h
    exact Value.isData_null
  · rw [Run.ofExcept_outcome] at h
    exact isData_of_coerce h

/-- The entries that fields give have the names of the fields. -/
theorem keys_of_extractFields {c : γ} {fields : List (String × Field)} {es : Entries}
    (h : (ev.extractFields c fields).outcome = .ok es) :
    es.map Prod.fst = (fields.map Prod.fst).map Value.str := by
  induction fields generalizing es with
  | nil =>
    obtain rfl := Except.ok.inj h
    rfl
  | cons field fields ih =>
    obtain ⟨name, f⟩ := field
    rw [extractFields] at h
    obtain ⟨v, -, h⟩ := Run.outcome_bind_eq_ok.1 h
    obtain ⟨others, hothers, h⟩ := Run.outcome_bind_eq_ok.1 h
    obtain rfl := Except.ok.inj h
    rw [List.map_cons, List.map_cons, List.map_cons, ih hothers]

mutual

/-- A field gives data. -/
theorem extractField_isData (c : γ) : ∀ f : Field, f.Unambiguous → ∀ {v : Value},
    (ev.extractField c f).outcome = .ok v → v.IsData
  | .primitive p, _, _, h => by
    rw [extractField] at h
    exact extractPrimitive_isData h
  | .object none fields, .object hnodup hall, _, h => by
    rw [extractField] at h
    exact record_isData c fields hnodup hall h
  | .object (some x) fields, .object hnodup hall, _, h => by
    rw [extractField] at h
    obtain ⟨m, -, h⟩ := Run.outcome_bind_eq_ok.1 h
    cases m with
    | none =>
      obtain ⟨-, -, h⟩ := Run.outcome_bind_eq_ok.1 h
      obtain rfl := Except.ok.inj h
      exact Value.isData_null
    | some m => exact record_isData m fields hnodup hall h
  | .primitiveArray x item, _, _, h => by
    rw [extractField] at h
    obtain ⟨found, -, h⟩ := Run.outcome_bind_eq_ok.1 h
    obtain ⟨vs, hvs, h⟩ := Run.outcome_bind_eq_ok.1 h
    obtain rfl := Except.ok.inj h
    exact Value.isData_list (Run.forall_of_outcome_mapM hvs fun _ _ => extractPrimitive_isData)
  | .objectArray x fields, .objectArray hnodup hall, _, h => by
    rw [extractField] at h
    obtain ⟨found, -, h⟩ := Run.outcome_bind_eq_ok.1 h
    obtain ⟨vs, hvs, h⟩ := Run.outcome_bind_eq_ok.1 h
    obtain rfl := Except.ok.inj h
    exact Value.isData_list
      (Run.forall_of_outcome_mapM hvs fun m _ => record_isData m fields hnodup hall)
  | .emptyArray, _, _, h => by
    obtain rfl := Except.ok.inj h
    exact Value.isData_list (List.forall_mem_nil _)
  | .malformed _, _, _, h => by
    obtain rfl := Except.ok.inj h
    exact Value.isData_null

/-- A record gives data. -/
theorem record_isData (c : γ) (fields : List (String × Field))
    (hnodup : (fields.map Prod.fst).Nodup) (hall : ∀ e ∈ fields, e.2.Unambiguous) {v : Value}
    (h : (do return Value.dict (← ev.extractFields c fields) : Run Value).outcome = .ok v) :
    v.IsData := by
  obtain ⟨es, hes, h⟩ := Run.outcome_bind_eq_ok.1 h
  obtain rfl := Except.ok.inj h
  exact Value.isData_dict hnodup (keys_of_extractFields hes)
    (extractFields_isData c fields hall hes)

/-- Fields give data under their names. -/
theorem extractFields_isData (c : γ) : ∀ fields : List (String × Field),
    (∀ e ∈ fields, e.2.Unambiguous) → ∀ {es : Entries},
    (ev.extractFields c fields).outcome = .ok es → ∀ e ∈ es, e.2.IsData
  | [], _, _, h => by
    obtain rfl := Except.ok.inj h
    exact List.forall_mem_nil _
  | (name, f) :: rest, hall, _, h => by
    rw [extractFields] at h
    obtain ⟨v, hv, h⟩ := Run.outcome_bind_eq_ok.1 h
    obtain ⟨others, hothers, h⟩ := Run.outcome_bind_eq_ok.1 h
    obtain rfl := Except.ok.inj h
    have hfirst := extractField_isData c f (hall (name, f) List.mem_cons_self) hv
    have hrest := extractFields_isData c rest (fun e he => hall e (List.mem_cons_of_mem _ he)) hothers
    exact List.forall_mem_cons.2 ⟨hfirst, hrest⟩

end

/-- An unambiguous plan gives data in any context. -/
theorem extract_isData {c : γ} {plan : Plan} (hplan : plan.Unambiguous) {v : Value}
    (h : (ev.extract c plan).outcome = .ok v) : v.IsData :=
  record_isData c plan.fields hplan.1 hplan.2 h

end Evaluator

/-- **The data that a plan finds in a page can be written**, if the plan was read. -/
theorem extractFrom_isData {source : PlanSource} {plan : Plan} {page : PageSource} {v : Value}
    (hplan : (Plan.read source).outcome = .ok plan)
    (h : (plan.extractFrom page).outcome = .ok v) : v.IsData :=
  Evaluator.extract_isData (Plan.unambiguous_of_read hplan) h

end PagePlan
