/-
# The forms of schemas, and where the reader goes from each

A few keywords decide in a fixed order what the reader of requirements makes of a schema.  From a
schema it goes on to others: to the one alternative beside null, to the items of an array, or to the
properties of an object.  What it makes of a whole schema is thus told schema by schema, over all
that it comes to.

* `typeOf_dict` — what is read of a schema, form by form;
* `optionalOf?_eq_some_iff` — which alternatives are understood;
* `forall_comesTo` — what holds for all schemas that the reader comes to.
-/
import Mathlib.Logic.Relation
import PagePlan.Proofs.Outcome
import PagePlan.Proofs.Value.Entries
import PagePlan.Requirements.Reading

namespace PagePlan.Schema

open Relation (ReflTransGen)

/-- The forms of schemas. -/
inductive Form where
  | alternatives
  | enumeration
  /-- An object with properties. -/
  | record
  | mapping
  /-- An array of items that are described. -/
  | list
  | anyList
  /-- A type without parts, or none. -/
  | plain
deriving DecidableEq

/-- The form of a schema with some entries. -/
def form (es : Entries) : Form :=
  if es.has "anyOf" then .alternatives
  else if es.has "enum" then .enumeration
  else
    match es.get? "type" with
    | some (.str "object") => if hasSection es "properties" then .record else .mapping
    | some (.str "array") => if hasSection es "items" then .list else .anyList
    | _ => .plain

section

variable {es : Entries} {v inner : Value}

theorem form_of_type (hvariants : es.has "anyOf" = false) (henum : es.has "enum" = false) :
    form es = match es.get? "type" with
      | some (.str "object") => if hasSection es "properties" then .record else .mapping
      | some (.str "array") => if hasSection es "items" then .list else .anyList
      | _ => .plain := by
  rw [form, hvariants, henum]
  rfl

theorem form_plain (hvariants : es.has "anyOf" = false) (henum : es.has "enum" = false)
    (hobject : es.get? "type" ≠ some (.str "object"))
    (harray : es.get? "type" ≠ some (.str "array")) : form es = .plain := by
  rw [form_of_type hvariants henum]
  split
  · next htype => exact absurd htype hobject
  · next htype => exact absurd htype harray
  · rfl

theorem exists_of_form_alternatives (h : form es = .alternatives) :
    ∃ variants, es.get? "anyOf" = some variants := by
  unfold form at h
  split at h
  · next hvariants => exact Option.isSome_iff_exists.1 hvariants
  · split at h
    · cases h
    · split at h <;> (try split at h) <;> cases h

theorem exists_of_form_list (h : form es = .list) : ∃ items, es.get? "items" = some items := by
  unfold form at h
  split at h
  · cases h
  · split at h
    · cases h
    · split at h
      · split at h <;> cases h
      · split at h
        · next hitems =>
          cases hget : es.get? "items" with
          | none => simp [hasSection, hget] at hitems
          | some items => exact ⟨items, rfl⟩
        · cases h
      · cases h

theorem hasSection_of_form_record (h : form es = .record) : hasSection es "properties" = true := by
  unfold form at h
  split at h
  · cases h
  · split at h
    · cases h
    · split at h
      · split at h
        · next hproperties => exact hproperties
        · cases h
      · split at h <;> cases h
      · cases h

/-- What is read of a schema, form by form. -/
theorem typeOf_dict (es : Entries) (name : String) : typeOf (.dict es) name =
    refuseUnsupported (.dict es) unsupportedKeywords >>= fun _ =>
      match form es with
      | .alternatives => optionalOf? ((es.get? "anyOf").getD .null) >>= fun
        | none => .error (.requirements .unsupportedAlternatives)
        | some inner => typeOf inner name >>= fun t => .ok t.orNull
      | .enumeration => .ok .string
      | .record => fieldsOf es name >>= fun fields => .ok (.record name true fields)
      | .mapping => .ok .mapping
      | .list => typeOf ((es.get? "items").getD .null) (name ++ "_item") >>= fun t => .ok (.list t)
      | .anyList => .ok .anyList
      | .plain => primitiveType (es.get? "type") >>= fun base =>
          .ok (if hasSection es "nullable" then base.orNull else base) := by
  rw [typeOf]
  congr 1
  funext _
  split
  · next variants hvariants =>
    have hhas : es.has "anyOf" = true := by rw [Entries.has, hvariants]; rfl
    simp only [form, hhas, hvariants, if_true, Option.getD_some]
    split
    · next h => rw [h]; rfl
    · next h => rw [h]; rfl
    · next h => rw [h]; rfl
  · next hvariants =>
    have hhas : es.has "anyOf" = false := by rw [Entries.has, hvariants]; rfl
    by_cases henum : es.has "enum" = true
    · rw [if_pos henum, form, hhas, henum]
      rfl
    · rw [if_neg henum]
      rw [Bool.not_eq_true] at henum
      split
      · next htype =>
        simp only [form_of_type hhas henum, htype]
        split <;> rfl
      · next htype =>
        simp only [form_of_type hhas henum, htype, hasSection]
        split
        · next items hitems =>
          simp only [hitems, Option.elim_some, Option.getD_some]
          split <;> rfl
        · next hitems =>
          simp only [hitems, Option.elim_none, Bool.false_eq_true, if_false]
          rfl
      · next hobject harray =>
        rw [form_plain hhas henum hobject harray]
        rfl

/-- A value is a mapping. -/
def IsMapping (v : Value) : Prop := ∃ es, v = .dict es

/-- What is no mapping is looked through for keywords, and no more. -/
theorem typeOf_of_not_isMapping (h : ¬IsMapping v) (name : String) :
    typeOf v name = refuseUnsupported v unsupportedKeywords >>= fun _ => .error .noEntries := by
  cases v with
  | dict es => exact absurd ⟨es, rfl⟩ h
  | _ => rw [typeOf]; all_goals simp

/-! ### Alternatives -/

/-- Alternatives are a schema and null, in either order. -/
inductive IsOptional : Value → Value → Prop where
  | nullLast {inner other : Value} (hinner : isNullSchema inner = .ok false)
      (hother : isNullSchema other = .ok true) : IsOptional (.list [inner, other]) inner
  | nullFirst {inner other : Value} (hinner : isNullSchema inner = .ok false)
      (hother : isNullSchema other = .ok true) : IsOptional (.list [other, inner]) inner

/-- **The alternatives that are understood** are those of one schema and null. -/
theorem optionalOf?_eq_some_iff : optionalOf? v = .ok (some inner) ↔ IsOptional v inner := by
  constructor
  · intro h
    unfold optionalOf? at h
    split at h
    · next variants =>
      split at h
      · cases h
      · next found hfound =>
        split at h
        · next hlength =>
          obtain rfl : found = inner := Option.some.inj (Except.ok.inj h)
          obtain ⟨a, b, rfl⟩ := List.length_eq_two.1 hlength
          rw [nonNull, nonNull, nonNull] at hfound
          obtain ⟨na, ha, hfound⟩ := except_bind_eq_ok.1 hfound
          obtain ⟨rest, hrest, hfound⟩ := except_bind_eq_ok.1 hfound
          obtain ⟨nb, hb, hrest⟩ := except_bind_eq_ok.1 hrest
          -- one of the two is kept, so that just one is null
          cases na <;> cases nb <;> cases hrest <;> cases hfound
          · exact .nullLast ha hb
          · exact .nullFirst hb ha
        · cases h
      · cases h
    · cases h
  · rintro (⟨hinner, hnull⟩ | ⟨hinner, hnull⟩)
    · simp [optionalOf?, nonNull, hinner, hnull, bind, Except.bind, pure, Except.pure]
    · simp [optionalOf?, nonNull, hinner, hnull, bind, Except.bind, pure, Except.pure]

end

/-! ### The schemas that the reader comes to -/

/-- The reader goes from one schema to another. -/
inductive LeadsTo : Value → Value → Prop where
  /-- Of alternatives, the null schema is not read. -/
  | alternative {es : Entries} {variants : List Value} {s : Value} (hform : form es = .alternatives)
      (hvariants : es.get? "anyOf" = some (.list variants)) (hs : s ∈ variants)
      (hnull : isNullSchema s = .ok false) : LeadsTo (.dict es) s
  | item {es : Entries} {s : Value} (hform : form es = .list) (hs : es.get? "items" = some s) :
      LeadsTo (.dict es) s
  | property {es properties : Entries} {p : Value × Value} (hform : form es = .record)
      (hproperties : es.get? "properties" = some (.dict properties)) (hp : p ∈ properties) :
      LeadsTo (.dict es) p.2

/-- The reader comes from one schema to another, by way of any others. -/
def ComesTo (v s : Value) : Prop := ReflTransGen LeadsTo v s

section

variable {es : Entries} {v : Value} {N : Value → Prop}

/-- What holds for all schemas that the reader comes to holds for the first, and for those that come
after it. -/
theorem forall_comesTo : (∀ s, ComesTo v s → N s) ↔
    N v ∧ ∀ u, LeadsTo v u → ∀ s, ComesTo u s → N s := by
  constructor
  · intro h
    exact ⟨h v .refl, fun u hu s hs => h s (.head hu hs)⟩
  · rintro ⟨hv, hnext⟩ s hs
    rcases hs.cases_head with rfl | ⟨u, hu, hs⟩
    · exact hv
    · exact hnext u hu s hs

/-- What holds for some schema that the reader comes to holds for the first, or for one that comes
after it. -/
theorem exists_comesTo : (∃ s, ComesTo v s ∧ N s) ↔
    N v ∨ ∃ u, LeadsTo v u ∧ ∃ s, ComesTo u s ∧ N s := by
  constructor
  · rintro ⟨s, hs, hN⟩
    rcases hs.cases_head with rfl | ⟨u, hu, hs⟩
    · exact Or.inl hN
    · exact Or.inr ⟨u, hu, s, hs, hN⟩
  · rintro (hN | ⟨u, hu, s, hs, hN⟩)
    · exact ⟨v, .refl, hN⟩
    · exact ⟨s, .head hu hs, hN⟩

/-- From a schema without parts the reader does not go on. -/
theorem not_leadsTo (h : form es ∉ [Form.alternatives, .list, .record]) {s : Value} :
    ¬LeadsTo (.dict es) s := by
  rintro (⟨hform, -, -, -⟩ | ⟨hform, -⟩ | ⟨hform, -, -⟩)
  all_goals simp [hform] at h

theorem leadsTo_item (hform : form es = .list) {s : Value} :
    LeadsTo (.dict es) s ↔ es.get? "items" = some s := by
  constructor
  · rintro (⟨hform', -, -, -⟩ | ⟨-, hs⟩ | ⟨hform', -, -⟩)
    · cases hform.symm.trans hform'
    · exact hs
    · cases hform.symm.trans hform'
  · exact .item hform

theorem leadsTo_property (hform : form es = .record) {s : Value} : LeadsTo (.dict es) s ↔
    ∃ properties, es.get? "properties" = some (.dict properties) ∧ ∃ p ∈ properties, p.2 = s := by
  constructor
  · rintro (⟨hform', -, -, -⟩ | ⟨hform', -⟩ | ⟨-, hproperties, hp⟩)
    · cases hform.symm.trans hform'
    · cases hform.symm.trans hform'
    · exact ⟨_, hproperties, _, hp, rfl⟩
  · rintro ⟨properties, hproperties, p, hp, rfl⟩
    exact .property hform hproperties hp

theorem forall_leadsTo_property (hform : form es = .record) :
    (∀ s, LeadsTo (.dict es) s → N s) ↔
      ∀ properties, es.get? "properties" = some (.dict properties) → ∀ p ∈ properties, N p.2 := by
  constructor
  · exact fun h properties hproperties p hp => h p.2 (.property hform hproperties hp)
  · intro h s hs
    obtain ⟨properties, hproperties, p, hp, rfl⟩ := (leadsTo_property hform).1 hs
    exact h properties hproperties p hp

/-- Of two alternatives of which one is null, the reader goes to the other. -/
theorem leadsTo_optional (hform : form es = .alternatives) {variants inner : Value}
    (hvariants : es.get? "anyOf" = some variants) (h : IsOptional variants inner) {s : Value} :
    LeadsTo (.dict es) s ↔ s = inner := by
  constructor
  · rintro (⟨-, hvariants', hs, hnull⟩ | ⟨hform', -⟩ | ⟨hform', -, -⟩)
    · cases hvariants.symm.trans hvariants'
      rcases h with ⟨-, hother⟩ | ⟨-, hother⟩
      all_goals
        simp only [List.mem_cons, List.not_mem_nil, or_false] at hs
        rcases hs with rfl | rfl
      · rfl
      · cases hnull.symm.trans hother
      · cases hnull.symm.trans hother
      · rfl
    · cases hform.symm.trans hform'
    · cases hform.symm.trans hform'
  · rintro rfl
    rcases h with ⟨hinner, -⟩ | ⟨hinner, -⟩
    · exact .alternative hform hvariants (by simp) hinner
    · exact .alternative hform hvariants (by simp) hinner

end

end PagePlan.Schema
