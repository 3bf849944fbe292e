/-
# Turning keys into texts

Before the definitions of a plan are read, every key in the document is turned into its text.  A
mapping is put together anew for it, one assignment after another, so that of several keys with one
text one entry is left: it stands where the first of them stood and has the value of the last.

What comes out is a normal form.  The keys of all mappings in it are different texts, and its
sequences are lists; and what has this form already stays as it is.  So turning keys into texts a
second time changes nothing, and a plan is read from a mapping as it is from its normal form.

* `stringifyEntries_eq_ofAssignments` — the entries are the result of assignments;
* `normal_stringifyKeys`, `stringifyKeys_of_normal` — what comes out is normal, and what is normal
  stays as it is;
* `stringifyKeys_normalizes` — the two together, with what is left of keys that have one text.
-/
import PagePlan.Plan.Reading
import PagePlan.Proofs.Value.Assignments

namespace PagePlan

namespace Value

/-! ### Properties of a value and of all that is in it -/

/-- The values that a value has in it: the items of a sequence, the values of a mapping. -/
def parts : Value → List Value
  | list xs => xs
  | tuple xs => xs
  | dict es => es.map Prod.snd
  | _ => []

/-- What holds of a value and of the values in it, at every depth. -/
inductive Throughout (P : Value → Prop) : Value → Prop
  | intro {v : Value} : P v → (∀ w ∈ v.parts, Throughout P w) → Throughout P v

variable {P Q : Value → Prop} {v : Value}

theorem Throughout.here (h : v.Throughout P) : P v := by
  cases h with
  | intro hv hparts => exact hv

theorem Throughout.parts (h : v.Throughout P) : ∀ w ∈ v.parts, w.Throughout P := by
  cases h with
  | intro hv hparts => exact hparts

theorem throughout_and :
    v.Throughout (fun w => P w ∧ Q w) ↔ v.Throughout P ∧ v.Throughout Q := by
  constructor
  · intro h
    induction h with
    | intro hv hparts ih =>
      exact ⟨.intro hv.1 fun w hw => (ih w hw).1, .intro hv.2 fun w hw => (ih w hw).2⟩
  · rintro ⟨hP, hQ⟩
    induction hP with
    | intro hv hparts ih => exact .intro ⟨hv, hQ.here⟩ fun w hw => ih w hw (hQ.parts w hw)

/-- A value is no tuple, and if it is a mapping, its keys are texts. -/
def KeyedByTexts : Value → Prop
  | dict es => ∀ e ∈ es, e.1.isText = true
  | tuple _ => False
  | _ => True

/-- No key is in a mapping twice: so it is in every mapping that is put together key by key. -/
def KeyedOnce : Value → Prop
  | dict es => Entries.Distinct es
  | _ => True

/-! ### Entries under texts -/

/-- An entry under the text of its key, with texts for keys in its value. -/
def textEntry (e : Value × Value) : Value × Value := (e.1.asKey, e.2.stringifyKeys)

theorem isText_asKey (k : Value) : k.asKey.isText = true := by
  cases k <;> rfl

theorem asKey_of_isText {k : Value} (h : k.isText = true) : k.asKey = k := by
  cases k with
  | str s => rfl
  | unpaired t => rfl
  | _ => cases h

theorem stringifyEntries_eq_merge (before es : Entries) :
    stringifyEntries before es = before.merge (es.map textEntry) := by
  induction es generalizing before with
  | nil => rfl
  | cons e es ih => exact ih _

theorem stringifyEntries_eq_ofAssignments (es : Entries) :
    stringifyEntries [] es = Entries.ofAssignments (es.map textEntry) :=
  stringifyEntries_eq_merge [] es

theorem isResultOf_stringifyEntries (es : Entries) :
    (stringifyEntries [] es).IsResultOf (es.map textEntry) := by
  rw [stringifyEntries_eq_ofAssignments]
  exact Entries.isResultOf_ofAssignments (List.forall_mem_map.2 fun e _ => isText_asKey e.1)

theorem distinct_stringifyEntries (es : Entries) : (stringifyEntries [] es).Distinct := by
  rw [stringifyEntries_eq_ofAssignments]
  exact Entries.distinct_ofAssignments _

/-- The entries are some of those that were there, under their texts. -/
theorem exists_of_mem_stringifyEntries {es : Entries} {e : Value × Value}
    (he : e ∈ stringifyEntries [] es) : ∃ e' ∈ es, textEntry e' = e :=
  List.mem_map.1 ((isResultOf_stringifyEntries es).mem he)

theorem stringifyItems_eq_map (xs : List Value) : stringifyItems xs = xs.map stringifyKeys := by
  induction xs with
  | nil => rfl
  | cons x xs ih => rw [stringifyItems, ih, List.map_cons]

/-! ### The normal form -/

/-- What comes out has different texts for keys at every depth, and no tuple in it. -/
theorem normal_stringifyKeys (v : Value) :
    v.stringifyKeys.Throughout fun w => w.KeyedByTexts ∧ w.KeyedOnce := by
  have hitems {xs : List Value} (hlt : ∀ x ∈ xs, sizeOf x < sizeOf v) :
      (list (stringifyItems xs)).Throughout fun w => w.KeyedByTexts ∧ w.KeyedOnce := by
    refine .intro ⟨trivial, trivial⟩ fun w hw => ?_
    rw [parts, stringifyItems_eq_map] at hw
    obtain ⟨x, hx, rfl⟩ := List.mem_map.1 hw
    have := hlt x hx
    exact normal_stringifyKeys x
  cases v with
  | dict es =>
    refine .intro ⟨?_, distinct_stringifyEntries es⟩ ?_
    · intro e he
      obtain ⟨e', -, rfl⟩ := exists_of_mem_stringifyEntries he
      exact isText_asKey e'.1
    · intro w hw
      obtain ⟨e, he, rfl⟩ := List.mem_map.1 hw
      obtain ⟨e', he', rfl⟩ := exists_of_mem_stringifyEntries he
      have := sizeOf_value_lt he'
      exact normal_stringifyKeys e'.2
  | list xs => exact hitems fun x hx => Nat.lt_trans (List.sizeOf_lt_of_mem hx) (by simp)
  | tuple xs => exact hitems fun x hx => Nat.lt_trans (List.sizeOf_lt_of_mem hx) (by simp)
  | _ => exact .intro ⟨trivial, trivial⟩ (List.forall_mem_nil _)
termination_by sizeOf v

theorem keyedByTexts_stringifyKeys (v : Value) : v.stringifyKeys.Throughout KeyedByTexts :=
  (throughout_and.1 (normal_stringifyKeys v)).1

theorem keyedOnce_stringifyKeys (v : Value) : v.stringifyKeys.Throughout KeyedOnce :=
  (throughout_and.1 (normal_stringifyKeys v)).2

/-- What has different texts for keys at every depth, and no tuple in it, stays as it is. -/
theorem stringifyKeys_of_normal (h : v.Throughout fun w => w.KeyedByTexts ∧ w.KeyedOnce) :
    v.stringifyKeys = v := by
  induction h with
  | @intro v hv hparts ih =>
    obtain ⟨htexts, honce⟩ := hv
    cases v with
    | dict es =>
      have hentries : es.map textEntry = es := by
        refine (List.map_congr_left fun e he => ?_).trans (List.map_id es)
        exact Prod.ext (asKey_of_isText (htexts e he)) (ih e.2 (List.mem_map_of_mem he))
      rw [stringifyKeys, stringifyEntries_eq_ofAssignments, hentries,
        Entries.ofAssignments_of_distinct honce]
    | list xs =>
      have hitems : xs.map stringifyKeys = xs := (List.map_congr_left ih).trans (List.map_id xs)
      rw [stringifyKeys, stringifyItems_eq_map, hitems]
    | tuple xs => cases htexts
    | _ => rfl

theorem stringifyKeys_stringifyKeys (v : Value) :
    v.stringifyKeys.stringifyKeys = v.stringifyKeys :=
  stringifyKeys_of_normal (normal_stringifyKeys v)

theorem stringifyKeys_eq_self_iff :
    v.stringifyKeys = v ↔ v.Throughout KeyedByTexts ∧ v.Throughout KeyedOnce := by
  constructor
  · intro h
    exact h ▸ ⟨keyedByTexts_stringifyKeys v, keyedOnce_stringifyKeys v⟩
  · intro h
    exact stringifyKeys_of_normal (throughout_and.2 h)

end Value

namespace Plan

/-- A plan that was read, with the note of the fields that will always be null. -/
def noted (p : Plan) : Run Plan :=
  match p.malformedNames with
  | [] => pure p
  | names => do
    Run.log .debug "extraction.schema_utils"
      ("Top-level fields with malformed definitions will extract as null: " ++
        Value.displayNames names)
    return p

theorem read_eq_noted {source : PlanSource} {v : Value} (h : source.read = .ok v) :
    read source = Run.ofExcept (ofValue v) >>= noted := by
  rw [read, h]
  exact pure_bind v _

/-- A mapping is read as its normal form is, with the same notes. -/
theorem read_stringifyKeys_dict (es : Entries) :
    read (.value (Value.dict es).stringifyKeys) = read (.value (.dict es)) := by
  have hplan : ofValue (Value.dict es).stringifyKeys = ofValue (.dict es) := by
    rw [ofValue, Value.stringifyKeys_stringifyKeys]
    rfl
  rw [read_eq_noted (v := (Value.dict es).stringifyKeys) rfl, hplan, read_eq_noted rfl]

end Plan

example : (Value.dict [(.int 1, .str "a"), (.null, .tuple [.int 2]),
    (.str "1", .dict [(.bool true, .null), (.str "True", .int 3)])]).stringifyKeys =
    .dict [(.str "1", .dict [(.str "True", .int 3)]), (.str "None", .list [.int 2])] := by
  cbv

end PagePlan
