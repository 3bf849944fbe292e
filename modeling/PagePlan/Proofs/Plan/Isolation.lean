/-
# Fields do not influence each other

Each field of a plan is read by itself: what stands in one place of the data comes from the
definition in that place of the plan and from the containers and contexts around it, and from
nothing else.  This is said with masks.  Masking a path of names in a plan makes the definition
there one that is always null, and masking it in data makes the values there null, in every item of
every array on the way.  Masking and extraction commute, so that two plans that differ under a mask
alone give data that differ under that mask alone.

* `extractField_mask` — a field with a mask gives the data with the mask;
* `extract_eq_off_path` — plans that differ at one path give data that differ at that path only.
-/
import PagePlan.Proofs.Plan.Conformance

namespace PagePlan

/-! ### Masks -/

/-- Changes what stands under a name in a list of fields. -/
def Field.change (name : String) (f : Field → Field) (fields : List (String × Field)) :
    List (String × Field) :=
  fields.map fun field => (field.1, if field.1 = name then f field.2 else field.2)

/-- The definition of a field with the one at a path made one that is always null.  The path goes
through the fields of records and those of the items of arrays. -/
def Field.mask : List String → Field → Field
  | [], _ => .malformed .null
  | name :: rest, .object context fields => .object context (change name (mask rest) fields)
  | name :: rest, .objectArray container fields =>
    .objectArray container (change name (mask rest) fields)
  | _ :: _, f => f

/-- A field without fields of its own. -/
def Field.isLeaf : Field → Bool
  | .object .. | .objectArray .. => false
  | _ => true

/-- There is nothing below a leaf to be masked. -/
theorem Field.mask_of_leaf {f : Field} (h : f.isLeaf = true) (name : String) (rest : List String) :
    f.mask (name :: rest) = f := by
  cases f with
  | object => cases h
  | objectArray => cases h
  | _ => rfl

/-- A plan with the definition at a path, which begins with a name, made one that is always null. -/
def Plan.mask (name : String) (rest : List String) (p : Plan) : Plan :=
  ⟨Field.change name (Field.mask rest) p.fields⟩

/-- Changes the value of a key in a mapping. -/
def Entries.change (name : String) (f : Value → Value) (es : Entries) : Entries :=
  es.map fun e => (e.1, if e.1.sameKey (.str name) then f e.2 else e.2)

/-- Changes the value of a key in a value that is a mapping. -/
def Value.changeEntry (name : String) (f : Value → Value) : Value → Value
  | .dict es => .dict (Entries.change name f es)
  | v => v

/-- Data with null in the place of each value at a path.  The path goes through mappings by their
keys, and through every item of a list. -/
def Value.mask : List String → Value → Value
  | [], _ => .null
  | name :: rest, .list xs => .list (xs.map (changeEntry name (mask rest)))
  | name :: rest, v => v.changeEntry name (mask rest)

/-- A value that is null or a scalar. -/
def Value.isScalar : Value → Bool
  | .list _ | .tuple _ | .dict _ => false
  | _ => true

theorem Value.changeEntry_of_isScalar {v : Value} (h : v.isScalar = true) (name : String)
    (f : Value → Value) : v.changeEntry name f = v := by
  cases v with
  | dict es => cases h
  | _ => rfl

/-- There is nothing below a scalar to be masked. -/
theorem Value.mask_of_isScalar {v : Value} (h : v.isScalar = true) (name : String)
    (rest : List String) : v.mask (name :: rest) = v := by
  cases v with
  | list xs => cases h
  | dict es => cases h
  | _ => rfl

/-! ### Runs in several parts -/

/-- The parts of a run succeed together just if each of them does. -/
theorem Run.outcome_mapM_eq_ok {α β : Type} {f : α → Run β} {xs : List α} {ys : List β} :
    (xs.mapM f).outcome = .ok ys ↔ List.Forall₂ (fun x y => (f x).outcome = .ok y) xs ys := by
  induction xs generalizing ys with
  | nil => simp [List.mapM_nil, eq_comm]
  | cons x xs ih =>
    rw [List.mapM_cons, Run.outcome_bind_eq_ok]
    constructor
    · rintro ⟨y, hy, h⟩
      obtain ⟨others, hothers, h⟩ := Run.outcome_bind_eq_ok.1 h
      obtain rfl := Except.ok.inj h
      exact .cons hy (ih.1 hothers)
    · rintro (_ | ⟨hy, hothers⟩)
      exact ⟨_, hy, Run.outcome_bind_eq_ok.2 ⟨_, ih.2 hothers, rfl⟩⟩

/-- What holds of the outcome of each part holds of all the outcomes. -/
theorem Run.forall_of_outcome_mapM {α β : Type} {f : α → Run β} {P : β → Prop} {xs : List α}
    {ys : List β} (h : (xs.mapM f).outcome = .ok ys)
    (hP : ∀ x y, (f x).outcome = .ok y → P y) : ∀ y ∈ ys, P y := by
  have hall := Run.outcome_mapM_eq_ok.1 h
  clear h
  induction hall with
  | nil => simp
  | cons hy _ ih =>
    intro y hmem
    rcases List.mem_cons.1 hmem with rfl | hmem
    · exact hP _ _ hy
    · exact ih y hmem

namespace Evaluator

variable {γ : Type} {ev : Evaluator γ} {c : γ}

/-- What is read from a text is a scalar. -/
theorem isScalar_of_coerce {raw : String} {t : ValueType} {v : Value} (h : coerce raw t = .ok v) :
    v.isScalar = true := by
  cases t with
  | integer =>
    rw [coerce] at h
    cases hn : toInteger raw with
    | error e => simp [hn, Except.map] at h
    | ok n =>
      rw [hn] at h
      obtain rfl := Except.ok.inj h
      rfl
  | _ =>
    obtain rfl := Except.ok.inj h
    rfl

theorem isScalar_of_extractPrimitive {p : Primitive} {v : Value}
    (h : (ev.extractPrimitive c p).outcome = .ok v) : v.isScalar = true := by
  obtain ⟨a, -, h⟩ := Run.outcome_bind_eq_ok.1 h
  split at h
  · obtain rfl := Except.ok.inj h
    rfl
  · rw [Run.ofExcept_outcome] at h
    exact isScalar_of_coerce h

/-! ### Extraction with a mask -/

/-- Fields with one of them changed give their entries with that one changed, if the field itself
does. -/
theorem extractFields_change {name : String} {change : Field → Field} {f : Value → Value}
    (h : ∀ field v, (ev.extractField c field).outcome = .ok v →
      (ev.extractField c (change field)).outcome = .ok (f v))
    {fields : List (String × Field)} {es : Entries}
    (hes : (ev.extractFields c fields).outcome = .ok es) :
    (ev.extractFields c (Field.change name change fields)).outcome =
      .ok (Entries.change name f es) := by
  induction fields generalizing es with
  | nil =>
    obtain rfl := Except.ok.inj hes
    rfl
  | cons field fields ih =>
    obtain ⟨n, field⟩ := field
    rw [extractFields] at hes
    obtain ⟨v, hv, hes⟩ := Run.outcome_bind_eq_ok.1 hes
    obtain ⟨others, hothers, hes⟩ := Run.outcome_bind_eq_ok.1 hes
    obtain rfl := Except.ok.inj hes
    rw [Field.change, List.map_cons, ← Field.change, extractFields]
    refine Run.outcome_bind_eq_ok.2 ⟨if n = name then f v else v, ?_, ?_⟩
    · split
      · exact h field v hv
      · exact hv
    · refine Run.outcome_bind_eq_ok.2 ⟨_, ih hothers, ?_⟩
      simp [Entries.change, Value.sameKey]

/-- **A field with a mask gives the data with the mask.** -/
theorem extractField_mask (path : List String) {c : γ} {f : Field} {v : Value}
    (h : (ev.extractField c f).outcome = .ok v) :
    (ev.extractField c (f.mask path)).outcome = .ok (v.mask path) := by
  induction path generalizing c f v with
  | nil => rfl
  | cons name rest ih =>
    -- what a record gives in any context, by the rest of the path
    have hrecord {d : γ} {fields : List (String × Field)} {es : Entries}
        (hes : (ev.extractFields d fields).outcome = .ok es) :
        (ev.extractFields d (Field.change name (Field.mask rest) fields)).outcome =
          .ok (Entries.change name (Value.mask rest) es) :=
      extractFields_change (fun field w hw => ih hw) hes
    cases f with
    | primitive p =>
      rw [extractField] at h
      rw [Value.mask_of_isScalar (isScalar_of_extractPrimitive h), Field.mask_of_leaf rfl,
        extractField, h]
    | object context fields =>
      cases context with
      | none =>
        rw [extractField] at h
        obtain ⟨es, hes, h⟩ := Run.outcome_bind_eq_ok.1 h
        obtain rfl := Except.ok.inj h
        rw [Field.mask, extractField]
        exact Run.outcome_bind_eq_ok.2 ⟨_, hrecord hes, rfl⟩
      | some x =>
        rw [extractField] at h
        obtain ⟨m, hm, h⟩ := Run.outcome_bind_eq_ok.1 h
        rw [Field.mask, extractField]
        refine Run.outcome_bind_eq_ok.2 ⟨m, hm, ?_⟩
        cases m with
        | none =>
          obtain ⟨-, -, h⟩ := Run.outcome_bind_eq_ok.1 h
          obtain rfl := Except.ok.inj h
          rfl
        | some inner =>
          obtain ⟨es, hes, h⟩ := Run.outcome_bind_eq_ok.1 h
          obtain rfl := Except.ok.inj h
          exact Run.outcome_bind_eq_ok.2 ⟨_, hrecord hes, rfl⟩
    | primitiveArray x item =>
      rw [extractField] at h
      obtain ⟨found, hfound, h⟩ := Run.outcome_bind_eq_ok.1 h
      obtain ⟨vs, hvs, h⟩ := Run.outcome_bind_eq_ok.1 h
      obtain rfl := Except.ok.inj h
      have hscalars : ∀ w ∈ vs, w.isScalar = true :=
        Run.forall_of_outcome_mapM hvs fun m w hw => isScalar_of_extractPrimitive hw
      have hitems : vs.map (Value.changeEntry name (Value.mask rest)) = vs := by
        conv_rhs => rw [← List.map_id vs]
        exact List.map_congr_left fun w hw => Value.changeEntry_of_isScalar (hscalars w hw) _ _
      rw [Field.mask_of_leaf rfl, extractField, Value.mask, hitems]
      exact Run.outcome_bind_eq_ok.2 ⟨found, hfound, Run.outcome_bind_eq_ok.2 ⟨vs, hvs, rfl⟩⟩
    | objectArray x fields =>
      rw [extractField] at h
      obtain ⟨found, hfound, h⟩ := Run.outcome_bind_eq_ok.1 h
      obtain ⟨vs, hvs, h⟩ := Run.outcome_bind_eq_ok.1 h
      obtain rfl := Except.ok.inj h
      rw [Field.mask, extractField, Value.mask]
      refine Run.outcome_bind_eq_ok.2 ⟨found, hfound, Run.outcome_bind_eq_ok.2 ⟨_, ?_, rfl⟩⟩
      rw [Run.outcome_mapM_eq_ok, List.forall₂_map_right_iff]
      refine (Run.outcome_mapM_eq_ok.1 hvs).imp fun m w hw => ?_
      obtain ⟨es, hes, hw⟩ := Run.outcome_bind_eq_ok.1 hw
      obtain rfl := Except.ok.inj hw
      exact Run.outcome_bind_eq_ok.2 ⟨_, hrecord hes, rfl⟩
    | emptyArray =>
      obtain rfl := Except.ok.inj h
      rfl
    | malformed raw =>
      obtain rfl := Except.ok.inj h
      rfl

/-! ### Plans that differ in one place -/

/-- **A field does not influence the data of others.**  If two plans are the same but for the
definition at a path, and both give data in a context, then the data are the same but for the values
at that path: they have the same keys and lists of the same lengths on the way, and the same values
everywhere else. -/
theorem extract_eq_off_path {name : String} {rest : List String} {p q : Plan}
    (hsame : p.mask name rest = q.mask name rest) {v w : Value}
    (hv : (ev.extract c p).outcome = .ok v) (hw : (ev.extract c q).outcome = .ok w) :
    v.mask (name :: rest) = w.mask (name :: rest) := by
  have hplan {p : Plan} {v : Value} (h : (ev.extract c p).outcome = .ok v) :
      (ev.extract c (p.mask name rest)).outcome = .ok (v.mask (name :: rest)) := by
    obtain ⟨es, hes, h⟩ := Run.outcome_bind_eq_ok.1 h
    obtain rfl := Except.ok.inj h
    exact Run.outcome_bind_eq_ok.2
      ⟨_, extractFields_change (fun _ _ => extractField_mask rest) hes, rfl⟩
  have hmasked := hplan hv
  rw [hsame, hplan hw] at hmasked
  exact (Except.ok.inj hmasked).symm

/-- The plan for outlines with a definition of the counts of parts that cannot be understood. -/
def uncountedPlan : Plan where
  fields := [("count", .primitive ⟨".", .integer, none⟩),
    ("note", .primitive ⟨"note", .string, none⟩),
    ("first", .object (some "below") [("counts", .primitiveArray "." ⟨".", .integer, none⟩)]),
    ("parts", .objectArray "below" [("title", .primitive ⟨".", .string, none⟩),
      ("count", .malformed (.str "?"))])]

/-- The data that the plan for outlines finds in part 2, given what counts there. -/
def outlineData (count : Value) : Value :=
  .record [("count", .int 7), ("note", .null), ("first", .record [("counts", .list [.int 7])]),
    ("parts", .list [.record [("title", .str "7 items"), ("count", count)],
      .record [("title", .str "7 items"), ("count", count)]])]

/-- The counts of all parts are null with the other plan, and nothing else changes. -/
theorem extract_eq_off_count :
    outlinePlan.mask "parts" ["count"] = uncountedPlan.mask "parts" ["count"] ∧
    (outline.extract 2 outlinePlan).outcome = .ok (outlineData (.int 7)) ∧
    (outline.extract 2 uncountedPlan).outcome = .ok (outlineData .null) ∧
    (outlineData (.int 7)).mask ["parts", "count"] = (outlineData .null).mask ["parts", "count"] :=
  have hsame : outlinePlan.mask "parts" ["count"] = uncountedPlan.mask "parts" ["count"] := rfl
  have hcounted : (outline.extract 2 outlinePlan).outcome = .ok (outlineData (.int 7)) := rfl
  have huncounted : (outline.extract 2 uncountedPlan).outcome = .ok (outlineData .null) := rfl
  ⟨hsame, hcounted, huncounted, extract_eq_off_path hsame hcounted huncounted⟩

end Evaluator

end PagePlan
