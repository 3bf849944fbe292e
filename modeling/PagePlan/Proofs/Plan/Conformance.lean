/-
# The data that a plan finds have its shape

An evaluator that answers every query is all that extraction needs: it always gives data, and the
data have the shape of the plan at every depth.  The shape is said here without extraction, by
recursion on the fields of the plan: a mapping has the names of its fields in their order, a scalar
is null exactly where its query matched nothing and of its declared type otherwise, and an array
has one item for each match of its container, in the order of the matches.

The one thing that can go wrong is a whole number with more digits than are converted, so the
main statement, `extract_conforms`, asks that the texts of whole numbers be short.  These are the
texts at the places that `Reads` describes: those at which extraction reads a scalar, and no
others.
-/
import PagePlan.Plan.Extraction
import PagePlan.Proofs.Text.Blank
import Mathlib.Data.List.Forall2

namespace PagePlan

/-- A part for each item of a list: if every part succeeds, so do all of them together. -/
theorem Run.outcome_mapM {α β : Type} {f : α → Run β} {P : α → β → Prop} {xs : List α}
    (h : ∀ x ∈ xs, ∃ y, (f x).outcome = .ok y ∧ P x y) :
    ∃ ys, (xs.mapM f).outcome = .ok ys ∧ List.Forall₂ P xs ys := by
  induction xs with
  | nil => exact ⟨[], rfl, .nil⟩
  | cons x xs ih =>
    obtain ⟨y, hy, hxy⟩ := h x List.mem_cons_self
    obtain ⟨ys, hys, hall⟩ := ih fun z hz => h z (List.mem_cons_of_mem _ hz)
    refine ⟨y :: ys, ?_, .cons hxy hall⟩
    rw [List.mapM_cons, Run.outcome_bind_of_ok _ hy, Run.outcome_bind_of_ok _ hys,
      Run.pure_outcome]

/-! ### Scalars -/

/-- A value is of a declared type. -/
inductive OfType : ValueType → Value → Prop
  | string {s : String} : Text.IsSqueezed s.toList → OfType .string (.str s)
  | integer (n : Int) : OfType .integer (.int n)
  | number (x : Binary64) : OfType .number (.float x)
  | boolean (b : Bool) : OfType .boolean (.bool b)
  | other {name s : String} : Text.IsTrimmed Text.isBlank s.toList → OfType (.other name) (.str s)

/-- A value of a declared type is not null. -/
theorem OfType.ne_null {t : ValueType} {v : Value} (h : OfType t v) : v ≠ .null := by
  cases h <;> simp

/-- How many digits a text has. -/
def digitCount (s : String) : Nat := s.toList.countP Char.isDigit

/-- The whole number at the front of a text has no more digits than the text. -/
theorem length_leadingInteger_le (s : List Char) :
    (leadingInteger s).2.length ≤ s.countP Char.isDigit := by
  have htake (t : List Char) : (t.takeWhile Char.isDigit).length ≤ t.countP Char.isDigit := by
    have hall : ∀ c ∈ t.takeWhile Char.isDigit, c.isDigit = true :=
      List.all_eq_true.1 List.all_takeWhile
    calc (t.takeWhile Char.isDigit).length
        = (t.takeWhile Char.isDigit).countP Char.isDigit := (List.countP_eq_length.2 hall).symm
      _ ≤ t.countP Char.isDigit := (List.takeWhile_sublist _).countP_le
  unfold leadingInteger
  split
  · next rest => exact (htake rest).trans (List.sublist_cons_self _ _).countP_le
  · exact htake s

/-- A text with few enough digits is read as a whole number. -/
theorem toInteger_of_digitCount_le {raw : String} (h : digitCount raw ≤ Json.digitLimit) :
    ∃ n, toInteger raw = .ok n := by
  have hlen : (leadingInteger (raw.toList.filter isIntegerChar)).2.length ≤ Json.digitLimit := by
    refine (length_leadingInteger_le _).trans (le_trans ?_ h)
    exact List.filter_sublist.countP_le
  have hnot : ¬Json.digitLimit < (leadingInteger (raw.toList.filter isIntegerChar)).2.length := by
    omega
  unfold toInteger
  exact ⟨_, if_neg hnot⟩

/-- A trimmed text, short enough where a whole number is asked for, gives a value of the declared
type. -/
theorem coerce_ofType {raw : String} {t : ValueType}
    (htrim : Text.IsTrimmed Text.isBlank raw.toList)
    (hshort : t = .integer → digitCount raw ≤ Json.digitLimit) :
    ∃ v, coerce raw t = .ok v ∧ OfType t v := by
  cases t with
  | string =>
    refine ⟨_, rfl, .string ?_⟩
    simpa [Text.strip, Text.squeeze] using Text.isSqueezed_trim_collapse raw.toList
  | integer =>
    obtain ⟨n, hn⟩ := toInteger_of_digitCount_le (hshort rfl)
    exact ⟨.int n, by simp [coerce, hn, Except.map], .integer n⟩
  | number => exact ⟨_, rfl, .number _⟩
  | boolean => exact ⟨_, rfl, .boolean _⟩
  | other name => exact ⟨_, rfl, .other htrim⟩

namespace Answer

variable {γ : Type} {textOf : γ → String}

/-- There is no text exactly where nothing matched. -/
theorem resolve?_eq_none_iff {a : Answer γ} : a.resolve? textOf = none ↔ a = .nodes [] := by
  cases a with
  | nodes found => cases found <;> simp [resolve?, untrimmed?]
  | text s => simp [resolve?, untrimmed?]
  | number x => simp [resolve?, untrimmed?]
  | truth b => simp [resolve?, untrimmed?]

/-- The text of an answer is trimmed. -/
theorem resolve?_isTrimmed {a : Answer γ} {raw : String} (h : a.resolve? textOf = some raw) :
    Text.IsTrimmed Text.isBlank raw.toList := by
  simp only [resolve?, Option.map_eq_some_iff] at h
  obtain ⟨s, -, rfl⟩ := h
  simpa [Text.strip] using Text.trim_isTrimmed Text.isBlank s.toList

end Answer

namespace Evaluator

variable {γ : Type} (ev : Evaluator γ)

/-! ### What an evaluator says -/

/-- Every query has an answer. -/
def Answering : Prop := ∀ c q, ∃ a, (ev.answer c q).outcome = .ok a

/-- The answer to a query; a query without one matches nothing. -/
def answered (c : γ) (q : String) : Answer γ :=
  ((ev.answer c q).outcome.toOption).getD (.nodes [])

/-- The context that a query narrows to. -/
def narrowed (c : γ) (q : String) : Option γ :=
  ((ev.answered c q).found.head?).filter ev.isElement

/-- The text that a scalar is read from. -/
def textAt (c : γ) (p : Primitive) : Option String :=
  (ev.answered c p.xpath).resolve? ev.textOf

variable {ev}

theorem ask_outcome (c : γ) (q : String) : (ev.ask c q).outcome = (ev.answer c q).outcome :=
  Run.outcome_bind_of_ok _ rfl

theorem Answering.ask_outcome (h : ev.Answering) (c : γ) (q : String) :
    (ev.ask c q).outcome = .ok (ev.answered c q) := by
  obtain ⟨a, ha⟩ := h c q
  rw [Evaluator.ask_outcome, answered, ha]
  rfl

theorem Answering.narrow_outcome (h : ev.Answering) (c : γ) (q : String) :
    (ev.narrow c q).outcome = .ok (ev.narrowed c q) := by
  rw [narrow, Run.outcome_bind_of_ok _ (h.ask_outcome c q), Run.pure_outcome, narrowed]

theorem Answering.containers_outcome (h : ev.Answering) (c : γ) (q : String) :
    (ev.containers c q).outcome = .ok (ev.answered c q).found := by
  rw [containers, Run.outcome_bind_of_ok _ (h.ask_outcome c q),
    Run.outcome_bind_of_ok _ (Run.log_outcome _ _ _), Run.pure_outcome]

/-- A scalar is read from the text of the answer to its query. -/
theorem extractPrimitive_outcome {c : γ} {p : Primitive} {a : Answer γ}
    (h : (ev.answer c p.xpath).outcome = .ok a) :
    (ev.extractPrimitive c p).outcome = match a.resolve? ev.textOf with
      | none => .ok .null
      | some raw => coerce raw p.type := by
  rw [extractPrimitive, Run.outcome_bind_of_ok _ ((ev.ask_outcome c p.xpath).trans h)]
  cases a.resolve? ev.textOf with
  | none => rfl
  | some raw => exact Run.ofExcept_outcome _

/-! ### The shape of data -/

variable (ev)

/-- A value stands where a scalar is read: null exactly if nothing matched, and otherwise of the
declared type. -/
def ScalarAt (c : γ) (p : Primitive) (v : Value) : Prop :=
  (v = .null ↔ ev.answered c p.xpath = .nodes []) ∧ (v ≠ .null → OfType p.type v)

mutual

/-- A value has the shape of a field that is read in a context. -/
def Conforms (c : γ) : Field → Value → Prop
  | .primitive p, v => ev.ScalarAt c p v
  | .object none fields, v => ∃ es, v = .dict es ∧ FieldsConform c fields es
  | .object (some x) fields, v =>
    match ev.narrowed c x with
    | none => v = .null
    | some m => ∃ es, v = .dict es ∧ FieldsConform m fields es
  | .primitiveArray x item, v =>
    ∃ vs, v = .list vs ∧ List.Forall₂ (fun m w => ev.ScalarAt m item w) (ev.answered c x).found vs
  | .objectArray x fields, v =>
    ∃ vs, v = .list vs ∧ List.Forall₂ (fun m w => ∃ es, w = .dict es ∧ FieldsConform m fields es)
      (ev.answered c x).found vs
  | .emptyArray, v => v = .list []
  | .malformed _, v => v = .null

/-- The entries of a mapping have the names of the fields, in their order, and the shapes. -/
def FieldsConform (c : γ) : List (String × Field) → Entries → Prop
  | [], es => es = []
  | (name, f) :: rest, es =>
    ∃ v others, es = (.str name, v) :: others ∧ Conforms c f v ∧ FieldsConform c rest others

end

/-- Reading a field in a context reads a scalar in some context: the same one, a narrowed one, or
a match of a container. -/
inductive Reads : γ → Field → γ → Primitive → Prop
  | scalar {c : γ} {p : Primitive} : Reads c (.primitive p) c p
  | inObject {c d : γ} {name : String} {f : Field} {fields : List (String × Field)}
      {p : Primitive} : (name, f) ∈ fields → Reads c f d p → Reads c (.object none fields) d p
  | inContext {c m d : γ} {x name : String} {f : Field} {fields : List (String × Field)}
      {p : Primitive} : ev.narrowed c x = some m → (name, f) ∈ fields → Reads m f d p →
      Reads c (.object (some x) fields) d p
  | item {c m : γ} {x : String} {p : Primitive} :
      m ∈ (ev.answered c x).found → Reads c (.primitiveArray x p) m p
  | inItem {c m d : γ} {x name : String} {f : Field} {fields : List (String × Field)}
      {p : Primitive} : m ∈ (ev.answered c x).found → (name, f) ∈ fields → Reads m f d p →
      Reads c (.objectArray x fields) d p

/-- The texts from which a field's whole numbers are read have no more digits than are
converted. -/
def Short (c : γ) (f : Field) : Prop :=
  ∀ d p raw, ev.Reads c f d p → p.type = .integer → ev.textAt d p = some raw →
    digitCount raw ≤ Json.digitLimit

variable {ev}

/-! ### Extraction gives data of that shape -/

theorem extractPrimitive_scalarAt (h : ev.Answering) {c : γ} {p : Primitive}
    (hshort : p.type = .integer → ∀ raw, ev.textAt c p = some raw →
      digitCount raw ≤ Json.digitLimit) :
    ∃ v, (ev.extractPrimitive c p).outcome = .ok v ∧ ev.ScalarAt c p v := by
  rw [extractPrimitive, Run.outcome_bind_of_ok _ (h.ask_outcome c p.xpath)]
  cases hraw : (ev.answered c p.xpath).resolve? ev.textOf with
  | none =>
    exact ⟨.null, rfl, iff_of_true rfl (Answer.resolve?_eq_none_iff.1 hraw),
      fun hne => absurd rfl hne⟩
  | some raw =>
    obtain ⟨v, hv, htype⟩ := coerce_ofType (t := p.type) (Answer.resolve?_isTrimmed hraw)
      fun ht => hshort ht raw hraw
    refine ⟨v, by simp only [Run.ofExcept_outcome, hv], iff_of_false htype.ne_null ?_,
      fun _ => htype⟩
    intro hnodes
    rw [Answer.resolve?_eq_none_iff.2 hnodes] at hraw
    exact absurd hraw (by simp)

mutual

/-- A field gives a value of its shape. -/
theorem extractField_conforms (h : ev.Answering) (c : γ) :
    ∀ f : Field, ev.Short c f → ∃ v, (ev.extractField c f).outcome = .ok v ∧ ev.Conforms c f v
  | .primitive p, hshort => by
    simp only [extractField, Conforms]
    exact extractPrimitive_scalarAt h fun ht raw hraw => hshort c p raw .scalar ht hraw
  | .object none fields, hshort => by
    obtain ⟨es, hes, hconf⟩ := extractFields_conforms h c fields
      fun name f hf d p raw hr => hshort d p raw (.inObject hf hr)
    simp only [extractField, Conforms]
    exact ⟨.dict es, by rw [Run.outcome_bind_of_ok _ hes, Run.pure_outcome], es, rfl, hconf⟩
  | .object (some x) fields, hshort => by
    simp only [extractField, Conforms]
    rw [Run.outcome_bind_of_ok _ (h.narrow_outcome c x)]
    cases hm : ev.narrowed c x with
    | none => exact ⟨.null, rfl, rfl⟩
    | some m =>
      obtain ⟨es, hes, hconf⟩ := extractFields_conforms h m fields
        fun name f hf d p raw hr => hshort d p raw (.inContext hm hf hr)
      exact ⟨.dict es, by rw [Run.outcome_bind_of_ok _ hes, Run.pure_outcome], es, rfl, hconf⟩
  | .primitiveArray x item, hshort => by
    simp only [extractField, Conforms]
    obtain ⟨vs, hvs, hall⟩ := Run.outcome_mapM
      fun m (hm : m ∈ (ev.answered c x).found) => extractPrimitive_scalarAt (p := item) h
        fun ht raw hraw => hshort m item raw (.item hm) ht hraw
    refine ⟨.list vs, ?_, vs, rfl, hall⟩
    rw [Run.outcome_bind_of_ok _ (h.containers_outcome c x), Run.outcome_bind_of_ok _ hvs,
      Run.pure_outcome]
  | .objectArray x fields, hshort => by
    simp only [extractField, Conforms]
    obtain ⟨vs, hvs, hall⟩ := Run.outcome_mapM
      (f := fun m => do return Value.dict (← ev.extractFields m fields))
      (P := fun m w => ∃ es, w = .dict es ∧ ev.FieldsConform m fields es)
      fun m (hm : m ∈ (ev.answered c x).found) => by
        obtain ⟨es, hes, hconf⟩ := extractFields_conforms h m fields
          fun name f hf d p raw hr => hshort d p raw (.inItem hm hf hr)
        exact ⟨.dict es, by rw [Run.outcome_bind_of_ok _ hes, Run.pure_outcome], es, rfl, hconf⟩
    refine ⟨.list vs, ?_, vs, rfl, hall⟩
    rw [Run.outcome_bind_of_ok _ (h.containers_outcome c x), Run.outcome_bind_of_ok _ hvs,
      Run.pure_outcome]
  | .emptyArray, _ => ⟨.list [], rfl, rfl⟩
  | .malformed _, _ => ⟨.null, rfl, rfl⟩

/-- Fields give entries of their shapes. -/
theorem extractFields_conforms (h : ev.Answering) (c : γ) :
    ∀ fields : List (String × Field), (∀ name f, (name, f) ∈ fields → ev.Short c f) →
      ∃ es, (ev.extractFields c fields).outcome = .ok es ∧ ev.FieldsConform c fields es
  | [], _ => ⟨[], rfl, rfl⟩
  | (name, f) :: rest, hshort => by
    obtain ⟨v, hv, hconf⟩ := extractField_conforms h c f (hshort name f List.mem_cons_self)
    obtain ⟨others, hothers, hrest⟩ := extractFields_conforms h c rest
      fun n g hg => hshort n g (List.mem_cons_of_mem _ hg)
    refine ⟨(.str name, v) :: others, ?_, v, others, rfl, hconf, hrest⟩
    rw [extractFields, Run.outcome_bind_of_ok _ hv, Run.outcome_bind_of_ok _ hothers,
      Run.pure_outcome]

end

/-- **Extraction gives data of the plan's shape.**  If every query has an answer and no text of a
whole number is too long, a plan gives a mapping in any context, with the plan's fields in their
order and values of their shapes at every depth. -/
theorem extract_conforms (h : ev.Answering) (c : γ) (plan : Plan)
    (hshort : ∀ name f, (name, f) ∈ plan.fields → ev.Short c f) :
    ∃ es, (ev.extract c plan).outcome = .ok (.dict es) ∧ ev.FieldsConform c plan.fields es := by
  obtain ⟨es, hes, hconf⟩ := extractFields_conforms h c plan.fields hshort
  exact ⟨es, by rw [extract, Run.outcome_bind_of_ok _ hes, Run.pure_outcome], hconf⟩

/-- An outline: below part `n` stand the parts `0` to `n - 1`, each with one text. -/
def outline : Evaluator Nat where
  answer n q := return .nodes (if q = "below" then List.range n else if q = "." then [n] else [])
  isElement _ := true
  textOf _ := "7 items"

/-- A plan for outlines, with a null, a nested record and arrays of both kinds. -/
def outlinePlan : Plan where
  fields := [("count", .primitive ⟨".", .integer, none⟩),
    ("note", .primitive ⟨"note", .string, none⟩),
    ("first", .object (some "below") [("counts", .primitiveArray "." ⟨".", .integer, none⟩)]),
    ("parts", .objectArray "below" [("title", .primitive ⟨".", .string, none⟩),
      ("count", .primitive ⟨".", .integer, none⟩)])]

/-- The plan for outlines finds data of its shape in an outline. -/
theorem extract_outline_conforms : outline.Answering ∧
    (∀ name f, (name, f) ∈ outlinePlan.fields → outline.Short 2 f) ∧
    ∃ es, (outline.extract 2 outlinePlan).outcome = .ok (.dict es) ∧
      outline.FieldsConform 2 outlinePlan.fields es := by
  have hanswering : outline.Answering := fun n q => ⟨_, rfl⟩
  have hshort : ∀ name f, (name, f) ∈ outlinePlan.fields → outline.Short 2 f := by
    intro name f _ n p raw _ _ hraw
    have hone : raw = Text.strip "7 items" := by
      cases hfound : (outline.answered n p.xpath) with
      | nodes found =>
        cases found with
        | nil => simp [textAt, hfound, Answer.resolve?, Answer.untrimmed?] at hraw
        | cons m ms =>
          have htext : raw = Text.strip (outline.textOf m) := by
            simpa [textAt, hfound, Answer.resolve?, Answer.untrimmed?] using hraw.symm
          exact htext
      | _ => simp [answered, outline, Except.toOption] at hfound
    rw [hone]
    decide +kernel
  exact ⟨hanswering, hshort, extract_conforms hanswering 2 outlinePlan hshort⟩

end Evaluator

end PagePlan
