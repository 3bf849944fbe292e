/-
# Extraction, part by part

Extraction puts questions, notes and coercions one after the other.  What all of these parts have
in common the whole has too, if two runs in a row have it whenever each has: to have events of one
kind only, say, or to fail in certain ways only.  The induction over fields is made here once for
all such properties.

* `Evaluator.extract_of_parts` — what an extraction has in common with its parts.
-/
import PagePlan.Plan.Extraction

namespace PagePlan

/-- A property that a bare result has, and two runs in a row if each has it. -/
structure Run.Composes (P : ∀ {α : Type}, Run α → Prop) : Prop where
  pure : ∀ {α : Type} (a : α), P (pure a : Run α)
  bind : ∀ {α β : Type} {r : Run α} {f : α → Run β}, P r → (∀ a, P (f a)) → P (r >>= f)

/-- A row of runs has a property that each of them has. -/
theorem Run.Composes.mapM {P : ∀ {α : Type}, Run α → Prop} (h : Composes P) {α β : Type}
    {f : α → Run β} (hf : ∀ a, P (f a)) (xs : List α) : P (xs.mapM f) := by
  induction xs with
  | nil => exact h.pure []
  | cons x xs ih =>
    rw [List.mapM_cons]
    exact h.bind (hf x) fun y => h.bind ih fun ys => h.pure (y :: ys)

namespace Evaluator

variable {γ : Type} {ev : Evaluator γ} {P : ∀ {α : Type}, Run α → Prop}

/-- All parts of an extraction have a property. -/
structure Parts (ev : Evaluator γ) (P : ∀ {α : Type}, Run α → Prop) : Prop where
  composes : Run.Composes P
  ask : ∀ c xpath, P (ev.ask c xpath)
  log : ∀ level source text, P (Run.log level source text)
  coerce : ∀ raw t, P (Run.ofExcept (PagePlan.coerce raw t))

theorem narrow_of_parts (h : ev.Parts P) (c : γ) (xpath : String) : P (ev.narrow c xpath) :=
  h.composes.bind (h.ask c xpath) fun _ => h.composes.pure _

theorem containers_of_parts (h : ev.Parts P) (c : γ) (xpath : String) :
    P (ev.containers c xpath) :=
  h.composes.bind (h.ask c xpath) fun _ =>
    h.composes.bind (h.log _ _ _) fun _ => h.composes.pure _

theorem extractPrimitive_of_parts (h : ev.Parts P) (c : γ) (p : Primitive) :
    P (ev.extractPrimitive c p) := by
  refine h.composes.bind (h.ask c p.xpath) fun a => ?_
  split
  · exact h.composes.pure _
  · exact h.coerce _ _

mutual

theorem extractField_of_parts (h : ev.Parts P) (c : γ) : ∀ f : Field, P (ev.extractField c f)
  | .primitive p => by
    rw [extractField]
    exact extractPrimitive_of_parts h c p
  | .object none fields => by
    rw [extractField]
    exact record_of_parts h c fields
  | .object (some xpath) fields => by
    rw [extractField]
    refine h.composes.bind (narrow_of_parts h c xpath) fun m => ?_
    split
    · exact record_of_parts h _ fields
    · exact h.composes.bind (h.log _ _ _) fun _ => h.composes.pure _
  | .primitiveArray container item => by
    rw [extractField]
    refine h.composes.bind (containers_of_parts h c container) fun found => ?_
    exact h.composes.bind (h.composes.mapM (fun m => extractPrimitive_of_parts h m item) found)
      fun _ => h.composes.pure _
  | .objectArray container fields => by
    rw [extractField]
    refine h.composes.bind (containers_of_parts h c container) fun found => ?_
    exact h.composes.bind (h.composes.mapM (fun m => record_of_parts h m fields) found)
      fun _ => h.composes.pure _
  | .emptyArray => by
    rw [extractField]
    exact h.composes.pure _
  | .malformed _ => by
    rw [extractField]
    exact h.composes.pure _

theorem record_of_parts (h : ev.Parts P) (c : γ) (fields : List (String × Field)) :
    P (do return Value.dict (← ev.extractFields c fields) : Run Value) :=
  h.composes.bind (extractFields_of_parts h c fields) fun _ => h.composes.pure _

theorem extractFields_of_parts (h : ev.Parts P) (c : γ) :
    ∀ fields : List (String × Field), P (ev.extractFields c fields)
  | [] => by
    rw [extractFields]
    exact h.composes.pure _
  | (name, f) :: rest => by
    rw [extractFields]
    refine h.composes.bind (extractField_of_parts h c f) fun _ => ?_
    exact h.composes.bind (extractFields_of_parts h c rest) fun _ => h.composes.pure _

end

/-- **An extraction has what all of its parts have.** -/
theorem extract_of_parts (h : ev.Parts P) (c : γ) (plan : Plan) : P (ev.extract c plan) :=
  record_of_parts h c plan.fields

end Evaluator

end PagePlan
