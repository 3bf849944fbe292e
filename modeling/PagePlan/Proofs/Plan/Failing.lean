/-
# How extraction fails

A run may fail only in certain ways if all of its parts do.  What is extracted from a page is put
together from answers and coercions, so extraction fails only as these do: for a text that no page
can hold, or for a whole number with too many digits.

* `extractFrom_fails` — how extraction from a page fails.
-/
import PagePlan.Extract
import PagePlan.Proofs.Plan.Coercion
import PagePlan.Proofs.Plan.Parts
import PagePlan.Proofs.XPath.Answering

namespace PagePlan

namespace Run

variable {α β : Type} {P : Failure → Prop}

/-- A run fails in certain ways at most. -/
def FailsOnly (P : Failure → Prop) (r : Run α) : Prop := ∀ e, r.outcome = .error e → P e

theorem failsOnly_of_outcome {r : Run α} {a : α} (h : r.outcome = .ok a) : FailsOnly P r := by
  intro e he
  rw [h] at he
  cases he

theorem failsOnly_pure (a : α) : FailsOnly P (pure a : Run α) := failsOnly_of_outcome rfl

theorem FailsOnly.bind {r : Run α} {f : α → Run β} (hr : FailsOnly P r)
    (hf : ∀ a, FailsOnly P (f a)) : FailsOnly P (r >>= f) := by
  intro e he
  cases h : r.outcome with
  | error e' =>
    rw [outcome_bind_of_error f h] at he
    exact Except.error.inj he ▸ hr e' h
  | ok a =>
    rw [outcome_bind_of_ok f h] at he
    exact hf a e he

theorem composes_failsOnly : Composes (fun r => r.FailsOnly P) := ⟨failsOnly_pure, FailsOnly.bind⟩

end Run

namespace Evaluator

open Run

variable {γ : Type} {ev : Evaluator γ} {P : Failure → Prop}

theorem ask_failsOnly (h : ∀ c q, (ev.answer c q).FailsOnly P) (c : γ) (q : String) :
    (ev.ask c q).FailsOnly P :=
  (failsOnly_of_outcome rfl).bind fun _ => h c q

/-- Extraction fails as answers do, or for too many digits. -/
theorem parts_failsOnly (h : ∀ c q, (ev.answer c q).FailsOnly P)
    (hdigits : ∀ n, P (.tooManyDigits n)) : ev.Parts (fun r => r.FailsOnly P) where
  composes := composes_failsOnly
  ask := ask_failsOnly h
  log _ _ _ := failsOnly_of_outcome rfl
  coerce raw t := by
    intro e he
    rw [Run.ofExcept_outcome, coerce_eq_error_iff, toInteger_eq_error_iff] at he
    obtain ⟨-, digits, -, -, rfl⟩ := he
    exact hdigits _

end Evaluator

/-- The ways in which extraction from a page fails. -/
inductive ExtractionFailure : Failure → Prop
  /-- A whole number has too many digits. -/
  | digits (count : Nat) : ExtractionFailure (.tooManyDigits count)
  /-- A query, or a value to which one is put, is a text that no page can hold. -/
  | text : ExtractionFailure .notPageText

/-- **Extraction from a page fails for a text or for too many digits.** -/
theorem extractFrom_fails {plan : Plan} {page : PageSource} {e : Failure}
    (h : (plan.extractFrom page).outcome = .error e) : ExtractionFailure e := by
  have hanswer (m : XPath.Match) (q : String) :
      (XPath.evaluator.answer m q).FailsOnly ExtractionFailure := by
    intro e' he'
    rw [XPath.Match.eq_notPageText_of_ask he']
    exact .text
  exact Evaluator.extract_of_parts (Evaluator.parts_failsOnly hanswer .digits) _ plan e h

end PagePlan
