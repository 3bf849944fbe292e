/-
# Plans in files and plans at hand

The text of a plan can be given as it is, or stand in a file.  A text that is given is read as JSON
once, and what is wrong with it is reported as a problem of the plan.  A file is read as JSON first,
and its value is then taken for the plan.  A text that is no JSON is therefore a failure of another
kind in a file, and a value that is a text itself is read as JSON once more.  All else comes to the
same.

* `extract_eq_problem_iff` — when a text at hand is a problem of the plan;
* `scrape_of_text` — when a plan in a file comes to the same as its text at hand, and what it comes
  to otherwise.
-/
import PagePlan.Proofs.Plan.Failing
import PagePlan.Proofs.Plan.Reading
import PagePlan.Proofs.Scrape.Cache

namespace PagePlan

/-- Two outcomes are of one kind: the same data, the same failure, or both times a problem of the
plan, whatever its wording. -/
def SameKind (x y : Except Failure Value) : Prop :=
  x = y ∨ ∃ p q, x = .error (.plan p) ∧ y = .error (.plan q)

/-- What a plan is read from is the JSON of a mapping, or would be read further but for a whole
number with too many digits. -/
def HoldsMapping (v : Value) : Prop :=
  (∃ es, (PlanSource.value v).read = .ok (.dict es)) ∨
    ∃ count, (PlanSource.value v).read = .error (.tooManyDigits count)

/-! ### Plans at hand -/

section

variable {source : PageSource} {plan : PlanSource} {v : Value} {e : Failure}

theorem extract_outcome_of_error (h : plan.read = .error e) :
    (extract source plan).outcome = .error e := by
  refine Run.outcome_bind_of_error _ ?_
  rw [Plan.read_outcome, h]
  rfl

/-- What is no mapping is no plan. -/
theorem extract_outcome_of_other (h : plan.read = .ok v) (hv : v.dict? = none) :
    (extract source plan).outcome = .error (.plan (.notMapping v.kindName)) := by
  refine Run.outcome_bind_of_error _ ?_
  rw [Plan.read_outcome, h]
  exact Plan.ofValue_other hv

/-- A mapping is no problem of the plan, though a text in it or in the page may be one of another
kind. -/
theorem extract_ne_problem_of_dict {es : Entries} (h : plan.read = .ok (.dict es))
    (problem : PlanProblem) : (extract source plan).outcome ≠ .error (.plan problem) := by
  have hread : (Plan.read plan).outcome = Plan.ofValue (.dict es) := by
    rw [Plan.read_outcome, h]
    rfl
  rcases Plan.ofValue_dict es with ⟨p, hp⟩ | ⟨faults, hfaults, -⟩
  · rw [extract, Run.outcome_bind_of_ok _ (hread.trans hp)]
    intro hproblem
    cases extractFrom_fails hproblem
  · rw [extract, Run.outcome_bind_of_error _ (hread.trans hfaults)]
    nofun

/-- A plan at hand is reported as a problem just if what it is read from holds no mapping. -/
theorem extract_eq_problem_iff (source : PageSource) (v : Value) :
    (∃ problem, (extract source (.value v)).outcome = .error (.plan problem)) ↔
      ¬HoldsMapping v := by
  rcases (PlanSource.value v).read_cases with
    ⟨w, hread⟩ | ⟨e, hread⟩ | ⟨count, hread⟩ | ⟨bs, hbs, -⟩
  · cases hw : w.dict? with
    | none =>
      refine iff_of_true ⟨_, extract_outcome_of_other hread hw⟩ ?_
      rintro (⟨es, hes⟩ | ⟨count, hcount⟩)
      · cases hread.symm.trans hes
        cases hw
      · cases hread.symm.trans hcount
    | some es =>
      obtain rfl : w = .dict es := by
        cases w with
        | dict es' => rw [← Option.some.inj hw]
        | _ => cases hw
      refine iff_of_false ?_ (not_not.2 (Or.inl ⟨es, hread⟩))
      rintro ⟨problem, hproblem⟩
      exact extract_ne_problem_of_dict hread problem hproblem
  · refine iff_of_true ⟨_, extract_outcome_of_error hread⟩ ?_
    rintro (⟨es, hes⟩ | ⟨count, hcount⟩)
    · cases hread.symm.trans hes
    · cases hread.symm.trans hcount
  · refine iff_of_false ?_ (not_not.2 (Or.inr ⟨count, hread⟩))
    rintro ⟨problem, hproblem⟩
    cases (extract_outcome_of_error hread).symm.trans hproblem
  · cases hbs

end

/-! ### Plans in files -/

section

variable {fs : Files} {name : FileName} {content : String} {v : Value}

/-- A file that has a text is there. -/
theorem Files.has_of_text (h : fs.text name = .ok content) : fs.has name = true := by
  rw [Files.text] at h
  split at h
  · next bytes hbytes =>
    rw [Files.has, hbytes]
    rfl
  · cases h

theorem savedPlan_of_text (hfile : fs.text name = .ok content) :
    savedPlan fs name = match Json.read content with
      | .ok v => .ok v
      | .error (.syntaxError e) => .error (.json e)
      | .error (.tooManyDigits count) => .error (.tooManyDigits count) := by
  rw [savedPlan, hfile]
  rfl

/-- A page is scraped with the plan that the file holds. -/
theorem scrape_outcome_of_text (hfile : fs.text name = .ok content) (a : Assistant)
    (source : PageSource) (r : Requirements) :
    (a.scrape fs source r (some name)).outcome =
      savedPlan fs name >>= fun plan => (extract source (.value plan)).outcome := by
  have hload := (PlanCall.load_of_has (Files.has_of_text hfile) ⟨a, source, r, true⟩).1
  cases hplan : savedPlan fs name with
  | error e => exact Run.outcome_bind_of_error _ (hload.trans hplan)
  | ok plan => exact Run.outcome_bind_of_ok _ (hload.trans hplan)

theorem read_of_text (content : String) :
    (PlanSource.value (.str content)).read = match Json.read content with
      | .ok v => .ok v
      | .error (.syntaxError e) => .error (.plan (.notJson e))
      | .error (.tooManyDigits count) => .error (.tooManyDigits count) := rfl

variable (hfile : fs.text name = .ok content) (a : Assistant) (source : PageSource)
  (r : Requirements)

include hfile

/-- A text that is no JSON is a problem of the plan only where it is at hand. -/
theorem outcomes_of_syntaxError {e : Json.SyntaxError}
    (h : Json.read content = .error (.syntaxError e)) :
    (a.scrape fs source r (some name)).outcome = .error (.json e) ∧
      (extract source (.value (.str content))).outcome = .error (.plan (.notJson e)) := by
  constructor
  · rw [scrape_outcome_of_text hfile, savedPlan_of_text hfile, h]
    rfl
  · refine extract_outcome_of_error ?_
    rw [read_of_text, h]

/-- The JSON of a text is read once more from a file, and is no plan where it is at hand. -/
theorem outcomes_of_isText (h : Json.read content = .ok v) (hv : v.isText = true) :
    (a.scrape fs source r (some name)).outcome = (extract source (.value v)).outcome ∧
      (extract source (.value (.str content))).outcome =
        .error (.plan (.notMapping v.kindName)) := by
  constructor
  · rw [scrape_outcome_of_text hfile, savedPlan_of_text hfile, h]
    rfl
  · refine extract_outcome_of_other (by rw [read_of_text, h]) ?_
    cases v with
    | dict es => cases hv
    | _ => rfl

/-- All other texts come to the same in a file and at hand. -/
theorem outcomes_eq (hjson : ∀ e, Json.read content ≠ .error (.syntaxError e))
    (hother : ∀ v, Json.read content = .ok v → v.isText = false) :
    (a.scrape fs source r (some name)).outcome =
      (extract source (.value (.str content))).outcome := by
  rw [scrape_outcome_of_text hfile, savedPlan_of_text hfile]
  cases h : Json.read content with
  | error problem =>
    cases problem with
    | syntaxError e => exact absurd h (hjson e)
    | tooManyDigits count =>
      refine (extract_outcome_of_error ?_).symm
      rw [read_of_text, h]
  | ok v =>
    have hread : (PlanSource.value (.str content)).read = (PlanSource.value v).read := by
      rw [read_of_text, h]
      cases v with
      | str s => cases hother _ h
      | unpaired t => cases hother _ h
      | _ => rfl
    change (extract source (.value v)).outcome = _
    rw [extract, extract, Plan.read, Plan.read, hread]

end

/-- **A plan in a file and its text at hand.**  Scraping with a file comes to the same data as
extracting with the text in it, or to a failure of the same kind, unless that text is no JSON, or is
the JSON of a text that holds a mapping.  A text that is no JSON is the same problem, but it is not
reported as one of the plan.  The JSON of a text is no plan at hand; from a file that text is read as
JSON in turn, and may well be a plan.  Every other text comes to the same. -/
theorem scrape_of_text {fs : Files} {name : FileName} {content : String}
    (hfile : fs.text name = .ok content) (a : Assistant) (source : PageSource) (r : Requirements) :
    (SameKind (a.scrape fs source r (some name)).outcome
        (extract source (.value (.str content))).outcome ↔
      (∀ e, Json.read content ≠ .error (.syntaxError e)) ∧
        ∀ v, Json.read content = .ok v → v.isText = true → ¬HoldsMapping v) ∧
    (∀ e, Json.read content = .error (.syntaxError e) →
      (a.scrape fs source r (some name)).outcome = .error (.json e) ∧
        (extract source (.value (.str content))).outcome = .error (.plan (.notJson e))) ∧
    (∀ v, Json.read content = .ok v → v.isText = true →
      (a.scrape fs source r (some name)).outcome = (extract source (.value v)).outcome ∧
        (extract source (.value (.str content))).outcome =
          .error (.plan (.notMapping v.kindName))) ∧
    ((∀ e, Json.read content ≠ .error (.syntaxError e)) →
      (∀ v, Json.read content = .ok v → v.isText = false) →
        (a.scrape fs source r (some name)).outcome =
          (extract source (.value (.str content))).outcome) := by
  refine ⟨⟨fun hsame => ⟨?_, ?_⟩, ?_⟩, fun e => outcomes_of_syntaxError hfile a source r,
    fun v => outcomes_of_isText hfile a source r, outcomes_eq hfile a source r⟩
  · intro e he
    obtain ⟨hscraped, hextracted⟩ := outcomes_of_syntaxError hfile a source r he
    rcases hsame with hsame | ⟨p, q, hp, -⟩
    · cases hscraped.symm.trans (hsame.trans hextracted)
    · cases hscraped.symm.trans hp
  · intro v hv htext
    obtain ⟨hscraped, hextracted⟩ := outcomes_of_isText hfile a source r hv htext
    refine (extract_eq_problem_iff source v).1 ?_
    rcases hsame with hsame | ⟨p, q, hp, -⟩
    · exact ⟨_, hscraped.symm.trans (hsame.trans hextracted)⟩
    · exact ⟨p, hscraped.symm.trans hp⟩
  · rintro ⟨hjson, hnone⟩
    by_cases htext : ∃ v, Json.read content = .ok v ∧ v.isText = true
    · obtain ⟨v, hv, htext⟩ := htext
      obtain ⟨hscraped, hextracted⟩ := outcomes_of_isText hfile a source r hv htext
      obtain ⟨p, hp⟩ := (extract_eq_problem_iff source v).2 (hnone v hv htext)
      exact Or.inr ⟨p, _, hscraped.trans hp, hextracted⟩
    · refine Or.inl (outcomes_eq hfile a source r hjson fun v hv => ?_)
      simpa using fun h => htext ⟨v, hv, h⟩

/-- A file that was cut off after its first letter. -/
def cutOff : Files := Files.empty.put PlanCall.planFile (Text.toUtf8 ['\x7b'])

theorem scrape_of_text_cutOff :
    cutOff.text PlanCall.planFile = .ok "\x7b" ∧
      ∀ (a : Assistant) (source : PageSource) (r : Requirements),
        ∃ e, (a.scrape cutOff source r (some PlanCall.planFile)).outcome = .error (.json e) ∧
          (extract source (.value (.str "\x7b"))).outcome = .error (.plan (.notJson e)) := by
  have hfile : cutOff.text PlanCall.planFile = .ok "\x7b" :=
    Files.text_put_toUtf8 _ _ (by decide)
  have hread : Json.read "\x7b" = .error (.syntaxError ⟨.expectingName, 1, 1, 2⟩) := by rfl
  exact ⟨hfile, fun a source r => ⟨_, (scrape_of_text hfile a source r).2.1 _ hread⟩⟩

end PagePlan
