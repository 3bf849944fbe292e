/-
# Which queries are answered

A query to a node is put to the node.  A query to a value is answered by the value itself, goes to
the element that the value belongs to, or is put to a small page in which the value stands alone.
Whatever is put to a page has to be text that a page can hold: the query, and with a value that
stands alone the value as well.  Texts with other characters are refused, and that is the only way
in which a query fails; a query that is no expression or has no value matches nothing.

* `Match.ask_outcome_cases` — every query to every match is answered or refused, and when which.
-/
import PagePlan.XPath.Query

namespace PagePlan.XPath

open Dom (Site)

/-- A text that a page can hold. -/
def IsPageText (s : String) : Prop := ∀ c ∈ s.toList, Text.isPageChar c = true

/-- A query that asks for the value to which it is put. -/
def AsksItself (q : String) : Prop := Text.strip q = "." ∨ Text.strip q = "self::node()"

/-- A query that leads away from a value, in the form in which it is put to the value's element:
one step up has been done, and a path from the top is the same everywhere. -/
inductive GoesUp (q : String) : String → Prop
  | climbs {rest : List Char} :
      (Text.strip q).toList = '.' :: '.' :: rest → GoesUp q (String.ofList ('.' :: rest))
  | top {rest : List Char} : (Text.strip q).toList = '/' :: rest → GoesUp q (Text.strip q)

/-- The element that a match belongs to if it is a value. -/
def Match.owner? : Match → Option Site
  | value _ _ owner => owner
  | _ => none

/-- A query to a match is put, in some form, to a site of a page; the texts are those that the
page has to hold for it. -/
inductive PutTo (m : Match) (q : String) : Site → String → List String → Prop
  | node {s : Site} : m = .node s → PutTo m q s q [q]
  | owner {s : Site} {up : String} : GoesUp q up → m.owner? = some s → PutTo m q s up [up]
  | alone : m.isNode = false → ¬AsksItself q → (∀ up, ¬GoesUp q up) →
      PutTo m q (.root (standIn m.text)) (Text.strip q) [m.text, Text.strip q]

/-- A query and a match with a text among them that no page can hold. -/
def Unfit (m : Match) (q : String) : Prop :=
  ∃ s xpath texts, PutTo m q s xpath texts ∧ ∃ t ∈ texts, ¬IsPageText t

/-- The answer that a query gets from a match. -/
inductive Answered (m : Match) (q : String) : Answer Match → Prop
  | itself : m.isNode = false → AsksItself q → Answered m q (.nodes [m])
  | nowhere {up : String} :
      m.isNode = false → GoesUp q up → m.owner? = none → Answered m q (.nodes [])
  | answer {s : Site} {xpath : String} {texts : List String} {a : Answer Match} :
      PutTo m q s xpath texts → answerAt s xpath = .ok a → Answered m q a
  | nothing {s : Site} {xpath : String} {texts : List String} {problem : Problem} :
      PutTo m q s xpath texts → answerAt s xpath = .error problem → Answered m q (.nodes [])

/-! ### Queries to sites -/

theorem isPageText_iff {s : String} : IsPageText s ↔ s.toList.all Text.isPageChar = true := by
  rw [IsPageText, List.all_eq_true]

theorem not_isPageText_iff {s : String} :
    ¬IsPageText s ↔ (!s.toList.all Text.isPageChar) = true := by
  rw [isPageText_iff, Bool.not_eq_true', Bool.not_eq_true]

/-- The answer to a query is what its expression gives. -/
theorem answerAt_of_read {s : Site} {q : String} {e : Expr} (h : Expr.read q = .ok e) :
    answerAt s q = (e.eval s.page ⟨itemAt s, none⟩).map (Object.answer s.page) := by
  rw [answerAt, h]
  change (e.eval s.page ⟨itemAt s, none⟩ >>= fun v => pure (v.answer s.page)) = _
  cases e.eval s.page ⟨itemAt s, none⟩ <;> rfl

/-- A query that no page can hold is refused. -/
theorem askSite_of_unfit {s : Site} {q : String} (h : ¬IsPageText q) :
    (askSite s q).outcome = .error .notPageText := by
  rw [askSite, if_pos (not_isPageText_iff.1 h)]
  rfl

/-- Any other query has its answer, or none and then it matches nothing. -/
theorem askSite_of_fit {m : Match} {q : String} {s : Site} {xpath : String} {texts : List String}
    (h : IsPageText xpath) (hput : PutTo m q s xpath texts) :
    ∃ a, (askSite s xpath).outcome = .ok a ∧ Answered m q a := by
  rw [askSite, if_neg fun hnot => not_isPageText_iff.2 hnot h]
  cases ha : answerAt s xpath with
  | ok a => exact ⟨a, rfl, .answer hput ha⟩
  | error problem => exact ⟨.nodes [], rfl, .nothing hput ha⟩

/-- It has its answer, or matches nothing. -/
theorem askSite_outcome {s : Site} {q : String} (h : IsPageText q) :
    (askSite s q).outcome = .ok ((answerAt s q).toOption.getD (.nodes [])) := by
  rw [askSite, if_neg fun hnot => not_isPageText_iff.2 hnot h]
  cases answerAt s q <;> rfl

/-! ### Where a query goes -/

variable {m : Match} {q : String}

theorem GoesUp.not_asksItself {up : String} (h : GoesUp q up) : ¬AsksItself q := by
  rintro (heq | heq)
  all_goals
    cases h with
    | climbs h => rw [heq] at h; simp at h
    | top h => rw [heq] at h; simp at h

/-- A query leads away in one form only. -/
theorem GoesUp.eq {up up' : String} (h : GoesUp q up) (h' : GoesUp q up') : up = up' := by
  cases h with
  | climbs h =>
    cases h' with
    | climbs h' =>
      rw [h] at h'
      simp only [List.cons.injEq, true_and] at h'
      rw [h']
    | top h' => rw [h] at h'; simp at h'
  | top h =>
    cases h' with
    | climbs h' => rw [h] at h'; simp at h'
    | top h' => rfl

theorem PutTo.not_asksItself {s : Site} {xpath : String} {texts : List String}
    (h : PutTo m q s xpath texts) (hvalue : m.isNode = false) : ¬AsksItself q := by
  cases h with
  | node heq => subst heq; cases hvalue
  | owner hup howner => exact hup.not_asksItself
  | alone _ hnot _ => exact hnot

/-- A query is put to one site at most, in one form and for the same texts. -/
theorem PutTo.texts_eq {s s' : Site} {xpath xpath' : String} {texts texts' : List String}
    (h : PutTo m q s xpath texts) (h' : PutTo m q s' xpath' texts') : texts = texts' := by
  cases h with
  | node heq =>
    subst heq
    cases h' with
    | node _ => rfl
    | owner _ howner => cases howner
    | alone hvalue _ _ => cases hvalue
  | owner hup howner =>
    cases h' with
    | node heq => subst heq; cases howner
    | owner hup' _ => rw [hup.eq hup']
    | alone _ _ hnot => exact absurd hup (hnot _)
  | alone hvalue _ hnot =>
    cases h' with
    | node heq => subst heq; cases hvalue
    | owner hup _ => exact absurd hup (hnot _)
    | alone _ _ _ => rfl

/-- Whether a query is unfit can be told from the texts of any site to which it is put. -/
theorem PutTo.unfit_iff {s : Site} {xpath : String} {texts : List String}
    (h : PutTo m q s xpath texts) : Unfit m q ↔ ∃ t ∈ texts, ¬IsPageText t := by
  constructor
  · rintro ⟨s', xpath', texts', h', ht⟩
    rwa [h.texts_eq h']
  · intro ht
    exact ⟨s, xpath, texts, h, ht⟩

/-- A query that stays with a value is put to the page in which the value stands alone. -/
theorem ask_value_of_alone {t : String} {source : Source} {owner : Option Site}
    (hself : ¬AsksItself q) (hup : ∀ up, ¬GoesUp q up) :
    (Match.value t source owner).ask q = if !t.toList.all Text.isPageChar
      then Run.fail .notPageText else askSite (.root (standIn t)) (Text.strip q) := by
  have hself : ¬(Text.strip q = "." || Text.strip q = "self::node()") = true := by
    simpa [AsksItself] using hself
  rw [Match.ask, askValue, if_neg hself]
  split
  · next hclimbs => exact absurd (.climbs hclimbs) (hup _)
  · next htop => exact absurd (.top htop) (hup _)
  · rfl

/-! ### Queries to matches -/

/-- How the query to a match ends: it has its answer if all texts are fit, else it is refused. -/
def Settled (m : Match) (q : String) (outcome : Except Failure (Answer Match)) : Prop :=
  (Unfit m q ∧ outcome = .error .notPageText) ∨
    (¬Unfit m q ∧ ∃ a, outcome = .ok a ∧ Answered m q a)

/-- A query that is put to a site of a page for its own text alone. -/
theorem settled_of_putTo {s : Site} {xpath : String} (h : PutTo m q s xpath [xpath]) :
    Settled m q (askSite s xpath).outcome := by
  have hunfit : Unfit m q ↔ ¬IsPageText xpath := by
    simpa using h.unfit_iff
  by_cases hfit : IsPageText xpath
  · exact Or.inr ⟨fun hu => hunfit.1 hu hfit, askSite_of_fit hfit h⟩
  · exact Or.inl ⟨hunfit.2 hfit, askSite_of_unfit hfit⟩

/-- A query that is put to a value which stands alone. -/
theorem settled_of_alone (h : PutTo m q (.root (standIn m.text)) (Text.strip q)
      [m.text, Text.strip q]) :
    Settled m q (if !m.text.toList.all Text.isPageChar then Run.fail Failure.notPageText
      else askSite (.root (standIn m.text)) (Text.strip q)).outcome := by
  have hunfit : Unfit m q ↔ ¬IsPageText m.text ∨ ¬IsPageText (Text.strip q) := by
    simpa using h.unfit_iff
  by_cases htext : IsPageText m.text
  · rw [if_neg fun hnot => not_isPageText_iff.2 hnot htext]
    by_cases hfit : IsPageText (Text.strip q)
    · refine Or.inr ⟨fun hu => ?_, askSite_of_fit hfit h⟩
      exact (hunfit.1 hu).elim (fun hnot => hnot htext) fun hnot => hnot hfit
    · exact Or.inl ⟨hunfit.2 (Or.inr hfit), askSite_of_unfit hfit⟩
  · rw [if_pos (not_isPageText_iff.1 htext)]
    exact Or.inl ⟨hunfit.2 (Or.inl htext), rfl⟩

/-- A query that leads away from a value. -/
theorem settled_of_goesUp {up : String} {owner : Option Site} (hvalue : m.isNode = false)
    (hup : GoesUp q up) : m.owner? = owner → Settled m q (match owner with
      | some site => askSite site up
      | none => return .nodes [] : Run (Answer Match)).outcome := by
  intro howner
  cases owner with
  | some site => exact settled_of_putTo (.owner hup howner)
  | none =>
    refine Or.inr ⟨?_, .nodes [], rfl, .nowhere hvalue hup howner⟩
    rintro ⟨s, xpath, texts, hput, -⟩
    cases hput with
    | node heq => subst heq; cases hvalue
    | owner _ hsome => rw [howner] at hsome; cases hsome
    | alone _ _ hnot => exact hnot _ hup

/-- A query to a value: the ways are told apart in the order in which they are tried. -/
theorem askValue_settled {owner : Option Site} (hvalue : m.isNode = false)
    (howner : m.owner? = owner) : Settled m q (askValue m owner q).outcome := by
  have hitself : (Text.strip q = "." || Text.strip q = "self::node()") = true ↔ AsksItself q := by
    simp [AsksItself]
  unfold askValue
  by_cases hself : AsksItself q
  · rw [if_pos (hitself.2 hself)]
    refine Or.inr ⟨?_, .nodes [m], rfl, .itself hvalue hself⟩
    rintro ⟨s, xpath, texts, hput, -⟩
    exact hput.not_asksItself hvalue hself
  · rw [if_neg fun h => hself (hitself.1 h)]
    split
    · next rest hclimbs => exact settled_of_goesUp hvalue (.climbs hclimbs) howner
    · next rest htop => exact settled_of_goesUp hvalue (.top htop) howner
    · next hclimbs htop =>
      refine settled_of_alone (.alone hvalue hself ?_)
      rintro up (⟨h⟩ | ⟨h⟩)
      · exact hclimbs _ h
      · exact htop _ h

/-- Every query to every match is settled. -/
theorem Match.ask_settled (m : Match) (q : String) : Settled m q (m.ask q).outcome := by
  cases m with
  | node s =>
    rw [Match.ask]
    exact settled_of_putTo (.node rfl)
  | value s source owner =>
    rw [Match.ask]
    exact askValue_settled rfl rfl
  | binding qualifier space =>
    rw [Match.ask]
    exact askValue_settled rfl rfl

/-- A query fails in one way only. -/
theorem Match.eq_notPageText_of_ask {e : Failure} (h : (m.ask q).outcome = .error e) :
    e = .notPageText := by
  rcases m.ask_settled q with ⟨-, hrefused⟩ | ⟨-, a, hanswered, -⟩
  · rw [h] at hrefused
    exact Except.error.inj hrefused
  · rw [h] at hanswered
    cases hanswered

/-- **Every query to every match is answered, or refused for a text that no page can hold.**  A
query that is put to a site and has no answer there matches nothing. -/
theorem Match.ask_outcome_cases (m : Match) (q : String) :
    (Unfit m q ∧ (m.ask q).outcome = .error .notPageText) ∨
      (¬Unfit m q ∧ ∃ a, (m.ask q).outcome = .ok a ∧ Answered m q a) :=
  m.ask_settled q

/-- A query with a control character is refused wherever it is put to a node. -/
example (s : Site) : (Match.ask (.node s) "//p[.='\x01']").outcome = .error .notPageText :=
  askSite_of_unfit fun h => absurd (h '\x01' (by decide)) (by decide)

/-- A value with a control character is refused even for a query that every page can hold. -/
example : (Match.ask (.value "\x01x" (.text false) none) "string-length(.)").outcome =
    .error .notPageText := rfl

end PagePlan.XPath
