/-
# Expressions over a value

A query to a value that neither climbs nor starts at the top is put to a small page of which the
value is the only text.  Expressions of operators and of the functions on texts, numbers and truth
values do not tell the two apart: the only items that they meet are the context itself and its
stand-in, and of these they read the text and that there is one of them.  By induction on the
expression its values at both correspond, problems included.
-/
import Mathlib
import PagePlan.Proofs.XPath.Answering
import PagePlan.Proofs.XPath.ValueExpression

namespace PagePlan.XPath

open Dom (Page Site Node)

/-- Values that correspond: the set of one item to that of another, anything else to itself. -/
inductive Mirrors (x y : Item) : Object → Object → Prop
  | items : Mirrors x y (.nodes [x]) (.nodes [y])
  | truth (b : Bool) : Mirrors x y (.truth b) (.truth b)
  | number (n : Binary64) : Mirrors x y (.number n) (.number n)
  | text (s : String) : Mirrors x y (.text s) (.text s)

/-- Evaluations that correspond: they have values in a relation, or the same problem. -/
inductive Agree {α β : Type} (R : α → β → Prop) : Except Problem α → Except Problem β → Prop
  | ok {a : α} {b : β} : R a b → Agree R (.ok a) (.ok b)
  | error (p : Problem) : Agree R (.error p) (.error p)

/-- Evaluations in two parts correspond if both parts do. -/
theorem Agree.bind {α β γ δ : Type} {R : α → β → Prop} {S : γ → δ → Prop}
    {r : Except Problem α} {r' : Except Problem β} {f : α → Except Problem γ}
    {g : β → Except Problem δ} (h : Agree R r r') (hnext : ∀ a b, R a b → Agree S (f a) (g b)) :
    Agree S (r >>= f) (r' >>= g) := by
  cases h with
  | ok hab => exact hnext _ _ hab
  | error p => exact .error p

section Simulation

variable {page other : Page} {x y : Item}

namespace Mirrors

variable (hsame : x.stringValue page.nodes = y.stringValue other.nodes) {a b : Object}

include hsame

theorem toText_eq (h : Mirrors x y a b) : a.toText page = b.toText other := by
  cases h with
  | items => exact hsame
  | _ => rfl

theorem toNumber_eq (h : Mirrors x y a b) : a.toNumber page = b.toNumber other := by
  cases h with
  | items => exact congrArg (fun s : String => Number.ofText s.toList) hsame
  | _ => rfl

omit hsame in
theorem toTruth_eq (h : Mirrors x y a b) : a.toTruth = b.toTruth := by
  cases h <;> rfl

/-- Comparisons read the texts of items and whether there are any. -/
theorem compare_eq (op : Operator) {c d : Object} (h : Mirrors x y a b) (h' : Mirrors x y c d) :
    Object.compare page op a c = Object.compare other op b d := by
  cases h <;> cases h' <;>
    simp only [Object.compare, List.any_cons, List.any_nil, List.isEmpty_cons, hsame] <;> rfl

/-- Operators give corresponding values. -/
theorem combine (op : Operator) {c d : Object} (h : Mirrors x y a b) (h' : Mirrors x y c d) :
    Mirrors x y (Object.combine page op a c) (Object.combine other op b d) := by
  have hnumber := h.toNumber_eq hsame
  have hnumber' := h'.toNumber_eq hsame
  have htruth := h.toTruth_eq
  have htruth' := h'.toTruth_eq
  unfold Object.combine
  cases op <;>
    simp only [hnumber, hnumber', htruth, htruth', h.compare_eq hsame _ h'] <;> constructor

omit hsame in
/-- A single item is counted, and nothing else is. -/
theorem apply_count {vs ws : List Object} (h : List.Forall₂ (Mirrors x y) vs ws)
    (p : Option (Nat × Nat)) : Agree (Mirrors x y)
      (Function.apply page ⟨x, p⟩ "count" vs) (Function.apply other ⟨y, p⟩ "count" ws) := by
  simp only [Function.apply]
  rcases h with _ | ⟨h, _ | ⟨h', hrest⟩⟩
  · exact .error _
  · cases h with
    | items => exact .ok (.number _)
    | _ => exact .error _
  · exact .error _

/-- The functions on values give corresponding results for corresponding arguments, of whatever
number. -/
theorem apply_agree {name : String} (hname : name ∈ valueFunctions) {vs ws : List Object}
    (h : List.Forall₂ (Mirrors x y) vs ws) (p : Option (Nat × Nat)) : Agree (Mirrors x y)
      (Function.apply page ⟨x, p⟩ name vs) (Function.apply other ⟨y, p⟩ name ws) := by
  by_cases hcount : name = "count"
  · rw [hcount]
    exact apply_count h p
  -- any other function reads the texts, the numbers and the truth values of its arguments
  have htext := (Mirrors.items (x := x) (y := y)).toText_eq hsame
  have hnumber := (Mirrors.items (x := x) (y := y)).toNumber_eq hsame
  have htexts : vs.map (Object.toText page) = ws.map (Object.toText other) := by
    induction h with
    | nil => rfl
    | cons hv _ ih => rw [List.map_cons, List.map_cons, hv.toText_eq hsame, ih]
  have hread : List.Forall₂ (fun a b => a.toText page = b.toText other ∧
      a.toNumber page = b.toNumber other ∧ a.toTruth = b.toTruth) vs ws :=
    h.imp fun a b hab => ⟨hab.toText_eq hsame, hab.toNumber_eq hsame, hab.toTruth_eq⟩
  clear h
  simp only [valueFunctions, List.mem_cons, List.not_mem_nil, or_false, hcount] at hname
  rcases hname with rfl | rfl | rfl | rfl | rfl | rfl | rfl | rfl | rfl | rfl | rfl | rfl | rfl |
    rfl | rfl | rfl
  all_goals
    simp only [Function.apply]
    rcases hread with _ | ⟨⟨ha, ha', ha''⟩, _ | ⟨⟨hb, hb', hb''⟩, _ | ⟨⟨hc, hc', hc''⟩, _ | h⟩⟩⟩
    all_goals
      simp only [*]
      first
      | exact .error _
      | exact .ok (.text _)
      | exact .ok (.number _)
      | exact .ok (.truth _)

end Mirrors

variable (hsame : x.stringValue page.nodes = y.stringValue other.nodes)

include hsame

omit hsame in
/-- Evaluations that correspond for every expression of a list correspond for the list. -/
theorem evalAll_agree {es : List Expr} {c d : Context}
    (h : ∀ e ∈ es, Agree (Mirrors x y) (e.eval page c) (e.eval other d)) :
    Agree (List.Forall₂ (Mirrors x y)) (Expr.evalAll page c es) (Expr.evalAll other d es) := by
  induction es with
  | nil =>
    rw [Expr.evalAll, Expr.evalAll]
    exact .ok .nil
  | cons e es ih =>
    have hrest := ih fun e' he' => h e' (List.mem_cons_of_mem e he')
    rw [Expr.evalAll, Expr.evalAll]
    exact (h e List.mem_cons_self).bind fun a b hab =>
      hrest.bind fun vs ws hall => .ok (.cons hab hall)

/-- **An expression over values has corresponding values at an item and at any other one with the
same text.** -/
theorem OfValue.eval_agree {e : Expr} (he : OfValue e) :
    Agree (Mirrors x y) (e.eval page ⟨x, none⟩) (e.eval other ⟨y, none⟩) := by
  induction he with
  | here =>
    rw [Expr.eval, Expr.eval]
    exact .ok .items
  | literal s =>
    rw [Expr.eval, Expr.eval]
    exact .ok (.text s)
  | number n =>
    rw [Expr.eval, Expr.eval]
    exact .ok (.number n)
  | negate _ ih =>
    rw [Expr.eval, Expr.eval]
    refine ih.bind fun a b hab => ?_
    rw [hab.toNumber_eq hsame]
    exact .ok (.number _)
  | binary op _ _ ihl ihr =>
    rw [Expr.eval, Expr.eval]
    refine ihl.bind fun a b hab => ?_
    -- an operand that is not needed at one item is not needed at the other
    rw [hab.toTruth_eq]
    split_ifs with hor hand
    · exact .ok (.truth true)
    · exact .ok (.truth false)
    · exact ihr.bind fun c d hcd => .ok (hab.combine hsame op hcd)
  | call hname _ ih =>
    rw [Expr.eval, Expr.eval]
    exact (evalAll_agree ih).bind fun vs ws hall => Mirrors.apply_agree hsame hname hall none

end Simulation

/-! ### Queries -/

/-- The answer to a query at an item of a page. -/
def Item.answer (page : Page) (x : Item) (xpath : String) : Except Problem (Answer Match) := do
  let e ← Expr.read xpath
  let v ← e.eval page ⟨x, none⟩
  return v.answer page

/-- Puts a query to an item of a page. -/
def Item.ask (page : Page) (x : Item) (xpath : String) : Run (Answer Match) :=
  if !xpath.toList.all Text.isPageChar then Run.fail .notPageText
  else match x.answer page xpath with
    | .ok a => return a
    | .error problem => do
      Run.log .warning "dom.document" (unanswered xpath problem)
      return .nodes []

/-- A query to a site is put to the item there. -/
theorem askSite_eq (s : Site) (xpath : String) : askSite s xpath = (itemAt s).ask s.page xpath :=
  rfl

/-- A text without the blanks of the grammar at its ends. -/
def unblanked (s : String) : String := String.ofList (Text.trim Text.isXmlBlank s.toList)

theorem Item.stringValue_of_match? {page : Page} {x : Item} {s : String} {source : Source}
    {owner : Option Site} (h : x.match? page = some (.value s source owner)) :
    x.stringValue page.nodes = s := by
  cases x with
  | document => cases h
  | node place n =>
    cases n with
    | text t verbatim =>
      cases h
      exact String.ofList_toList
    | _ => cases h
  | attr place i a =>
    cases h
    rfl
  | binding place i qualifier space => cases h

/-- A value that stands alone has its own text. -/
theorem stringValue_standIn (s : String) :
    (itemAt (.root (standIn s))).stringValue (standIn s).nodes = s := by
  change String.ofList (s.toList ++ []) = s
  rw [List.append_nil, String.ofList_toList]

section Ask

variable {page other : Page} {x y : Item} {q : String} {e : Expr}

/-- Answers that correspond have the same text, if the items have. -/
theorem Mirrors.resolve?_eq {m m' : Match} (hx : x.match? page = some m)
    (hy : y.match? other = some m') (htext : m.text = m'.text) {a b : Object}
    (h : Mirrors x y a b) :
    (a.answer page).resolve? Match.text = (b.answer other).resolve? Match.text := by
  cases h with
  | items =>
    simp only [Object.answer, List.filterMap_cons, hx, hy, List.filterMap_nil, Answer.resolve?,
      Answer.untrimmed?, htext]
  | _ => rfl

/-- The answers at two items with the same text have the same text. -/
theorem Item.answer_agree (hsame : x.stringValue page.nodes = y.stringValue other.nodes)
    {m m' : Match} (hx : x.match? page = some m) (hy : y.match? other = some m')
    (htext : m.text = m'.text) (hread : Expr.read q = .ok e) (he : OfValue e) :
    Agree (fun a b => a.resolve? Match.text = b.resolve? Match.text)
      (x.answer page q) (y.answer other q) := by
  unfold Item.answer
  rw [hread]
  exact (he.eval_agree hsame).bind fun a b hab => .ok (hab.resolve?_eq hx hy htext)

/-- So has what a query finds there; a query without an answer finds nothing at both, and the same
is noted. -/
theorem Item.ask_eq_of_text (hsame : x.stringValue page.nodes = y.stringValue other.nodes)
    {m m' : Match} (hx : x.match? page = some m) (hy : y.match? other = some m')
    (htext : m.text = m'.text) (hread : Expr.read q = .ok e) (he : OfValue e) :
    Answer.resolve? Match.text <$> x.ask page q = Answer.resolve? Match.text <$> y.ask other q := by
  have hagree := Item.answer_agree hsame hx hy htext hread he
  unfold Item.ask
  split
  · rfl
  · generalize x.answer page q = r, y.answer other q = r' at hagree
    cases hagree with
    | ok h =>
      dsimp only
      rw [map_pure, map_pure, h]
    | error problem => rfl

end Ask

/-- Without its blanks an expression over values is trimmed of all white space. -/
theorem strip_eq_unblanked {q : String} {e : Expr} (hread : Expr.read (unblanked q) = .ok e)
    (he : OfValue e) : Text.strip q = unblanked q := by
  have hlist : (unblanked q).toList = Text.trim Text.isXmlBlank q.toList := String.toList_ofList
  have htrim := isTrimmed_of_read hread he (hlist ▸ Text.trim_isTrimmed _ _)
  obtain ⟨before, behind, hq, hbefore, hbehind⟩ := Text.exists_trim Text.isXmlBlank q.toList
  have hstrip : Text.trim Text.isBlank q.toList = Text.trim Text.isXmlBlank q.toList := by
    conv_lhs => rw [hq]
    exact Text.trim_append (fun c hc => Text.isBlank_of_isXmlBlank (hbefore c hc)) (hlist ▸ htrim)
      fun c hc => Text.isBlank_of_isXmlBlank (hbehind c hc)
  rw [Text.strip, hstrip, unblanked]

/-- The other query that asks for the value itself is a step. -/
theorem read_selfNode :
    Expr.read "self::node()" = .ok (.step .here (.mk .self .anyNode [])) := by
  cbv

theorem read_dot : Expr.read "." = .ok .here := by
  cbv

/-- The query for the value itself finds the item. -/
theorem Item.ask_dot {page : Page} {x : Item} {m : Match} (hmatch : x.match? page = some m) :
    x.ask page "." = return .nodes [m] := by
  have hanswer : x.answer page "." = .ok (.nodes [m]) := by
    have hhere : (Object.nodes [x]).answer page = .nodes [m] := by
      rw [Object.answer, List.filterMap_cons, hmatch]
      rfl
    rw [Item.answer, read_dot]
    simp only [bind, Except.bind, pure, Except.pure, Expr.eval, hhere]
  rw [Item.ask, if_neg (by decide), hanswer]

/-- **An expression over values finds at an attribute or a text node what it finds with that very
item as its context.**  Blanks may stand around it. -/
theorem Match.ask_value_eq {page : Page} {x : Item} {s : String} {source : Source}
    {owner : Option Site} (hmatch : x.match? page = some (.value s source owner))
    (htext : IsPageText s) {q : String} {e : Expr} (hread : Expr.read (unblanked q) = .ok e)
    (he : OfValue e) :
    Answer.resolve? Match.text <$> (Match.value s source owner).ask q =
      Answer.resolve? Match.text <$> x.ask page (unblanked q) := by
  have hstrip := strip_eq_unblanked hread he
  have hlist : (unblanked q).toList = Text.trim Text.isXmlBlank q.toList := String.toList_ofList
  obtain ⟨c, rest, hcons, -, hslash, hdots⟩ :=
    exists_cons_of_read hread he (hlist ▸ Text.trim_isTrimmed _ _)
  have hx := Item.stringValue_of_match? hmatch
  rw [Match.ask, askValue, hstrip]
  split
  · next hself =>
    have hdot : unblanked q = "." := by
      rw [Bool.or_eq_true, decide_eq_true_eq, decide_eq_true_eq] at hself
      refine hself.resolve_right fun hstep => ?_
      rw [hstep, read_selfNode] at hread
      cases Except.ok.inj hread
      cases he
    rw [hdot, Item.ask_dot hmatch]
  · split
    · next hclimbs =>
      rw [hcons] at hclimbs
      obtain ⟨rfl, rfl⟩ := List.cons.inj hclimbs
      exact absurd rfl (hdots rfl)
    · next htop =>
      rw [hcons] at htop
      exact absurd (List.cons.inj htop).1 hslash
    · -- the expression neither climbs nor starts at the top, so the stand-in answers
      rw [Match.text, if_neg fun hnot => not_isPageText_iff.2 hnot htext, askSite_eq]
      have hsame := hx.trans (stringValue_standIn s).symm
      exact (Item.ask_eq_of_text hsame hmatch rfl (stringValue_standIn s).symm hread he).symm

/-- A page of a link whose address is a value. -/
def linkPage : Page :=
  ⟨.html, none, [.element ⟨.plain "a", [⟨.plain "href", some "/item"⟩], []⟩ [.text "See" false]]⟩

/-- The address is asked whether it leads away from its host. -/
theorem Match.ask_value_link :
    Answer.resolve? Match.text <$> (Match.value "/item"
      (.attribute ⟨.plain "href", some "/item"⟩) (some ⟨linkPage, [0]⟩)).ask
        " starts-with(., '/') " = return some "true" := by
  have hvalue : OfValue (.call ⟨none, "starts-with"⟩ [.here, .literal "/"]) := by
    refine .call (by decide) fun e he => ?_
    rcases List.mem_pair.1 he with rfl | rfl
    · exact .here
    · exact .literal "/"
  have hitem : (Item.attr [0] 0 ⟨.plain "href", some "/item"⟩).match? linkPage =
      some (.value "/item" (.attribute ⟨.plain "href", some "/item"⟩) (some ⟨linkPage, [0]⟩)) := rfl
  have hread : Expr.read (unblanked " starts-with(., '/') ") =
      .ok (.call ⟨none, "starts-with"⟩ [.here, .literal "/"]) := by
    cbv
  have hanswer : (Item.attr [0] 0 ⟨.plain "href", some "/item"⟩).answer linkPage
      (unblanked " starts-with(., '/') ") = .ok (.truth true) := by
    rw [Item.answer, hread]
    simp only [bind, Except.bind, pure, Except.pure, Expr.eval, Expr.evalAll]
    rfl
  rw [Match.ask_value_eq hitem (isPageText_iff.2 (by decide)) hread hvalue, Item.ask,
    if_neg (by decide +kernel), hanswer]
  rfl

end PagePlan.XPath
