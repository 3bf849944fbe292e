/-
# Climbing paths inside larger queries

A query to a value that begins with two points is put to the element of the value without its first
point, as a text.  Where the query is one path this is the same as climbing.  In a union it is not:
only the first path has lost a point, so the others climb from the element, one step further than
the first.  Nor does a path climb to the element from inside a call: the query does not begin with
two points, is put to the page in which the value stands alone, and climbs from the element of that
page.

* `Match.ask_value_composes` — what unions and texts of climbing paths are, in terms of the queries
  that their paths are put as.
-/
import PagePlan.Proofs.XPath.Below
import PagePlan.Proofs.XPath.Climbing
import PagePlan.Proofs.XPath.Embedded

namespace PagePlan.XPath

open Dom (Node Page Site)
open Grammar (MoreSteps Reads)

/-- Texts of one location path that begins with two points, with blanks around it.  White space is
no part of its last name. -/
structure IsClimbing (p : String) : Prop where
  points : ['.', '.'] <+: (unblanked p).toList
  isPath : ∃ steps, Expr.read (unblanked p) = .ok (path .here steps)
  strip_eq : Text.strip p = unblanked p

/-- A climbing path taken apart: blanks, two points, the text of the further steps and blanks. -/
structure ClimbingParts (p : String) where
  before : List Char
  rest : List Char
  behind : List Char
  steps : List Step
  fuel : Nat
  toList_eq : p.toList = before ++ '.' :: '.' :: rest ++ behind
  before_blank : ∀ c ∈ before, Text.isXmlBlank c = true
  behind_blank : ∀ c ∈ behind, Text.isXmlBlank c = true
  toList_strip : (Text.strip p).toList = '.' :: '.' :: rest
  read : Expr.read (unblanked p) = .ok (path .here (.above :: steps))
  fuel_le : fuel ≤ Grammar.fuelFor ('.' :: '.' :: rest)
  moreSteps : MoreSteps 499 fuel rest steps

theorem IsClimbing.nonempty_parts {p : String} (h : IsClimbing p) : Nonempty (ClimbingParts p) := by
  obtain ⟨rest, hrest⟩ := h.points
  obtain ⟨before, behind, hsplit, hbefore, hbehind⟩ := Text.exists_trim Text.isXmlBlank p.toList
  obtain ⟨steps, hread⟩ := h.isPath
  have hlist : (unblanked p).toList = '.' :: '.' :: rest := hrest.symm
  have htrim : Text.trim Text.isXmlBlank p.toList = '.' :: '.' :: rest := by
    rw [← hlist, unblanked, String.toList_ofList]
  have hnested := Grammar.readNested_of_read hread
  rw [hlist] at hnested
  obtain ⟨more, rfl, fuel, hfuel, hmore⟩ := Grammar.exists_moreSteps_of_read hnested
  exact ⟨
    { before := before
      rest := rest
      behind := behind
      steps := more
      fuel := fuel
      toList_eq := by rw [← htrim]; exact hsplit
      before_blank := hbefore
      behind_blank := hbehind
      toList_strip := by rw [h.strip_eq, hlist]
      read := hread
      fuel_le := hfuel
      moreSteps := hmore }⟩

/-! ### What is answered without a note -/

theorem askSite_eq_pure_iff {s : Site} {q : String} {a : Answer Match} :
    askSite s q = pure a ↔ IsPageText q ∧ answerAt s q = .ok a := by
  by_cases hfit : IsPageText q
  · rw [askSite, if_neg fun hnot => not_isPageText_iff.2 hnot hfit]
    cases answerAt s q with
    | ok b =>
      refine ⟨fun h => ⟨hfit, ?_⟩, fun h => ?_⟩
      · rw [Except.ok.inj (congrArg Run.outcome h)]
      · rw [Except.ok.inj h.2]
    | error problem =>
      refine iff_of_false (fun h => ?_) (fun h => ?_)
      · cases congrArg Run.events h
      · cases h.2
  · refine iff_of_false (fun h => ?_) fun h => hfit h.1
    have hrefused := askSite_of_unfit (s := s) hfit
    rw [h] at hrefused
    cases hrefused

/-- The matches that a query is answered with are the items that its expression gives. -/
theorem exists_eval_of_answerAt {s : Site} {q : String} {ms : List Match}
    (h : answerAt s q = .ok (.nodes ms)) : ∃ e xs,
      Expr.read q = .ok e ∧ e.eval s.page ⟨itemAt s, none⟩ = .ok (.nodes xs) ∧
        ms = xs.filterMap (Item.match? s.page) := by
  obtain ⟨e, hread, -⟩ := except_bind_eq_ok.1 h
  rw [answerAt_of_read hread] at h
  obtain ⟨v, hv, h⟩ := except_map_eq_ok.1 h
  cases v with
  | nodes xs => exact ⟨e, xs, hread, hv, (Answer.nodes.inj h).symm⟩
  | _ => cases h

/-- A union is answered with the matches of both its operands. -/
theorem exists_answerAt_union {s : Site} {q : String} {left right : Expr} {xs ys : List Item}
    (hread : Expr.read q = .ok (.union left right))
    (hleft : left.eval s.page ⟨itemAt s, none⟩ = .ok (.nodes xs))
    (hright : right.eval s.page ⟨itemAt s, none⟩ = .ok (.nodes ys)) :
    ∃ both, answerAt s q = .ok (.nodes both) ∧ ∀ m, m ∈ both ↔
      m ∈ xs.filterMap (Item.match? s.page) ∨ m ∈ ys.filterMap (Item.match? s.page) := by
  have heval : (Expr.union left right).eval s.page ⟨itemAt s, none⟩ =
      .ok (.nodes (Item.merge xs ys)) := by
    rw [Expr.eval, hleft, hright]
    rfl
  refine ⟨(Item.merge xs ys).filterMap (Item.match? s.page), ?_, fun m => ?_⟩
  · rw [answerAt_of_read hread, heval]
    rfl
  · have hxs := eval_isIn (itemAt_isIn s) left hleft
    have hys := eval_isIn (itemAt_isIn s) right hright
    simp only [List.mem_filterMap, Item.mem_merge_iff hxs hys, or_and_right, exists_or]

/-! ### Unions -/

section Union

variable {p q : String}

theorem isPageChar_of_isXmlBlank {c : Char} (h : Text.isXmlBlank c = true) :
    Text.isPageChar c = true := by
  simp only [Text.isXmlBlank, Bool.or_eq_true, beq_iff_eq] at h
  rcases h with ((rfl | rfl) | rfl) | rfl <;> rfl

/-- The text of a union of two climbing paths after its first two points. -/
def ClimbingParts.unionRest (hp : ClimbingParts p) (hq : ClimbingParts q) : List Char :=
  hp.rest ++ ((hp.behind ++ [' ']) ++ '|' :: (' ' :: hq.before ++ '.' :: '.' :: hq.rest))

variable (hp : ClimbingParts p) (hq : ClimbingParts q)

/-- A union of two climbing paths climbs. -/
theorem ClimbingParts.toList_strip_union :
    (Text.strip (p ++ " | " ++ q)).toList = '.' :: '.' :: hp.unionRest hq := by
  have hlist : (p ++ " | " ++ q).toList =
      hp.before ++ ('.' :: '.' :: hp.unionRest hq) ++ hq.behind := by
    rw [String.toList_append, String.toList_append, hp.toList_eq, hq.toList_eq, unionRest]
    simp
  have htrimmed : Text.IsTrimmed Text.isBlank ('.' :: '.' :: hp.unionRest hq) := by
    have hdots : Text.IsTrimmed Text.isBlank ['.', '.'] := by
      constructor <;> intro c hc <;> obtain rfl : '.' = c := Option.some.inj hc <;> rfl
    have hlast : Text.IsTrimmed Text.isBlank ('.' :: '.' :: hq.rest) := by
      rw [← hq.toList_strip, Text.strip, String.toList_ofList]
      exact Text.trim_isTrimmed _ _
    have h := hdots.append hlast (List.cons_ne_nil _ _) (List.cons_ne_nil _ _)
      (hp.rest ++ (hp.behind ++ ' ' :: '|' :: ' ' :: hq.before))
    rw [unionRest]
    simpa using h
  rw [Text.strip, String.toList_ofList, hlist]
  exact Text.trim_append (fun c hc => Text.isBlank_of_isXmlBlank (hp.before_blank c hc)) htrimmed
    fun c hc => Text.isBlank_of_isXmlBlank (hq.behind_blank c hc)

theorem ClimbingParts.isPageText_union (hleft : IsPageText (String.ofList ('.' :: hp.rest)))
    (hright : IsPageText q) : IsPageText (String.ofList ('.' :: hp.unionRest hq)) := by
  have hbehind (c : Char) (hc : c ∈ hp.behind) := isPageChar_of_isXmlBlank (hp.behind_blank c hc)
  rw [IsPageText, String.toList_ofList, List.forall_mem_cons] at hleft
  rw [IsPageText, hq.toList_eq] at hright
  simp only [List.forall_mem_append, List.forall_mem_cons] at hright
  rw [IsPageText, String.toList_ofList, unionRest]
  simp only [List.forall_mem_append, List.forall_mem_cons]
  exact ⟨rfl, hleft.2, ⟨hbehind, rfl, List.forall_mem_nil _⟩, rfl, ⟨rfl, hright.1.1⟩, hright.1.2⟩

theorem ClimbingParts.read_union : Expr.read (String.ofList ('.' :: hp.unionRest hq)) =
    .ok (.union (path .here hp.steps) (path .here (.above :: hq.steps))) := by
  have hspaces : ∀ c ∈ hp.behind ++ [' '], Text.isXmlBlank c = true := by
    rw [List.forall_mem_append]
    exact ⟨hp.behind_blank, List.forall_mem_singleton.2 rfl⟩
  have hspaces' : ∀ c ∈ ' ' :: hq.before, Text.isXmlBlank c = true :=
    List.forall_mem_cons.2 ⟨rfl, hq.before_blank⟩
  refine hp.moreSteps.read_union hq.moreSteps hspaces hspaces' String.toList_ofList
    (Nat.le_refl _) ?_
  -- the fuel grows with the text, and the union is longer than both paths
  have hleft := hp.fuel_le
  have hright := hq.fuel_le
  rw [String.toList_ofList, unionRest]
  simp only [Grammar.fuelFor, List.length_cons, List.length_append, List.length_nil]
    at hleft hright ⊢
  omega

include hp hq in
/-- A union of two climbing paths finds what the first one finds, and what the second one finds at
the element of the value. -/
theorem ClimbingParts.exists_ask_union {t : String} {source : Source} {parent : Site}
    {ms ns : List Match}
    (hleft : (Match.value t source (some parent)).ask p = pure (.nodes ms))
    (hright : (Match.node parent).ask q = pure (.nodes ns)) : ∃ both,
      (Match.value t source (some parent)).ask (p ++ " | " ++ q) = pure (.nodes both) ∧
        ∀ m, m ∈ both ↔ m ∈ ms ∨ m ∈ ns := by
  rw [ask_value_of_goesUp (.climbs hp.toList_strip), askSite_eq_pure_iff] at hleft
  rw [Match.ask, askSite_eq_pure_iff] at hright
  obtain ⟨hfit, hleft⟩ := hleft
  obtain ⟨hfit', hright⟩ := hright
  obtain ⟨left, xs, hread, hxs, rfl⟩ := exists_eval_of_answerAt hleft
  obtain ⟨right, ys, hread', hys, rfl⟩ := exists_eval_of_answerAt hright
  -- the first path is put without a point, with the blanks around it stripped; the second as it is
  obtain rfl := hp.moreSteps.eq_of_read_point Grammar.ends_nil rfl
    (by rw [String.toList_ofList, List.append_nil]; rfl) hread
  obtain ⟨hends, hblank⟩ := Grammar.ends_of_all_blank hq.behind_blank
  have hskip : Grammar.skip q.toList = '.' :: '.' :: (hq.rest ++ hq.behind) := by
    rw [hq.toList_eq, List.append_assoc, Grammar.skip,
      List.dropWhile_append_of_pos hq.before_blank]
    rfl
  obtain rfl := hq.moreSteps.eq_of_read_points hends hblank hskip hread'
  obtain ⟨both, hboth, hmem⟩ := exists_answerAt_union (hp.read_union hq) hxs hys
  refine ⟨both, ?_, hmem⟩
  rw [ask_value_of_goesUp (.climbs (hp.toList_strip_union hq)), askSite_eq_pure_iff]
  exact ⟨hp.isPageText_union hq hfit hfit', hboth⟩

end Union

/-! ### Texts -/

section Text

variable {p t : String} {source : Source} {owner : Option Site}

/-- A page of one node has its node, and those below it. -/
theorem nodeAt?_singleton {m n : Node} {place : Dom.Place}
    (h : Dom.nodeAt? [m] place = some n) :
    (place = [0] ∧ n = m) ∨
      ∃ j rest, place = 0 :: j :: rest ∧ Dom.nodeAt? m.children (j :: rest) = some n := by
  have hfirst {i : Nat} {n : Node} (h : [m][i]? = some n) : i = 0 ∧ n = m := by
    rw [List.getElem?_singleton] at h
    split_ifs at h with hi
    exact ⟨hi, (Option.some.inj h).symm⟩
  match place, h with
  | [i], h =>
    obtain ⟨rfl, rfl⟩ := hfirst h
    exact Or.inl ⟨rfl, rfl⟩
  | i :: j :: rest, h =>
    rw [Dom.nodeAt?_cons] at h
    obtain ⟨first, hi, h⟩ := Option.bind_eq_some_iff.1 h
    obtain ⟨rfl, rfl⟩ := hfirst hi
    exact Or.inr ⟨j, rest, rfl, h⟩

/-- The page of a value has an element and a text. -/
theorem nodeAt?_standIn {place : Dom.Place} {n : Node}
    (h : Dom.nodeAt? (standIn t).nodes place = some n) :
    .node place n = standInElement t ∨ .node place n = standInText t := by
  rcases nodeAt?_singleton h with ⟨rfl, rfl⟩ | ⟨j, rest, rfl, hbelow⟩
  · exact Or.inl rfl
  · rcases nodeAt?_singleton hbelow with ⟨heq, rfl⟩ | ⟨k, behind, -, hnone⟩
    · rw [heq]
      exact Or.inr rfl
    · -- nothing stands below a text
      cases behind <;> cases hnone

theorem stringValue_document_standIn (t : String) :
    Item.stringValue (standIn t).nodes .document = t := by
  change String.ofList (t.toList ++ [] ++ []) = t
  rw [List.append_nil, List.append_nil, String.ofList_toList]

/-- Whatever stands on the page of a value has its text, apart from the binding of `xml`. -/
theorem stringValue_of_isIn_standIn {x : Item} (hx : x.IsIn (standIn t).nodes) :
    x.stringValue (standIn t).nodes = t ∨ x.stringValue (standIn t).nodes = xmlSpace := by
  cases hx with
  | document => exact Or.inl (stringValue_document_standIn t)
  | node h =>
    rcases nodeAt?_standIn h with heq | heq
    · rw [heq]
      exact Or.inl (stringValue_standIn t)
    · rw [heq]
      exact Or.inl String.ofList_toList
  | attr h ha =>
    rcases nodeAt?_standIn h with heq | heq
    · cases heq
      cases ha
    · cases heq
  | @binding owner tag cs i qualifier space h hb =>
    rcases nodeAt?_standIn h with heq | heq
    · rw [heq] at hb
      have hmem := List.mem_of_getElem? hb
      have hall : Item.bindings (standIn t).nodes (standInElement t) =
          [.binding [0] 0 (some "xml") xmlSpace] := by cbv
      rw [hall] at hmem
      cases List.mem_singleton.1 hmem
      exact Or.inr rfl
    · cases heq

/-- The text of a call with a path as its argument. -/
theorem eval_string {page : Page} {c : Context} {steps : List Step} {v : Object}
    (h : (Expr.call ⟨none, "string"⟩ [path .here steps]).eval page c = .ok v) :
    ∃ ys, (path .here steps).eval page c = .ok (.nodes ys) ∧
      v = .text (Object.toText page (.nodes ys)) := by
  rw [Expr.eval] at h
  obtain ⟨vs, hvs, h⟩ := except_bind_eq_ok.1 h
  rw [Expr.evalAll] at hvs
  obtain ⟨w, hw, hvs⟩ := except_bind_eq_ok.1 hvs
  rw [Expr.evalAll] at hvs
  cases hvs
  have hpath := hw
  rw [eval_path] at hw
  obtain ⟨ys, -, rfl⟩ := except_map_eq_ok.1 hw
  exact ⟨ys, hpath, (Except.ok.inj h).symm⟩

theorem strip_string (p : String) :
    Text.strip ("string(" ++ p ++ ")") = "string(" ++ p ++ ")" := by
  have hfront : Text.IsTrimmed Text.isBlank "string(".toList :=
    ⟨fun c hc => by rw [← Option.some.inj hc]; rfl, fun c hc => by rw [← Option.some.inj hc]; rfl⟩
  have hback : Text.IsTrimmed Text.isBlank [')'] :=
    ⟨fun c hc => by rw [← Option.some.inj hc]; rfl, fun c hc => by rw [← Option.some.inj hc]; rfl⟩
  have htrimmed := hfront.append hback nofun nofun p.toList
  have hlist : ("string(" ++ p ++ ")").toList = "string(".toList ++ p.toList ++ [')'] := by
    rw [String.toList_append, String.toList_append]
    rfl
  rw [Text.strip, hlist, htrimmed.trim_eq, ← hlist, String.ofList_toList]

theorem not_asksItself_string (p : String) : ¬AsksItself ("string(" ++ p ++ ")") := by
  rintro (h | h)
  all_goals
    rw [strip_string] at h
    have hlist := congrArg String.toList h
    rw [String.toList_append, String.toList_append] at hlist
    cases hlist

theorem not_goesUp_string (p up : String) : ¬GoesUp ("string(" ++ p ++ ")") up := by
  rintro (h | h)
  all_goals
    rw [strip_string, String.toList_append, String.toList_append] at h
    cases h

/-- The text of a climbing path at a value is that of what it finds from the element of the page in
which the value stands alone. -/
theorem ClimbingParts.exists_ask_string (hp : ClimbingParts p) {a : Answer Match}
    (h : (Match.value t source owner).ask ("string(" ++ p ++ ")") = pure a) : ∃ ys,
      (path .here (.above :: hp.steps)).eval (standIn t) ⟨standInElement t, none⟩ =
        .ok (.nodes ys) ∧ a = .text (Object.toText (standIn t) (.nodes ys)) := by
  rw [ask_value_of_alone (not_asksItself_string p) (not_goesUp_string p), strip_string] at h
  split_ifs at h
  · cases congrArg Run.outcome h
  · obtain ⟨-, h⟩ := askSite_eq_pure_iff.1 h
    obtain ⟨e, hread, -⟩ := except_bind_eq_ok.1 h
    have hlist : ("string(" ++ p ++ ")").toList = "string(".toList ++
        (hp.before ++ '.' :: '.' :: (hp.rest ++ (hp.behind ++ [')']))) := by
      rw [String.toList_append, String.toList_append, hp.toList_eq]
      simp
    obtain rfl := hp.moreSteps.eq_of_read_string hp.behind_blank hp.before_blank hlist hread
    rw [answerAt_of_read hread, itemAt_standIn] at h
    obtain ⟨v, hv, rfl⟩ := except_map_eq_ok.1 h
    obtain ⟨ys, hys, rfl⟩ := eval_string hv
    exact ⟨ys, hys, rfl⟩

/-- Inside a call the step to the parent leads to the page in which the value stands alone. -/
theorem ask_string_points (h : IsPageText t) :
    (Match.value t source owner).ask "string(..)" = pure (.text t) := by
  have hcall : "string(" ++ ".." ++ ")" = "string(..)" := by decide
  have hread : Expr.read "string(..)" = .ok (.call ⟨none, "string"⟩ [path .here [.above]]) := by cbv
  have heval : (Expr.call ⟨none, "string"⟩ [path .here [.above]]).eval
      (Site.root (standIn t)).page ⟨standInElement t, none⟩ = .ok (.text t) := by
    have habove : (path .here [.above]).eval (standIn t) ⟨standInElement t, none⟩ =
        .ok (.nodes [.document]) := by cbv
    have htext : (Object.nodes [.document]).toText (standIn t) = t :=
      stringValue_document_standIn t
    rw [Expr.eval, Expr.evalAll, Expr.evalAll]
    refine except_bind_eq_ok.2 ⟨[.nodes [.document]], except_bind_eq_ok.2 ⟨_, habove, rfl⟩, ?_⟩
    exact congrArg (fun s => Except.ok (Object.text s)) htext
  rw [← hcall, ask_value_of_alone (not_asksItself_string "..") (not_goesUp_string ".."),
    strip_string, hcall, if_neg fun hnot => not_isPageText_iff.2 hnot h, askSite_eq_pure_iff]
  refine ⟨isPageText_iff.2 (by decide), ?_⟩
  rw [answerAt_of_read hread, itemAt_standIn, heval]
  rfl

end Text

/-- **In a union only the first of two climbing paths climbs from the value; the other one climbs
from its element.  The text of a climbing path is read off the page in which the value stands alone,
so it is that of the value or says nothing of it.** -/
theorem Match.ask_value_composes {page : Page} (hpage : Parsed page) {s : Site} (hs : s.page = page)
    {e : Expr} {xs : List Item} (heval : e.eval page ⟨itemAt s, none⟩ = .ok (.nodes xs))
    {x : Item} (hx : x ∈ xs) {t : String} {source : Source} {owner : Option Site}
    (hmatch : x.match? page = some (.value t source owner)) :
    ∃ parent : Site, parent.page = page ∧ IsElementAt parent ∧
      x.onAxis page.nodes .parent = [itemAt parent] ∧
      (∀ p q ms ns, IsClimbing p → IsClimbing q →
        (Match.value t source owner).ask p = pure (.nodes ms) →
        (Match.node parent).ask q = pure (.nodes ns) →
        ∃ both, (Match.value t source owner).ask (p ++ " | " ++ q) = pure (.nodes both) ∧
          ∀ m, m ∈ both ↔ m ∈ ms ∨ m ∈ ns) ∧
      (∀ p a, IsClimbing p → (Match.value t source owner).ask ("string(" ++ p ++ ")") = pure a →
        ∃ climb ys, Expr.read (unblanked p) = .ok climb ∧
          climb.eval (standIn t) ⟨standInElement t, none⟩ = .ok (.nodes ys) ∧
          a = .text (Object.toText (standIn t) (.nodes ys)) ∧
          Object.toText (standIn t) (.nodes ys) ∈ ["", t, xmlSpace]) ∧
      (IsPageText t → (Match.value t source owner).ask "string(..)" = pure (.text t)) := by
  obtain ⟨parent, rfl, hparent, helement, haxis⟩ :=
    exists_parent hpage.noText (eval_isIn (hs ▸ itemAt_isIn s) e heval x hx) hmatch
  refine ⟨parent, hparent, helement, haxis, fun p q ms ns hp hq hleft hright => ?_,
    fun p a hp ha => ?_, ask_string_points⟩
  · obtain ⟨hp⟩ := hp.nonempty_parts
    obtain ⟨hq⟩ := hq.nonempty_parts
    exact hp.exists_ask_union hq hleft hright
  · obtain ⟨hp⟩ := hp.nonempty_parts
    obtain ⟨ys, hys, rfl⟩ := hp.exists_ask_string ha
    refine ⟨_, ys, hp.read, hys, rfl, ?_⟩
    -- the text of a set is that of its first item
    cases ys with
    | nil => exact List.mem_cons_self
    | cons y ys =>
      have hy := eval_isIn (itemAt_isIn (.root (standIn t))) _ hys y List.mem_cons_self
      rcases stringValue_of_isIn_standIn hy with htext | htext
      · rw [Object.toText, htext]
        simp
      · rw [Object.toText, htext]
        simp

/-- The item at a site is at its place. -/
theorem eq_of_itemAt {s : Site} {place : Dom.Place} {n : Node} (h : itemAt s = .node place n) :
    s.place = place := by
  unfold itemAt at h
  split at h
  · exact (Item.node.inj h).1
  · cases h

/-- From the text after an element the second path goes on at the paragraph, and does not lead to
the element but to the paragraph again. -/
theorem Match.ask_value_composes_tail :
    (∃ both, (Match.value "y" (.text true) (some ⟨tailPage, [0]⟩)).ask (".." ++ " | " ++ "../*") =
        pure (.nodes both) ∧ ∀ m, m ∈ both ↔ m = .node ⟨tailPage, [0]⟩) ∧
      (Match.value "y" (.text true) (some ⟨tailPage, [0]⟩)).ask "string(..)" =
        pure (.text "y") := by
  have hparsed : Parsed tailPage := .xml (s := "<p><b/>y</p>") (by cbv)
  have heval : Expr.eval tailPage ⟨itemAt (.root tailPage), none⟩
      (.step .here (.mk .child .text [])) = .ok (.nodes [.node [0, 1] (.text "y" false)]) := by
    cbv
  have hmatch : (Item.node [0, 1] (.text "y" false)).match? tailPage =
      some (.value "y" (.text true) (some ⟨tailPage, [0]⟩)) := rfl
  obtain ⟨⟨_, place⟩, rfl, -, haxis, hunion, -, htext⟩ :=
    Match.ask_value_composes hparsed rfl heval List.mem_cons_self hmatch
  obtain rfl : place = [0] := eq_of_itemAt (List.cons.inj haxis).1.symm
  have hdots : Expr.read ".." = .ok (path .here [.above]) := by cbv
  have hstar : Expr.read "../*" = .ok (path .here [.above, .mk .child (.anyName none) []]) := by cbv
  have hunblanked : unblanked ".." = ".." := by decide +kernel
  have hunblanked' : unblanked "../*" = "../*" := by decide +kernel
  have hstrip : Text.strip ".." = ".." := by decide +kernel
  have hstrip' : Text.strip "../*" = "../*" := by decide +kernel
  have hleft : (Match.value "y" (.text true) (some ⟨tailPage, [0]⟩)).ask ".." =
      pure (.nodes [.node ⟨tailPage, [0]⟩]) := by
    have hup : GoesUp ".." (String.ofList ['.']) := .climbs (by rw [hstrip]; rfl)
    rw [ask_value_of_goesUp hup, askSite_eq_pure_iff]
    refine ⟨isPageText_iff.2 (by decide), ?_⟩
    rw [answerAt_of_read read_dot]
    cbv
  have hright : (Match.node ⟨tailPage, [0]⟩).ask "../*" =
      pure (.nodes [.node ⟨tailPage, [0]⟩]) := by
    rw [Match.ask, askSite_eq_pure_iff]
    refine ⟨isPageText_iff.2 (by decide), ?_⟩
    rw [answerAt_of_read hstar]
    cbv
  obtain ⟨both, hboth, hmem⟩ := hunion ".." "../*" _ _
    ⟨by rw [hunblanked]; decide, ⟨_, hunblanked.symm ▸ hdots⟩, hstrip.trans hunblanked.symm⟩
    ⟨by rw [hunblanked']; decide, ⟨_, hunblanked'.symm ▸ hstar⟩, hstrip'.trans hunblanked'.symm⟩
    hleft hright
  exact ⟨⟨both, hboth, fun m => by simp [hmem]⟩, htext (isPageText_iff.2 (by decide))⟩

end PagePlan.XPath
