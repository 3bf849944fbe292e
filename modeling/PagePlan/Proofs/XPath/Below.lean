/-
# Queries for what stands below a value

Nothing stands below an attribute or a text.  But a query that does not lead away from a value is
put to the element of a page in which the value stands alone, and that element has a child: the text
itself.  It is the only item that a first step downwards can reach, wherever the steps in front of
it linger, so such a path finds nothing if the step asks for attributes or its test is not one that
a text passes.  If texts pass it, the path finds the value again, in its other place.

* `Match.ask_value_below` — paths that lead down from a value, and what fields make of them.
-/
import PagePlan.Proofs.Plan.Conformance
import PagePlan.Proofs.XPath.Narrowing
import PagePlan.Proofs.XPath.Path
import PagePlan.Proofs.XPath.StandIn

namespace PagePlan.XPath

open Dom (Page Site)

/-! ### Steps one after the other -/

section Steps

variable {page : Page} {c : Context} {xs ys : List Item}

/-- A row of steps from the context node gives a set, unless a step has a problem. -/
theorem eval_path (steps : List Step) : (path .here steps).eval page c =
    Object.nodes <$> steps.foldlM (fun xs s => Step.eval page s xs) [c.item] := by
  induction steps using List.reverseRecOn with
  | nil =>
    rw [path_nil, Expr.eval]
    rfl
  | append_singleton init last ih =>
    rw [path_append, path_cons, path_nil, Expr.eval, ih, List.foldlM_append]
    cases init.foldlM (fun xs s => Step.eval page s xs) [c.item] with
    | error problem => rfl
    | ok xs =>
      simp only [List.foldlM_cons, List.foldlM_nil, bind_pure]
      cases Step.eval page last xs <;> rfl

/-- What every step of a row keeps is kept by the row. -/
theorem foldlM_step_keeps {P : List Item → Prop} {steps : List Step}
    (hkeeps : ∀ s ∈ steps, ∀ xs ys, P xs → Step.eval page s xs = .ok ys → P ys) (hxs : P xs)
    (h : steps.foldlM (fun xs s => Step.eval page s xs) xs = .ok ys) : P ys := by
  induction steps generalizing xs with
  | nil =>
    cases h
    exact hxs
  | cons s steps ih =>
    obtain ⟨zs, hzs, h⟩ := except_bind_eq_ok.1 h
    rw [List.forall_mem_cons] at hkeeps
    exact ih hkeeps.2 (hkeeps.1 _ _ hxs hzs) h

/-- From nowhere a step leads nowhere. -/
theorem eval_step_nil {s : Step} (h : Step.eval page s [] = .ok ys) : ys = [] := by
  obtain ⟨axis, test, predicates⟩ := s
  refine List.eq_nil_iff_forall_not_mem.2 fun y hy => ?_
  obtain ⟨-, x, hx, -⟩ := exists_onAxis_of_step h y hy
  cases hx

end Steps

/-! ### Paths that lead down -/

/-- Steps that stay at the context node or lead anywhere below it, as a point and two slashes do. -/
inductive Lingers : Step → Prop
  | itself (predicates : List Expr) : Lingers (.mk .self .anyNode predicates)
  | anyBelow (predicates : List Expr) : Lingers (.mk .descendantOrSelf .anyNode predicates)

/-- The axes to what a node has. -/
def Axis.leadsDown : Axis → Bool
  | .child | .descendant | .attributes => true
  | _ => false

/-- A path from the context node whose first step that does not linger leads to what a node has. -/
structure DownPath where
  lead : List Step
  axis : Axis
  test : NodeTest
  predicates : List Expr
  more : List Step
  lingers : ∀ s ∈ lead, Lingers s
  leadsDown : axis.leadsDown = true

namespace DownPath

variable (p : DownPath)

/-- The expression that a path is. -/
def expr : Expr := path .here (p.lead ++ .mk p.axis p.test p.predicates :: p.more)

/-- Whether a text can be what the first step down leads to. -/
def ReachesText : Prop := p.axis ≠ .attributes ∧ (p.test = .anyNode ∨ p.test = .text)

/-- Whether a path has one step down, and no predicates up to it. -/
def IsPlain : Prop :=
  (∀ s ∈ p.lead, s = .mk .self .anyNode [] ∨ s = .anyBelow) ∧ p.predicates = [] ∧ p.more = []

end DownPath

/-! ### A value that stands alone -/

/-- The element of the page of a value. -/
def standInElement (t : String) : Item :=
  .node [0] (.element ⟨.plain "value", [], []⟩ [.text t false])

/-- The text of the page of a value. -/
def standInText (t : String) : Item := .node [0, 0] (.text t false)

section Alone

variable {t : String} {xs ys : List Item}

theorem itemAt_standIn (t : String) : itemAt (.root (standIn t)) = standInElement t := rfl

/-- Items of the page of a value that a path can linger at. -/
def AtStandIn (t : String) (xs : List Item) : Prop :=
  ∀ x ∈ xs, x = standInElement t ∨ x = standInText t

theorem AtStandIn.of_lingers {s : Step} (hs : Lingers s) (hxs : AtStandIn t xs)
    (h : Step.eval (standIn t) s xs = .ok ys) : AtStandIn t ys := by
  intro y hy
  cases hs with
  | itself predicates =>
    obtain ⟨-, x, hx, hself⟩ := exists_onAxis_of_step h y hy
    rw [List.mem_singleton.1 hself]
    exact hxs x hx
  | anyBelow predicates =>
    obtain ⟨-, x, hx, hbelow⟩ := exists_onAxis_of_step h y hy
    rcases hxs x hx with rfl | rfl
    · have hbelow : y ∈ [standInElement t, standInText t] := hbelow
      simpa using hbelow
    · exact Or.inr (List.mem_singleton.1 hbelow)

/-- A step down leads to the text and nothing else, and only to what has it. -/
theorem AtStandIn.eq_standInText {axis : Axis} (haxis : axis.leadsDown = true)
    (hxs : AtStandIn t xs) {x y : Item} (hx : x ∈ xs) (hy : y ∈ x.onAxis (standIn t).nodes axis) :
    axis ≠ .attributes ∧ y = standInText t := by
  rcases hxs x hx with rfl | rfl
  · cases axis with
    | child | descendant => exact ⟨nofun, List.mem_singleton.1 hy⟩
    | attributes => cases hy
    | _ => cases haxis
  · cases axis with
    | child | descendant | attributes => cases hy
    | _ => cases haxis

/-- **A path that leads down from a value that stands alone finds nothing, unless its first step
down can find a text.** -/
theorem DownPath.eval_eq_nil {p : DownPath} (hp : ¬p.ReachesText) {v : Object}
    (h : p.expr.eval (standIn t) ⟨standInElement t, none⟩ = .ok v) : v = .nodes [] := by
  rw [expr, eval_path, List.foldlM_append] at h
  -- `xs` is where the path has lingered, `ys` what the first step down leads to
  obtain ⟨zs, hzs, rfl⟩ := except_map_eq_ok.1 h
  obtain ⟨xs, hxs, hzs⟩ := except_bind_eq_ok.1 hzs
  obtain ⟨ys, hys, hzs⟩ := except_bind_eq_ok.1 hzs
  have hat : AtStandIn t xs := foldlM_step_keeps
    (fun s hs _ _ hat h => AtStandIn.of_lingers (p.lingers s hs) hat h)
    (fun x hx => Or.inl (List.mem_singleton.1 hx)) hxs
  obtain rfl : ys = [] := List.eq_nil_iff_forall_not_mem.2 fun y hy => by
    obtain ⟨hpasses, x, hx, haxis⟩ := exists_onAxis_of_step hys y hy
    obtain ⟨hchild, rfl⟩ := hat.eq_standInText p.leadsDown hx haxis
    refine hp ⟨hchild, ?_⟩
    cases htest : p.test with
    | anyNode => exact Or.inl rfl
    | text => exact Or.inr rfl
    | instruction target =>
      rw [htest] at hpasses
      cases target <;> cases hpasses
    | _ =>
      rw [htest] at hpasses
      cases hpasses
  have hnil : zs = [] := foldlM_step_keeps (P := (· = []))
    (fun s _ _ _ hnil h => eval_step_nil (hnil ▸ h)) rfl hzs
  rw [hnil]

/-- The sets that a path without predicates can linger at. -/
def IsPlainSet (t : String) (xs : List Item) : Prop :=
  xs = [standInElement t] ∨ xs = [standInElement t, standInText t]

theorem IsPlainSet.exists_of_step {s : Step} (hs : s = .mk .self .anyNode [] ∨ s = .anyBelow)
    (hxs : IsPlainSet t xs) : ∃ ys, Step.eval (standIn t) s xs = .ok ys ∧ IsPlainSet t ys := by
  rcases hs with rfl | rfl <;> rcases hxs with rfl | rfl
  · exact ⟨[standInElement t], by cbv, Or.inl rfl⟩
  · exact ⟨[standInElement t, standInText t], by cbv, Or.inr rfl⟩
  · exact ⟨[standInElement t, standInText t], by cbv, Or.inr rfl⟩
  · exact ⟨[standInElement t, standInText t], by cbv, Or.inr rfl⟩

theorem IsPlainSet.exists_of_lead {lead : List Step}
    (hlead : ∀ s ∈ lead, s = .mk .self .anyNode [] ∨ s = .anyBelow) (hxs : IsPlainSet t xs) :
    ∃ ys, lead.foldlM (fun xs s => Step.eval (standIn t) s xs) xs = .ok ys ∧
      IsPlainSet t ys := by
  induction lead generalizing xs with
  | nil => exact ⟨xs, rfl, hxs⟩
  | cons s lead ih =>
    rw [List.forall_mem_cons] at hlead
    obtain ⟨ys, hys, hplain⟩ := hxs.exists_of_step hlead.1
    obtain ⟨zs, hzs, hplain⟩ := ih hlead.2 hplain
    exact ⟨zs, except_bind_eq_ok.2 ⟨ys, hys, hzs⟩, hplain⟩

theorem IsPlainSet.eval_step {axis : Axis} {test : NodeTest}
    (haxis : axis = .child ∨ axis = .descendant) (htest : test = .anyNode ∨ test = .text)
    (hxs : IsPlainSet t xs) :
    Step.eval (standIn t) (.mk axis test []) xs = .ok [standInText t] := by
  rcases haxis with rfl | rfl <;> rcases htest with rfl | rfl <;> rcases hxs with rfl | rfl <;> cbv

/-- **A plain path down that can find a text finds the value.** -/
theorem DownPath.eval_eq_text {p : DownPath} (hp : p.ReachesText) (hplain : p.IsPlain) :
    p.expr.eval (standIn t) ⟨standInElement t, none⟩ = .ok (.nodes [standInText t]) := by
  obtain ⟨hchild, htest⟩ := hp
  obtain ⟨hlead, hpredicates, hmore⟩ := hplain
  have haxis : p.axis = .child ∨ p.axis = .descendant := by
    have hdown := p.leadsDown
    cases haxis : p.axis with
    | child => exact Or.inl rfl
    | descendant => exact Or.inr rfl
    | attributes => exact absurd haxis hchild
    | _ =>
      rw [haxis] at hdown
      cases hdown
  obtain ⟨xs, hxs, hset⟩ :=
    IsPlainSet.exists_of_lead hlead (Or.inl rfl : IsPlainSet t [standInElement t])
  rw [expr, eval_path, List.foldlM_append, hpredicates, hmore]
  refine except_map_eq_ok.2 ⟨_, except_bind_eq_ok.2 ⟨xs, hxs, ?_⟩, rfl⟩
  exact except_bind_eq_ok.2 ⟨_, hset.eval_step haxis htest, rfl⟩

end Alone

/-! ### Queries -/

section Ask

variable {q : String}

namespace DownPath

variable {p : DownPath} {steps : List Step}

/-- A path that leads down has a step that does. -/
theorem mem_steps (h : p.expr = path .here steps) : .mk p.axis p.test p.predicates ∈ steps := by
  rw [← (path_inj isStart_here isStart_here h).2]
  simp

/-- Its first step is not to the parent. -/
theorem ne_above (h : p.expr = path .here steps) (more : List Step) : steps ≠ .above :: more := by
  rintro rfl
  have hsteps := (path_inj isStart_here isStart_here h).2
  have hlingers := p.lingers
  cases hlead : p.lead with
  | nil =>
    rw [hlead] at hsteps
    have haxis : p.axis = .parent := (Step.mk.inj (List.cons.inj hsteps).1).1
    have hdown := p.leadsDown
    rw [haxis] at hdown
    cases hdown
  | cons s lead =>
    rw [hlead] at hsteps hlingers
    have habove := hlingers s List.mem_cons_self
    rw [(List.cons.inj hsteps).1] at habove
    cases habove

theorem not_asksItself (hread : Expr.read (Text.strip q) = .ok p.expr) : ¬AsksItself q := by
  rintro (hself | hself)
  · rw [hself, read_dot] at hread
    have hexpr : p.expr = path .here [] := (Except.ok.inj hread).symm
    cases mem_steps hexpr
  · rw [hself, read_selfNode] at hread
    have hexpr : p.expr = path .here [.mk .self .anyNode []] := (Except.ok.inj hread).symm
    have hmem := mem_steps hexpr
    have haxis : p.axis = .self := (Step.mk.inj (List.mem_singleton.1 hmem)).1
    have hdown := p.leadsDown
    rw [haxis] at hdown
    cases hdown

theorem not_goesUp (hread : Expr.read (Text.strip q) = .ok p.expr) (up : String) :
    ¬GoesUp q up := by
  have hnested := Grammar.readNested_of_read hread
  rintro (hclimbs | htop)
  · rw [hclimbs] at hnested
    obtain ⟨more, habove, -⟩ := Grammar.exists_moreSteps_of_read hnested
    exact ne_above rfl more habove
  · rw [htop] at hnested
    exact Grammar.ne_path_here_of_slash hnested _ rfl

end DownPath

variable (t : String) (source : Source) (owner : Option Site) {p : DownPath}

/-- **A path that leads down from a value finds nothing and its field is null, unless its first step
down can find a text; a plain one that can finds the value itself.** -/
theorem Match.ask_value_below (hread : Expr.read (Text.strip q) = .ok p.expr) :
    (¬(IsPageText t ∧ IsPageText (Text.strip q)) ∧
      ((Match.value t source owner).ask q).outcome = .error .notPageText) ∨
    ((IsPageText t ∧ IsPageText (Text.strip q)) ∧
      (¬p.ReachesText → ((Match.value t source owner).ask q).outcome = .ok (.nodes []) ∧
        ∀ type transform, (evaluator.extractPrimitive (.value t source owner)
          ⟨q, type, transform⟩).outcome = .ok .null) ∧
      (p.ReachesText → p.IsPlain → ((Match.value t source owner).ask q).outcome =
          .ok (.nodes [.value t (.text false) (some (.root (standIn t)))]) ∧
        ∀ type transform, (evaluator.extractPrimitive (.value t source owner)
          ⟨q, type, transform⟩).outcome = coerce (Text.strip t) type)) := by
  -- the value is tested before the query, and either can be refused
  have halone : (Match.value t source owner).ask q = _ :=
    ask_value_of_alone (p.not_asksItself hread) (p.not_goesUp hread)
  by_cases ht : IsPageText t
  swap
  · rw [halone, if_pos (not_isPageText_iff.1 ht)]
    exact Or.inl ⟨fun hfit => ht hfit.1, rfl⟩
  rw [if_neg fun hnot => not_isPageText_iff.2 hnot ht] at halone
  by_cases hq : IsPageText (Text.strip q)
  swap
  · rw [halone]
    exact Or.inl ⟨fun hfit => hq hfit.2, askSite_of_unfit hq⟩
  have hask := askSite_outcome (s := .root (standIn t)) hq
  rw [← halone, answerAt_of_read hread, itemAt_standIn] at hask
  have hfield {a} (ha : (evaluator.answer (.value t source owner) q).outcome = .ok a)
      (type : ValueType) (transform : Option String) :=
    Evaluator.extractPrimitive_outcome (p := ⟨q, type, transform⟩) ha
  refine Or.inr ⟨⟨ht, hq⟩, fun hp => ?_, fun hp hplain => ?_⟩
  · have hnothing : ((Match.value t source owner).ask q).outcome = .ok (.nodes []) := by
      rw [hask]
      cases heval : p.expr.eval (Site.root (standIn t)).page ⟨standInElement t, none⟩ with
      | error problem =>
        -- a later step has a problem, and then nothing matches either
        rfl
      | ok v =>
        rw [DownPath.eval_eq_nil hp heval]
        rfl
    exact ⟨hnothing, hfield hnothing⟩
  · have hfound : ((Match.value t source owner).ask q).outcome =
        .ok (.nodes [.value t (.text false) (some (.root (standIn t)))]) := by
      have heval : p.expr.eval (Site.root (standIn t)).page ⟨standInElement t, none⟩ = _ :=
        DownPath.eval_eq_text hp hplain
      rw [hask, heval]
      rfl
    exact ⟨hfound, hfield hfound⟩

/-- The address of a link. -/
def linkAddress : Match :=
  .value "/item" (.attribute ⟨.plain "href", some "/item"⟩) (some ⟨linkPage, [0]⟩)

/-- Below the address there is no element, but there is a text: the address. -/
theorem Match.ask_value_below_link :
    (linkAddress.ask ".//*").outcome = .ok (.nodes []) ∧
      (linkAddress.ask "child::text()").outcome =
        .ok (.nodes [.value "/item" (.text false) (some (.root (standIn "/item")))]) := by
  have hlingers : ∀ s ∈ [Step.anyBelow], Lingers s := by
    intro s hs
    rw [List.mem_singleton.1 hs]
    exact .anyBelow []
  have helements : Text.strip ".//*" = ".//*" := by decide +kernel
  have htexts : Text.strip "child::text()" = "child::text()" := by decide +kernel
  have hread : Expr.read ".//*" =
      .ok (DownPath.expr ⟨[.anyBelow], .child, .anyName none, [], [], hlingers, rfl⟩) := by cbv
  have hread' : Expr.read "child::text()" =
      .ok (DownPath.expr ⟨[], .child, .text, [], [], List.forall_mem_nil _, rfl⟩) := by cbv
  have hpage : IsPageText "/item" := isPageText_iff.2 (by decide)
  have hchild : Axis.child ≠ .attributes := by
    rintro ⟨⟩
  constructor
  · rcases Match.ask_value_below "/item" (.attribute ⟨.plain "href", some "/item"⟩)
      (some ⟨linkPage, [0]⟩) (helements.symm ▸ hread) with ⟨hnot, -⟩ | ⟨-, hnothing, -⟩
    · exact absurd ⟨hpage, helements.symm ▸ isPageText_iff.2 (by decide)⟩ hnot
    · refine (hnothing ?_).1
      rintro ⟨-, htest | htest⟩ <;> cases htest
  · rcases Match.ask_value_below "/item" (.attribute ⟨.plain "href", some "/item"⟩)
      (some ⟨linkPage, [0]⟩) (htexts.symm ▸ hread') with ⟨hnot, -⟩ | ⟨-, -, hfound⟩
    · exact absurd ⟨hpage, htexts.symm ▸ isPageText_iff.2 (by decide)⟩ hnot
    · exact (hfound ⟨hchild, Or.inr rfl⟩ ⟨List.forall_mem_nil _, rfl, rfl⟩).1

end Ask

end PagePlan.XPath
