/-
# Items of a page

An item is of a page if its place leads to its node there.  Every axis leads from items of a page
to items of the page, and an expression only follows axes and leaves items out; so whatever an
expression selects is of the page.  For the items above an item this says what they are: the nodes
at the beginnings of its place, the nearest first, and the page itself.

* `exists_onAxis_of_step` — where a step leads;
* `KeptBy.of_eval` — what expressions keep holds of the items that an expression gives;
* `eval_isIn` — these items are of the page.
-/
import PagePlan.XPath.Evaluation
import PagePlan.Proofs.Outcome
import Mathlib.Data.List.Basic
import Mathlib.Tactic.SplitIfs

namespace PagePlan

open Dom (Node Place Page)

namespace Dom

/-! ### Places -/

theorem nodeAt?_cons (ns : List Node) (i j : Nat) (p : Place) :
    nodeAt? ns (i :: j :: p) = ns[i]?.bind fun n => nodeAt? n.children (j :: p) := by
  rw [nodeAt?]
  · cases ns[i]? <;> rfl
  · nofun

/-- What stands beside a place depends on the place above it alone. -/
theorem levelAt_concat (ns : List Node) (p : Place) (i j : Nat) :
    levelAt ns (p ++ [i]) = levelAt ns (p ++ [j]) := by
  rw [levelAt, levelAt, List.dropLast_concat, List.dropLast_concat]

theorem levelAt_concat_of_some {ns : List Node} {p : Place} {n : Node}
    (h : nodeAt? ns p = some n) (i : Nat) : levelAt ns (p ++ [i]) = n.children := by
  rw [levelAt, List.dropLast_concat]
  cases p with
  | nil => cases h
  | cons j p => simp only [h, Option.map_some, Option.getD_some]

theorem levelAt_cons (ns : List Node) (j : Nat) (p : Place) (i : Nat) :
    levelAt ns (j :: (p ++ [i])) =
      (ns[j]?.map fun n => levelAt n.children (p ++ [i])).getD [] := by
  rw [← List.cons_append, levelAt, List.dropLast_concat]
  cases p with
  | nil => rfl
  | cons k p =>
    simp only [nodeAt?_cons, levelAt, List.dropLast_concat]
    cases ns[j]? <;> rfl

/-- The last number of a place tells the node among those beside it. -/
theorem nodeAt?_concat (ns : List Node) (p : Place) (i : Nat) :
    nodeAt? ns (p ++ [i]) = (levelAt ns (p ++ [i]))[i]? := by
  -- places are followed from the top, so the induction takes the first number off
  induction p generalizing ns with
  | nil => rfl
  | cons j p ih =>
    have hcons : nodeAt? ns (j :: (p ++ [i])) =
        ns[j]?.bind fun n => nodeAt? n.children (p ++ [i]) := by
      cases p <;> exact nodeAt?_cons ns j _ _
    rw [List.cons_append, hcons, levelAt_cons]
    cases ns[j]? with
    | none => rfl
    | some n => exact ih n.children

/-- The nodes below a place are the children of its node. -/
theorem nodeAt?_concat_of_some {ns : List Node} {p : Place} {n : Node}
    (h : nodeAt? ns p = some n) (i : Nat) : nodeAt? ns (p ++ [i]) = n.children[i]? := by
  rw [nodeAt?_concat, levelAt_concat_of_some h]

/-- The nodes beside a place are at the places that differ in the last number. -/
theorem nodeAt?_beside (ns : List Node) (p : Place) (i : Nat) :
    nodeAt? ns (p.dropLast ++ [i]) = (levelAt ns p)[i]? := by
  rcases List.eq_nil_or_concat p with rfl | ⟨above, j, rfl⟩
  · rfl
  · rw [List.concat_eq_append, List.dropLast_concat, nodeAt?_concat, levelAt_concat ns above i j]

end Dom

namespace XPath

/-- An item that a page has. -/
inductive Item.IsIn (top : List Node) : Item → Prop
  | document : IsIn top .document
  | node {place : Place} {n : Node} : Dom.nodeAt? top place = some n → IsIn top (.node place n)
  | attr {owner : Place} {tag : Dom.Tag} {cs : List Node} {i : Nat} {a : Dom.Attribute} :
      Dom.nodeAt? top owner = some (.element tag cs) → tag.attributes[i]? = some a →
      IsIn top (.attr owner i a)
  | binding {owner : Place} {tag : Dom.Tag} {cs : List Node} {i : Nat}
      {qualifier : Option String} {space : String} :
      Dom.nodeAt? top owner = some (.element tag cs) →
      (Item.bindings top (.node owner (.element tag cs)))[i]? =
        some (.binding owner i qualifier space) →
      IsIn top (.binding owner i qualifier space)

/-- Items all of which a page has. -/
def AllIn (top : List Node) (xs : List Item) : Prop := ∀ x ∈ xs, x.IsIn top

section

variable {top : List Node} {x : Item} {xs ys : List Item}

theorem AllIn.of_subset (h : AllIn top xs) (hsub : ys ⊆ xs) : AllIn top ys :=
  fun y hy => h y (hsub hy)

theorem AllIn.append (h : AllIn top xs) (h' : AllIn top ys) : AllIn top (xs ++ ys) :=
  List.forall_mem_append.2 ⟨h, h'⟩

theorem AllIn.flatMap {α : Type} {as : List α} {f : α → List Item}
    (h : ∀ a ∈ as, AllIn top (f a)) : AllIn top (as.flatMap f) := by
  intro y hy
  obtain ⟨a, ha, hy⟩ := List.mem_flatMap.1 hy
  exact h a ha y hy

theorem allIn_nil : AllIn top [] := nofun

theorem allIn_singleton (h : x.IsIn top) : AllIn top [x] := by
  simpa [AllIn] using h

namespace Item

/-! ### Axes -/

/-- The nodes of a level are of the page if the places below lead to them. -/
theorem allIn_level {place : Place} {ns : List Node}
    (h : ∀ i, Dom.nodeAt? top (place ++ [i]) = ns[i]?) : AllIn top (level place ns) := by
  intro y hy
  obtain ⟨⟨n, i⟩, hn, rfl⟩ := List.mem_map.1 hy
  exact .node ((h i).trans (List.mem_zipIdx_iff_getElem?.1 hn))

mutual

/-- So are the nodes below a node. -/
theorem allIn_below {place : Place} {n : Node} (h : Dom.nodeAt? top place = some n) :
    AllIn top (below place n) := by
  cases n with
  | element tag cs =>
    rw [below]
    refine allIn_belowAll fun j => ?_
    rw [Nat.zero_add]
    exact Dom.nodeAt?_concat_of_some h j
  | text s verbatim => exact allIn_nil
  | comment s => exact allIn_nil
  | instruction target content => exact allIn_nil

theorem allIn_belowAll {place : Place} {i : Nat} {ns : List Node}
    (h : ∀ j, Dom.nodeAt? top (place ++ [i + j]) = ns[j]?) : AllIn top (belowAll place i ns) := by
  cases ns with
  | nil => exact allIn_nil
  | cons n ns =>
    have hn : Dom.nodeAt? top (place ++ [i]) = some n := h 0
    rw [belowAll]
    refine AllIn.append (AllIn.append (allIn_singleton (.node hn)) (allIn_below hn)) ?_
    refine allIn_belowAll fun j => ?_
    rw [Nat.add_right_comm]
    exact h (j + 1)

end

theorem allIn_lineage (top : List Node) (place : Place) : AllIn top (lineage top place) := by
  refine AllIn.append ?_ (allIn_singleton .document)
  intro y hy
  obtain ⟨k, -, hk⟩ := List.mem_filterMap.1 hy
  obtain ⟨n, hn, rfl⟩ := Option.map_eq_some_iff.1 hk
  exact .node hn

theorem allIn_children (h : x.IsIn top) : AllIn top (x.children top) := by
  cases h with
  | document => exact allIn_level fun i => rfl
  | node h => exact allIn_level (Dom.nodeAt?_concat_of_some h)
  | attr _ _ => exact allIn_nil
  | binding _ => exact allIn_nil

theorem allIn_descendants (h : x.IsIn top) : AllIn top (x.descendants top) := by
  cases h with
  | document =>
    refine allIn_belowAll fun j => ?_
    rw [Nat.zero_add]
    rfl
  | node h => exact allIn_below h
  | attr _ _ => exact allIn_nil
  | binding _ => exact allIn_nil

theorem allIn_withDescendants (h : x.IsIn top) : AllIn top (x.withDescendants top) :=
  (allIn_singleton h).append (allIn_descendants h)

theorem allIn_ancestors (x : Item) : AllIn top (x.ancestors top) := by
  cases x with
  | document => exact allIn_nil
  | node place n => exact (allIn_lineage top place).of_subset (List.drop_subset _ _)
  | attr owner i a => exact allIn_lineage top owner
  | binding owner i qualifier space => exact allIn_lineage top owner

theorem allIn_levelAfter (top : List Node) (place : Place) : AllIn top (levelAfter top place) :=
  (allIn_level (Dom.nodeAt?_beside top place)).of_subset (List.drop_subset _ _)

theorem allIn_levelBefore (top : List Node) (place : Place) : AllIn top (levelBefore top place) :=
  (allIn_level (Dom.nodeAt?_beside top place)).of_subset fun _ hy =>
    List.take_subset _ _ (List.mem_reverse.1 hy)

theorem allIn_following (x : Item) : AllIn top (x.following top) :=
  .flatMap fun p _ => .flatMap fun y hy => allIn_withDescendants (allIn_levelAfter top p y hy)

theorem allIn_preceding (x : Item) : AllIn top (x.preceding top) :=
  .flatMap fun p _ => .flatMap fun y hy =>
    (allIn_withDescendants (allIn_levelBefore top p y hy)).of_subset fun _ => List.mem_reverse.1

theorem allIn_bindings (h : x.IsIn top) : AllIn top (x.bindings top) := by
  unfold bindings
  split
  · cases h with
    | node h =>
      intro y hy
      obtain ⟨⟨⟨qualifier, space⟩, i⟩, hi, rfl⟩ := List.mem_map.1 hy
      refine .binding h ?_
      rw [bindings, List.getElem?_map, List.getElem?_zipIdx, List.mem_zipIdx_iff_getElem?.1 hi]
      simp
  · exact allIn_nil

theorem allIn_attributes (h : x.IsIn top) : AllIn top x.attributes := by
  unfold attributes
  split
  · cases h with
    | node h =>
      intro y hy
      obtain ⟨⟨a, i⟩, ha, rfl⟩ := List.mem_map.1 hy
      exact .attr h (List.mem_zipIdx_iff_getElem?.1 ha)
  · exact allIn_nil

/-- **Every axis leads from an item of a page to items of the page.** -/
theorem allIn_onAxis (h : x.IsIn top) (axis : Axis) : AllIn top (x.onAxis top axis) := by
  cases axis with
  | ancestor => exact allIn_ancestors x
  | ancestorOrSelf => exact (allIn_singleton h).append (allIn_ancestors x)
  | attributes => exact allIn_attributes h
  | child => exact allIn_children h
  | descendant => exact allIn_descendants h
  | descendantOrSelf => exact allIn_withDescendants h
  | following => exact allIn_following x
  | followingSibling =>
    cases x with
    | node place n => exact allIn_levelAfter top place
    | _ => exact allIn_nil
  | namespaces => exact allIn_bindings h
  | parent => exact (allIn_ancestors x).of_subset (List.take_subset _ _)
  | preceding => exact allIn_preceding x
  | precedingSibling =>
    cases x with
    | node place n => exact allIn_levelBefore top place
    | _ => exact allIn_nil
  | self => exact allIn_singleton h

/-! ### Sets of items -/

theorem allIn_merge (hxs : AllIn top xs) (hys : AllIn top ys) : AllIn top (merge xs ys) := by
  fun_induction merge xs ys with
  | case1 ys => exact hys
  | case2 xs h => exact hxs
  | case3 x xs y ys h ih =>
    rw [AllIn, List.forall_mem_cons] at hxs hys
    exact (allIn_singleton hxs.1).append (ih hxs.2 hys.2)
  | case4 x xs y ys h hlt ih =>
    rw [AllIn, List.forall_mem_cons] at hxs
    exact (allIn_singleton hxs.1).append (ih hxs.2 hys)
  | case5 x xs y ys h hlt ih =>
    rw [AllIn, List.forall_mem_cons] at hys
    exact (allIn_singleton hys.1).append (ih hxs hys.2)

theorem unrepeated_sublist (xs : List Item) : (unrepeated xs).Sublist xs := by
  fun_induction unrepeated xs with
  | case1 => exact .slnil
  | case2 x => exact .refl _
  | case3 x y rest h ih => exact ih.cons x
  | case4 x y rest h ih => exact ih.cons_cons x

theorem allIn_sorted (h : AllIn top xs) : AllIn top (sorted xs) :=
  h.of_subset fun _ hy => List.mem_mergeSort.1 ((unrepeated_sublist _).subset hy)

end Item

/-! ### Expressions -/

variable {page : Page}

theorem Object.eq_nodes_of_items {v : Object} (h : v.items = .ok xs) : v = .nodes xs := by
  cases v with
  | nodes ys => rw [Except.ok.inj h]
  | _ => cases h

theorem select_subset {p : Expr} (h : Expr.select page p xs = .ok ys) : ys ⊆ xs := by
  rw [Expr.select] at h
  obtain ⟨kept, hkept, h⟩ := except_bind_eq_ok.1 h
  cases h
  intro y hy
  obtain ⟨_, hmem, rfl⟩ := List.mem_filterMap.1 hy
  obtain ⟨⟨x, i⟩, hx, hy⟩ := exists_of_mapM_eq_ok hkept _ hmem
  obtain ⟨v, -, hy⟩ := except_bind_eq_ok.1 hy
  split_ifs at hy
  · cases hy
    exact List.fst_mem_of_mem_zipIdx hx
  · cases hy

theorem selectAll_subset {ps : List Expr} (h : Expr.selectAll page ps xs = .ok ys) : ys ⊆ xs := by
  induction ps generalizing xs with
  | nil =>
    rw [Expr.selectAll] at h
    cases h
    exact List.Subset.refl _
  | cons p ps ih =>
    rw [Expr.selectAll] at h
    obtain ⟨kept, hkept, h⟩ := except_bind_eq_ok.1 h
    exact List.Subset.trans (ih h) (select_subset hkept)

/-- **A step leads along its axis, from the items that it starts at to items that pass its
test.** -/
theorem exists_onAxis_of_step {axis : Axis} {test : NodeTest} {predicates : List Expr}
    (h : Step.eval page (.mk axis test predicates) xs = .ok ys) :
    ∀ y ∈ ys, y.passes test axis = true ∧ ∃ x ∈ xs, y ∈ x.onAxis page.nodes axis := by
  rw [Step.eval] at h
  split_ifs at h
  obtain ⟨found, hfound, h⟩ := except_bind_eq_ok.1 h
  cases h
  intro y hy
  have hy := List.mem_mergeSort.1 ((Item.unrepeated_sublist _).subset hy)
  obtain ⟨zs, hzs, hy⟩ := List.mem_flatten.1 hy
  obtain ⟨x, hx, hselect⟩ := exists_of_mapM_eq_ok hfound zs hzs
  obtain ⟨haxis, hpasses⟩ := List.mem_filter.1 (selectAll_subset hselect hy)
  exact ⟨hpasses, x, hx, haxis⟩

/-- A step leads from items of a page to items of the page. -/
theorem allIn_step {s : Step} (hxs : AllIn page.nodes xs) (h : Step.eval page s xs = .ok ys) :
    AllIn page.nodes ys := by
  obtain ⟨axis, test, predicates⟩ := s
  intro y hy
  obtain ⟨-, x, hx, haxis⟩ := exists_onAxis_of_step h y hy
  exact Item.allIn_onAxis (hxs x hx) axis y haxis

theorem allIn_withIds (page : Page) (ids : List (List Char)) :
    AllIn page.nodes (Function.withIds page ids) := by
  refine Item.allIn_sorted fun y hy => ?_
  obtain ⟨id, -, hfound⟩ := List.mem_filterMap.1 hy
  exact Item.allIn_descendants .document y (List.mem_of_find?_eq_some hfound)

/-- Of the functions only the one that finds identifiers gives items. -/
theorem exists_withIds_of_apply {c : Context} {name : String} {arguments : List Object}
    (h : Function.apply page c name arguments = .ok (.nodes ys)) :
    ∃ ids, ys = Function.withIds page ids := by
  unfold Function.apply at h
  dsimp only at h
  split at h
  case h_5 =>
    split at h
    · cases h
      exact ⟨_, rfl⟩
    · cases h
  -- any other function gives a truth value, a number or a text, or has a problem
  all_goals
    repeat' split at h
    all_goals simp [except_bind_eq_ok, pure, Except.pure] at h

theorem combine_ne_nodes (op : Operator) (a b : Object) :
    Object.combine page op a b ≠ .nodes ys := by
  cases op <;> nofun

/-- Properties that the sets of items have which an expression gives at some context, because the
page and the context have them and whatever an expression does to sets keeps them. -/
structure KeptBy (page : Page) (c : Context) (P : List Item → Prop) : Prop where
  top : P [.document]
  here : P [c.item]
  ids (ids : List (List Char)) : P (Function.withIds page ids)
  merge {xs ys : List Item} : P xs → P ys → P (Item.merge xs ys)
  select {p : Expr} {xs ys : List Item} : P xs → Expr.select page p xs = .ok ys → P ys
  step {s : Step} {xs ys : List Item} : P xs → Step.eval page s xs = .ok ys → P ys

/-- **What expressions keep holds of the items that an expression gives.**  Predicates and arguments
only choose among items, so the recursion leaves them out. -/
theorem KeptBy.of_eval {c : Context} {P : List Item → Prop} (hP : KeptBy page c P) :
    (e : Expr) → {xs : List Item} → e.eval page c = .ok (.nodes xs) → P xs
  | .number _, _, h => by rw [Expr.eval] at h; cases h
  | .literal _, _, h => by rw [Expr.eval] at h; cases h
  | .variable, _, h => by rw [Expr.eval] at h; cases h
  | .negate e, _, h => by
    rw [Expr.eval] at h
    obtain ⟨v, -, h⟩ := except_bind_eq_ok.1 h
    cases h
  | .binary op left right, _, h => by
    rw [Expr.eval] at h
    obtain ⟨a, -, h⟩ := except_bind_eq_ok.1 h
    split_ifs at h
    · cases h
    · cases h
    · obtain ⟨b, -, h⟩ := except_bind_eq_ok.1 h
      exact absurd (Except.ok.inj h) (combine_ne_nodes op a b)
  | .union left right, _, h => by
    rw [Expr.eval] at h
    obtain ⟨a, ha, h⟩ := except_bind_eq_ok.1 h
    obtain ⟨b, hb, h⟩ := except_bind_eq_ok.1 h
    obtain ⟨as, has, h⟩ := except_bind_eq_ok.1 h
    obtain ⟨bs, hbs, h⟩ := except_bind_eq_ok.1 h
    cases h
    obtain rfl := Object.eq_nodes_of_items has
    obtain rfl := Object.eq_nodes_of_items hbs
    exact hP.merge (hP.of_eval left ha) (hP.of_eval right hb)
  | .call name arguments, _, h => by
    rw [Expr.eval] at h
    obtain ⟨vs, -, h⟩ := except_bind_eq_ok.1 h
    split at h
    · obtain ⟨ids, rfl⟩ := exists_withIds_of_apply h
      exact hP.ids ids
    · cases h
  | .top, _, h => by
    rw [Expr.eval] at h
    cases h
    exact hP.top
  | .here, _, h => by
    rw [Expr.eval] at h
    cases h
    exact hP.here
  | .filter e p, _, h => by
    rw [Expr.eval] at h
    obtain ⟨v, hv, h⟩ := except_bind_eq_ok.1 h
    obtain ⟨ys, hys, h⟩ := except_bind_eq_ok.1 h
    obtain ⟨zs, hzs, h⟩ := except_bind_eq_ok.1 h
    cases h
    obtain rfl := Object.eq_nodes_of_items hys
    exact hP.select (hP.of_eval e hv) hzs
  | .step e s, _, h => by
    rw [Expr.eval] at h
    obtain ⟨v, hv, h⟩ := except_bind_eq_ok.1 h
    obtain ⟨ys, hys, h⟩ := except_bind_eq_ok.1 h
    obtain ⟨zs, hzs, h⟩ := except_bind_eq_ok.1 h
    cases h
    obtain rfl := Object.eq_nodes_of_items hys
    exact hP.step (hP.of_eval e hv) hzs

/-- **The items that an expression gives at an item of a page are of the page.** -/
theorem eval_isIn {c : Context} (hc : c.item.IsIn page.nodes) (e : Expr) {xs : List Item}
    (h : e.eval page c = .ok (.nodes xs)) : AllIn page.nodes xs :=
  KeptBy.of_eval
    { top := allIn_singleton .document
      here := allIn_singleton hc
      ids := allIn_withIds page
      merge := Item.allIn_merge
      select := fun hxs h => hxs.of_subset (select_subset h)
      step := allIn_step } e h

end

end XPath

end PagePlan
