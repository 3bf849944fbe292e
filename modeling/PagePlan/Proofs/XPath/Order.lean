/-
# Sets of items in the order of the page

The items that an expression gives are listed in the order of their page, each once: a set is sorted
where it comes from steps or identifiers, and what is done to sets afterwards keeps the order.  On
one page an item is known by its place in that order, so that a union has the items of both sets and
no others.

* `eval_inOrder` — an expression gives its items in order;
* `Item.mem_merge_iff` — the items of a union.
-/
import PagePlan.Proofs.XPath.InPage
import Mathlib.Data.List.Lex

namespace PagePlan.XPath

open Dom (Node Page Place)

/-- Items in the order of their page, each once. -/
def InOrder (xs : List Item) : Prop := xs.Pairwise fun x y => x.key < y.key

theorem inOrder_singleton (x : Item) : InOrder [x] := List.pairwise_singleton _ _

namespace Item

/-! ### Sorting and merging -/

theorem le_iff {x y : Item} : x.le y = true ↔ x.key ≤ y.key := by
  rw [le, Bool.not_eq_true', decide_eq_false_iff_not, not_lt]

theorem inOrder_unrepeated {xs : List Item} (h : xs.Pairwise fun x y => x.key ≤ y.key) :
    InOrder (unrepeated xs) := by
  fun_induction unrepeated xs with
  | case1 => exact .nil
  | case2 x => exact inOrder_singleton x
  | case3 x y rest hkey ih => exact ih (List.pairwise_cons.1 h).2
  | case4 x y rest hkey ih =>
    obtain ⟨hx, hrest⟩ := List.pairwise_cons.1 h
    refine List.pairwise_cons.2 ⟨fun z hz => ?_, ih hrest⟩
    -- the items after the next one do not come before it
    have hxy : x.key < y.key := lt_of_le_of_ne (hx y List.mem_cons_self) hkey
    rcases List.mem_cons.1 ((unrepeated_sublist _).subset hz) with rfl | hz
    · exact hxy
    · exact lt_of_lt_of_le hxy ((List.pairwise_cons.1 hrest).1 z hz)

theorem inOrder_sorted (xs : List Item) : InOrder (sorted xs) := by
  refine inOrder_unrepeated ((List.pairwise_mergeSort ?_ ?_ xs).imp le_iff.1)
  · intro x y z hxy hyz
    exact le_iff.2 (le_trans (le_iff.1 hxy) (le_iff.1 hyz))
  · intro x y
    rw [Bool.or_eq_true, le_iff, le_iff]
    exact le_total x.key y.key

theorem mem_of_mem_merge {xs ys : List Item} {z : Item} (h : z ∈ merge xs ys) :
    z ∈ xs ∨ z ∈ ys := by
  fun_induction merge xs ys with
  | case1 ys => exact Or.inr h
  | case2 xs _ => exact Or.inl h
  | case3 x xs y ys hkey ih =>
    rcases List.mem_cons.1 h with rfl | h
    · exact Or.inl List.mem_cons_self
    · exact (ih h).imp (List.mem_cons_of_mem x) (List.mem_cons_of_mem y)
  | case4 x xs y ys hkey hlt ih =>
    rcases List.mem_cons.1 h with rfl | h
    · exact Or.inl List.mem_cons_self
    · exact (ih h).imp (List.mem_cons_of_mem x) id
  | case5 x xs y ys hkey hlt ih =>
    rcases List.mem_cons.1 h with rfl | h
    · exact Or.inr List.mem_cons_self
    · exact (ih h).imp id (List.mem_cons_of_mem y)

/-- An item of either set is in the union, or an item at its place is. -/
theorem exists_mem_merge {xs ys : List Item} {z : Item} (h : z ∈ xs ∨ z ∈ ys) :
    ∃ w ∈ merge xs ys, w.key = z.key := by
  fun_induction merge xs ys with
  | case1 ys => exact ⟨z, h.resolve_left List.not_mem_nil, rfl⟩
  | case2 xs _ => exact ⟨z, h.resolve_right List.not_mem_nil, rfl⟩
  | case3 x xs y ys hkey ih =>
    rw [List.mem_cons, List.mem_cons] at h
    rcases h with (rfl | h) | (rfl | h)
    · exact ⟨z, List.mem_cons_self, rfl⟩
    · obtain ⟨w, hw, hwz⟩ := ih (Or.inl h)
      exact ⟨w, List.mem_cons_of_mem x hw, hwz⟩
    · exact ⟨x, List.mem_cons_self, hkey⟩
    · obtain ⟨w, hw, hwz⟩ := ih (Or.inr h)
      exact ⟨w, List.mem_cons_of_mem x hw, hwz⟩
  | case4 x xs y ys hkey hlt ih =>
    rw [List.mem_cons] at h
    rcases h with (rfl | h) | h
    · exact ⟨z, List.mem_cons_self, rfl⟩
    · obtain ⟨w, hw, hwz⟩ := ih (Or.inl h)
      exact ⟨w, List.mem_cons_of_mem x hw, hwz⟩
    · obtain ⟨w, hw, hwz⟩ := ih (Or.inr h)
      exact ⟨w, List.mem_cons_of_mem x hw, hwz⟩
  | case5 x xs y ys hkey hlt ih =>
    rw [List.mem_cons (l := ys)] at h
    rcases h with h | (rfl | h)
    · obtain ⟨w, hw, hwz⟩ := ih (Or.inl h)
      exact ⟨w, List.mem_cons_of_mem y hw, hwz⟩
    · exact ⟨z, List.mem_cons_self, rfl⟩
    · obtain ⟨w, hw, hwz⟩ := ih (Or.inr h)
      exact ⟨w, List.mem_cons_of_mem y hw, hwz⟩

theorem inOrder_merge {xs ys : List Item} (hxs : InOrder xs) (hys : InOrder ys) :
    InOrder (merge xs ys) := by
  fun_induction merge xs ys with
  | case1 ys => exact hys
  | case2 xs _ => exact hxs
  | case3 x xs y ys hkey ih =>
    obtain ⟨hx, hxs⟩ := List.pairwise_cons.1 hxs
    obtain ⟨hy, hys⟩ := List.pairwise_cons.1 hys
    refine List.pairwise_cons.2 ⟨fun z hz => ?_, ih hxs hys⟩
    exact (mem_of_mem_merge hz).elim (hx z) fun hz => hkey ▸ hy z hz
  | case4 x xs y ys hkey hlt ih =>
    obtain ⟨hx, hxs⟩ := List.pairwise_cons.1 hxs
    refine List.pairwise_cons.2 ⟨fun z hz => ?_, ih hxs hys⟩
    rcases mem_of_mem_merge hz with hz | hz
    · exact hx z hz
    · rcases List.mem_cons.1 hz with rfl | hz
      · exact hlt
      · exact lt_trans hlt ((List.pairwise_cons.1 hys).1 z hz)
  | case5 x xs y ys hkey hlt ih =>
    have hyx : y.key < x.key := lt_of_le_of_ne (not_lt.1 hlt) (Ne.symm hkey)
    obtain ⟨hy, hys⟩ := List.pairwise_cons.1 hys
    refine List.pairwise_cons.2 ⟨fun z hz => ?_, ih hxs hys⟩
    rcases mem_of_mem_merge hz with hz | hz
    · rcases List.mem_cons.1 hz with rfl | hz
      · exact hyx
      · exact lt_trans hyx ((List.pairwise_cons.1 hxs).1 z hz)
    · exact hy z hz

/-! ### Items by their places -/

variable {top : List Node} {x y : Item}

/-- The number that tells bindings and attributes from children is in no place of a node. -/
theorem forall_mem_map_add_two (p : Place) : ∀ k ∈ p.map (· + 2), 2 ≤ k := by
  intro k hk
  obtain ⟨i, -, rfl⟩ := List.mem_map.1 hk
  exact Nat.le_add_left 2 i

theorem map_add_two_inj {p p' : Place} (h : p.map (· + 2) = p'.map (· + 2)) : p = p' :=
  List.map_injective_iff.2 (fun _ _ => Nat.add_right_cancel) h

/-- The place below an element tells the element, the kind and the number. -/
theorem eq_of_concat_eq {p p' : Place} {k k' i i' : Nat}
    (h : p.map (· + 2) ++ [k, i] = p'.map (· + 2) ++ [k', i']) : p = p' ∧ k = k' ∧ i = i' := by
  obtain ⟨hplace, hlast⟩ := List.append_inj' h rfl
  obtain ⟨hk, hi⟩ := List.cons.inj hlast
  exact ⟨map_add_two_inj hplace, hk, (List.cons.inj hi).1⟩

/-- **On a page an item is known by its place in the order.** -/
theorem IsIn.eq_of_key (hx : x.IsIn top) (hy : y.IsIn top) (hkey : x.key = y.key) : x = y := by
  have hplace {p : Place} {n : Node} (h : Dom.nodeAt? top p = some n) : p.map (· + 2) ≠ [] := by
    rintro hnil
    rw [List.map_eq_nil_iff.1 hnil] at h
    cases h
  have hsmall {p p' : Place} {k i : Nat} (hk : k < 2) :
      p.map (· + 2) ≠ p'.map (· + 2) ++ [k, i] := by
    intro h
    have hmem := forall_mem_map_add_two p k (by rw [h]; simp)
    exact absurd hk (not_lt.2 hmem)
  cases hx with
  | document =>
    cases hy with
    | document => rfl
    | node h => exact absurd hkey.symm (hplace h)
    | attr _ _ => simp [key] at hkey
    | binding _ _ => simp [key] at hkey
  | node h =>
    cases hy with
    | document => exact absurd hkey (hplace h)
    | node h' =>
      obtain rfl := map_add_two_inj hkey
      rw [h] at h'
      rw [Option.some.inj h']
    | attr _ _ => exact absurd hkey (hsmall (by decide))
    | binding _ _ => exact absurd hkey (hsmall (by decide))
  | attr h ha =>
    cases hy with
    | document => simp [key] at hkey
    | node _ => exact absurd hkey.symm (hsmall (by decide))
    | attr h' ha' =>
      obtain ⟨rfl, -, rfl⟩ := eq_of_concat_eq hkey
      rw [h] at h'
      cases h'
      rw [ha] at ha'
      rw [Option.some.inj ha']
    | binding _ _ => cases (eq_of_concat_eq hkey).2.1
  | binding h hb =>
    cases hy with
    | document => simp [key] at hkey
    | node _ => exact absurd hkey.symm (hsmall (by decide))
    | attr _ _ => cases (eq_of_concat_eq hkey).2.1
    | binding h' hb' =>
      obtain ⟨rfl, -, rfl⟩ := eq_of_concat_eq hkey
      rw [h] at h'
      cases h'
      rw [hb] at hb'
      exact Option.some.inj hb'

/-- **A union has the items of both sets.** -/
theorem mem_merge_iff {xs ys : List Item} (hxs : AllIn top xs) (hys : AllIn top ys) :
    x ∈ merge xs ys ↔ x ∈ xs ∨ x ∈ ys := by
  refine ⟨mem_of_mem_merge, fun h => ?_⟩
  obtain ⟨w, hw, hkey⟩ := exists_mem_merge h
  have hx : x.IsIn top := h.elim (hxs x) (hys x)
  rwa [← (allIn_merge hxs hys w hw).eq_of_key hx hkey]

end Item

/-! ### Expressions -/

variable {page : Page} {xs ys : List Item}

theorem InOrder.sublist (h : InOrder xs) (hsub : ys.Sublist xs) : InOrder ys :=
  List.Pairwise.sublist hsub h

/-- What is kept of a list, item by item, is in the order of the list. -/
theorem sublist_of_forall₂ {α β : Type} {f : β → α} {bs : List β} {kept : List (Option α)}
    (h : List.Forall₂ (fun b k => ∀ a ∈ k, a = f b) bs kept) :
    (kept.filterMap id).Sublist (bs.map f) := by
  induction h with
  | nil => exact .slnil
  | @cons b k bs kept hk _ ih =>
    rw [List.map_cons]
    cases k with
    | none => exact ih.cons _
    | some a =>
      obtain rfl := hk a rfl
      exact ih.cons_cons _

/-- A predicate leaves items out and does not move them. -/
theorem select_sublist {p : Expr} (h : Expr.select page p xs = .ok ys) : ys.Sublist xs := by
  rw [Expr.select] at h
  obtain ⟨kept, hkept, h⟩ := except_bind_eq_ok.1 h
  cases h
  rw [← List.zipIdx_map_fst 0 xs]
  refine sublist_of_forall₂ ((forall₂_of_mapM_eq_ok hkept).imp fun b k hk => ?_)
  obtain ⟨v, -, hk⟩ := except_bind_eq_ok.1 hk
  cases hk
  split_ifs
  · rintro a ⟨⟩
    rfl
  · rintro a ⟨⟩

theorem inOrder_step {s : Step} (h : Step.eval page s xs = .ok ys) : InOrder ys := by
  obtain ⟨axis, test, predicates⟩ := s
  rw [Step.eval] at h
  split_ifs at h
  obtain ⟨found, -, h⟩ := except_bind_eq_ok.1 h
  cases h
  exact Item.inOrder_sorted _

/-- **The items that an expression gives are in the order of the page, each once.** -/
theorem eval_inOrder {c : Context} (e : Expr) (h : e.eval page c = .ok (.nodes xs)) : InOrder xs :=
  KeptBy.of_eval
    { top := inOrder_singleton _
      here := inOrder_singleton _
      ids := fun _ => Item.inOrder_sorted _
      merge := Item.inOrder_merge
      select := fun hxs h => hxs.sublist (select_sublist h)
      step := fun _ h => inOrder_step h } e h

end PagePlan.XPath
