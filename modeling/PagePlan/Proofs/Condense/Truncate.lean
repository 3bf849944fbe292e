/-
# A truncated page

One pass of truncation lists the items that a pattern tells in the page as it is then, and takes out
those that come too late in their list, also where one is in another that went.  The page that is
left is the page filtered by the pattern, and after all passes it is filtered by all patterns at
once, as they tell items in the page before the first pass.

* `Condense.kept_surplus` — a pass: what is kept of a page without its surplus items is that page
  filtered;
* `Condense.joinedAll_passes` — the passes together;
* `Condense.truncate_eq_firstItems` — a truncated page, with what follows: the order of the passes
  does not matter, each element keeps its first items, and a page that was truncated stays as it is.
-/
import PagePlan.Proofs.Condense.FirstItems
import PagePlan.Proofs.Dom.Edit

namespace PagePlan.Condense

open Dom (Node Tag Page Numbered Edit)
open Dom.Node (joinedAll elementCounts)
open Dom.Numbered (numbers numbersAmong kept keptAmong removeAll ofNodes toNode toNodes isGone)

variable {p : Pattern} {ps : List Pattern} {limit : Int} {around : Option Tag} {t : Tag}
  {seen : List Nat}

/-! ### The items that go -/

/-- The numbers of the items that come after the first few of their list. -/
def surplus (limit : Int) (seen : List Nat) : List Item → List Nat
  | [] => []
  | x :: rest =>
    if limit < (seen.count x.list : Int) + 1 then x.number :: surplus limit (x.list :: seen) rest
    else surplus limit (x.list :: seen) rest

/-- Surplus items are taken out one after another. -/
theorem removeSurplus_eq (limit : Int) (seen : List Nat) (e : Edit) (items : List Item) :
    removeSurplus limit seen e items =
      ((surplus limit seen items).foldl Edit.remove e, (surplus limit seen items).length) := by
  induction items generalizing seen e with
  | nil => rfl
  | cons x items ih =>
    by_cases hx : limit < (seen.count x.list : Int) + 1
    · simp [removeSurplus, surplus, hx, ih]
    · simp [removeSurplus, surplus, hx, ih]

theorem nodes_foldl_remove (e : Edit) (ids : List Nat) :
    (ids.foldl Edit.remove e).nodes = removeAll e.nodes ids := by
  induction ids generalizing e with
  | nil => rfl
  | cons k ids ih => exact ih (e.remove k)

theorem surplus_append (limit : Int) (seen : List Nat) (xs ys : List Item) :
    surplus limit seen (xs ++ ys) =
      surplus limit seen xs ++ surplus limit ((xs.map Item.list).reverse ++ seen) ys := by
  induction xs generalizing seen with
  | nil => rfl
  | cons x xs ih =>
    by_cases hx : limit < (seen.count x.list : Int) + 1
    · simp [surplus, hx, ih]
    · simp [surplus, hx, ih]

theorem surplus_sublist (limit : Int) (seen : List Nat) (xs : List Item) :
    (surplus limit seen xs).Sublist (xs.map Item.number) := by
  induction xs generalizing seen with
  | nil => simp [surplus]
  | cons x xs ih =>
    rw [surplus, List.map_cons]
    split
    · exact (ih _).cons_cons _
    · exact (ih _).cons _

theorem surplus_subset (limit : Int) (seen : List Nat) (xs : List Item) :
    surplus limit seen xs ⊆ xs.map Item.number := (surplus_sublist limit seen xs).subset

/-- An item of a list comes from an element with the number of the list, and is below it. -/
theorem mem_itemOf {list : Nat} {listed : Bool} {n : Numbered} {x : Item}
    (h : x ∈ p.itemOf list listed n) : x.list = list ∧ n.number? = some x.number := by
  cases n with
  | element k u cs =>
    simp only [Pattern.itemOf] at h
    split at h
    · obtain rfl := List.mem_singleton.1 h
      exact ⟨rfl, rfl⟩
    · cases h
  | text _ _ => cases h
  | comment _ => cases h
  | instruction _ _ => cases h

mutual

theorem mem_itemsIn {x : Item} : ∀ {around : Option Tag} {n : Numbered},
    x ∈ p.itemsIn around n → x.list ∈ n.numbers ∧ x.number ∈ numbersAmong n.children
  | around, .element k t cs, h => by
    have hmem := mem_itemsAmong (by simpa [Pattern.itemsIn] using h)
    refine ⟨?_, by simpa using hmem.2⟩
    rcases hmem.1 with heq | hlist
    · simp [heq]
    · simp [hlist]
  | _, .text _ _, h => by simp [Pattern.itemsIn] at h
  | _, .comment _, h => by simp [Pattern.itemsIn] at h
  | _, .instruction _ _, h => by simp [Pattern.itemsIn] at h

theorem mem_itemsAmong {x : Item} {list : Nat} {t : Tag} {listed : Bool} :
    ∀ {ns : List Numbered}, x ∈ p.itemsAmong list t listed ns →
      (x.list = list ∨ x.list ∈ numbersAmong ns) ∧ x.number ∈ numbersAmong ns
  | [], h => by simp [Pattern.itemsAmong] at h
  | n :: ns, h => by
    rw [Pattern.itemsAmong, List.mem_append, List.mem_append] at h
    rcases h with (h | h) | h
    · have hitem := mem_itemOf h
      exact ⟨.inl hitem.1, by simp [Numbered.mem_numbers_of_number? hitem.2]⟩
    · have hin := mem_itemsIn h
      exact ⟨.inr (by simp [hin.1]), by simp [Numbered.mem_numbers_of_mem_children hin.2]⟩
    · have hamong := mem_itemsAmong h
      refine ⟨?_, by simp [hamong.2]⟩
      rcases hamong.1 with heq | hlist
      · exact .inl heq
      · exact .inr (by simp [hlist])

end

/-! ### One pass -/

/-- The lists of items are seen one after another. -/
def after (seen : List Nat) (xs : List Item) : List Nat := (xs.map Item.list).reverse ++ seen

theorem not_mem_after {xs : List Item} {k : Nat} (hxs : ∀ x ∈ xs, x.list ≠ k) (hk : k ∉ seen) :
    k ∉ after seen xs := by
  simp only [after, List.mem_append, List.mem_reverse, List.mem_map, not_or]
  refine ⟨?_, hk⟩
  rintro ⟨x, hx, heq⟩
  exact hxs x hx heq

/-- Below an element with few items so far, those that go are at a child, in it or behind it. -/
theorem surplus_itemsAmong_cons (list : Nat) (listed : Bool) (n : Numbered) (ns : List Numbered) :
    surplus limit seen (p.itemsAmong list t listed (n :: ns)) =
      surplus limit seen (p.itemOf list listed n) ++
        surplus limit (after seen (p.itemOf list listed n)) (p.itemsIn (some t) n) ++
        surplus limit (after (after seen (p.itemOf list listed n)) (p.itemsIn (some t) n))
          (p.itemsAmong list t listed ns) := by
  simp [Pattern.itemsAmong, surplus_append, after]

theorem surplus_itemsIn_subset (n : Numbered) :
    surplus limit seen (p.itemsIn around n) ⊆ numbersAmong n.children := by
  intro k hk
  obtain ⟨x, hx, rfl⟩ := List.mem_map.1 (surplus_subset _ _ _ hk)
  exact (mem_itemsIn hx).2

theorem surplus_itemsAmong_subset (list : Nat) (listed : Bool) (ns : List Numbered) :
    surplus limit seen (p.itemsAmong list t listed ns) ⊆ numbersAmong ns := by
  intro k hk
  obtain ⟨x, hx, rfl⟩ := List.mem_map.1 (surplus_subset _ _ _ hk)
  exact (mem_itemsAmong hx).2

/-- An element goes exactly if it should not stay. -/
theorem isGone_surplus_itemOf (limit : Int) {list : Nat} (k : Nat) (u : Tag) (cs : List Numbered)
    {before : List Tag} (hcount : p.isList around t → seen.count list = before.countP p.isItem) :
    isGone (surplus limit seen (p.itemOf list (p.isList around t) (.element k u cs)))
      (.element k u cs) ↔ ¬ Stays [p] limit around t before u := by
  by_cases hitem : p.isList around t ∧ p.isItem u
  · have hstays : Stays [p] limit around t before u ↔ (before.countP p.isItem : Int) < limit := by
      simp [Stays, hitem]
    simp only [Pattern.itemOf, hitem, surplus, hstays, hcount hitem.1, Bool.and_self, if_true]
    split
    · simp [isGone, Numbered.number?]
      omega
    · simp [isGone, Numbered.number?]
      omega
  · have hstays : Stays [p] limit around t before u := by
      intro q hq hlist hu
      obtain rfl := List.mem_singleton.1 hq
      exact absurd ⟨hlist, hu⟩ hitem
    have hnone : (p.isList around t && p.isItem u) = false := by simpa using hitem
    simp [Pattern.itemOf, hnone, surplus, isGone, Numbered.number?, hstays]

/-- Behind a child, the lists of one element have been seen once more if the child is an item. -/
theorem count_after_child {list : Nat} {n : Numbered} {before : List Tag}
    (hlist : list ∉ n.numbers) (hislist : p.isList around t)
    (hcount : seen.count list = before.countP p.isItem) :
    (after (after seen (p.itemOf list (p.isList around t) n)) (p.itemsIn (some t) n)).count list =
      (before ++ n.toNode.tag?.toList).countP p.isItem := by
  have hinside : ((p.itemsIn (some t) n).map Item.list).count list = 0 := by
    refine List.count_eq_zero.2 fun h => ?_
    obtain ⟨x, hx, rfl⟩ := List.mem_map.1 h
    exact hlist (mem_itemsIn hx).1
  have hhere : ((p.itemOf list (p.isList around t) n).map Item.list).count list =
      n.toNode.tag?.toList.countP p.isItem := by
    cases n with
    | element k u cs =>
      by_cases hu : p.isItem u <;> simp [Pattern.itemOf, toNode, Node.tag?, hislist, hu]
    | text _ _ => simp [Pattern.itemOf, toNode, Node.tag?]
    | comment _ => simp [Pattern.itemOf, toNode, Node.tag?]
    | instruction _ _ => simp [Pattern.itemOf, toNode, Node.tag?]
  simp only [after, List.count_append, List.count_reverse, List.countP_append, hinside, hhere,
    hcount]
  omega

mutual

theorem kept_surplus (p : Pattern) (limit : Int) :
    ∀ (around : Option Tag) {n : Numbered} {seen : List Nat}, n.numbers.Nodup →
      (∀ k ∈ n.numbers, k ∉ seen) →
        kept (surplus limit seen (p.itemsIn around n)) n = firstItems [p] limit around n.toNode
  | around, .element k t cs, seen, hnodup, hfresh => by
    rw [Numbered.numbers_element, List.nodup_cons] at hnodup
    have hfresh_cs : ∀ j ∈ numbersAmong cs, j ∉ seen := fun j hj => hfresh j (by simp [hj])
    have hk : p.isList around t → seen.count k = ([] : List Tag).countP p.isItem := fun _ =>
      List.count_eq_zero.2 (hfresh k (by simp))
    have hcs := keptAmong_surplus p limit around t hnodup.1 hnodup.2 hfresh_cs hk
    simp [Pattern.itemsIn, kept, toNode, hcs]
  | _, .text _ _, _, _, _ => by simp [kept, toNode]
  | _, .comment _, _, _, _ => by simp [kept, toNode]
  | _, .instruction _ _, _, _, _ => by simp [kept, toNode]

/-- Among the children of an element, what is kept without the surplus items is what is filtered: as
many lists of that element have been seen as there are items before. -/
theorem keptAmong_surplus (p : Pattern) (limit : Int) :
    ∀ (around : Option Tag) (t : Tag) {list : Nat} {ns : List Numbered} {seen : List Nat}
      {before : List Tag}, list ∉ numbersAmong ns → (numbersAmong ns).Nodup →
      (∀ k ∈ numbersAmong ns, k ∉ seen) →
      (p.isList around t → seen.count list = before.countP p.isItem) →
        keptAmong (surplus limit seen (p.itemsAmong list t (p.isList around t) ns)) ns =
          firstItemsAmong [p] limit around t before (toNodes ns)
  | _, _, _, [], _, _, _, _, _, _ => by simp [toNodes]
  | around, t, list, n :: ns, seen, before, hlist, hnodup, hfresh, hcount => by
    rw [Numbered.numbersAmong_cons, List.mem_append, not_or] at hlist
    obtain ⟨hn, hns, hapart⟩ := List.nodup_append.1 (Numbered.numbersAmong_cons n ns ▸ hnodup)
    have hfresh_n : ∀ k ∈ n.numbers, k ∉ after seen (p.itemOf list (p.isList around t) n) := by
      refine fun k hk => not_mem_after ?_ (hfresh k (by simp [hk]))
      rintro x hx rfl
      exact hlist.1 ((mem_itemOf hx).1 ▸ hk)
    have hfresh_ns : ∀ k ∈ numbersAmong ns, k ∉ after (after seen
        (p.itemOf list (p.isList around t) n)) (p.itemsIn (some t) n) := by
      refine fun k hk => not_mem_after ?_ (not_mem_after ?_ (hfresh k (by simp [hk])))
      · rintro x hx rfl
        exact hapart _ (mem_itemsIn hx).1 _ hk rfl
      · rintro x hx rfl
        exact hlist.2 ((mem_itemOf hx).1 ▸ hk)
    -- Behind `n` the count of this list has grown by one if `n` was an item; other lists are fresh.
    have hrest := keptAmong_surplus p limit around t hlist.2 hns hfresh_ns
      fun hislist => count_after_child hlist.1 hislist (hcount hislist)
    have hhere : ∀ k ∈ surplus limit seen (p.itemOf list (p.isList around t) n),
        n.number? = some k := by
      intro k hk
      obtain ⟨x, hx, rfl⟩ := List.mem_map.1 (surplus_subset _ _ _ hk)
      exact (mem_itemOf hx).2
    rw [surplus_itemsAmong_cons, Numbered.keptAmong_cons_append hnodup hhere
      (surplus_itemsIn_subset n) (surplus_itemsAmong_subset _ _ ns),
      kept_surplus p limit (some t) hn hfresh_n, hrest, toNodes]
    cases n with
    | element k u cs =>
      have hgone := isGone_surplus_itemOf limit k u cs hcount
      rw [firstItemsAmong_of_some (u := u) _ (by simp [toNode, Node.tag?])]
      by_cases hu : Stays [p] limit around t before u
      · rw [if_neg fun h => hgone.1 h hu, if_pos hu]
        simp [toNode, Node.tag?]
      · rw [if_pos (hgone.2 hu), if_neg hu]
        simp [toNode, Node.tag?]
    | text _ _ => simp [isGone, Numbered.number?, toNode, Node.tag?]
    | comment _ => simp [isGone, Numbered.number?, toNode, Node.tag?]
    | instruction _ _ => simp [isGone, Numbered.number?, toNode, Node.tag?]

end

/-- Only elements below the top of a page are surplus. -/
theorem exists_of_mem_surplus_items {ns : List Numbered} {k : Nat}
    (hk : k ∈ surplus limit seen (p.items ns)) : ∃ n ∈ ns, k ∈ numbersAmong n.children := by
  obtain ⟨x, hx, rfl⟩ := List.mem_map.1 (surplus_subset _ _ _ hk)
  obtain ⟨n, hn, hxn⟩ := List.mem_flatMap.1 hx
  exact ⟨n, hn, (mem_itemsIn hxn).2⟩

/-- What is kept of a page without its surplus items is that page filtered. -/
theorem map_kept_surplus (p : Pattern) (limit : Int) {ns : List Numbered} {seen : List Nat}
    (hnodup : (numbersAmong ns).Nodup) (hfresh : ∀ k ∈ numbersAmong ns, k ∉ seen) :
    ns.map (kept (surplus limit seen (p.items ns))) =
      (toNodes ns).map (firstItems [p] limit none) := by
  induction ns generalizing seen with
  | nil => simp [toNodes]
  | cons n ns ih =>
    obtain ⟨hn, hns, hapart⟩ := List.nodup_append.1 (Numbered.numbersAmong_cons n ns ▸ hnodup)
    have hfresh_n : ∀ k ∈ n.numbers, k ∉ seen := fun k hk => hfresh k (by simp [hk])
    have hfresh_ns : ∀ k ∈ numbersAmong ns, k ∉ after seen (p.itemsIn none n) := by
      refine fun k hk => not_mem_after ?_ (hfresh k (by simp [hk]))
      rintro x hx rfl
      exact hapart _ (mem_itemsIn hx).1 _ hk rfl
    have hsplit : surplus limit seen (p.items (n :: ns)) =
        surplus limit seen (p.itemsIn none n) ++
          surplus limit (after seen (p.itemsIn none n)) (p.items ns) := by
      simp [Pattern.items, surplus_append, after]
    rw [hsplit, Numbered.map_kept_cons_append hnodup (surplus_itemsIn_subset n)
      fun k hk => exists_of_mem_surplus_items hk, kept_surplus p limit none hn hfresh_n,
      ih hns hfresh_ns, toNodes, List.map_cons]

theorem nodes_pass (p : Pattern) (limit : Int) (e : Edit) :
    (p.pass limit e).1.nodes = removeAll e.nodes (surplus limit [] (p.items e.nodes)) := by
  rw [Pattern.pass, removeSurplus_eq, nodes_foldl_remove]

/-- A pass leaves the page filtered by its pattern. -/
theorem joinedAll_pass (p : Pattern) (limit : Int) {e : Edit} (h : (numbersAmong e.nodes).Nodup) :
    joinedAll (toNodes (p.pass limit e).1.nodes) =
      joinedAll ((toNodes e.nodes).map (firstItems [p] limit none)) := by
  rw [nodes_pass, Numbered.joinedAll_removeAll _ h, map_kept_surplus p limit h (by simp)]

/-! ### All passes -/

/-- **One pass after another leaves the page filtered by all patterns at once**, as they tell items
in the page before the first pass; `done` are the patterns of the passes before. -/
theorem joinedAll_passes (limit : Int) (ns : List Node) {ps : List Pattern} (done : List Pattern)
    {e : Edit} (hnests : ∀ p ∈ ps, ∀ q ∈ ps ++ done, p.Nests q)
    (hnodup : (numbersAmong e.nodes).Nodup)
    (he : joinedAll (toNodes e.nodes) = joinedAll (ns.map (firstItems done limit none))) :
    joinedAll (toNodes (passes limit ps e).1.nodes) =
      joinedAll (ns.map (firstItems (ps ++ done) limit none)) := by
  induction ps generalizing done e with
  | nil => exact he
  | cons p ps ih =>
    have hnext : (numbersAmong (p.pass limit e).1.nodes).Nodup := by
      rw [nodes_pass]
      exact Numbered.nodup_numbersAmong_removeAll _ hnodup
    have hdone : ∀ q ∈ done, p.Nests q := fun q hq => hnests p (by simp) q (by simp [hq])
    have hpass : joinedAll (toNodes (p.pass limit e).1.nodes) =
        joinedAll (ns.map (firstItems (p :: done) limit none)) := by
      rw [joinedAll_pass p limit hnodup, joinedAll_map_firstItems_congr he, List.map_map]
      congr 2
      exact funext fun n => firstItems_firstItems hdone none n
    have horder : ∀ q, q ∈ ps ++ p :: done ↔ q ∈ p :: ps ++ done := by
      intro q
      simp only [List.cons_append, List.mem_append, List.mem_cons]
      exact or_left_comm
    have hrest : ∀ q ∈ ps, ∀ r ∈ ps ++ p :: done, q.Nests r := fun q hq r hr =>
      hnests q (List.mem_cons_of_mem p hq) r ((horder r).1 hr)
    calc joinedAll (toNodes (passes limit ps (p.pass limit e).1).1.nodes)
      _ = joinedAll (ns.map (firstItems (ps ++ p :: done) limit none)) :=
        ih (p :: done) hrest hnext hpass
      _ = joinedAll (ns.map (firstItems (p :: ps ++ done) limit none)) := by
        congr 2
        exact funext fun n => firstItems_congr horder none n

/-- A page truncated by patterns that nest is that page filtered. -/
theorem joined_truncateBy (hnests : ∀ p ∈ ps, ∀ q ∈ ps, p.Nests q) (page : Page) (limit : Int) :
    (truncateBy ps page limit).1.joined = (firstItemsOf ps limit page).joined := by
  have hstart : joinedAll (toNodes (Edit.start page.nodes).nodes) =
      joinedAll (page.nodes.map (firstItems [] limit none)) := by
    simp [Numbered.toNodes_ofNodes, funext (firstItems_nil limit none)]
  have hnil : ∀ p ∈ ps, ∀ q ∈ ps ++ [], p.Nests q := by simpa using hnests
  have hpasses := joinedAll_passes limit page.nodes [] hnil
    (Numbered.nodup_numbersAmong_ofNodes 0 page.nodes) hstart
  rw [List.append_nil] at hpasses
  simp [truncateBy, firstItemsOf, Page.joined, hpasses]

/-- Where no item is surplus a pass does nothing. -/
theorem passes_eq_self (limit : Int) {e : Edit}
    (h : ∀ p ∈ ps, surplus limit [] (p.items e.nodes) = []) : passes limit ps e = (e, 0) := by
  induction ps with
  | nil => rfl
  | cons p ps ih =>
    have hp : p.pass limit e = (e, 0) := by
      rw [Pattern.pass, removeSurplus_eq, h p List.mem_cons_self]
      rfl
    have hps := ih fun q hq => h q (List.mem_cons_of_mem p hq)
    simp [passes, hp, hps]

/-- A page that is the same when it is filtered has no surplus items. -/
theorem surplus_eq_nil {ns : List Node}
    (h : joinedAll (ns.map (firstItems [p] limit none)) = joinedAll ns) :
    surplus limit [] (p.items (ofNodes 0 ns)) = [] := by
  have hnodup := Numbered.nodup_numbersAmong_ofNodes 0 ns
  have hcount :
      elementCounts ((ofNodes 0 ns).map (kept (surplus limit [] (p.items (ofNodes 0 ns))))) =
        (numbersAmong (ofNodes 0 ns)).length := by
    rw [map_kept_surplus p limit hnodup (by simp), Numbered.toNodes_ofNodes,
      ← Node.elementCounts_joinedAll, h, Node.elementCounts_joinedAll,
      Numbered.numbersAmong_ofNodes, List.length_range']
  -- As many elements are kept as there were, so that none of them can be surplus.
  refine List.eq_nil_iff_forall_not_mem.2 fun k hk => ?_
  obtain ⟨n, hn, hkn⟩ := exists_of_mem_surplus_items hk
  exact Numbered.not_mem_of_elementCounts_eq hcount hn hkn hk

/-- No item of a page that was filtered by all patterns is surplus. -/
theorem surplus_eq_nil_of_filtered {ms ns : List Node}
    (h : joinedAll ms = joinedAll (ns.map (firstItems patterns limit none))) (hp : p ∈ patterns) :
    surplus limit [] (p.items (ofNodes 0 ms)) = [] := by
  have hcons : ∀ q, q ∈ p :: patterns ↔ q ∈ patterns := by
    intro q
    rw [List.mem_cons]
    exact ⟨fun hq => hq.elim (fun heq => heq ▸ hp) id, .inr⟩
  have hnests : ∀ q ∈ patterns, p.Nests q := fun q hq => patterns_nests hp hq
  refine surplus_eq_nil ?_
  rw [joinedAll_map_firstItems_congr h, h, List.map_map]
  congr 2
  funext n
  exact (firstItems_firstItems hnests none n).trans (firstItems_congr hcons none n)

/-- A page that was filtered by all patterns stays as it is. -/
theorem truncate_eq_self {page : Page} {ns : List Node}
    (h : joinedAll page.nodes = joinedAll (ns.map (firstItems patterns limit none))) :
    truncate page limit = (page, 0) := by
  have hsurplus : ∀ p ∈ patterns, surplus limit [] (p.items (Edit.start page.nodes).nodes) = [] :=
    fun p hp => surplus_eq_nil_of_filtered h hp
  simp only [truncate, truncateBy, passes_eq_self limit hsurplus, Edit.start_nodes,
    Numbered.toNodes_ofNodes]

/-- **A truncated page is that page filtered by the patterns as they tell items in the whole
page.**  So the order of the passes does not matter, each element keeps its first items, and a page
that was truncated stays as it is. -/
theorem truncate_eq_firstItems (page : Page) (limit : Int) :
    (truncate page limit).1.joined = (firstItemsOf patterns limit page).joined ∧
    (∀ ps : List Pattern, ps.Perm patterns →
      (truncateBy ps page limit).1.joined = (truncate page limit).1.joined) ∧
    (∀ around t cs,
      (firstItemsAmong patterns limit around t [] cs).filter (isItemNode patterns around t) =
        ((cs.filter (isItemNode patterns around t)).take limit.toNat).map
          (firstItems patterns limit (some t))) ∧
    truncate (truncate page limit).1 limit = ((truncate page limit).1, 0) := by
  have hnests : ∀ p ∈ patterns, ∀ q ∈ patterns, p.Nests q := fun p hp q hq => patterns_nests hp hq
  have hall : (truncate page limit).1.joined = (firstItemsOf patterns limit page).joined :=
    joined_truncateBy hnests page limit
  have hnodes : joinedAll (truncate page limit).1.nodes =
      joinedAll (page.nodes.map (firstItems patterns limit none)) := by
    simpa [Page.joined, firstItemsOf] using congrArg Page.nodes hall
  refine ⟨hall, ?_, ?_, truncate_eq_self hnodes⟩
  · intro ps hperm
    have hps : ∀ p ∈ ps, ∀ q ∈ ps, p.Nests q := fun p hp q hq =>
      hnests p (hperm.mem_iff.1 hp) q (hperm.mem_iff.1 hq)
    have hmem : ∀ q, q ∈ ps ↔ q ∈ patterns := fun q => hperm.mem_iff
    have hfilter : firstItemsOf ps limit page = firstItemsOf patterns limit page := by
      simp [firstItemsOf, firstItems_congr hmem]
    rw [joined_truncateBy hps, hfilter, hall]
  · intro around t cs
    simpa using filter_isItemNode_firstItemsAmong limit around t hnests [] cs

/-- A page with a list that two patterns tell, which has other items than those of one of them, and
with the rows of a table in two of its items. -/
def shelfPage : Page where
  markup := .html
  doctype := none
  nodes := [.element ⟨.plain "html", [], []⟩
    [.element ⟨.plain "ul", [⟨.plain "class", some "results product-list"⟩], []⟩
      [.text "a " false, .element ⟨.plain "li", [], []⟩ [table 3], .text "b " false,
        .element ⟨.plain "div", [], []⟩ [], .text "c " false,
        .element ⟨.plain "li", [], []⟩ [table 4], .text "d" false]]]
where
  /-- A table with so many rows. -/
  table (rows : Nat) : Node :=
    .element ⟨.plain "table", [], []⟩ [.element ⟨.plain "tbody", [], []⟩
      ((List.range rows).map fun _ => .element ⟨.plain "tr", [], []⟩ [])]

theorem truncate_shelfPage :
    (truncate shelfPage 2).1.joined.nodes =
      [.element ⟨.plain "html", [], []⟩
        [.element ⟨.plain "ul", [⟨.plain "class", some "results product-list"⟩], []⟩
          [.text "a " false, .element ⟨.plain "li", [], []⟩ [shelfPage.table 2], .text "b " false,
            .element ⟨.plain "div", [], []⟩ [], .text "c d" false]]] := by
  rw [(truncate_eq_firstItems shelfPage 2).1]
  rfl

end PagePlan.Condense
