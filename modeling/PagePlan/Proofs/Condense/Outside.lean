/-
# Truncation around an element

The patterns look for lists from the top of the page on, whichever element they are put to.  So the
page around an element is truncated as a whole, and the number of items that is returned counts those
of the whole page.  What is outside the element stays as it was exactly if no list outside it is
longer than the limit; the element is then where it was, and every item that went was below it.

* `Condense.count_items` — of the items that a pattern tells, those of one list are as many as the
  list is long;
* `Condense.surplus_below` — one pass: if the lists outside an element are short, the surplus items
  are below it;
* `Condense.goneBy_below` — all passes: what they take out is below the element, since each of them
  leaves the lists outside it as they were;
* `Condense.truncateAround_outside` — a page truncated around an element.
-/
import PagePlan.Proofs.Condense.Truncate
import PagePlan.Proofs.Dom.Outside

namespace PagePlan.Condense

open Dom (Node Tag Place Page Site Numbered Edit SameOutside)
open Dom.Node (joinedAll)
open Dom.Numbered (numbers numbersAmong kept removeAll ofNodes toNode toNodes children childrenAt
  numberAt? ThinnedBelow)

variable {p : Pattern} {ps : List Pattern} {limit : Int} {around : Option Tag} {t : Tag}
  {seen gone : List Nat} {place : Place} {ns : List Numbered} {k list : Nat}

/-! ### The length of a list -/

/-- How many items the element at a place has if it is a list, and otherwise 0; `around` is the tag
around the nodes from which the place starts. -/
def Pattern.lengthAt (p : Pattern) : Option Tag → List Node → Place → Nat
  | _, _, [] => 0
  | around, ns, i :: rest =>
    match ns[i]? with
    | some (.element t cs) =>
      if rest.isEmpty then
        if p.isList around t then cs.countP fun n => n.tag?.any p.isItem else 0
      else p.lengthAt (some t) cs rest
    | _ => 0

/-- No list of some patterns is longer than the limit, those aside that are in the element at a place
or are that element. -/
def ShortOutside (ps : List Pattern) (limit : Int) (ns : List Node) (place : Place) : Prop :=
  ∀ p ∈ ps, ∀ q, ¬ place <+: q → p.lengthAt none ns q ≤ limit.toNat

/-- Changes in an element do not touch the lists outside it. -/
theorem lengthAt_eq_of_sameOutside {ns ms : List Node} {q : Place} (h : SameOutside place ns ms)
    (hq : ¬ place <+: q) : p.lengthAt around ns q = p.lengthAt around ms q := by
  induction place generalizing around ns ms q with
  | nil => exact absurd List.nil_prefix hq
  | cons i rest ih =>
    cases q with
    | nil => rfl
    | cons j q =>
      by_cases hj : j = i
      · subst hj
        rw [List.cons_prefix_cons, not_and] at hq
        obtain ⟨front, t, cs, ds, back, hlength, rfl, rfl, hrest⟩ := h
        simp only [Pattern.lengthAt, Dom.getElem?_split hlength]
        split
        · -- The list is right above the element, whose tag is the same.
          cases rest with
          | nil => exact absurd List.nil_prefix (hq rfl)
          | cons i' rest =>
            have htags : ∀ xs : List Node, xs.countP (fun n => n.tag?.any p.isItem) =
                (xs.map Node.tag?).countP (·.any p.isItem) := by
              intro xs
              rw [List.countP_map]
              rfl
            rw [htags, htags, hrest.map_tag?]
        · exact ih hrest (hq rfl)
      · simp only [Pattern.lengthAt, h.getElem?_eq hj]

/-- Where no element is, there is no list. -/
theorem lengthAt_of_numberAt?_none {q : Place} (h : numberAt? ns q = none) :
    p.lengthAt around (toNodes ns) q = 0 := by
  induction q generalizing around ns with
  | nil => rfl
  | cons i rest ih =>
    rw [Numbered.toNodes_eq_map, Pattern.lengthAt, List.getElem?_map]
    cases hn : ns[i]? with
    | none => rfl
    | some n =>
      cases n with
      | element j t cs =>
        cases rest with
        | nil => simp [numberAt?, hn, Numbered.number?] at h
        | cons i' rest =>
          have hcs : numberAt? cs (i' :: rest) = none := by
            simpa [Numbered.numberAt?_cons_cons, hn, children] using h
          simpa [toNode] using ih hcs
      | text _ _ => simp [toNode]
      | comment _ => simp [toNode]
      | instruction _ _ => simp [toNode]

/-! ### The items of a list -/

/-- The items below an element are its own and those in its children. -/
theorem itemsAmong_perm (p : Pattern) (list : Nat) (t : Tag) (listed : Bool) (ns : List Numbered) :
    (p.itemsAmong list t listed ns).Perm
      (ns.flatMap (p.itemOf list listed) ++ ns.flatMap (p.itemsIn (some t))) := by
  induction ns with
  | nil => simp [Pattern.itemsAmong]
  | cons n ns ih =>
    rw [Pattern.itemsAmong, List.flatMap_cons, List.flatMap_cons]
    refine (ih.append_left _).trans ?_
    simp only [List.append_assoc]
    refine List.Perm.append_left _ ?_
    rw [← List.append_assoc, ← List.append_assoc]
    exact List.perm_append_comm.append_right _

/-- No item is of a list that is not there. -/
theorem count_flatMap_itemsIn_of_not_mem (h : k ∉ numbersAmong ns) :
    ((ns.flatMap (p.itemsIn around)).map Item.list).count k = 0 := by
  refine List.count_eq_zero.2 fun hk => ?_
  obtain ⟨x, hx, rfl⟩ := List.mem_map.1 hk
  obtain ⟨n, hn, hxn⟩ := List.mem_flatMap.1 hx
  exact h (Numbered.mem_numbersAmong hn (mem_itemsIn hxn).1)

/-- An element has as many items as its length says. -/
theorem count_flatMap_itemOf (p : Pattern) (list : Nat) (listed : Bool) (ns : List Numbered) :
    ((ns.flatMap (p.itemOf list listed)).map Item.list).count list =
      if listed then (toNodes ns).countP fun n => n.tag?.any p.isItem else 0 := by
  induction ns with
  | nil => simp [toNodes]
  | cons n ns ih =>
    rw [List.flatMap_cons, List.map_append, List.count_append, ih, toNodes, List.countP_cons]
    cases listed with
    | false => cases n <;> simp [Pattern.itemOf]
    | true =>
      cases n with
      | element k u cs =>
        by_cases hu : p.isItem u
        · simp [Pattern.itemOf, toNode, Node.tag?, hu, Nat.add_comm]
        · simp [Pattern.itemOf, toNode, Node.tag?, hu]
      | text _ _ => simp [Pattern.itemOf, toNode, Node.tag?]
      | comment _ => simp [Pattern.itemOf, toNode, Node.tag?]
      | instruction _ _ => simp [Pattern.itemOf, toNode, Node.tag?]

theorem count_flatMap_itemOf_of_ne {listed : Bool} (h : k ≠ list) :
    ((ns.flatMap (p.itemOf list listed)).map Item.list).count k = 0 := by
  refine List.count_eq_zero.2 fun hk => ?_
  obtain ⟨x, hx, rfl⟩ := List.mem_map.1 hk
  obtain ⟨n, -, hxn⟩ := List.mem_flatMap.1 hx
  exact h (mem_itemOf hxn).1

/-- No item in the nodes around an element is of a list in it. -/
theorem count_items_split {n : Numbered} {front back : List Numbered}
    (hnodup : (numbersAmong (front ++ n :: back)).Nodup) (hk : k ∈ n.numbers) :
    (((front ++ n :: back).flatMap (p.itemsIn around)).map Item.list).count k =
      ((p.itemsIn around n).map Item.list).count k := by
  obtain ⟨hkfront, hkback⟩ := Numbered.not_mem_of_split hnodup hk
  rw [List.flatMap_append, List.flatMap_cons, List.map_append, List.map_append, List.count_append,
    List.count_append, count_flatMap_itemsIn_of_not_mem hkfront,
    count_flatMap_itemsIn_of_not_mem hkback, Nat.zero_add, Nat.add_zero]

/-- **The items of the list at a place are as many as the list is long.** -/
theorem count_items {q : Place} (hnodup : (numbersAmong ns).Nodup) (h : numberAt? ns q = some k) :
    ((ns.flatMap (p.itemsIn around)).map Item.list).count k = p.lengthAt around (toNodes ns) q := by
  induction q generalizing around ns with
  | nil => cases h
  | cons i rest ih =>
    obtain ⟨front, j, t, cs, back, rfl, rfl, hrest⟩ := Numbered.numberAt?_cons_eq_some h
    have hmem : k ∈ numbers (.element j t cs) := by
      rcases hrest with ⟨-, rfl⟩ | ⟨-, hk⟩
      · simp
      · simp [Numbered.mem_of_numberAt? hk]
    have hnodup_j := Numbered.nodup_of_split hnodup
    rw [Numbered.numbers_element, List.nodup_cons] at hnodup_j
    have hlength : p.lengthAt around (toNodes (front ++ .element j t cs :: back))
        (front.length :: rest) = if rest.isEmpty then
          if p.isList around t then (toNodes cs).countP fun n => n.tag?.any p.isItem else 0
        else p.lengthAt (some t) (toNodes cs) rest := by
      simp [Numbered.toNodes_eq_map, Pattern.lengthAt, toNode]
    rw [count_items_split hnodup hmem, hlength, Pattern.itemsIn,
      ((itemsAmong_perm p j t _ cs).map Item.list).count_eq, List.map_append, List.count_append]
    rcases hrest with ⟨rfl, rfl⟩ | ⟨hrest, hk⟩
    · rw [count_flatMap_itemOf, count_flatMap_itemsIn_of_not_mem hnodup_j.1]
      rfl
    · have hne : k ≠ j := by
        rintro rfl
        exact hnodup_j.1 (Numbered.mem_of_numberAt? hk)
      rw [count_flatMap_itemOf_of_ne hne, ih hnodup_j.2 hk, if_neg (by simpa using hrest),
        Nat.zero_add]

/-- The items of the list at a place are below it. -/
theorem mem_childrenAt_of_mem_items {q : Place} {x : Item} (hnodup : (numbersAmong ns).Nodup)
    (h : numberAt? ns q = some x.list) (hx : x ∈ ns.flatMap (p.itemsIn around)) :
    x.number ∈ numbersAmong (childrenAt ns q) := by
  induction q generalizing around ns with
  | nil => cases h
  | cons i rest ih =>
    obtain ⟨front, j, t, cs, back, hlength, rfl, hrest⟩ := Numbered.numberAt?_cons_eq_some h
    have hmem : x.list ∈ numbers (.element j t cs) := by
      rcases hrest with ⟨-, heq⟩ | ⟨-, hk⟩
      · simp [heq]
      · simp [Numbered.mem_of_numberAt? hk]
    have hnodup_j := Numbered.nodup_of_split hnodup
    rw [Numbered.numbers_element, List.nodup_cons] at hnodup_j
    obtain ⟨hfront, hback⟩ := Numbered.not_mem_of_split hnodup hmem
    rw [Numbered.childrenAt_of_some (Dom.getElem?_split hlength)]
    have hxin : x ∈ p.itemsAmong j t (p.isList around t) cs := by
      rw [List.flatMap_append, List.flatMap_cons, List.mem_append, List.mem_append] at hx
      rcases hx with hx | hx | hx
      · obtain ⟨n, hn, hxn⟩ := List.mem_flatMap.1 hx
        exact absurd (Numbered.mem_numbersAmong hn (mem_itemsIn hxn).1) hfront
      · simpa [Pattern.itemsIn] using hx
      · obtain ⟨n, hn, hxn⟩ := List.mem_flatMap.1 hx
        exact absurd (Numbered.mem_numbersAmong hn (mem_itemsIn hxn).1) hback
    rcases hrest with ⟨rfl, -⟩ | ⟨hrest, hk⟩
    · exact (mem_itemsAmong hxin).2
    · refine @ih (some t) cs hnodup_j.2 hk ?_
      rcases List.mem_append.1 ((itemsAmong_perm p j t _ cs).mem_iff.1 hxin) with hx | hx
      · obtain ⟨n, -, hxn⟩ := List.mem_flatMap.1 hx
        have hlist := Numbered.mem_of_numberAt? hk
        rw [(mem_itemOf hxn).1] at hlist
        exact absurd hlist hnodup_j.1
      · exact hx

/-! ### Surplus items -/

/-- A surplus item is one of a list that has too many. -/
theorem exists_of_mem_surplus {xs : List Item} (h : k ∈ surplus limit seen xs) :
    ∃ x ∈ xs, x.number = k ∧
      limit < ((seen.count x.list + (xs.map Item.list).count x.list : Nat) : Int) := by
  induction xs generalizing seen with
  | nil => cases h
  | cons x xs ih =>
    have hlater (h : k ∈ surplus limit (x.list :: seen) xs) : ∃ y ∈ x :: xs, y.number = k ∧
        limit < ((seen.count y.list + ((x :: xs).map Item.list).count y.list : Nat) : Int) := by
      obtain ⟨y, hy, hnumber, hcount⟩ := ih h
      refine ⟨y, List.mem_cons_of_mem x hy, hnumber, ?_⟩
      rw [List.map_cons, List.count_cons]
      rw [List.count_cons] at hcount
      omega
    rw [surplus] at h
    split at h
    · next hx =>
      rcases List.mem_cons.1 h with rfl | h
      · refine ⟨x, List.mem_cons_self, rfl, ?_⟩
        rw [List.map_cons, List.count_cons_self]
        omega
      · exact hlater h
    · exact hlater h

/-- If no item is surplus, no list has too many. -/
theorem count_le_of_surplus_eq_nil {xs : List Item} (h : surplus limit seen xs = [])
    (hseen : seen.count k ≤ limit.toNat) :
    seen.count k + (xs.map Item.list).count k ≤ limit.toNat := by
  induction xs generalizing seen with
  | nil => simpa using hseen
  | cons x xs ih =>
    rw [surplus] at h
    split at h
    · cases h
    · next hx =>
      have hnext := ih h (by
        rw [List.count_cons]
        split
        · next heq =>
          obtain rfl := eq_of_beq heq
          omega
        · exact hseen)
      rw [List.count_cons] at hnext
      rw [List.map_cons, List.count_cons]
      omega

mutual

theorem numbers_itemsIn_sublist (p : Pattern) : ∀ (around : Option Tag) (n : Numbered),
    ((p.itemsIn around n).map Item.number).Sublist (numbersAmong n.children)
  | around, .element k t cs => by
    rw [Pattern.itemsIn]
    exact numbers_itemsAmong_sublist p k t (p.isList around t) cs
  | _, .text _ _ => by simp [Pattern.itemsIn]
  | _, .comment _ => by simp [Pattern.itemsIn]
  | _, .instruction _ _ => by simp [Pattern.itemsIn]

/-- Items come in the order of the page, each once. -/
theorem numbers_itemsAmong_sublist (p : Pattern) (list : Nat) (t : Tag) (listed : Bool) :
    ∀ ns : List Numbered,
      ((p.itemsAmong list t listed ns).map Item.number).Sublist (numbersAmong ns)
  | [] => by simp [Pattern.itemsAmong]
  | n :: ns => by
    rw [Pattern.itemsAmong, List.map_append, List.map_append, Numbered.numbersAmong_cons]
    refine List.Sublist.append ?_ (numbers_itemsAmong_sublist p list t listed ns)
    have hn := numbers_itemsIn_sublist p (some t) n
    cases n with
    | element k u cs =>
      rw [Numbered.numbers_element]
      have hhere : ((p.itemOf list listed (.element k u cs)).map Item.number).Sublist [k] := by
        rw [Pattern.itemOf]
        split <;> simp
      exact hhere.append hn
    | text _ _ => simp [Pattern.itemOf, Pattern.itemsIn]
    | comment _ => simp [Pattern.itemOf, Pattern.itemsIn]
    | instruction _ _ => simp [Pattern.itemOf, Pattern.itemsIn]

end

theorem nodup_surplus_items (p : Pattern) (limit : Int) (hnodup : (numbersAmong ns).Nodup) :
    (surplus limit [] (p.items ns)).Nodup := by
  refine ((surplus_sublist _ _ _).trans ?_).nodup hnodup
  clear hnodup
  induction ns with
  | nil => simp [Pattern.items]
  | cons n ns ih =>
    rw [Pattern.items, List.flatMap_cons, List.map_append, Numbered.numbersAmong_cons]
    refine List.Sublist.append ((numbers_itemsIn_sublist p none n).trans ?_) ih
    cases n <;> simp [children]

/-- **If the lists outside an element are short, the surplus items are below it.** -/
theorem surplus_below (hnodup : (numbersAmong ns).Nodup)
    (hshort : ∀ q, ¬ place <+: q → p.lengthAt none (toNodes ns) q ≤ limit.toNat) :
    surplus limit [] (p.items ns) ⊆ numbersAmong (childrenAt ns place) := by
  intro k hk
  obtain ⟨x, hx, rfl, hcount⟩ := exists_of_mem_surplus hk
  obtain ⟨n, hn, hxn⟩ := List.mem_flatMap.1 hx
  obtain ⟨q, hq⟩ := Numbered.exists_numberAt?_of_mem
    (Numbered.mem_numbersAmong hn (mem_itemsIn hxn).1)
  by_cases hprefix : place <+: q
  · obtain ⟨rest, rfl⟩ := hprefix
    exact Numbered.numbersAmong_childrenAt_append place rest ns
      (mem_childrenAt_of_mem_items hnodup hq hx)
  · -- A list outside the element has too many items, unlike what was said.
    have hlength := hshort q hprefix
    rw [← count_items hnodup hq] at hlength
    have hpos : 0 < ((p.items ns).map Item.list).count x.list :=
      List.count_pos_iff.2 (List.mem_map_of_mem hx)
    rw [Pattern.items] at hcount hpos
    rw [List.count_nil] at hcount
    omega

/-! ### All passes -/

/-- The elements that passes take out of a page, in the order in which they do. -/
def goneBy (limit : Int) : List Pattern → List Numbered → List Nat
  | [], _ => []
  | p :: ps, ns =>
    let gone := surplus limit [] (p.items ns)
    gone ++ goneBy limit ps (removeAll ns gone)

theorem passes_eq (ps : List Pattern) (limit : Int) (e : Edit) :
    (passes limit ps e).1.nodes = removeAll e.nodes (goneBy limit ps e.nodes) ∧
      (passes limit ps e).2 = (goneBy limit ps e.nodes).length := by
  induction ps generalizing e with
  | nil => exact ⟨rfl, rfl⟩
  | cons p ps ih =>
    have hcount : (p.pass limit e).2 = (surplus limit [] (p.items e.nodes)).length := by
      rw [Pattern.pass, removeSurplus_eq]
    obtain ⟨hnodes, hothers⟩ := ih (p.pass limit e).1
    rw [nodes_pass] at hnodes hothers
    refine ⟨?_, ?_⟩
    · simp only [passes, goneBy, hnodes, removeAll, List.foldl_append]
    · simp only [passes, goneBy, hcount, hothers, List.length_append]

/-- An element that a pass takes out is not there for the passes after it. -/
theorem goneBy_subset (ps : List Pattern) (limit : Int) (ns : List Numbered) :
    goneBy limit ps ns ⊆ numbersAmong ns := by
  induction ps generalizing ns with
  | nil => exact List.nil_subset _
  | cons p ps ih =>
    refine List.append_subset.2 ⟨fun k hk => ?_, fun k hk => ?_⟩
    · obtain ⟨n, hn, hkn⟩ := exists_of_mem_surplus_items hk
      exact Numbered.mem_numbersAmong hn (Numbered.mem_numbers_of_mem_children hkn)
    · exact (Numbered.numbersAmong_removeAll_sublist _ ns).subset (ih _ hk)

theorem nodup_goneBy (ps : List Pattern) (limit : Int) (hnodup : (numbersAmong ns).Nodup) :
    (goneBy limit ps ns).Nodup := by
  induction ps generalizing ns with
  | nil => exact List.nodup_nil
  | cons p ps ih =>
    refine List.nodup_append.2 ⟨nodup_surplus_items p limit hnodup,
      ih (Numbered.nodup_numbersAmong_removeAll _ hnodup), ?_⟩
    rintro k hk _ hlater rfl
    obtain ⟨n, hn, hkn⟩ := exists_of_mem_surplus_items hk
    exact Numbered.not_mem_removeAll hnodup hk (Numbered.number?_ne_of_mem_children hnodup hn hkn)
      (goneBy_subset ps limit _ hlater)

/-- **If the lists outside an element are short, all that the passes take out is below it.** -/
theorem goneBy_below {number : Nat} (hnodup : (numbersAmong ns).Nodup)
    (hnumber : numberAt? ns place = some number)
    (hshort : ShortOutside ps limit (toNodes ns) place) :
    goneBy limit ps ns ⊆ numbersAmong (childrenAt ns place) := by
  induction ps generalizing ns with
  | nil => exact List.nil_subset _
  | cons p ps ih =>
    have hpass := surplus_below hnodup (hshort p List.mem_cons_self)
    have hthinned : ThinnedBelow place ns (removeAll ns (surplus limit [] (p.items ns))) :=
      Numbered.thinnedBelow_removeAll hnumber hnodup fun k hk _ => hpass hk
    -- The pass leaves the lists outside as long as they were.
    have hrest : ShortOutside ps limit
        (toNodes (removeAll ns (surplus limit [] (p.items ns)))) place := by
      intro q hq place' hplace'
      rw [← lengthAt_eq_of_sameOutside hthinned.sameOutside hplace']
      exact hshort q (List.mem_cons_of_mem p hq) place' hplace'
    have hlater := ih (Numbered.nodup_numbersAmong_removeAll _ hnodup)
      (hthinned.numberAt?_eq.trans hnumber) hrest
    exact List.append_subset.2 ⟨hpass, fun k hk => hthinned.childrenAt_subset (hlater hk)⟩

/-! ### A page truncated around an element -/

theorem joinedAll_truncate (page : Page) (limit : Int) :
    joinedAll (truncate page limit).1.nodes =
      joinedAll (page.nodes.map (firstItems patterns limit none)) := by
  have hjoined : (truncate page limit).1.joined = (firstItemsOf patterns limit page).joined :=
    joined_truncateBy (fun p hp q hq => patterns_nests hp hq) page limit
  simpa [Page.joined, firstItemsOf] using congrArg Page.nodes hjoined

/-- All lists of a truncated page are short. -/
theorem lengthAt_truncate_le (page : Page) (limit : Int) (hp : p ∈ patterns) (q : Place) :
    p.lengthAt none (truncate page limit).1.nodes q ≤ limit.toNat := by
  rw [← Numbered.toNodes_ofNodes 0 (truncate page limit).1.nodes]
  have hsurplus := surplus_eq_nil_of_filtered (joinedAll_truncate page limit) hp
  cases hq : numberAt? (ofNodes 0 (truncate page limit).1.nodes) q with
  | none =>
    rw [lengthAt_of_numberAt?_none hq]
    exact Nat.zero_le _
  | some k =>
    rw [← count_items (Numbered.nodup_numbersAmong_ofNodes 0 _) hq]
    have hcount := count_le_of_surplus_eq_nil (k := k) hsurplus (by simp)
    rwa [List.count_nil, Nat.zero_add] at hcount

/-- The page around an element is truncated as a whole. -/
theorem truncateAround_eq_truncate (s : Site) (limit : Int) :
    (truncateAround s limit).1 = (truncate s.page limit).1 ∧
      (truncateAround s limit).2.2 = (truncate s.page limit).2 := by
  simp only [truncateAround, truncate, truncateBy, and_self]

/-- The elements that truncation takes out of a page. -/
abbrev truncated (page : Page) (limit : Int) : List Nat := goneBy limit patterns (ofNodes 0 page.nodes)

theorem truncateAround_eq (s : Site) (limit : Int) :
    (truncateAround s limit).1.nodes =
        toNodes (removeAll (ofNodes 0 s.page.nodes) (truncated s.page limit)) ∧
      (truncateAround s limit).2.2 = (truncated s.page limit).length := by
  obtain ⟨hnodes, hcount⟩ := passes_eq patterns limit (.start s.page.nodes)
  simp only [truncateAround, hnodes, hcount, Edit.start_nodes, and_self]

section

variable {s : Site} {number : Nat}

/-- If the lists outside an element are short, what goes is below it and nothing else changes. -/
theorem truncated_below (hnumber : numberAt? (ofNodes 0 s.page.nodes) s.place = some number)
    (hshort : ShortOutside patterns limit s.page.nodes s.place) :
    truncated s.page limit ⊆ numbersAmong (childrenAt (ofNodes 0 s.page.nodes) s.place) ∧
      ThinnedBelow s.place (ofNodes 0 s.page.nodes)
        (removeAll (ofNodes 0 s.page.nodes) (truncated s.page limit)) := by
  have hnodup := Numbered.nodup_numbersAmong_ofNodes 0 s.page.nodes
  rw [← Numbered.toNodes_ofNodes 0 s.page.nodes] at hshort
  have hbelow := goneBy_below hnodup hnumber hshort
  exact ⟨hbelow, Numbered.thinnedBelow_removeAll hnumber hnodup fun k hk _ => hbelow hk⟩

/-- Outside an element the page stays as it was exactly if no list there is too long. -/
theorem sameOutside_truncateAround_iff
    (hnumber : numberAt? (ofNodes 0 s.page.nodes) s.place = some number) :
    SameOutside s.place s.page.nodes (truncateAround s limit).1.nodes ↔
      ShortOutside patterns limit s.page.nodes s.place := by
  constructor
  · intro hsame p hp q hq
    rw [lengthAt_eq_of_sameOutside hsame hq, (truncateAround_eq_truncate s limit).1]
    exact lengthAt_truncate_le s.page limit hp q
  · intro hshort
    have hsame := (truncated_below hnumber hshort).2.sameOutside
    rwa [Numbered.toNodes_ofNodes, ← (truncateAround_eq s limit).1] at hsame

/-- An element is then found where it was. -/
theorem whereabouts_truncateAround
    (hnumber : numberAt? (ofNodes 0 s.page.nodes) s.place = some number)
    (hshort : ShortOutside patterns limit s.page.nodes s.place) :
    (truncateAround s limit).2.1 = .attached s.place := by
  obtain ⟨hnodes, -⟩ := passes_eq patterns limit (.start s.page.nodes)
  have hnodup := Numbered.nodup_numbersAmong_removeAll (truncated s.page limit)
    (Numbered.nodup_numbersAmong_ofNodes 0 s.page.nodes)
  have hafter := (truncated_below hnumber hshort).2.numberAt?_eq.trans hnumber
  have hplace : (passes limit patterns (.start s.page.nodes)).1.whereabouts? number =
      some (.attached s.place) := by
    cases hs : s.place with
    | nil =>
      rw [hs] at hnumber
      cases hnumber
    | cons i rest =>
      rw [hs] at hafter
      rw [Edit.whereabouts?, hnodes, Edit.start_nodes,
        Numbered.place?_of_numberAt? hnodup hafter 0, Nat.zero_add]
  simp only [truncateAround, Edit.start_nodes, hnumber, Option.bind_some, hplace, Option.getD_some]

end

/-- **Truncation around an element truncates the whole page, and its count is that of the whole
page.  Outside the element the page stays as it was exactly if no list there is longer than the
limit; the element is then where it was, and what is counted are elements below it, each once,
without which the page is left.** -/
theorem truncateAround_outside (s : Site) (limit : Int) {t : Tag} {cs : List Node}
    (h : s.node? = some (.element t cs)) :
    (truncateAround s limit).1.joined = (firstItemsOf patterns limit s.page).joined ∧
    (truncateAround s limit).2.2 = (truncate s.page limit).2 ∧
    (SameOutside s.place s.page.nodes (truncateAround s limit).1.nodes ↔
      ShortOutside patterns limit s.page.nodes s.place) ∧
    (ShortOutside patterns limit s.page.nodes s.place →
      (truncateAround s limit).2.1 = .attached s.place ∧
      ∃ gone : List Nat, gone.Nodup ∧
        gone ⊆ numbersAmong (childrenAt (ofNodes 0 s.page.nodes) s.place) ∧
        (truncateAround s limit).2.2 = gone.length ∧
        joinedAll (truncateAround s limit).1.nodes =
          joinedAll ((ofNodes 0 s.page.nodes).map (kept gone))) := by
  have hnodup := Numbered.nodup_numbersAmong_ofNodes 0 s.page.nodes
  have hnode : Dom.nodeAt? (toNodes (ofNodes 0 s.page.nodes)) s.place = some (.element t cs) := by
    rw [Numbered.toNodes_ofNodes]
    exact h
  obtain ⟨number, hnumber⟩ := Numbered.exists_numberAt?_of_nodeAt? hnode
  obtain ⟨htruncate, hcount⟩ := truncateAround_eq_truncate s limit
  obtain ⟨hnodes, hlength⟩ := truncateAround_eq s limit
  refine ⟨?_, hcount, sameOutside_truncateAround_iff hnumber, fun hshort =>
    ⟨whereabouts_truncateAround hnumber hshort, truncated s.page limit,
      nodup_goneBy patterns limit hnodup, (truncated_below hnumber hshort).1, hlength, ?_⟩⟩
  · rw [htruncate]
    exact joined_truncateBy (fun p hp q hq => patterns_nests hp hq) s.page limit
  · rw [hnodes]
    exact Numbered.joinedAll_removeAll _ hnodup

/-- A page with a list and a paragraph beside it. -/
def listedPage : Page where
  markup := .html
  doctype := none
  nodes := [.element ⟨.plain "html", [], []⟩
    [.element ⟨.plain "ul", [⟨.plain "class", some "results"⟩], []⟩
      [item "1", item "2", item "3"], .element ⟨.plain "p", [], []⟩ []]]
where
  /-- An item with some text. -/
  item (s : String) : Node := .element ⟨.plain "li", [], []⟩ [.text s false]

/-- Around the list of that page nothing is long: its root has but two children. -/
theorem shortOutside_listedPage : ShortOutside patterns 2 listedPage.nodes [0, 0] := by
  intro p _ q hq
  match q, hq with
  | [], _ => exact Nat.zero_le _
  | [0], _ =>
    simp only [Pattern.lengthAt, listedPage, List.getElem?_cons_zero, List.isEmpty_nil, if_true]
    split
    · exact List.countP_le_length
    · exact Nat.zero_le _
  | 0 :: 0 :: rest, hq => exact absurd (by simp) hq
  | [0, 1], _ => simp [Pattern.lengthAt, listedPage]
  | 0 :: 1 :: i :: rest, _ => simp [Pattern.lengthAt, listedPage]
  | 0 :: (i + 2) :: rest, _ => simp [Pattern.lengthAt, listedPage]
  | (i + 1) :: rest, _ => simp [Pattern.lengthAt, listedPage]

/-- Put to the paragraph, truncation takes out an item of the list beside it; put to the list, it
does not go further than that. -/
theorem truncateAround_outside_listedPage :
    (∃ t cs, Site.node? ⟨listedPage, [0, 1]⟩ = some (.element t cs)) ∧
    (truncateAround ⟨listedPage, [0, 1]⟩ 2).1.joined =
      (firstItemsOf patterns 2 listedPage).joined ∧
    ¬ SameOutside [0, 1] listedPage.nodes (truncateAround ⟨listedPage, [0, 1]⟩ 2).1.nodes ∧
    (∃ t cs, Site.node? ⟨listedPage, [0, 0]⟩ = some (.element t cs)) ∧
    ShortOutside patterns 2 listedPage.nodes [0, 0] ∧
    SameOutside [0, 0] listedPage.nodes (truncateAround ⟨listedPage, [0, 0]⟩ 2).1.nodes ∧
    (truncateAround ⟨listedPage, [0, 0]⟩ 2).2.1 = .attached [0, 0] := by
  obtain ⟨hjoined, -, hparagraph, -⟩ := truncateAround_outside ⟨listedPage, [0, 1]⟩ 2 rfl
  obtain ⟨-, -, hlist, hinside⟩ := truncateAround_outside ⟨listedPage, [0, 0]⟩ 2 rfl
  refine ⟨⟨_, _, rfl⟩, hjoined, ?_, ⟨_, _, rfl⟩, shortOutside_listedPage,
    hlist.2 shortOutside_listedPage, (hinside shortOutside_listedPage).1⟩
  rw [hparagraph]
  intro hshort
  have hlong := hshort ⟨fun _ t => t.name.isPlain "ul" && hasClass "results" t,
    fun t => t.name.isPlain "li"⟩ (by simp [patterns]) [0, 0] (by decide)
  exact absurd hlong (by decide)

end PagePlan.Condense
