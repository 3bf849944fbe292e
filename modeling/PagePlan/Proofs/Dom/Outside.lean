/-
# What stays around an element

Two pages are the same outside an element if nothing differs but what is in it: the nodes before and
after it are the same on its level and on each level above, and so are the tags around it.

* `Numbered.sameOutside_removeInEach` — one step: an element that is taken out from below another
  one leaves all that is outside that other one as it is;
* `Numbered.place?_of_numberAt?` — an element is found again at a place that has its number;
* `Numbered.not_mem_removeAll` — an element that was taken out is no longer in the page.

Each level is taken apart at the element on it (`exists_split`), since numbers stay apart and nothing
is taken out from among the nodes before and after that element.
-/
import PagePlan.Proofs.Dom.Edit

namespace PagePlan.Dom

/-- Nodes are the same but for what is in the element at a place.  At the empty place that is all
there is. -/
def SameOutside : Place → List Node → List Node → Prop
  | [], _, _ => True
  | i :: rest, ns, ms => ∃ front t cs ds back, front.length = i ∧
      ns = front ++ .element t cs :: back ∧ ms = front ++ .element t ds :: back ∧
      SameOutside rest cs ds

/-- A list around one of its members. -/
theorem exists_split {α : Type} {xs : List α} {i : Nat} {x : α} (h : xs[i]? = some x) :
    ∃ front back, front.length = i ∧ xs = front ++ x :: back := by
  obtain ⟨hi, rfl⟩ := List.getElem?_eq_some_iff.1 h
  refine ⟨xs.take i, xs.drop (i + 1), by simp; omega, ?_⟩
  rw [List.getElem_cons_drop, List.take_append_drop]

theorem getElem?_split {α : Type} {front back : List α} {i : Nat} {x : α} (h : front.length = i) :
    (front ++ x :: back)[i]? = some x := by
  subst h
  simp

namespace SameOutside

variable {place : Place} {i : Nat} {ns ms : List Node}

/-- The nodes on the level of an element have the same tags, that element included. -/
theorem map_tag? (h : SameOutside (i :: place) ns ms) :
    ns.map Node.tag? = ms.map Node.tag? := by
  obtain ⟨front, t, cs, ds, back, -, rfl, rfl, -⟩ := h
  simp [Node.tag?]

/-- The other nodes on that level are the same. -/
theorem getElem?_eq {j : Nat} (h : SameOutside (i :: place) ns ms) (hj : j ≠ i) :
    ns[j]? = ms[j]? := by
  obtain ⟨front, t, cs, ds, back, rfl, rfl, rfl, -⟩ := h
  rcases Nat.lt_or_gt_of_ne hj with hlt | hgt
  · rw [List.getElem?_append_left hlt, List.getElem?_append_left hlt]
  · obtain ⟨k, rfl⟩ := Nat.exists_eq_add_of_lt hgt
    rw [List.getElem?_append_right (by omega), List.getElem?_append_right (by omega),
      show front.length + k + 1 - front.length = k + 1 by omega, List.getElem?_cons_succ,
      List.getElem?_cons_succ]

end SameOutside

namespace Numbered

variable {n m : Numbered} {ns : List Numbered} {place rest : Place} {i k number : Nat}

/-! ### Elements at places -/

/-- The nodes in the element at a place.  At the empty place that is all there is. -/
def childrenAt (ns : List Numbered) : Place → List Numbered
  | [] => ns
  | i :: rest => childrenAt ((ns[i]?.map children).getD []) rest

theorem toNodes_eq_map (ns : List Numbered) : toNodes ns = ns.map toNode := by
  induction ns with
  | nil => simp [toNodes]
  | cons n ns ih => simp [toNodes, ih]

theorem childrenAt_of_none (h : ns[i]? = none) : childrenAt ns (i :: rest) = [] := by
  have hnil : ∀ place, childrenAt [] place = [] := by
    intro place
    induction place with
    | nil => rfl
    | cons j rest ih => simpa [childrenAt] using ih
  simpa [childrenAt, h] using hnil rest

theorem childrenAt_of_some (h : ns[i]? = some n) :
    childrenAt ns (i :: rest) = childrenAt n.children rest := by
  simp [childrenAt, h]

/-- What is below a place is below each place above it. -/
theorem numbersAmong_childrenAt_append (place rest : Place) (ns : List Numbered) :
    numbersAmong (childrenAt ns (place ++ rest)) ⊆ numbersAmong (childrenAt ns place) := by
  induction place generalizing ns with
  | nil =>
    induction rest generalizing ns with
    | nil => exact fun _ hk => hk
    | cons i rest ih =>
      intro k hk
      cases hi : ns[i]? with
      | none => simp [childrenAt_of_none hi] at hk
      | some n =>
        rw [List.nil_append, childrenAt_of_some hi] at hk
        exact mem_numbersAmong (List.mem_of_getElem? hi)
          (mem_numbers_of_mem_children (ih n.children hk))
  | cons i place ih => simpa [childrenAt] using ih _

theorem numbersAmong_childrenAt_subset (place : Place) (ns : List Numbered) :
    numbersAmong (childrenAt ns place) ⊆ numbersAmong ns :=
  numbersAmong_childrenAt_append [] place ns

/-- An element in a node is that node or below it. -/
theorem mem_children_of_mem_numbers (h : k ∈ n.numbers) (hn : n.number? ≠ some k) :
    k ∈ numbersAmong n.children := by
  cases n with
  | element j t cs =>
    rw [numbers_element, List.mem_cons] at h
    exact h.resolve_left fun heq => hn (heq ▸ rfl)
  | text _ _ => simp at h
  | comment _ => simp at h
  | instruction _ _ => simp at h

theorem numberAt?_cons_cons {j : Nat} :
    numberAt? ns (i :: j :: rest) = ns[i]?.bind fun n => numberAt? n.children (j :: rest) := rfl

/-- A place that has a number leads to an element on its first level, and that is the element with
the number, or the rest of the place leads on from it. -/
theorem numberAt?_cons_eq_some (h : numberAt? ns (i :: rest) = some k) :
    ∃ front j t cs back, front.length = i ∧ ns = front ++ .element j t cs :: back ∧
      (rest = [] ∧ j = k ∨ rest ≠ [] ∧ numberAt? cs rest = some k) := by
  cases rest with
  | nil =>
    obtain ⟨n, hn, hk⟩ := Option.bind_eq_some_iff.1 h
    obtain ⟨front, back, hlength, rfl⟩ := exists_split hn
    cases n with
    | element j t cs => exact ⟨front, j, t, cs, back, hlength, rfl, .inl ⟨rfl, Option.some.inj hk⟩⟩
    | text _ _ => cases hk
    | comment _ => cases hk
    | instruction _ _ => cases hk
  | cons i' rest =>
    obtain ⟨n, hn, hk⟩ := Option.bind_eq_some_iff.1 h
    obtain ⟨front, back, hlength, rfl⟩ := exists_split hn
    cases n with
    | element j t cs => exact ⟨front, j, t, cs, back, hlength, rfl, .inr ⟨by simp, hk⟩⟩
    | text _ _ => cases rest <;> cases hk
    | comment _ => cases rest <;> cases hk
    | instruction _ _ => cases rest <;> cases hk

theorem mem_of_numberAt? (h : numberAt? ns place = some k) : k ∈ numbersAmong ns := by
  induction place generalizing ns with
  | nil => cases h
  | cons i rest ih =>
    obtain ⟨front, j, t, cs, back, -, rfl, ⟨-, rfl⟩ | ⟨-, hrest⟩⟩ := numberAt?_cons_eq_some h
    · simp
    · simp [ih hrest]

mutual

theorem exists_numberAt?_of_mem_children : ∀ {n : Numbered}, k ∈ numbersAmong n.children →
    ∃ place, numberAt? n.children place = some k
  | .element _ _ cs, h => exists_numberAt?_of_mem (show k ∈ numbersAmong cs from h)
  | .text _ _, h => by simp [children] at h
  | .comment _, h => by simp [children] at h
  | .instruction _ _, h => by simp [children] at h

/-- Each element has a place. -/
theorem exists_numberAt?_of_mem : ∀ {ns : List Numbered}, k ∈ numbersAmong ns →
    ∃ place, numberAt? ns place = some k
  | [], h => by simp at h
  | n :: ns, h => by
    rw [numbersAmong_cons, List.mem_append] at h
    by_cases hn : n.number? = some k
    · exact ⟨[0], by simp [numberAt?, hn]⟩
    rcases h with h | h
    · obtain ⟨place, hplace⟩ :=
        exists_numberAt?_of_mem_children (mem_children_of_mem_numbers h hn)
      cases place with
      | nil => cases hplace
      | cons j rest => exact ⟨0 :: j :: rest, by simp [numberAt?_cons_cons, hplace]⟩
    · obtain ⟨place, hplace⟩ := exists_numberAt?_of_mem h
      cases place with
      | nil => cases hplace
      | cons j rest => exact ⟨(j + 1) :: rest, by cases rest <;> exact hplace⟩

end

theorem nodeAt?_cons_cons (ns : List Node) (i j : Nat) (rest : Place) :
    nodeAt? ns (i :: j :: rest) = ns[i]?.bind fun n => nodeAt? n.children (j :: rest) := by
  rw [nodeAt?]
  · cases ns[i]? <;> rfl
  · simp

/-- The element at a place has a number. -/
theorem exists_numberAt?_of_nodeAt? {t : Tag} {cs : List Node}
    (h : nodeAt? (toNodes ns) place = some (.element t cs)) : ∃ k, numberAt? ns place = some k := by
  rw [toNodes_eq_map] at h
  induction place generalizing ns with
  | nil => cases h
  | cons i rest ih =>
    cases rest with
    | nil =>
      rw [nodeAt?, List.getElem?_map, Option.map_eq_some_iff] at h
      obtain ⟨n, hn, helement⟩ := h
      cases n with
      | element k u ds => exact ⟨k, by simp [numberAt?, hn, number?]⟩
      | text _ _ => simp [toNode] at helement
      | comment _ => simp [toNode] at helement
      | instruction _ _ => simp [toNode] at helement
    | cons j rest =>
      rw [nodeAt?_cons_cons, List.getElem?_map] at h
      cases hn : ns[i]? with
      | none => simp [hn] at h
      | some n =>
        rw [hn, Option.map_some, Option.bind_some] at h
        have hchildren : n.toNode.children = n.children.map toNode := by
          cases n <;> simp [toNode, Node.children, children, toNodes_eq_map]
        rw [hchildren] at h
        obtain ⟨k, hk⟩ := ih h
        exact ⟨k, by simp [numberAt?_cons_cons, hn, hk]⟩

theorem nodup_of_split {front back : List Numbered}
    (h : (numbersAmong (front ++ n :: back)).Nodup) : n.numbers.Nodup := by
  rw [numbersAmong_append, numbersAmong_cons] at h
  exact (List.nodup_append.1 (List.nodup_append.1 h).2.1).1

/-- Numbers stay apart: what is in one of some nodes is in no other one. -/
theorem not_mem_of_split {front back : List Numbered}
    (h : (numbersAmong (front ++ n :: back)).Nodup) (hk : k ∈ n.numbers) :
    k ∉ numbersAmong front ∧ k ∉ numbersAmong back := by
  rw [numbersAmong_append, numbersAmong_cons, List.nodup_append] at h
  obtain ⟨-, h, hfront⟩ := h
  obtain ⟨-, -, hback⟩ := List.nodup_append.1 h
  exact ⟨fun hmem => hfront k hmem k (by simp [hk]) rfl, fun hmem => hback k hk k hmem rfl⟩

/-! ### Changes below a place -/

/-- Nodes are the same but for what is in the element at a place, and nothing is in it that was not
in it before. -/
def ThinnedBelow : Place → List Numbered → List Numbered → Prop
  | [], ns, ms => numbersAmong ms ⊆ numbersAmong ns
  | i :: rest, ns, ms => ∃ front j t cs ds back, front.length = i ∧
      ns = front ++ .element j t cs :: back ∧ ms = front ++ .element j t ds :: back ∧
      ThinnedBelow rest cs ds

namespace ThinnedBelow

variable {ms ls : List Numbered}

theorem refl (h : numberAt? ns place = some k) : ThinnedBelow place ns ns := by
  induction place generalizing ns with
  | nil => exact fun _ hk => hk
  | cons i rest ih =>
    obtain ⟨front, j, t, cs, back, hlength, heq, ⟨rfl, -⟩ | ⟨-, hrest⟩⟩ := numberAt?_cons_eq_some h
    · exact ⟨front, j, t, cs, cs, back, hlength, heq, heq, fun _ hk => hk⟩
    · exact ⟨front, j, t, cs, cs, back, hlength, heq, heq, ih hrest⟩

theorem trans (h : ThinnedBelow place ns ms) (h' : ThinnedBelow place ms ls) :
    ThinnedBelow place ns ls := by
  induction place generalizing ns ms ls with
  | nil => exact fun k hk => h (h' hk)
  | cons i rest ih =>
    obtain ⟨front, j, t, cs, ds, back, hlength, rfl, rfl, hrest⟩ := h
    obtain ⟨front', j', t', cs', ds', back', hlength', heq, rfl, hrest'⟩ := h'
    obtain ⟨rfl, htail⟩ := List.append_inj heq (hlength.trans hlength'.symm)
    obtain ⟨helement, rfl⟩ := List.cons.inj htail
    obtain ⟨rfl, rfl, rfl⟩ := Numbered.element.inj helement
    exact ⟨front, j, t, cs, ds', back, hlength, rfl, rfl, ih hrest hrest'⟩

theorem sameOutside (h : ThinnedBelow place ns ms) :
    SameOutside place (toNodes ns) (toNodes ms) := by
  induction place generalizing ns ms with
  | nil => trivial
  | cons i rest ih =>
    obtain ⟨front, j, t, cs, ds, back, rfl, rfl, rfl, hrest⟩ := h
    exact ⟨toNodes front, t, toNodes cs, toNodes ds, toNodes back, by simp [toNodes_eq_map],
      by simp [toNodes_eq_map, toNode], by simp [toNodes_eq_map, toNode], ih hrest⟩

/-- The element at the place is the one that was there before. -/
theorem numberAt?_eq (h : ThinnedBelow place ns ms) : numberAt? ms place = numberAt? ns place := by
  induction place generalizing ns ms with
  | nil => rfl
  | cons i rest ih =>
    obtain ⟨front, j, t, cs, ds, back, hlength, rfl, rfl, hrest⟩ := h
    cases rest with
    | nil => simp [numberAt?, getElem?_split hlength, number?]
    | cons i' rest => simp [numberAt?_cons_cons, getElem?_split hlength, children, ih hrest]

theorem childrenAt_subset (h : ThinnedBelow place ns ms) :
    numbersAmong (childrenAt ms place) ⊆ numbersAmong (childrenAt ns place) := by
  induction place generalizing ns ms with
  | nil => exact h
  | cons i rest ih =>
    obtain ⟨front, j, t, cs, ds, back, hlength, rfl, rfl, hrest⟩ := h
    rw [childrenAt_of_some (getElem?_split hlength), childrenAt_of_some (getElem?_split hlength)]
    exact ih hrest

/-- What was in the element at the place is still in it if it is still in the page. -/
theorem mem_childrenAt (h : ThinnedBelow place ns ms) (hnodup : (numbersAmong ns).Nodup)
    (hk : k ∈ numbersAmong (childrenAt ns place)) (hms : k ∈ numbersAmong ms) :
    k ∈ numbersAmong (childrenAt ms place) := by
  induction place generalizing ns ms with
  | nil => exact hms
  | cons i rest ih =>
    obtain ⟨front, j, t, cs, ds, back, hlength, rfl, rfl, hrest⟩ := h
    rw [childrenAt_of_some (getElem?_split hlength)] at hk ⊢
    have hcs : k ∈ numbersAmong cs := numbersAmong_childrenAt_subset rest cs hk
    obtain ⟨hkfront, hkback⟩ := not_mem_of_split hnodup (k := k) (by simp [hcs])
    have hnodup_j := nodup_of_split hnodup
    rw [numbers_element, List.nodup_cons] at hnodup_j
    refine ih hrest hnodup_j.2 hk ?_
    simp only [numbersAmong_append, numbersAmong_cons, numbers_element, List.cons_append,
      List.mem_append, List.mem_cons] at hms
    rcases hms with hms | rfl | hms | hms
    · exact absurd hms hkfront
    · exact absurd hcs hnodup_j.1
    · exact hms
    · exact absurd hms hkback

end ThinnedBelow

/-! ### Elements taken out from below a place -/

theorem removeInEach_eq_map (number : Nat) (ns : List Numbered) :
    removeInEach number ns = ns.map (removeIn number) := by
  induction ns with
  | nil => simp [removeInEach]
  | cons n ns ih => simp [removeInEach, ih]

/-- An element in one of some nodes is taken out of that node. -/
theorem removeInEach_split {front back : List Numbered}
    (hnodup : (numbersAmong (front ++ n :: back)).Nodup) (hk : k ∈ n.numbers) :
    removeInEach k (front ++ n :: back) = front ++ removeIn k n :: back := by
  obtain ⟨hkfront, hkback⟩ := not_mem_of_split hnodup hk
  rw [removeInEach_eq_map, List.map_append, List.map_cons, ← removeInEach_eq_map,
    ← removeInEach_eq_map, removeInEach_of_not_mem hkfront, removeInEach_of_not_mem hkback]

/-- An element below one of some nodes is none of them. -/
theorem number?_ne_of_mem_children (hnodup : (numbersAmong ns).Nodup) (hm : m ∈ ns)
    (hk : k ∈ numbersAmong m.children) : ∀ n ∈ ns, n.number? ≠ some k := by
  intro n hn hnumber
  obtain ⟨front, back, rfl⟩ := List.append_of_mem hm
  obtain ⟨hkfront, hkback⟩ := not_mem_of_split hnodup (mem_numbers_of_mem_children hk)
  have hkn := mem_numbers_of_number? hnumber
  rcases List.mem_append.1 hn with hn | hn
  · exact hkfront (mem_numbersAmong hn hkn)
  · rcases List.mem_cons.1 hn with rfl | hn
    · exact not_mem_children_of_nodup (nodup_of_split hnodup) hnumber hk
    · exact hkback (mem_numbersAmong hn hkn)

theorem removeAmong_removeInEach (h : ∀ n ∈ ns, n.number? ≠ some k) :
    removeAmong k (removeInEach k ns) = removeInEach k ns := by
  refine removeAmong_of_forall_not fun n hn => ?_
  rw [removeInEach_eq_map] at hn
  obtain ⟨m, hm, rfl⟩ := List.mem_map.1 hn
  simpa [hasNumber, number?_removeIn] using h m hm

/-- **Where an element is taken out from below a place, nothing else changes.** -/
theorem thinnedBelow_removeInEach (hplace : place ≠ []) (hnodup : (numbersAmong ns).Nodup)
    (hk : k ∈ numbersAmong (childrenAt ns place)) : ThinnedBelow place ns (removeInEach k ns) := by
  induction place generalizing ns with
  | nil => exact absurd rfl hplace
  | cons i rest ih =>
    cases hn : ns[i]? with
    | none => simp [childrenAt_of_none hn] at hk
    | some n =>
      rw [childrenAt_of_some hn] at hk
      have hkn : k ∈ numbersAmong n.children := numbersAmong_childrenAt_subset rest _ hk
      obtain ⟨front, back, hlength, rfl⟩ := exists_split hn
      rw [removeInEach_split hnodup (mem_numbers_of_mem_children hkn)]
      have hnodup_n := nodup_of_split hnodup
      cases n with
      | element j t cs =>
        rw [numbers_element, List.nodup_cons] at hnodup_n
        refine ⟨front, j, t, cs, _, back, hlength, rfl, by rw [removeIn], ?_⟩
        cases rest with
        | nil =>
          exact ((numbersAmong_removeAmong_sublist k _).trans
            (numbersAmong_removeInEach_sublist k cs)).subset
        | cons i' rest =>
          have hbelow : ∃ m ∈ cs, k ∈ numbersAmong m.children := by
            rw [children_element] at hk
            cases hm : cs[i']? with
            | none => simp [childrenAt_of_none hm] at hk
            | some m =>
              rw [childrenAt_of_some hm] at hk
              exact ⟨m, List.mem_of_getElem? hm, numbersAmong_childrenAt_subset rest _ hk⟩
          obtain ⟨m, hm, hkm⟩ := hbelow
          rw [removeAmong_removeInEach (number?_ne_of_mem_children hnodup_n.2 hm hkm)]
          exact ih (by simp) hnodup_n.2 hk
      | text _ _ => simp [children] at hkn
      | comment _ => simp [children] at hkn
      | instruction _ _ => simp [children] at hkn

/-- **So it is where several elements are taken out from below a place one after another**; one of
them can be gone before its turn, with an element around it. -/
theorem thinnedBelow_removeAll {gone : List Nat} (hnumber : numberAt? ns place = some number)
    (hnodup : (numbersAmong ns).Nodup)
    (hgone : ∀ k ∈ gone, k ∈ numbersAmong ns → k ∈ numbersAmong (childrenAt ns place)) :
    ThinnedBelow place ns (removeAll ns gone) := by
  have hplace : place ≠ [] := by
    rintro rfl
    cases hnumber
  induction gone generalizing ns with
  | nil => exact .refl hnumber
  | cons k gone ih =>
    have hstep : ThinnedBelow place ns (removeInEach k ns) := by
      by_cases hk : k ∈ numbersAmong ns
      · exact thinnedBelow_removeInEach hplace hnodup (hgone k (by simp) hk)
      · rw [removeInEach_of_not_mem hk]
        exact .refl hnumber
    have hsublist := numbersAmong_removeInEach_sublist k ns
    refine hstep.trans (ih (hstep.numberAt?_eq.trans hnumber) (hsublist.nodup hnodup) ?_)
    intro j hj hmem
    exact hstep.mem_childrenAt hnodup (hgone j (by simp [hj]) (hsublist.subset hmem)) hmem

/-! ### An element that was taken out -/

mutual

theorem not_mem_children_removeIn : ∀ {n : Numbered}, n.numbers.Nodup →
    k ∉ numbersAmong (removeIn k n).children
  | .element j t cs, h => by
    rw [numbers_element, List.nodup_cons] at h
    rw [removeIn, children_element]
    rcases removeAmong_cases k (removeInEach k cs) with ⟨herase, hremove⟩ | ⟨_, _, herase, hremove⟩
    · rw [hremove, ← herase]
      exact not_mem_eraseP_removeInEach h.2
    · rw [hremove, numbersAmong_closeUp, ← numbersAmong_append, ← herase]
      exact not_mem_eraseP_removeInEach h.2
  | .text _ _, _ => by simp [removeIn, children]
  | .comment _, _ => by simp [removeIn, children]
  | .instruction _ _, _ => by simp [removeIn, children]

/-- An element that goes from among nodes or from below them is not there any more. -/
theorem not_mem_eraseP_removeInEach : ∀ {ns : List Numbered}, (numbersAmong ns).Nodup →
    k ∉ numbersAmong ((removeInEach k ns).eraseP (hasNumber k))
  | [], _ => by simp [removeInEach]
  | n :: ns, h => by
    rw [numbersAmong_cons, List.nodup_append] at h
    obtain ⟨hn, hns, hapart⟩ := h
    rw [removeInEach]
    by_cases hnumber : n.number? = some k
    · have hk : k ∉ numbersAmong ns := fun hmem =>
        hapart k (mem_numbers_of_number? hnumber) k hmem rfl
      rwa [List.eraseP_cons_of_pos (by simp [hasNumber, number?_removeIn, hnumber]),
        removeInEach_of_not_mem hk]
    · rw [List.eraseP_cons_of_neg (by simp [hasNumber, number?_removeIn, hnumber]),
        numbersAmong_cons, List.mem_append, not_or]
      refine ⟨fun hmem => ?_, not_mem_eraseP_removeInEach hns⟩
      exact not_mem_children_removeIn hn
        (mem_children_of_mem_numbers hmem (by rwa [number?_removeIn]))

end

/-- Elements that were taken out from below the top of a page are not in it any more. -/
theorem not_mem_removeAll {gone : List Nat} (hnodup : (numbersAmong ns).Nodup) (hk : k ∈ gone)
    (htop : ∀ n ∈ ns, n.number? ≠ some k) : k ∉ numbersAmong (removeAll ns gone) := by
  induction gone generalizing ns with
  | nil => cases hk
  | cons j gone ih =>
    have htop' : ∀ n ∈ removeInEach j ns, n.number? ≠ some k := by
      intro n hn
      rw [removeInEach_eq_map] at hn
      obtain ⟨m, hm, rfl⟩ := List.mem_map.1 hn
      rw [number?_removeIn]
      exact htop m hm
    have hnext := (numbersAmong_removeInEach_sublist j ns).nodup hnodup
    rcases List.mem_cons.1 hk with rfl | hk
    · intro hmem
      have hgone := not_mem_eraseP_removeInEach (k := k) hnodup
      rw [List.eraseP_of_forall_not fun n hn => by simpa [hasNumber] using htop' n hn] at hgone
      exact hgone ((numbersAmong_removeAll_sublist gone _).subset hmem)
    · exact ih hnext hk htop'

/-! ### Finding an element again -/

mutual

theorem placeIn?_of_not_mem : ∀ {n : Numbered}, k ∉ numbersAmong n.children → placeIn? k n = none
  | .element _ _ cs, h => by
    rw [placeIn?]
    exact place?_of_not_mem h 0
  | .text _ _, _ => by simp [placeIn?]
  | .comment _, _ => by simp [placeIn?]
  | .instruction _ _, _ => by simp [placeIn?]

theorem place?_of_not_mem : ∀ {ns : List Numbered}, k ∉ numbersAmong ns → ∀ i, place? k i ns = none
  | [], _, _ => by simp [place?]
  | n :: ns, h, i => by
    rw [numbersAmong_cons, List.mem_append, not_or] at h
    have hnumber : n.number? ≠ some k := fun hn => h.1 (mem_numbers_of_number? hn)
    have hchildren : k ∉ numbersAmong n.children := fun hn => h.1 (mem_numbers_of_mem_children hn)
    simp [place?, hnumber, placeIn?_of_not_mem hchildren, place?_of_not_mem h.2]

end

/-- An element in one of some nodes is not found in those before. -/
theorem place?_split {front back : List Numbered}
    (hnodup : (numbersAmong (front ++ n :: back)).Nodup) (hk : k ∈ n.numbers) (i : Nat) :
    place? k i (front ++ n :: back) = place? k (i + front.length) (n :: back) := by
  induction front generalizing i with
  | nil => rfl
  | cons m front ih =>
    rw [List.cons_append, numbersAmong_cons, List.nodup_append] at hnodup
    obtain ⟨-, hnodup, hm⟩ := hnodup
    have hkm : k ∉ m.numbers := fun h => hm k h k (by simp [hk]) rfl
    have hnumber : m.number? ≠ some k := fun h => hkm (mem_numbers_of_number? h)
    have hchildren : k ∉ numbersAmong m.children := fun h => hkm (mem_numbers_of_mem_children h)
    rw [List.cons_append, place?, if_neg hnumber, placeIn?_of_not_mem hchildren, ih hnodup,
      List.length_cons, Nat.add_right_comm, Nat.add_assoc]
    rfl

/-- An element is found at the place that has its number; the first of the nodes is counted as
`i`. -/
theorem place?_of_numberAt? {j : Nat} (hnodup : (numbersAmong ns).Nodup)
    (h : numberAt? ns (j :: rest) = some k) (i : Nat) :
    place? k i ns = some ((i + j) :: rest) := by
  induction rest generalizing ns i j with
  | nil =>
    obtain ⟨front, _, t, cs, back, rfl, rfl, ⟨-, rfl⟩ | ⟨hrest, -⟩⟩ := numberAt?_cons_eq_some h
    · simp [place?_split hnodup, place?, number?]
    · exact absurd rfl hrest
  | cons j' rest ih =>
    obtain ⟨front, m, t, cs, back, rfl, rfl, ⟨hnil, -⟩ | ⟨-, hk⟩⟩ := numberAt?_cons_eq_some h
    · cases hnil
    · have hcs : k ∈ numbersAmong cs := mem_of_numberAt? hk
      have hnodup_m : (numbers (element m t cs)).Nodup := nodup_of_split hnodup
      rw [numbers_element, List.nodup_cons] at hnodup_m
      have hne : (element m t cs).number? ≠ some k := by
        rintro ⟨rfl⟩
        exact hnodup_m.1 hcs
      rw [place?_split hnodup (by simp [hcs]), place?, if_neg hne, placeIn?, ih hnodup_m.2 hk 0]
      simp

end Numbered

end PagePlan.Dom
