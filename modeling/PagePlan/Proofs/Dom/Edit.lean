/-
# What is left when elements are taken out

An edit takes elements out of a page one after another.  What is left at the end depends only on
which elements went: it is the page without them (`kept`), however they lie to each other — side by
side, one inside another, in which order they went.  This holds up to the way text is cut, which is
what joining texts forgets.

* `Numbered.numbersAmong_ofNodes` — a page that is numbered has each number once;
* `Numbered.joinedAll_kept_removeInEach` — one step: after an element is taken out, what is kept of
  a page is what was kept of it before, without that element;
* `Numbered.joinedAll_removeAll` — a run: what is left after several elements were taken out is the
  page without them;
* `Numbered.not_mem_of_elementCounts_eq` — if as many elements are left, none was taken out.

The invariant of a run is that numbers stay apart, since a step takes out the first element of a
number only.
-/
import PagePlan.Dom.Edit
import PagePlan.Proofs.Dom.Joined
import Mathlib.Data.List.TakeWhile

namespace PagePlan.Dom

open Node (elementCount elementCounts joinedAll joinedAll_append_congr consText consText_consText)

namespace Numbered

variable {gone : List Nat} {number k : Nat} {n : Numbered} {ns : List Numbered}

/-! ### Numbers -/

/-- The numbers of the elements in a node. -/
def numbers (n : Numbered) : List Nat := n.elements.map Prod.fst

/-- The numbers of the elements among and in nodes. -/
def numbersAmong (ns : List Numbered) : List Nat := (elementsAmong ns).map Prod.fst

@[simp] theorem numbersAmong_nil : numbersAmong [] = [] := rfl

@[simp] theorem numbersAmong_cons (n : Numbered) (ns : List Numbered) :
    numbersAmong (n :: ns) = n.numbers ++ numbersAmong ns := by
  simp [numbersAmong, numbers, elementsAmong]

@[simp] theorem numbers_element (k : Nat) (t : Tag) (cs : List Numbered) :
    (element k t cs).numbers = k :: numbersAmong cs := by
  simp [numbersAmong, numbers, elements]

@[simp] theorem children_element (k : Nat) (t : Tag) (cs : List Numbered) :
    (element k t cs).children = cs := rfl

@[simp] theorem numbers_text (s : String) (verbatim : Bool) : (text s verbatim).numbers = [] := rfl

@[simp] theorem numbers_comment (s : String) : (comment s).numbers = [] := rfl

@[simp] theorem numbers_instruction (target s : String) : (instruction target s).numbers = [] := rfl

@[simp] theorem numbersAmong_append (ns ms : List Numbered) :
    numbersAmong (ns ++ ms) = numbersAmong ns ++ numbersAmong ms := by
  induction ns with
  | nil => rfl
  | cons n ns ih => simp [ih]

theorem mem_numbers_of_number? (h : n.number? = some k) : k ∈ n.numbers := by
  cases n with
  | element j t cs =>
    obtain rfl : j = k := by simpa [number?] using h
    simp
  | text _ _ => cases h
  | comment _ => cases h
  | instruction _ _ => cases h

theorem mem_numbersAmong (hn : n ∈ ns) (hk : k ∈ n.numbers) : k ∈ numbersAmong ns := by
  obtain ⟨front, back, rfl⟩ := List.append_of_mem hn
  simp [hk]

theorem mem_numbers_of_mem_children (h : k ∈ numbersAmong n.children) : k ∈ n.numbers := by
  cases n with
  | element j t cs => simpa using .inr h
  | text _ _ => cases h
  | comment _ => cases h
  | instruction _ _ => cases h

mutual

theorem toNode_ofNode (k : Nat) : ∀ n : Node, (ofNode k n).toNode = n
  | .element t cs => by simp [ofNode, toNode, toNodes_ofNodes (k + 1) cs]
  | .text _ _ => by simp [ofNode, toNode]
  | .comment _ => by simp [ofNode, toNode]
  | .instruction _ _ => by simp [ofNode, toNode]

/-- Numbering a page changes nothing else. -/
theorem toNodes_ofNodes (k : Nat) : ∀ ns : List Node, toNodes (ofNodes k ns) = ns
  | [] => by simp [ofNodes, toNodes]
  | n :: ns => by simp [ofNodes, toNodes, toNode_ofNode k n, toNodes_ofNodes _ ns]

end

mutual

theorem numbers_ofNode (k : Nat) :
    ∀ n : Node, (ofNode k n).numbers = List.range' k n.elementCount
  | .element t cs => by
    simp [ofNode, numbersAmong_ofNodes (k + 1) cs, elementCount, List.range'_succ]
  | .text _ _ => by simp [ofNode, elementCount]
  | .comment _ => by simp [ofNode, elementCount]
  | .instruction _ _ => by simp [ofNode, elementCount]

/-- The elements of a page are numbered in its order. -/
theorem numbersAmong_ofNodes (k : Nat) :
    ∀ ns : List Node, numbersAmong (ofNodes k ns) = List.range' k (elementCounts ns)
  | [] => by simp [ofNodes, elementCounts]
  | n :: ns => by
    simp [ofNodes, numbers_ofNode k n, numbersAmong_ofNodes _ ns, elementCounts]

end

/-- Numbers tell the elements of a page apart. -/
theorem nodup_numbersAmong_ofNodes (k : Nat) (ns : List Node) :
    (numbersAmong (ofNodes k ns)).Nodup := by
  rw [numbersAmong_ofNodes]
  exact List.nodup_range'

/-! ### A page without some elements -/

/-- Whether a node is one of the elements that go. -/
def isGone (gone : List Nat) (n : Numbered) : Bool := n.number?.any fun k => decide (k ∈ gone)

mutual

/-- A node without some of the elements below it. -/
def kept (gone : List Nat) : Numbered → Node
  | element _ t cs => .element t (keptAmong gone cs)
  | text s verbatim => .text s verbatim
  | comment s => .comment s
  | instruction target s => .instruction target s

/-- Nodes without some of the elements among and below them. -/
def keptAmong (gone : List Nat) : List Numbered → List Node
  | [] => []
  | n :: ns => if isGone gone n then keptAmong gone ns else kept gone n :: keptAmong gone ns

end

@[simp] theorem keptAmong_nil : keptAmong gone [] = [] := by simp [keptAmong]

theorem keptAmong_cons (n : Numbered) (ns : List Numbered) :
    keptAmong gone (n :: ns) =
      if isGone gone n then keptAmong gone ns else kept gone n :: keptAmong gone ns := by
  rw [keptAmong]

theorem keptAmong_append (ns ms : List Numbered) :
    keptAmong gone (ns ++ ms) = keptAmong gone ns ++ keptAmong gone ms := by
  induction ns with
  | nil => simp
  | cons n ns ih => by_cases h : isGone gone n <;> simp [keptAmong_cons, h, ih]

theorem isGone_congr {gone' : List Nat} (h : ∀ k ∈ n.numbers, k ∈ gone ↔ k ∈ gone') :
    isGone gone n = isGone gone' n := by
  unfold isGone
  cases hk : n.number? with
  | none => rfl
  | some k => simp [h k (mem_numbers_of_number? hk)]

mutual

theorem kept_congr {gone' : List Nat} : ∀ {n : Numbered},
    (∀ k ∈ numbersAmong n.children, k ∈ gone ↔ k ∈ gone') → kept gone n = kept gone' n
  | element j t cs, h => by
    have hcs : keptAmong gone cs = keptAmong gone' cs := keptAmong_congr h
    simp [kept, hcs]
  | text _ _, _ => by simp [kept]
  | comment _, _ => by simp [kept]
  | instruction _ _, _ => by simp [kept]

/-- Only the elements of a page that go matter to what is kept of it. -/
theorem keptAmong_congr {gone' : List Nat} : ∀ {ns : List Numbered},
    (∀ k ∈ numbersAmong ns, k ∈ gone ↔ k ∈ gone') → keptAmong gone ns = keptAmong gone' ns
  | [], _ => by simp
  | n :: ns, h => by
    have hn : ∀ k ∈ n.numbers, k ∈ gone ↔ k ∈ gone' := fun k hk => h k (by simp [hk])
    have hns : ∀ k ∈ numbersAmong ns, k ∈ gone ↔ k ∈ gone' := fun k hk => h k (by simp [hk])
    have hchildren := kept_congr fun k hk => hn k (mem_numbers_of_mem_children hk)
    rw [keptAmong_cons, keptAmong_cons, isGone_congr hn, hchildren, keptAmong_congr hns]

end

/-- Elements at the top stay in any case. -/
theorem map_kept_congr {gone' : List Nat} (h : ∀ k ∈ numbersAmong ns, k ∈ gone ↔ k ∈ gone') :
    ns.map (kept gone) = ns.map (kept gone') := by
  refine List.map_congr_left fun n hn => kept_congr fun k hk => h k ?_
  exact mem_numbersAmong hn (mem_numbers_of_mem_children hk)

mutual

theorem kept_nil : ∀ n : Numbered, kept [] n = n.toNode
  | element _ t cs => by simp [kept, toNode, keptAmong_nil_left cs]
  | text _ _ => by simp [kept, toNode]
  | comment _ => by simp [kept, toNode]
  | instruction _ _ => by simp [kept, toNode]

theorem keptAmong_nil_left : ∀ ns : List Numbered, keptAmong [] ns = toNodes ns
  | [] => by simp [toNodes]
  | n :: ns => by
    have hn : isGone [] n = false := by simp [isGone]
    simp [keptAmong_cons, hn, toNodes, kept_nil n, keptAmong_nil_left ns]

end

theorem not_mem_children_of_nodup (h : n.numbers.Nodup) (hk : n.number? = some k) :
    k ∉ numbersAmong n.children := by
  cases n with
  | element j t cs =>
    obtain rfl : j = k := by simpa [number?] using hk
    exact (List.nodup_cons.1 (by simpa using h)).1
  | text _ _ => cases hk
  | comment _ => cases hk
  | instruction _ _ => cases hk

/-- The elements that go at a node, in it and behind it do not get in each other's way. -/
theorem keptAmong_cons_append {here inside behind : List Nat}
    (hnodup : (numbersAmong (n :: ns)).Nodup) (hhere : ∀ k ∈ here, n.number? = some k)
    (hinside : inside ⊆ numbersAmong n.children) (hbehind : behind ⊆ numbersAmong ns) :
    keptAmong (here ++ inside ++ behind) (n :: ns) =
      if isGone here n then keptAmong behind ns else kept inside n :: keptAmong behind ns := by
  rw [numbersAmong_cons, List.nodup_append] at hnodup
  obtain ⟨hn, -, hapart⟩ := hnodup
  have hgone : isGone (here ++ inside ++ behind) n = isGone here n := by
    unfold isGone
    cases hk : n.number? with
    | none => rfl
    | some k =>
      have hk_inside : k ∉ inside := fun h => not_mem_children_of_nodup hn hk (hinside h)
      have hk_behind : k ∉ behind := fun h =>
        hapart k (mem_numbers_of_number? hk) k (hbehind h) rfl
      simp [hk_inside, hk_behind]
  have hkept : kept (here ++ inside ++ behind) n = kept inside n := by
    refine kept_congr fun k hk => ?_
    have hk_here : k ∉ here := fun h => not_mem_children_of_nodup hn (hhere k h) hk
    have hk_behind : k ∉ behind := fun h =>
      hapart k (mem_numbers_of_mem_children hk) k (hbehind h) rfl
    simp [hk_here, hk_behind]
  have hrest : keptAmong (here ++ inside ++ behind) ns = keptAmong behind ns := by
    refine keptAmong_congr fun k hk => ?_
    have hk_here : k ∉ here := fun h =>
      hapart k (mem_numbers_of_number? (hhere k h)) k hk rfl
    have hk_inside : k ∉ inside := fun h =>
      hapart k (mem_numbers_of_mem_children (hinside h)) k hk rfl
    simp [hk_here, hk_inside]
  rw [keptAmong_cons, hgone, hkept, hrest]

/-- At the top, where elements stay, those that go in a node and in the nodes behind it do not get
in each other's way either. -/
theorem map_kept_cons_append {inside behind : List Nat}
    (hnodup : (numbersAmong (n :: ns)).Nodup) (hinside : inside ⊆ numbersAmong n.children)
    (hbehind : ∀ k ∈ behind, ∃ m ∈ ns, k ∈ numbersAmong m.children) :
    (n :: ns).map (kept (inside ++ behind)) = kept inside n :: ns.map (kept behind) := by
  rw [numbersAmong_cons, List.nodup_append] at hnodup
  obtain ⟨-, -, hapart⟩ := hnodup
  have hkept : kept (inside ++ behind) n = kept inside n := by
    refine kept_congr fun k hk => ?_
    have hk_behind : k ∉ behind := by
      intro h
      obtain ⟨m, hm, hkm⟩ := hbehind k h
      exact hapart k (mem_numbers_of_mem_children hk) k
        (mem_numbersAmong hm (mem_numbers_of_mem_children hkm)) rfl
    simp [hk_behind]
  have hrest : ns.map (kept (inside ++ behind)) = ns.map (kept behind) := by
    refine map_kept_congr fun k hk => ?_
    have hk_inside : k ∉ inside := fun h =>
      hapart k (mem_numbers_of_mem_children (hinside h)) k hk rfl
    simp [hk_inside]
  rw [List.map_cons, hkept, hrest]

/-! ### One element taken out -/

theorem joinedAll_keptAmong_text (s : String) (verbatim : Bool) (ns : List Numbered) :
    joinedAll (keptAmong gone (text s verbatim :: ns)) =
      consText s (joinedAll (keptAmong gone ns)) := by
  simp [keptAmong_cons, isGone, number?, kept]

/-- Texts in a row are kept, and joined to one. -/
theorem joinedAll_keptAmong_texts (ts ns : List Numbered) (h : ∀ n ∈ ts, n.isText) :
    joinedAll (keptAmong gone (ts ++ ns)) =
      consText (textOf ts) (joinedAll (keptAmong gone ns)) := by
  induction ts with
  | nil => simp [textOf]
  | cons n ts ih =>
    have hts : ∀ m ∈ ts, m.isText := fun m hm => h m (by simp [hm])
    cases n with
    | text s verbatim =>
      have hs : textOf (text s verbatim :: ts) = s ++ textOf ts := by simp [textOf, text?]
      rw [List.cons_append, joinedAll_keptAmong_text, ih hts, consText_consText, hs]
    | element _ _ _ => cases h _ List.mem_cons_self
    | comment _ => cases h _ List.mem_cons_self
    | instruction _ _ => cases h _ List.mem_cons_self

/-- Nodes are those up to the last that is no text, and the texts at their end. -/
theorem reverse_dropWhile_append_isText (ns : List Numbered) :
    (ns.reverse.dropWhile isText).reverse ++ (ns.reverse.takeWhile isText).reverse = ns := by
  rw [← List.reverse_append, List.takeWhile_append_dropWhile, List.reverse_reverse]

theorem isText_of_mem_takeWhile {ns : List Numbered} : ∀ n ∈ ns.takeWhile isText, n.isText :=
  fun _ hn => List.mem_takeWhile_imp hn

theorem isText_of_mem_reverse_takeWhile {ns : List Numbered} :
    ∀ n ∈ (ns.reverse.takeWhile isText).reverse, n.isText :=
  fun _ hn => isText_of_mem_takeWhile _ (List.mem_reverse.1 hn)

/-- Where an element goes, the nodes before and after it close up without loss. -/
theorem joinedAll_keptAmong_closeUp (before after : List Numbered) :
    joinedAll (keptAmong gone (closeUp before after)) =
      joinedAll (keptAmong gone (before ++ after)) := by
  have hafter : joinedAll (keptAmong gone after) = consText (textOf (after.takeWhile isText))
      (joinedAll (keptAmong gone (after.dropWhile isText))) := by
    rw [← joinedAll_keptAmong_texts _ _ isText_of_mem_takeWhile, List.takeWhile_append_dropWhile]
  unfold closeUp
  dsimp only
  by_cases htail : textOf (after.takeWhile isText) = ""
  · rw [if_pos htail, keptAmong_append, keptAmong_append]
    refine joinedAll_append_congr _ ?_
    rw [hafter, htail, Node.consText_empty]
  · -- The texts at the end of `before` run on into those at the front of `after`.
    rw [if_neg htail, ← reverse_dropWhile_append_isText before, List.append_assoc,
      keptAmong_append, keptAmong_append, reverse_dropWhile_append_isText]
    refine joinedAll_append_congr _ ?_
    rw [joinedAll_keptAmong_text, joinedAll_keptAmong_texts _ _ isText_of_mem_reverse_takeWhile,
      hafter, consText_consText]

/-- Whether a node is the element of a number. -/
def hasNumber (number : Nat) (n : Numbered) : Bool := n.number? == some number

/-- What is taken out from among nodes is the first element of a number; if there is one, the nodes
before and after it close up. -/
theorem removeAmong_cases (number : Nat) (ns : List Numbered) :
    (ns.eraseP (hasNumber number) = ns ∧ removeAmong number ns = ns) ∨
    ∃ before after, ns.eraseP (hasNumber number) = before ++ after ∧
      removeAmong number ns = closeUp before after := by
  have hp : (fun n : Numbered => n.number? != some number) = fun n => !n.hasNumber number := rfl
  have hsplit := List.takeWhile_append_dropWhile (p := fun n => !hasNumber number n) (l := ns)
  have hbefore : ∀ m ∈ ns.takeWhile fun n => !hasNumber number n, ¬ m.hasNumber number := by
    intro m hm
    simpa using List.mem_takeWhile_imp hm
  unfold removeAmong
  rw [hp]
  cases hd : ns.dropWhile fun n => !hasNumber number n with
  | nil =>
    rw [hd, List.append_nil] at hsplit
    exact .inl ⟨List.eraseP_of_forall_not (hsplit ▸ hbefore), rfl⟩
  | cons n after =>
    have hn : n.hasNumber number := by
      have hhead := List.head_dropWhile_not (fun n => !hasNumber number n) (l := ns) (by simp [hd])
      simpa [hd] using hhead
    refine .inr ⟨ns.takeWhile fun n => !hasNumber number n, after, ?_, rfl⟩
    rw [hd] at hsplit
    calc ns.eraseP (hasNumber number)
      _ = ((ns.takeWhile fun n => !hasNumber number n) ++ n :: after).eraseP
          (hasNumber number) := by rw [hsplit]
      _ = (ns.takeWhile fun n => !hasNumber number n) ++ after := by
        rw [List.eraseP_append_right _ hbefore, List.eraseP_cons_of_pos hn]

theorem removeAmong_of_forall_not (h : ∀ n ∈ ns, ¬ n.hasNumber number) :
    removeAmong number ns = ns := by
  have hp : (fun n : Numbered => n.number? != some number) = fun n => !n.hasNumber number := rfl
  unfold removeAmong
  rw [hp, List.dropWhile_eq_nil_iff.2 fun n hn => by simp [h n hn]]

theorem joinedAll_keptAmong_removeAmong (gone : List Nat) (number : Nat) (ns : List Numbered) :
    joinedAll (keptAmong gone (removeAmong number ns)) =
      joinedAll (keptAmong gone (ns.eraseP (hasNumber number))) := by
  rcases removeAmong_cases number ns with ⟨herase, hremove⟩ | ⟨before, after, herase, hremove⟩
  · rw [herase, hremove]
  · rw [herase, hremove, joinedAll_keptAmong_closeUp]

theorem numbersAmong_texts {ts : List Numbered} (h : ∀ n ∈ ts, n.isText) :
    numbersAmong ts = [] := by
  induction ts with
  | nil => rfl
  | cons n ts ih =>
    have hn : n.numbers = [] := by
      cases n with
      | text _ _ => rfl
      | element _ _ _ => cases h _ List.mem_cons_self
      | comment _ => rfl
      | instruction _ _ => rfl
    simp [hn, ih fun m hm => h m (by simp [hm])]

theorem numbersAmong_dropWhile_isText (ns : List Numbered) :
    numbersAmong (ns.dropWhile isText) = numbersAmong ns := by
  have h := congrArg numbersAmong (List.takeWhile_append_dropWhile (p := isText) (l := ns))
  rwa [numbersAmong_append, numbersAmong_texts isText_of_mem_takeWhile] at h

theorem numbersAmong_reverse_dropWhile_isText (ns : List Numbered) :
    numbersAmong (ns.reverse.dropWhile isText).reverse = numbersAmong ns := by
  have h := congrArg numbersAmong (reverse_dropWhile_append_isText ns)
  rwa [numbersAmong_append, numbersAmong_texts isText_of_mem_reverse_takeWhile,
    List.append_nil] at h

/-- Only texts are changed where nodes close up. -/
theorem numbersAmong_closeUp (before after : List Numbered) :
    numbersAmong (closeUp before after) = numbersAmong before ++ numbersAmong after := by
  unfold closeUp
  dsimp only
  split <;> simp [numbersAmong_dropWhile_isText, numbersAmong_reverse_dropWhile_isText]

theorem numbersAmong_eraseP_sublist (p : Numbered → Bool) (ns : List Numbered) :
    (numbersAmong (ns.eraseP p)).Sublist (numbersAmong ns) := by
  induction ns with
  | nil => simp
  | cons n ns ih =>
    rw [numbersAmong_cons]
    by_cases hn : p n
    · rw [List.eraseP_cons_of_pos hn]
      exact List.sublist_append_right _ _
    · rw [List.eraseP_cons_of_neg hn, numbersAmong_cons]
      exact ih.append_left _

theorem numbersAmong_removeAmong_sublist (number : Nat) (ns : List Numbered) :
    (numbersAmong (removeAmong number ns)).Sublist (numbersAmong ns) := by
  rcases removeAmong_cases number ns with ⟨-, hremove⟩ | ⟨before, after, herase, hremove⟩
  · simp [hremove]
  · rw [hremove, numbersAmong_closeUp, ← numbersAmong_append, ← herase]
    exact numbersAmong_eraseP_sublist _ ns

mutual

theorem numbers_removeIn_sublist (number : Nat) :
    ∀ n : Numbered, (numbers (removeIn number n)).Sublist n.numbers
  | element k t cs => by
    rw [removeIn, numbers_element, numbers_element]
    exact ((numbersAmong_removeAmong_sublist number _).trans
      (numbersAmong_removeInEach_sublist number cs)).cons_cons k
  | text _ _ => by simp [removeIn]
  | comment _ => by simp [removeIn]
  | instruction _ _ => by simp [removeIn]

/-- Elements keep their numbers when one of them is taken out. -/
theorem numbersAmong_removeInEach_sublist (number : Nat) :
    ∀ ns : List Numbered, (numbersAmong (removeInEach number ns)).Sublist (numbersAmong ns)
  | [] => by simp [removeInEach]
  | n :: ns => by
    rw [removeInEach, numbersAmong_cons, numbersAmong_cons]
    exact (numbers_removeIn_sublist number n).append (numbersAmong_removeInEach_sublist number ns)

end

theorem number?_removeIn (number : Nat) (n : Numbered) :
    (removeIn number n).number? = n.number? := by
  cases n <;> simp [removeIn, number?]

mutual

theorem removeIn_of_not_mem : ∀ {n : Numbered}, number ∉ n.numbers → removeIn number n = n
  | element k t cs, h => by
    have hcs : number ∉ numbersAmong cs := fun hmem => h (by simp [hmem])
    rw [removeIn, removeInEach_of_not_mem hcs, removeAmong_of_forall_not]
    intro n hn hnumber
    exact hcs (mem_numbersAmong hn (mem_numbers_of_number? (by simpa [hasNumber] using hnumber)))
  | text _ _, _ => by simp [removeIn]
  | comment _, _ => by simp [removeIn]
  | instruction _ _, _ => by simp [removeIn]

/-- Nothing changes where an element is taken out that is not there. -/
theorem removeInEach_of_not_mem : ∀ {ns : List Numbered}, number ∉ numbersAmong ns →
    removeInEach number ns = ns
  | [], _ => by simp [removeInEach]
  | n :: ns, h => by
    rw [numbersAmong_cons, List.mem_append, not_or] at h
    rw [removeInEach, removeIn_of_not_mem h.1, removeInEach_of_not_mem h.2]

end

mutual

theorem joined_kept_removeIn (gone : List Nat) (number : Nat) : ∀ {n : Numbered},
    n.numbers.Nodup → (kept gone (removeIn number n)).joined = (kept (number :: gone) n).joined
  | element k t cs, h => by
    rw [numbers_element, List.nodup_cons] at h
    simp [removeIn, kept, joinedAll_keptAmong_removeAmong,
      joinedAll_keptAmong_removeInEach gone number h.2]
  | text _ _, _ => by simp [removeIn, kept]
  | comment _, _ => by simp [removeIn, kept]
  | instruction _ _, _ => by simp [removeIn, kept]

/-- What is kept among the children of an element. -/
theorem joinedAll_keptAmong_removeInEach (gone : List Nat) (number : Nat) :
    ∀ {ns : List Numbered}, (numbersAmong ns).Nodup →
      joinedAll (keptAmong gone ((removeInEach number ns).eraseP (hasNumber number))) =
        joinedAll (keptAmong (number :: gone) ns)
  | [], _ => by simp [removeInEach]
  | n :: ns, h => by
    rw [numbersAmong_cons, List.nodup_append] at h
    obtain ⟨hn, hns, hdisjoint⟩ := h
    rw [removeInEach]
    by_cases hnumber : n.number? = some number
    · -- The element itself is here: no other one has its number, so nothing changes behind it.
      have hmem : number ∉ numbersAmong ns := fun hmem =>
        hdisjoint number (mem_numbers_of_number? hnumber) number hmem rfl
      rw [List.eraseP_cons_of_pos (by simp [hasNumber, number?_removeIn, hnumber]),
        removeInEach_of_not_mem hmem, keptAmong_cons, if_pos (by simp [isGone, hnumber])]
      exact congrArg joinedAll (keptAmong_congr fun k hk => by simp [ne_of_mem_of_not_mem hk hmem])
    · -- The element is in this node or behind it, and the node itself is kept as before.
      have ih := joinedAll_keptAmong_removeInEach gone number hns
      have hgone : isGone gone (removeIn number n) = isGone (number :: gone) n := by
        unfold isGone
        rw [number?_removeIn]
        cases hk : n.number? with
        | none => rfl
        | some k =>
          have : k ≠ number := fun e => hnumber (e ▸ hk)
          simp [this]
      rw [List.eraseP_cons_of_neg (by simp [hasNumber, number?_removeIn, hnumber]),
        keptAmong_cons, keptAmong_cons, hgone]
      split
      · exact ih
      · simp [ih, joined_kept_removeIn gone number hn]

end

/-- After an element is taken out, what is kept of a page is what was kept of it before, without
that element.  Elements at the top stay. -/
theorem joinedAll_kept_removeInEach (gone : List Nat) (number : Nat) {ns : List Numbered}
    (h : (numbersAmong ns).Nodup) :
    joinedAll ((removeInEach number ns).map (kept gone)) =
      joinedAll (ns.map (kept (number :: gone))) := by
  induction ns with
  | nil => simp [removeInEach]
  | cons n ns ih =>
    rw [numbersAmong_cons, List.nodup_append] at h
    simp [removeInEach, joined_kept_removeIn gone number h.1, ih h.2.1]

/-! ### Several elements taken out -/

/-- Nodes after elements were taken out one after another. -/
def removeAll (ns : List Numbered) (numbers : List Nat) : List Numbered :=
  numbers.foldl (fun ns number => removeInEach number ns) ns

theorem numbersAmong_removeAll_sublist (numbers : List Nat) (ns : List Numbered) :
    (numbersAmong (removeAll ns numbers)).Sublist (numbersAmong ns) := by
  induction numbers generalizing ns with
  | nil => exact List.Sublist.refl _
  | cons number numbers ih => exact (ih _).trans (numbersAmong_removeInEach_sublist number ns)

theorem nodup_numbersAmong_removeAll (numbers : List Nat) {ns : List Numbered}
    (h : (numbersAmong ns).Nodup) : (numbersAmong (removeAll ns numbers)).Nodup :=
  (numbersAmong_removeAll_sublist numbers ns).nodup h

theorem joinedAll_kept_removeAll (gone numbers : List Nat) {ns : List Numbered}
    (h : (numbersAmong ns).Nodup) :
    joinedAll ((removeAll ns numbers).map (kept gone)) =
      joinedAll (ns.map (kept (numbers ++ gone))) := by
  induction numbers generalizing ns with
  | nil => rfl
  | cons number numbers ih =>
    have hnext := (numbersAmong_removeInEach_sublist number ns).nodup h
    calc joinedAll ((removeAll (removeInEach number ns) numbers).map (kept gone))
      _ = joinedAll ((removeInEach number ns).map (kept (numbers ++ gone))) := ih hnext
      _ = joinedAll (ns.map (kept (number :: (numbers ++ gone)))) :=
        joinedAll_kept_removeInEach _ number h

theorem map_kept_nil (ns : List Numbered) : ns.map (kept []) = toNodes ns := by
  induction ns with
  | nil => simp [toNodes]
  | cons n ns ih => simp [toNodes, kept_nil, ih]

/-- **What is left after elements were taken out one after another is the page without them.** -/
theorem joinedAll_removeAll (numbers : List Nat) {ns : List Numbered}
    (h : (numbersAmong ns).Nodup) :
    joinedAll (toNodes (removeAll ns numbers)) = joinedAll (ns.map (kept numbers)) := by
  rw [← map_kept_nil, joinedAll_kept_removeAll [] numbers h, List.append_nil]

/-! ### Counting what is left -/

mutual

theorem elementCount_kept_le (gone : List Nat) :
    ∀ n : Numbered, (kept gone n).elementCount ≤ n.numbers.length
  | element _ t cs => by simp [kept, elementCount, elementCounts_keptAmong_le gone cs]
  | text _ _ => by simp [kept, elementCount]
  | comment _ => by simp [kept, elementCount]
  | instruction _ _ => by simp [kept, elementCount]

theorem elementCounts_keptAmong_le (gone : List Nat) :
    ∀ ns : List Numbered, elementCounts (keptAmong gone ns) ≤ (numbersAmong ns).length
  | [] => by simp [elementCounts]
  | n :: ns => by
    have hn := elementCount_kept_le gone n
    have hns := elementCounts_keptAmong_le gone ns
    rw [keptAmong_cons, numbersAmong_cons, List.length_append]
    split
    · omega
    · rw [elementCounts]
      omega

end

mutual

theorem forall_not_mem_of_elementCount_kept : ∀ {n : Numbered},
    (kept gone n).elementCount = n.numbers.length → ∀ k ∈ numbersAmong n.children, k ∉ gone
  | element j t cs, h, k, hk => by
    have hcs : elementCounts (keptAmong gone cs) = (numbersAmong cs).length := by
      simpa [kept, elementCount] using h
    exact forall_not_mem_of_elementCounts_keptAmong hcs k hk
  | text _ _, _, k, hk => by simp [children] at hk
  | comment _, _, k, hk => by simp [children] at hk
  | instruction _ _, _, k, hk => by simp [children] at hk

/-- If as many elements are left as there were, none of them went. -/
theorem forall_not_mem_of_elementCounts_keptAmong : ∀ {ns : List Numbered},
    elementCounts (keptAmong gone ns) = (numbersAmong ns).length → ∀ k ∈ numbersAmong ns, k ∉ gone
  | [], _, k, hk => by simp at hk
  | n :: ns, h, k, hk => by
    have hn := elementCount_kept_le gone n
    have hns := elementCounts_keptAmong_le gone ns
    rw [keptAmong_cons, numbersAmong_cons, List.length_append] at h
    by_cases hgone : isGone gone n
    · -- An element that went is missing from the count.
      have hpos : 0 < n.numbers.length := by
        cases n with
        | element j t cs => simp
        | text _ _ => simp [isGone, number?] at hgone
        | comment _ => simp [isGone, number?] at hgone
        | instruction _ _ => simp [isGone, number?] at hgone
      rw [if_pos hgone] at h
      omega
    · rw [if_neg hgone, elementCounts] at h
      rw [numbersAmong_cons, List.mem_append] at hk
      rcases hk with hk | hk
      · cases n with
        | element j t cs =>
          rw [numbers_element, List.mem_cons] at hk
          rcases hk with rfl | hk
          · simpa [isGone, number?] using hgone
          · have hcount : (kept gone (element j t cs)).elementCount =
                (numbers (element j t cs)).length := by omega
            exact forall_not_mem_of_elementCount_kept hcount k hk
        | text _ _ => simp at hk
        | comment _ => simp at hk
        | instruction _ _ => simp at hk
      · exact forall_not_mem_of_elementCounts_keptAmong (by omega) k hk

end

theorem elementCounts_map_kept_le (gone : List Nat) (ns : List Numbered) :
    elementCounts (ns.map (kept gone)) ≤ (numbersAmong ns).length := by
  induction ns with
  | nil => simp [elementCounts]
  | cons n ns ih =>
    have hn := elementCount_kept_le gone n
    simp only [List.map_cons, elementCounts, numbersAmong_cons, List.length_append]
    omega

/-- If as many elements are left of a page as it had, none below its top went. -/
theorem not_mem_of_elementCounts_eq {ns : List Numbered}
    (h : elementCounts (ns.map (kept gone)) = (numbersAmong ns).length) (hn : n ∈ ns)
    (hk : k ∈ numbersAmong n.children) : k ∉ gone := by
  induction ns with
  | nil => cases hn
  | cons m ns ih =>
    have hm := elementCount_kept_le gone m
    have hns := elementCounts_map_kept_le gone ns
    simp only [List.map_cons, elementCounts, numbersAmong_cons, List.length_append] at h
    rcases List.mem_cons.1 hn with rfl | hn
    · exact forall_not_mem_of_elementCount_kept (by omega) k hk
    · exact ih (by omega) hn

end Numbered

@[simp] theorem Edit.start_nodes (ns : List Node) :
    (Edit.start ns).nodes = Numbered.ofNodes 0 ns := rfl

@[simp] theorem Edit.remove_nodes (e : Edit) (number : Nat) :
    (e.remove number).nodes = Numbered.removeInEach number e.nodes := rfl

end PagePlan.Dom
