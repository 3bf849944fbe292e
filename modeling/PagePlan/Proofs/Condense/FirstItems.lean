/-
# The first items of each list

What truncation should leave of a page needs no passes to say: an element stays if the element
around it does and if no pattern that tells it as an item tells too many of the elements before it,
all as they stand in the whole page.

* `Condense.firstItems_firstItems` — what is filtered by some patterns and then by one more is
  filtered by all of them at once, if their items nest;
* `Condense.filter_isItemNode_firstItemsAmong` — of the items of an element, whichever patterns tell
  them, the first few stay.

Two patterns that tell the same element as a list nest: the items of one are items of the other.
Where the elements before an item are fewer after a first filter, that filter left out an item of a
pattern that already had its number, and the items of the smaller pattern alone are too many.
-/
import PagePlan.Condense.Truncate
import PagePlan.Proofs.Dom.Joined
import Mathlib.Logic.Basic

namespace PagePlan.Condense

open Dom (Node Tag Page)
open Dom.Node (joinedAll consText consJoined)

/-! ### The filter -/

/-- Whether an element stays where it stands: `around` is the tag around its parent, `t` that of its
parent, and `before` are the tags of the elements beside it that come first. -/
def Stays (ps : List Pattern) (limit : Int) (around : Option Tag) (t : Tag) (before : List Tag)
    (u : Tag) : Prop :=
  ∀ p ∈ ps, p.isList around t → p.isItem u → (before.countP p.isItem : Int) < limit

instance (ps : List Pattern) (limit : Int) (around : Option Tag) (t : Tag) (before : List Tag)
    (u : Tag) : Decidable (Stays ps limit around t before u) :=
  inferInstanceAs (Decidable (∀ p ∈ ps, p.isList around t → p.isItem u →
    (before.countP p.isItem : Int) < limit))

mutual

/-- A node in which the elements stay that should. -/
def firstItems (ps : List Pattern) (limit : Int) (around : Option Tag) : Node → Node
  | .element t cs => .element t (firstItemsAmong ps limit around t [] cs)
  | n => n

/-- Of the children of an element those that should stay. -/
def firstItemsAmong (ps : List Pattern) (limit : Int) (around : Option Tag) (t : Tag)
    (before : List Tag) : List Node → List Node
  | [] => []
  | n :: ns =>
    match n.tag? with
    | none => n :: firstItemsAmong ps limit around t before ns
    | some u =>
      if Stays ps limit around t before u then
        firstItems ps limit (some t) n :: firstItemsAmong ps limit around t (before ++ [u]) ns
      else firstItemsAmong ps limit around t (before ++ [u]) ns

end

/-- A page in which the elements below its top stay that should. -/
def firstItemsOf (ps : List Pattern) (limit : Int) (page : Page) : Page :=
  { page with nodes := page.nodes.map (firstItems ps limit none) }

variable {p : Pattern} {ps : List Pattern} {limit : Int} {around : Option Tag} {t u : Tag}
  {before before' : List Tag}

@[simp] theorem firstItems_element (cs : List Node) :
    firstItems ps limit around (.element t cs) =
      .element t (firstItemsAmong ps limit around t [] cs) := rfl

@[simp] theorem firstItems_text (s : String) (verbatim : Bool) :
    firstItems ps limit around (.text s verbatim) = .text s verbatim := rfl

@[simp] theorem firstItems_comment (s : String) :
    firstItems ps limit around (.comment s) = .comment s := rfl

@[simp] theorem firstItems_instruction (target s : String) :
    firstItems ps limit around (.instruction target s) = .instruction target s := rfl

@[simp] theorem tag?_firstItems (n : Node) : (firstItems ps limit around n).tag? = n.tag? := by
  cases n <;> simp [Node.tag?]

@[simp] theorem firstItemsAmong_nil : firstItemsAmong ps limit around t before [] = [] := rfl

theorem firstItemsAmong_of_none {n : Node} (ns : List Node) (h : n.tag? = none) :
    firstItemsAmong ps limit around t before (n :: ns) =
      n :: firstItemsAmong ps limit around t before ns := by
  simp [firstItemsAmong, h]

theorem firstItemsAmong_of_some {n : Node} (ns : List Node) (h : n.tag? = some u) :
    firstItemsAmong ps limit around t before (n :: ns) =
      if Stays ps limit around t before u then
        firstItems ps limit (some t) n :: firstItemsAmong ps limit around t (before ++ [u]) ns
      else firstItemsAmong ps limit around t (before ++ [u]) ns := by
  simp [firstItemsAmong, h]

@[simp] theorem firstItemsAmong_text (s : String) (verbatim : Bool) (ns : List Node) :
    firstItemsAmong ps limit around t before (.text s verbatim :: ns) =
      .text s verbatim :: firstItemsAmong ps limit around t before ns :=
  firstItemsAmong_of_none ns rfl

@[simp] theorem firstItemsAmong_comment (s : String) (ns : List Node) :
    firstItemsAmong ps limit around t before (.comment s :: ns) =
      .comment s :: firstItemsAmong ps limit around t before ns :=
  firstItemsAmong_of_none ns rfl

@[simp] theorem firstItemsAmong_instruction (target s : String) (ns : List Node) :
    firstItemsAmong ps limit around t before (.instruction target s :: ns) =
      .instruction target s :: firstItemsAmong ps limit around t before ns :=
  firstItemsAmong_of_none ns rfl

theorem firstItemsAmong_element (cs ns : List Node) :
    firstItemsAmong ps limit around t before (.element u cs :: ns) =
      if Stays ps limit around t before u then
        firstItems ps limit (some t) (.element u cs) ::
          firstItemsAmong ps limit around t (before ++ [u]) ns
      else firstItemsAmong ps limit around t (before ++ [u]) ns :=
  firstItemsAmong_of_some ns rfl

theorem stays_cons :
    Stays (p :: ps) limit around t before u ↔
      Stays [p] limit around t before u ∧ Stays ps limit around t before u := by
  simp [Stays]

mutual

theorem firstItems_congr {qs : List Pattern} (h : ∀ p, p ∈ ps ↔ p ∈ qs) :
    ∀ (around : Option Tag) (n : Node), firstItems ps limit around n = firstItems qs limit around n
  | around, .element t cs => by simp [firstItemsAmong_congr h around t [] cs]
  | _, .text _ _ => by simp
  | _, .comment _ => by simp
  | _, .instruction _ _ => by simp

/-- In which order patterns are listed does not matter. -/
theorem firstItemsAmong_congr {qs : List Pattern} (h : ∀ p, p ∈ ps ↔ p ∈ qs) :
    ∀ (around : Option Tag) (t : Tag) (before : List Tag) (ns : List Node),
      firstItemsAmong ps limit around t before ns = firstItemsAmong qs limit around t before ns
  | _, _, _, [] => by simp
  | around, t, before, n :: ns => by
    have hstays (u : Tag) :
        Stays ps limit around t before u ↔ Stays qs limit around t before u := by
      simp [Stays, h]
    cases ht : n.tag? with
    | none =>
      rw [firstItemsAmong_of_none ns ht, firstItemsAmong_of_none ns ht,
        firstItemsAmong_congr h around t before ns]
    | some u =>
      simp [firstItemsAmong_of_some ns ht, hstays, firstItems_congr h (some t) n,
        firstItemsAmong_congr h around t (before ++ [u]) ns]

end

mutual

theorem firstItems_nil (limit : Int) :
    ∀ (around : Option Tag) (n : Node), firstItems [] limit around n = n
  | around, .element t cs => by simp [firstItemsAmong_nil_left limit around t [] cs]
  | _, .text _ _ => by simp
  | _, .comment _ => by simp
  | _, .instruction _ _ => by simp

/-- Without patterns there are no items. -/
theorem firstItemsAmong_nil_left (limit : Int) :
    ∀ (around : Option Tag) (t : Tag) (before : List Tag) (ns : List Node),
      firstItemsAmong [] limit around t before ns = ns
  | _, _, _, [] => by simp
  | around, t, before, n :: ns => by
    cases hn : n.tag? with
    | none => rw [firstItemsAmong_of_none ns hn, firstItemsAmong_nil_left limit around t before ns]
    | some u =>
      rw [firstItemsAmong_of_some ns hn, if_pos (by simp [Stays]), firstItems_nil limit (some t) n,
        firstItemsAmong_nil_left limit around t (before ++ [u]) ns]

end

/-! ### Texts -/

/-- How text is cut has nothing to do with which elements stay. -/
theorem joinedAll_firstItemsAmong :
    ∀ (around : Option Tag) (t : Tag) (before : List Tag) (ns : List Node),
      joinedAll (firstItemsAmong ps limit around t before ns) =
        joinedAll (firstItemsAmong ps limit around t before (joinedAll ns))
  | _, _, _, [] => by simp
  | around, t, before, n :: ns => by
    cases n with
    | text s verbatim =>
      have hns := joinedAll_firstItemsAmong around t before ns
      simp [Node.joinedAll_consText firstItemsAmong_text, hns]
    | comment s => simp [joinedAll_firstItemsAmong around t before ns]
    | instruction target s => simp [joinedAll_firstItemsAmong around t before ns]
    | element u cs =>
      have hcs := joinedAll_firstItemsAmong (some t) u [] cs
      have hns := joinedAll_firstItemsAmong around t (before ++ [u]) ns
      rw [Node.joinedAll_cons, Node.joined_element, Node.consJoined_element,
        firstItemsAmong_element, firstItemsAmong_element]
      split <;> simp [hcs, hns]

theorem joinedAll_map_firstItems (ns : List Node) :
    joinedAll (ns.map (firstItems ps limit none)) =
      joinedAll ((joinedAll ns).map (firstItems ps limit none)) := by
  have htext (s : String) (ns : List Node) :
      joinedAll ((consText s ns).map (firstItems ps limit none)) =
        consText s (joinedAll (ns.map (firstItems ps limit none))) :=
    Node.joinedAll_consText (f := List.map (firstItems ps limit none)) (by simp) s ns
  induction ns with
  | nil => simp
  | cons n ns ih =>
    cases n with
    | text s verbatim => simp [htext, ih]
    | element t cs => simp [← joinedAll_firstItemsAmong none t [] cs, ih]
    | comment s => simp [ih]
    | instruction target s => simp [ih]

/-- Pages that differ only in how their text is cut are filtered alike. -/
theorem joinedAll_map_firstItems_congr {ns ms : List Node} (h : joinedAll ns = joinedAll ms) :
    joinedAll (ns.map (firstItems ps limit none)) =
      joinedAll (ms.map (firstItems ps limit none)) := by
  rw [joinedAll_map_firstItems ns, h, ← joinedAll_map_firstItems ms]

/-! ### One filter after another -/

/-- Where both patterns tell an element as a list, the items of one are items of the other. -/
def Pattern.Nests (p q : Pattern) : Prop :=
  ∀ around t, p.isList around t → q.isList around t →
    (∀ u, p.isItem u → q.isItem u) ∨ ∀ u, q.isItem u → p.isItem u

/-- The elements before a place are thinned by a filter: what `p` counts of them may become less,
but if all other patterns take only its items, it does so only when there were too many already. -/
structure Thinned (p : Pattern) (ps : List Pattern) (limit : Int) (around : Option Tag) (t : Tag)
    (before before' : List Tag) : Prop where
  le : before'.countP p.isItem ≤ before.countP p.isItem
  eq : (∀ q ∈ ps, q.isList around t → ∀ u, q.isItem u → p.isItem u) →
    (before'.countP p.isItem : Int) < limit → before'.countP p.isItem = before.countP p.isItem

namespace Thinned

/-- One more element that stays comes before the place. -/
theorem stay (h : Thinned p ps limit around t before before') (u : Tag) :
    Thinned p ps limit around t (before ++ [u]) (before' ++ [u]) where
  le := by
    have := h.le
    simp only [List.countP_append]
    omega
  eq hsub hlt := by
    simp only [List.countP_append] at hlt ⊢
    have := h.eq hsub (by omega)
    omega

/-- One more element that goes came before the place: where it was an item of a smaller pattern,
that had its number of items, and so had `p`. -/
theorem go (h : Thinned p ps limit around t before before')
    (hu : ¬ Stays ps limit around t before u) :
    Thinned p ps limit around t (before ++ [u]) before' where
  le := by
    have := h.le
    simp only [List.countP_append]
    omega
  eq hsub hlt := by
    exfalso
    -- Were the count still below the limit, the smaller patterns would let the element stay.
    refine hu fun q hq hlist _ => ?_
    have hcount : before.countP q.isItem ≤ before.countP p.isItem :=
      List.countP_mono_left fun v _ => hsub q hq hlist v
    have heq := h.eq hsub hlt
    omega

/-- What stays in the whole page is counted by one more pattern as if nothing had gone. -/
theorem stays_iff (h : Thinned p ps limit around t before before') (hnests : ∀ q ∈ ps, p.Nests q)
    (hu : Stays ps limit around t before u) :
    Stays [p] limit around t before' u ↔ Stays [p] limit around t before u := by
  have hle := h.le
  simp only [Stays, List.mem_singleton, forall_eq]
  constructor
  · intro hstays hlist hitem
    have hlt := hstays hlist hitem
    by_cases hsub : ∀ q ∈ ps, q.isList around t → ∀ v, q.isItem v → p.isItem v
    · have heq := h.eq hsub hlt
      omega
    · -- Some pattern takes more than the items of `p`: it counts no less, and the element stays.
      simp only [not_forall] at hsub
      obtain ⟨q, hq, hqlist, v, hv, hpv⟩ := hsub
      have hall : ∀ w, p.isItem w → q.isItem w :=
        (hnests q hq around t hlist hqlist).resolve_right fun hqp => hpv (hqp v hv)
      have hcount : before.countP p.isItem ≤ before.countP q.isItem :=
        List.countP_mono_left fun w _ => hall w
      have hqlt := hu q hq hqlist (hall u hitem)
      omega
  · intro hstays hlist hitem
    have hlt := hstays hlist hitem
    omega

end Thinned

mutual

theorem firstItems_firstItems (hnests : ∀ q ∈ ps, p.Nests q) :
    ∀ (around : Option Tag) (n : Node),
      firstItems [p] limit around (firstItems ps limit around n) =
        firstItems (p :: ps) limit around n
  | around, .element t cs => by
    have hstart : Thinned p ps limit around t [] [] := ⟨Nat.le_refl _, fun _ _ => rfl⟩
    simp [firstItemsAmong_firstItemsAmong hnests around t cs hstart]
  | _, .text _ _ => by simp
  | _, .comment _ => by simp
  | _, .instruction _ _ => by simp

/-- **A page filtered by some patterns and then by one more is filtered by all of them at once.** -/
theorem firstItemsAmong_firstItemsAmong (hnests : ∀ q ∈ ps, p.Nests q) :
    ∀ (around : Option Tag) (t : Tag) (ns : List Node) {before before' : List Tag},
      Thinned p ps limit around t before before' →
        firstItemsAmong [p] limit around t before' (firstItemsAmong ps limit around t before ns) =
          firstItemsAmong (p :: ps) limit around t before ns
  | _, _, [], _, _, _ => by simp
  | around, t, n :: ns, before, before', h => by
    cases hn : n.tag? with
    | none =>
      rw [firstItemsAmong_of_none ns hn, firstItemsAmong_of_none _ hn,
        firstItemsAmong_of_none ns hn, firstItemsAmong_firstItemsAmong hnests around t ns h]
    | some u =>
      rw [firstItemsAmong_of_some ns hn, firstItemsAmong_of_some ns hn]
      by_cases hu : Stays ps limit around t before u
      · -- The element passes the first filter, and so the second decides as if there were none.
        have hiff := h.stays_iff hnests hu
        have hall : Stays (p :: ps) limit around t before u ↔ Stays [p] limit around t before' u :=
          stays_cons.trans ⟨fun hp => hiff.2 hp.1, fun hp => ⟨hiff.1 hp, hu⟩⟩
        have hrest := firstItemsAmong_firstItemsAmong hnests around t ns (h.stay u)
        rw [if_pos hu, firstItemsAmong_of_some _ ((tag?_firstItems n).trans hn),
          firstItems_firstItems hnests (some t) n, hrest]
        simp only [hall]
      · have hall : ¬ Stays (p :: ps) limit around t before u := fun hp => hu (stays_cons.1 hp).2
        rw [if_neg hu, if_neg hall, firstItemsAmong_firstItemsAmong hnests around t ns (h.go hu)]

end

/-! ### The items of one element -/

/-- Whether some pattern tells an element as an item. -/
def isItemOfAny (ps : List Pattern) (around : Option Tag) (t u : Tag) : Bool :=
  ps.any fun p => p.isList around t && p.isItem u

/-- Of the patterns that tell an element as a list, one takes the items of all. -/
theorem exists_widest (hnests : ∀ p ∈ ps, ∀ q ∈ ps, p.Nests q)
    (hlist : ∃ p ∈ ps, p.isList around t) :
    ∃ p ∈ ps, p.isList around t ∧ ∀ q ∈ ps, q.isList around t → ∀ u, q.isItem u → p.isItem u := by
  induction ps with
  | nil => simp at hlist
  | cons p ps ih =>
    have hrest : ∀ q ∈ ps, ∀ r ∈ ps, q.Nests r := fun q hq r hr =>
      hnests q (List.mem_cons_of_mem p hq) r (List.mem_cons_of_mem p hr)
    by_cases hps : ∃ q ∈ ps, q.isList around t
    · -- The widest of the others is compared with `p`, if `p` tells the element as a list at all.
      obtain ⟨w, hw, hwlist, hwide⟩ := ih hrest hps
      by_cases hp : p.isList around t
      · have hnest := hnests p List.mem_cons_self w (List.mem_cons_of_mem p hw) around t hp hwlist
        rcases hnest with hpw | hwp
        · refine ⟨w, List.mem_cons_of_mem p hw, hwlist, fun q hq hqlist => ?_⟩
          rcases List.mem_cons.1 hq with rfl | hq
          · exact hpw
          · exact hwide q hq hqlist
        · refine ⟨p, List.mem_cons_self, hp, fun q hq hqlist u hu => ?_⟩
          rcases List.mem_cons.1 hq with rfl | hq
          · exact hu
          · exact hwp u (hwide q hq hqlist u hu)
      · refine ⟨w, List.mem_cons_of_mem p hw, hwlist, fun q hq hqlist => ?_⟩
        rcases List.mem_cons.1 hq with rfl | hq
        · exact absurd hqlist hp
        · exact hwide q hq hqlist
    · obtain ⟨q, hq, hqlist⟩ := hlist
      rcases List.mem_cons.1 hq with rfl | hq
      · refine ⟨q, List.mem_cons_self, hqlist, fun r hr hrlist u hu => ?_⟩
        rcases List.mem_cons.1 hr with rfl | hr
        · exact hu
        · exact absurd ⟨r, hr, hrlist⟩ hps
      · exact absurd ⟨q, hq, hqlist⟩ hps

/-- An element stays if it is no item, or if too few items come before it, whichever patterns tell
them. -/
theorem stays_iff_isItemOfAny (hnests : ∀ p ∈ ps, ∀ q ∈ ps, p.Nests q) :
    Stays ps limit around t before u ↔
      (isItemOfAny ps around t u → (before.countP (isItemOfAny ps around t) : Int) < limit) := by
  constructor
  · intro hstays hitem
    obtain ⟨q, hq, hqu⟩ := List.any_eq_true.1 hitem
    rw [Bool.and_eq_true] at hqu
    obtain ⟨p, hp, hplist, hwide⟩ := exists_widest hnests ⟨q, hq, hqu.1⟩
    have hcount : before.countP (isItemOfAny ps around t) ≤ before.countP p.isItem := by
      refine List.countP_mono_left fun v _ hv => ?_
      obtain ⟨r, hr, hrv⟩ := List.any_eq_true.1 hv
      rw [Bool.and_eq_true] at hrv
      exact hwide r hr hrv.1 v hrv.2
    have hlt := hstays p hp hplist (hwide q hq hqu.1 u hqu.2)
    omega
  · intro hany p hp hlist hitem
    have hlt := hany (List.any_eq_true.2 ⟨p, hp, by simp [hlist, hitem]⟩)
    have hcount : before.countP p.isItem ≤ before.countP (isItemOfAny ps around t) := by
      refine List.countP_mono_left fun v _ hv => ?_
      exact List.any_eq_true.2 ⟨p, hp, by simp [hlist, hv]⟩
    omega

/-- Whether a child of an element is an item. -/
def isItemNode (ps : List Pattern) (around : Option Tag) (t : Tag) (n : Node) : Bool :=
  n.tag?.any (isItemOfAny ps around t)

/-- **Of the items of an element the first few stay.** -/
theorem filter_isItemNode_firstItemsAmong (limit : Int) (around : Option Tag) (t : Tag)
    (hnests : ∀ p ∈ ps, ∀ q ∈ ps, p.Nests q) (before : List Tag) (ns : List Node) :
    (firstItemsAmong ps limit around t before ns).filter (isItemNode ps around t) =
      ((ns.filter (isItemNode ps around t)).take
        (limit - before.countP (isItemOfAny ps around t)).toNat).map
          (firstItems ps limit (some t)) := by
  induction ns generalizing before with
  | nil => simp
  | cons n ns ih =>
    cases hn : n.tag? with
    | none =>
      have hitem : isItemNode ps around t n = false := by simp [isItemNode, hn]
      rw [firstItemsAmong_of_none ns hn, List.filter_cons_of_neg (by simp [hitem]),
        List.filter_cons_of_neg (by simp [hitem]), ih]
    | some u =>
      have hnode : isItemNode ps around t n = isItemOfAny ps around t u := by simp [isItemNode, hn]
      have hfirst : isItemNode ps around t (firstItems ps limit (some t) n) =
          isItemOfAny ps around t u := by simp [isItemNode, hn]
      have hih := ih (before ++ [u])
      have hiff : Stays ps limit around t before u ↔ (isItemOfAny ps around t u →
          (before.countP (isItemOfAny ps around t) : Int) < limit) := stays_iff_isItemOfAny hnests
      rw [firstItemsAmong_of_some ns hn]
      by_cases hu : isItemOfAny ps around t u
      · -- One more item: it stays if it is below the limit, and else none behind it does.
        rw [List.countP_append, List.countP_singleton, if_pos hu] at hih
        rw [List.filter_cons_of_pos (hnode.trans hu)]
        by_cases hlt : (before.countP (isItemOfAny ps around t) : Int) < limit
        · have hsucc : (limit - before.countP (isItemOfAny ps around t)).toNat =
              (limit - (before.countP (isItemOfAny ps around t) + 1 : Nat)).toNat + 1 := by omega
          rw [if_pos (hiff.2 fun _ => hlt), List.filter_cons_of_pos (hfirst.trans hu), hih, hsucc,
            List.take_succ_cons, List.map_cons]
        · have hzero : (limit - before.countP (isItemOfAny ps around t)).toNat = 0 := by omega
          have hzero' :
              (limit - (before.countP (isItemOfAny ps around t) + 1 : Nat)).toNat = 0 := by omega
          rw [if_neg fun hstays => hlt (hiff.1 hstays hu), hih, hzero, hzero', List.take_zero,
            List.take_zero]
      · rw [List.countP_append, List.countP_singleton, if_neg hu, Nat.add_zero] at hih
        rw [if_pos (hiff.2 fun h => absurd h hu), List.filter_cons_of_neg (by simp [hfirst, hu]),
          List.filter_cons_of_neg (by simp [hnode, hu]), hih]

/-! ### The patterns -/

/-- What the lists of a pattern are: any element of some kind with any items in it, or an element of
one name with items of one name. -/
theorem patterns_kinds (hp : p ∈ patterns) :
    (∀ u, p.isItem u) ∨
    (∀ around t, p.isList around t → t.name.label = "ul") ∧
      (p.isItem = fun u => u.name.isPlain "li") ∨
    (∀ around t, p.isList around t → t.name.label = "tbody") ∧
      (p.isItem = fun u => u.name.isPlain "tr") := by
  simp only [patterns, List.mem_cons, List.not_mem_nil, or_false] at hp
  rcases hp with rfl | rfl | rfl | rfl | rfl | rfl
  · exact .inl fun _ => rfl
  · exact .inl fun _ => rfl
  · exact .inl fun _ => rfl
  · exact .inr (.inl ⟨fun _ t h => by simp_all [Dom.Name.isPlain], rfl⟩)
  · exact .inl fun _ => rfl
  · exact .inr (.inr ⟨fun _ t h => by simp_all [Dom.Name.isPlain], rfl⟩)

/-- The six patterns nest. -/
theorem patterns_nests {q : Pattern} (hp : p ∈ patterns) (hq : q ∈ patterns) : p.Nests q := by
  intro around t hplist hqlist
  rcases patterns_kinds hp with hpall | ⟨hpname, hpitem⟩ | ⟨hpname, hpitem⟩
  · exact .inr fun u _ => hpall u
  all_goals rcases patterns_kinds hq with hqall | ⟨hqname, hqitem⟩ | ⟨hqname, hqitem⟩
  · exact .inl fun u _ => hqall u
  · exact .inl fun u hu => by rwa [hqitem, ← hpitem]
  · exact absurd ((hpname around t hplist).symm.trans (hqname around t hqlist)) (by decide)
  · exact .inl fun u _ => hqall u
  · exact absurd ((hpname around t hplist).symm.trans (hqname around t hqlist)) (by decide)
  · exact .inl fun u hu => by rwa [hqitem, ← hpitem]

end PagePlan.Condense
