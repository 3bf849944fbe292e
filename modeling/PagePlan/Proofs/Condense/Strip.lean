/-
# A stripped page

Non-content elements are found before the first of them is taken out, and one in another is taken
out of it after that one went.  However they lie, what is left is the page filtered from the top
down (`cleaned`): the children that never hold content are left out, with all in them, and so are
style attributes.  All other nodes stay in order below the same element, and of the texts around
what went each is there.

* `Condense.unstyle_strip` — a page whose root can hold content is stripped, and without style
  attributes it is that page filtered, up to the way text is cut.
-/
import PagePlan.Condense.Strip
import PagePlan.Proofs.Dom.Edit
import Mathlib.Data.List.Nodup

namespace PagePlan.Condense

open Dom (Node Tag Page Markup Numbered Edit)
open Dom.Node (joinedAll consText consJoined)
open Dom.Numbered (elements elementsAmong numbers numbersAmong kept keptAmong removeAll ofNodes
  toNode toNodes isGone)

/-! ### The page as it should be -/

/-- A tag without style attributes. -/
def withoutStyle (t : Tag) : Tag :=
  { t with attributes := t.attributes.filter fun a => !a.name.isPlain "style" }

mutual

/-- A node without the non-content elements below it and without style attributes. -/
def cleanedNode : Node → Node
  | .element t cs => .element (withoutStyle t) (cleanedAmong cs)
  | n => n

/-- Nodes without the non-content elements among and below them and without style attributes. -/
def cleanedAmong : List Node → List Node
  | [] => []
  | n :: ns =>
    if n.tag?.any isNonContent then cleanedAmong ns else cleanedNode n :: cleanedAmong ns

end

/-- A page without the non-content elements below its top and without style attributes. -/
def cleaned (p : Page) : Page := { p with nodes := p.nodes.map cleanedNode }

/-! ### Which elements go -/

/-- Of the elements of a page, which have numbers and tags, some go: those that never hold
content. -/
def Selects (gone : List Nat) (es : List (Nat × Tag)) : Prop :=
  ∀ k t, (k, t) ∈ es → (k ∈ gone ↔ isNonContent t = true)

theorem Selects.mono {gone : List Nat} {es fs : List (Nat × Tag)} (h : Selects gone fs)
    (hsub : es ⊆ fs) : Selects gone es := fun k t hk => h k t (hsub hk)

/-- Numbers tell elements apart, so that each element that is found is one that goes. -/
theorem selects_nonContentOf {ns : List Numbered} (h : (numbersAmong ns).Nodup) :
    Selects (nonContentOf ns) (elementsAmong ns) := by
  intro k t hk
  simp only [nonContentOf, List.mem_map, List.mem_filter]
  constructor
  · rintro ⟨⟨j, u⟩, ⟨hj, hu⟩, rfl⟩
    have hsame := List.inj_on_of_nodup_map h hj hk rfl
    obtain rfl : u = t := congrArg Prod.snd hsame
    exact hu
  · intro ht
    exact ⟨(k, t), ⟨hk, ht⟩, rfl⟩

/-- The number of the root is that of the first element at the top. -/
theorem exists_root_of_findSome? {root : Nat} (k : Nat) {ns : List Node}
    (h : (ofNodes k ns).findSome? Numbered.number? = some root) :
    ∃ t cs, ns.find? Node.isElement = some (.element t cs) ∧
      (root, t) ∈ elementsAmong (ofNodes k ns) := by
  induction ns generalizing k with
  | nil => simp [ofNodes] at h
  | cons n ns ih =>
    rw [ofNodes, List.findSome?_cons] at h
    cases n with
    | element t cs =>
      obtain rfl : k = root := by simpa [Numbered.ofNode, Numbered.number?] using h
      refine ⟨t, cs, by simp [Node.isElement], ?_⟩
      simp [ofNodes, Numbered.ofNode, elementsAmong, elements]
    | text _ _ =>
      simpa [Node.isElement, ofNodes, Numbered.ofNode, elementsAmong, elements] using ih _ h
    | comment _ =>
      simpa [Node.isElement, ofNodes, Numbered.ofNode, elementsAmong, elements] using ih _ h
    | instruction _ _ =>
      simpa [Node.isElement, ofNodes, Numbered.ofNode, elementsAmong, elements] using ih _ h

/-- Elements are taken out as long as the root is not among them. -/
theorem removeEach_eq_ok (m : Markup) {root : Option Nat} {ids : List Nat}
    (h : ∀ k ∈ ids, some k ≠ root) (e : Edit) :
    ∃ e', removeEach m root e ids = .ok e' ∧ e'.nodes = removeAll e.nodes ids := by
  induction ids generalizing e with
  | nil => exact ⟨e, rfl, rfl⟩
  | cons k ids ih =>
    have hk : some k ≠ root := h k List.mem_cons_self
    obtain ⟨e', he', hnodes⟩ := ih (fun j hj => h j (List.mem_cons_of_mem k hj)) (e.remove k)
    refine ⟨e', ?_, hnodes⟩
    simp [removeEach, hk, he']

/-! ### What is left -/

mutual

theorem unstyleNode_kept {gone : List Nat} : ∀ {n : Numbered}, Selects gone (elements n) →
    unstyleNode (kept gone n) = cleanedNode n.toNode
  | .element k t cs, h => by
    have hselects : Selects gone (elementsAmong cs) := h.mono (by simp [elements])
    have hcs := unstyleNodes_keptAmong hselects
    simp [kept, unstyleNode, toNode, cleanedNode, withoutStyle, hcs]
  | .text _ _, _ => by simp [kept, unstyleNode, toNode, cleanedNode]
  | .comment _, _ => by simp [kept, unstyleNode, toNode, cleanedNode]
  | .instruction _ _, _ => by simp [kept, unstyleNode, toNode, cleanedNode]

/-- If the elements that go are those that never hold content, what is kept is the filtered page. -/
theorem unstyleNodes_keptAmong {gone : List Nat} : ∀ {ns : List Numbered},
    Selects gone (elementsAmong ns) → unstyleNodes (keptAmong gone ns) = cleanedAmong (toNodes ns)
  | [], _ => by simp [unstyleNodes, toNodes, cleanedAmong]
  | n :: ns, h => by
    have hselects_n : Selects gone (elements n) := h.mono (by simp [elementsAmong])
    have hselects_ns : Selects gone (elementsAmong ns) := h.mono (by simp [elementsAmong])
    have hn := unstyleNode_kept hselects_n
    have hns := unstyleNodes_keptAmong hselects_ns
    have hgone : isGone gone n = n.toNode.tag?.any isNonContent := by
      cases n with
      | element k t cs =>
        have hk := h k t (by simp [elementsAmong, elements])
        by_cases ht : isNonContent t <;>
          simp [isGone, Numbered.number?, toNode, Node.tag?, hk, ht]
      | text _ _ => simp [isGone, Numbered.number?, toNode, Node.tag?]
      | comment _ => simp [isGone, Numbered.number?, toNode, Node.tag?]
      | instruction _ _ => simp [isGone, Numbered.number?, toNode, Node.tag?]
    rw [Numbered.keptAmong_cons, hgone, toNodes, cleanedAmong]
    split
    · exact hns
    · rw [unstyleNodes, hn, hns]

end

/-- Nodes at the top are filtered one by one. -/
theorem unstyleNodes_map_kept {gone : List Nat} {ns : List Numbered}
    (h : Selects gone (elementsAmong ns)) :
    unstyleNodes (ns.map (kept gone)) = (toNodes ns).map cleanedNode := by
  induction ns with
  | nil => simp [unstyleNodes, toNodes]
  | cons n ns ih =>
    have hselects : Selects gone (elements n) := h.mono (by simp [elementsAmong])
    have hn := unstyleNode_kept hselects
    have hns := ih (h.mono (by simp [elementsAmong]))
    simp [unstyleNodes, toNodes, hn, hns]

theorem unstyleNodes_consText (s : String) (ns : List Node) :
    unstyleNodes (consText s ns) = consText s (unstyleNodes ns) := by
  by_cases hs : s = ""
  · simp [hs]
  rcases ns with _ | ⟨_ | _ | _ | _, rest⟩ <;> simp [consText, hs, unstyleNodes, unstyleNode]

theorem unstyleNodes_consJoined (n : Node) (ns : List Node) :
    unstyleNodes (consJoined n ns) = consJoined (unstyleNode n) (unstyleNodes ns) := by
  cases n with
  | text s _ => simp [unstyleNode, unstyleNodes_consText]
  | element _ _ => simp [unstyleNode, unstyleNodes]
  | comment _ => simp [unstyleNode, unstyleNodes]
  | instruction _ _ => simp [unstyleNode, unstyleNodes]

mutual

theorem joined_unstyleNode : ∀ n : Node, (unstyleNode n).joined = unstyleNode n.joined
  | .element t cs => by simp [unstyleNode, joinedAll_unstyleNodes cs]
  | .text _ _ => by simp [unstyleNode]
  | .comment _ => by simp [unstyleNode]
  | .instruction _ _ => by simp [unstyleNode]

/-- Style attributes have nothing to do with texts. -/
theorem joinedAll_unstyleNodes : ∀ ns : List Node,
    joinedAll (unstyleNodes ns) = unstyleNodes (joinedAll ns)
  | [] => by simp [unstyleNodes]
  | n :: ns => by
    simp [unstyleNodes, unstyleNodes_consJoined, joined_unstyleNode n, joinedAll_unstyleNodes ns]

end

/-- **A page whose root can hold content is stripped, and without style attributes it is the page
filtered from the top down; no text is lost on the way.** -/
theorem unstyle_strip (p : Page)
    (hroot : ∀ t cs, p.root? = some (.element t cs) → isNonContent t = false) :
    ∃ q count, strip p = .ok (q, count) ∧ (unstyle q).joined = (cleaned p).joined := by
  have hnodup := Numbered.nodup_numbersAmong_ofNodes 0 p.nodes
  have hselects := selects_nonContentOf hnodup
  -- The root is not among the elements that go.
  have hstays : ∀ k ∈ nonContentOf (ofNodes 0 p.nodes),
      some k ≠ (ofNodes 0 p.nodes).findSome? Numbered.number? := by
    intro k hk heq
    obtain ⟨t, cs, hfind, hmem⟩ := exists_root_of_findSome? 0 heq.symm
    have ht := hroot t cs hfind
    rw [(hselects k t hmem).1 hk] at ht
    cases ht
  obtain ⟨e, he, hnodes⟩ := removeEach_eq_ok p.markup hstays (Edit.start p.nodes)
  refine ⟨{ p with nodes := toNodes e.nodes }, (nonContentOf (ofNodes 0 p.nodes)).length, ?_, ?_⟩
  · simp only [strip, Edit.start_nodes, he]
    rfl
  · have hleft : joinedAll (toNodes e.nodes) =
        joinedAll ((ofNodes 0 p.nodes).map (kept (nonContentOf (ofNodes 0 p.nodes)))) := by
      rw [hnodes]
      exact Numbered.joinedAll_removeAll _ hnodup
    have hclean : joinedAll (unstyleNodes (toNodes e.nodes)) =
        joinedAll (p.nodes.map cleanedNode) := by
      rw [joinedAll_unstyleNodes, hleft, ← joinedAll_unstyleNodes, unstyleNodes_map_kept hselects,
        Numbered.toNodes_ofNodes]
    simp [unstyle, cleaned, Page.joined, hclean]

/-- A page with a head, a script between texts, a drawing with a path in it, and two elements side
by side that go. -/
def drawnPage : Page where
  markup := .html
  doctype := none
  nodes := [.element ⟨.plain "html", [], []⟩
    [.element ⟨.plain "head", [], []⟩ [.element ⟨.plain "meta", [], []⟩ []],
      .element ⟨.plain "body", [⟨.plain "style", some "margin: 0"⟩, ⟨.plain "id", some "top"⟩], []⟩
        [.text "one " false, .element ⟨.plain "script", [], []⟩ [.text "run()" true],
          .text "two" false,
          .element ⟨.plain "svg", [], []⟩ [.element ⟨.plain "path", [], []⟩ [], .text "dot" false],
          .text " three" false, .comment "note", .element ⟨.plain "style", [], []⟩ [],
          .element ⟨.plain "link", [], []⟩ [], .text "four" false]]]

theorem unstyle_strip_drawnPage :
    (∀ t cs, drawnPage.root? = some (.element t cs) → isNonContent t = false) ∧
    ∃ q count, strip drawnPage = .ok (q, count) ∧ (unstyle q).joined.nodes =
      [.element ⟨.plain "html", [], []⟩
        [.element ⟨.plain "body", [⟨.plain "id", some "top"⟩], []⟩
          [.text "one two three" false, .comment "note", .text "four" false]]] := by
  have hroot : ∀ t cs, drawnPage.root? = some (.element t cs) → isNonContent t = false := by
    rintro t cs ⟨⟩
    decide
  obtain ⟨q, count, hstrip, hjoined⟩ := unstyle_strip drawnPage hroot
  refine ⟨hroot, q, count, hstrip, ?_⟩
  rw [hjoined]
  rfl

end PagePlan.Condense
