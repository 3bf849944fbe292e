/-
# The root of an HTML page

Whatever a text says first, its page begins with an `html` element: a start tag, or text that is
no blank, opens one where nothing is open, and the only start tag that does not is that of `html`
itself.  So every element at the top of a tree under construction is an `html` element, and so is
the outermost of those that are still open, which will be at the top once it is closed.

* `Html.IsBuilt.allHtml` — every element at the top of a page that was read is an `html` element;
* `Html.AllHtml.root?` — so is its root.
-/
import PagePlan.Proofs.Html.Construction

namespace PagePlan.Html

open Dom (Node Tag Name Page)

/-- Nodes among which all elements are `html` elements. -/
def AllHtml (ns : List Node) : Prop := ∀ n ∈ ns, ∀ t, n.tag? = some t → IsHtmlTag t

theorem AllHtml.cons {n : Node} {ns : List Node} (hn : ∀ t, n.tag? = some t → IsHtmlTag t)
    (h : AllHtml ns) : AllHtml (n :: ns) :=
  List.forall_mem_cons.2 ⟨hn, h⟩

namespace Builder

variable {b : Builder}

/-- The tags of the open elements, innermost first. -/
def openTags (b : Builder) : List Tag := b.stack.map OpenElement.tag

/-- The elements at the top of a tree under construction are `html` elements, and so is the
outermost open one. -/
structure Rooted (b : Builder) : Prop where
  top : AllHtml b.top
  outermost : ∀ t, b.openTags.getLast? = some t → IsHtmlTag t

theorem rooted_empty : Rooted .empty where
  top := nofun
  outermost := nofun

/-- A node can be added to an open element, and at the top one that is no element. -/
theorem Rooted.add (h : b.Rooted) {n : Node}
    (hn : b.stack = [] → ∀ t, n.tag? = some t → IsHtmlTag t) : (b.add n).Rooted := by
  unfold Builder.add
  split
  · next hstack => exact ⟨h.top.cons (hn hstack), h.outermost⟩
  · next e rest hstack =>
    refine ⟨h.top, fun t ht => h.outermost t ?_⟩
    -- The innermost element has one child more, and its tag.
    simpa [openTags, hstack] using ht

theorem Rooted.addText (h : b.Rooted) (s : String) (verbatim : Bool) :
    (b.addText s verbatim).Rooted := by
  have hadd : (b.add (.text s verbatim)).Rooted := h.add fun _ _ ht => by cases ht
  unfold Builder.addText
  split
  · exact h
  · next e rest hstack =>
    split
    · split
      · refine ⟨h.top, fun t ht => h.outermost t ?_⟩
        simpa [openTags, hstack] using ht
      · exact hadd
    · exact hadd

/-- An element can be opened in another one, and at the top an `html` element. -/
theorem Rooted.push (h : b.Rooted) {tag : Tag} (htag : b.stack = [] → IsHtmlTag tag) :
    (b.push tag).Rooted := by
  refine ⟨h.top, fun t ht => ?_⟩
  cases hstack : b.stack with
  | nil =>
    obtain rfl : tag = t := by simpa [Builder.push, openTags, hstack] using ht
    exact htag hstack
  | cons e rest => exact h.outermost t (by simpa [Builder.push, openTags, hstack] using ht)

theorem Rooted.pop (h : b.Rooted) : b.pop.Rooted := by
  unfold Builder.pop
  split
  · exact h
  · next e rest hstack =>
    have hrest : Rooted { b with stack := rest } := by
      refine ⟨h.top, fun t ht => h.outermost t ?_⟩
      cases rest with
      | nil => cases ht
      | cons _ _ => simpa [openTags, hstack] using ht
    refine hrest.add fun hnil t ht => h.outermost t ?_
    -- If nothing else is open, the element that is closed was the outermost one.
    obtain rfl : rest = [] := hnil
    simpa [openTags, hstack, OpenElement.node, Node.tag?] using ht

theorem kept_rooted : Kept Rooted where
  congr h hstack htop := by
    refine ⟨htop ▸ h.top, fun t ht => h.outermost t ?_⟩
    rwa [openTags, hstack] at ht
  comment _ h := h.add fun _ _ ht => by cases ht
  text s verbatim h := h.addText s verbatim
  push h htag := h.push htag
  pop h := h.pop

end Builder

theorem IsBuilt.allHtml {ns : List Node} (h : IsBuilt ns) : AllHtml ns := by
  cases h with
  | empty =>
    have hnil : AllHtml [] := nofun
    refine hnil.cons fun t ht => ?_
    obtain rfl := Option.some.inj ht
    rfl
  | tree ts =>
    obtain ⟨b, hb, heq⟩ := Builder.kept_rooted.tree Builder.rooted_empty ts
    intro n hn
    rw [heq, List.mem_reverse] at hn
    exact hb.top n hn

/-- The root is one of the elements at the top. -/
theorem AllHtml.root? {p : Page} (h : AllHtml p.nodes) {t : Tag} {cs : List Node}
    (hroot : p.root? = some (.element t cs)) : IsHtmlTag t :=
  h _ (List.mem_of_find?_eq_some hroot) t rfl

end PagePlan.Html
