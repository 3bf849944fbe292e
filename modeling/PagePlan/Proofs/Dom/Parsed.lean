/-
# Parsed pages

Text of a parsed page stands inside elements, never beside the root element: HTML opens a body for
text that comes before one and drops blanks that have no place, and XML has no text outside of its
element.  For HTML it is an invariant of the tree under construction, that only comments and closed
elements are added to its top level.

* `Parsed.noText` — no top-level node of a parsed page is a text.
-/
import PagePlan.Proofs.Html.Construction
import PagePlan.Xml.Reader

namespace PagePlan

open Dom (Node Page)

/-- Nodes none of which is a text. -/
def NoText (ns : List Node) : Prop := ∀ n ∈ ns, n.isText = false

theorem noText_nil : NoText [] := nofun

theorem NoText.cons {n : Node} {ns : List Node} (hn : n.isText = false) (h : NoText ns) :
    NoText (n :: ns) :=
  List.forall_mem_cons.2 ⟨hn, h⟩

theorem NoText.append {ns ms : List Node} (h : NoText ns) (h' : NoText ms) : NoText (ns ++ ms) :=
  List.forall_mem_append.2 ⟨h, h'⟩

/-! ### HTML -/

namespace Html.Builder

variable {b : Builder}

/-- The top level of a tree under construction has no text. -/
def Bare (b : Builder) : Prop := NoText b.top

/-- A node other than text can be added anywhere, and text inside an open element. -/
theorem Bare.add (h : b.Bare) {n : Node} (hn : b.stack = [] → n.isText = false) :
    (b.add n).Bare := by
  unfold Builder.add
  split
  · next hstack => exact NoText.cons (hn hstack) h
  · exact h

theorem Bare.addText (h : b.Bare) (s : String) (verbatim : Bool) : (b.addText s verbatim).Bare := by
  unfold Builder.addText
  split
  · exact h
  · next hstack =>
    have hopen : b.stack = [] → (Node.text s verbatim).isText = false := by
      simp [hstack]
    split
    · split
      · exact h
      · exact h.add hopen
    · exact h.add hopen

theorem bare_empty : Bare .empty := noText_nil

theorem Bare.pop (h : b.Bare) : b.pop.Bare := by
  unfold Builder.pop
  split
  · exact h
  · next e rest _ => exact Bare.add (b := { b with stack := rest }) (n := e.node) h fun _ => rfl

theorem kept_bare : Kept Bare where
  congr h _ htop := by rwa [Bare, htop]
  comment _ h := h.add fun _ => rfl
  text s verbatim h := h.addText s verbatim
  push h _ := h
  pop h := h.pop

end Html.Builder

theorem Html.IsBuilt.noText {ns : List Node} (h : IsBuilt ns) : NoText ns := by
  cases h with
  | empty => exact noText_nil.cons rfl
  | tree ts =>
    obtain ⟨b, hb, heq⟩ := Builder.kept_bare.tree Builder.bare_empty ts
    intro n hn
    rw [heq, List.mem_reverse] at hn
    exact hb n hn

/-! ### XML -/

namespace Xml

theorem isText_of_readInstruction? {s rest : List Char} {n : Node}
    (h : readInstruction? s = some (n, rest)) : n.isText = false := by
  unfold readInstruction? at h
  obtain ⟨⟨target, after⟩, -, h⟩ := Option.bind_eq_some_iff.1 h
  obtain ⟨⟨body, after'⟩, -, h⟩ := Option.bind_eq_some_iff.1 h
  dsimp only at h
  split at h
  · cases h
  · split at h
    · cases h
      rfl
    · split at h
      · cases h
        rfl
      · cases h

/-- Before and after the element stand comments and instructions. -/
theorem noText_readMisc? {fuel : Nat} {s rest : List Char} {ns : List Node}
    (h : readMisc? fuel s = some (ns, rest)) : NoText ns := by
  induction fuel generalizing s ns with
  | zero => cases h
  | succ fuel ih =>
    rw [readMisc?] at h
    split at h
    · obtain ⟨⟨body, after⟩, -, h⟩ := Option.bind_eq_some_iff.1 h
      obtain ⟨⟨others, after'⟩, hothers, h⟩ := Option.bind_eq_some_iff.1 h
      cases h
      exact (ih hothers).cons rfl
    · obtain ⟨after, -, h⟩ := Option.bind_eq_some_iff.1 h
      obtain ⟨⟨inside, after'⟩, -, h⟩ := Option.bind_eq_some_iff.1 h
      dsimp only at h
      split at h
      · cases h
      · exact ih h
    · obtain ⟨⟨n, after⟩, hn, h⟩ := Option.bind_eq_some_iff.1 h
      obtain ⟨⟨others, after'⟩, hothers, h⟩ := Option.bind_eq_some_iff.1 h
      cases h
      exact (ih hothers).cons (isText_of_readInstruction? hn)
    · cases h
      exact noText_nil

theorem isText_of_readElement? {scope : List Dom.Declaration} {fuel : Nat} {s rest : List Char}
    {n : Node} (h : readElement? scope fuel s = some (n, rest)) : n.isText = false := by
  cases fuel with
  | zero =>
    rw [readElement?] at h
    cases h
  | succ fuel =>
    rw [readElement?] at h
    obtain ⟨⟨name, after⟩, -, h⟩ := Option.bind_eq_some_iff.1 h
    obtain ⟨⟨written, closed, after'⟩, -, h⟩ := Option.bind_eq_some_iff.1 h
    obtain ⟨⟨tag, inner⟩, -, h⟩ := Option.bind_eq_some_iff.1 h
    dsimp only at h
    split at h
    · cases h
      rfl
    · obtain ⟨⟨children, ended, after''⟩, -, h⟩ := Option.bind_eq_some_iff.1 h
      dsimp only at h
      split at h
      · cases h
        rfl
      · cases h

theorem noText_ofString? {s : String} {page : Page} (h : ofString? s = some page) :
    NoText page.nodes := by
  unfold ofString? at h
  obtain ⟨⟨front, rest⟩, hfront, h⟩ := Option.bind_eq_some_iff.1 h
  dsimp only at h
  split at h
  · obtain ⟨⟨root, after⟩, hroot, h⟩ := Option.bind_eq_some_iff.1 h
    obtain ⟨⟨back, after'⟩, hback, h⟩ := Option.bind_eq_some_iff.1 h
    dsimp only at h
    split at h
    · cases h
      exact (noText_readMisc? hfront).append
        ((noText_readMisc? hback).cons (isText_of_readElement? hroot))
    · cases h
  · cases h

end Xml

/-- A page that was read from a text or from bytes. -/
inductive Parsed : Page → Prop
  | text (s : String) : Parsed (Html.ofString s)
  | bytes (bytes : List UInt8) : Parsed (Html.ofBytes bytes)
  | xml {s : String} {page : Page} : Xml.ofString? s = some page → Parsed page

/-- **Text of a parsed page stands inside elements.** -/
theorem Parsed.noText {page : Page} (h : Parsed page) : NoText page.nodes := by
  cases h with
  | text s => exact (Html.isBuilt_ofString s).noText
  | bytes bytes => exact (Html.isBuilt_ofBytes bytes).noText
  | xml h => exact Xml.noText_ofString? h

end PagePlan
