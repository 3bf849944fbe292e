/-
# What is kept while a tree is built

Tokens do a few things to a tree under construction: they add comments, they add text to the open
elements, they open and close elements, and they set marks.  An element is opened at the top only if
it is an `html` element, because all others have a page opened around them first.  So what each of
these keeps (`Kept`) is kept by every token, and holds of every tree that tokens describe.

* `Kept.tree` — what is kept holds where the tree of a page is taken from;
* `isBuilt_ofString`, `isBuilt_ofBytes` — the nodes of a page that was read are such a tree, or
  those of the empty page.
-/
import PagePlan.Html.Page
import Mathlib.Tactic.SplitIfs

namespace PagePlan.Html

open Dom (Node Tag)

/-- The tag of an `html` element. -/
def IsHtmlTag (t : Tag) : Prop := t.name = .plain "html"

namespace Builder

variable {b : Builder}

/-! ### Where an element is open -/

theorem implyPart_stack_ne_nil (h : b.stack ≠ []) (name : String) :
    (b.implyPart name).stack ≠ [] := by
  unfold Builder.implyPart
  split_ifs
  · exact h
  · exact List.cons_ne_nil _ _
  · exact h
  · exact h
  · exact List.cons_ne_nil _ _

theorem openPage_stack_ne_nil (b : Builder) :
    (if b.stack.isEmpty then b.pushPlain "html" else b).stack ≠ [] := by
  split_ifs with hempty
  · exact List.cons_ne_nil _ _
  · simpa using hempty

/-- Around all but `html` elements a page is open. -/
theorem imply_stack_ne_nil {name : String} (h : name ≠ "html") : (b.imply name).stack ≠ [] := by
  unfold Builder.imply
  rw [if_neg h]
  dsimp only
  split
  · exact openPage_stack_ne_nil b
  · exact implyPart_stack_ne_nil (openPage_stack_ne_nil b) name

/-! ### What is kept -/

/-- What holds of a tree under construction, and goes on to do so. -/
structure Kept (P : Builder → Prop) : Prop where
  /-- It is up to the open elements and the nodes at the top. -/
  congr {b b' : Builder} : P b → b'.stack = b.stack → b'.top = b.top → P b'
  comment {b : Builder} (s : String) : P b → P (b.add (.comment s))
  text {b : Builder} (s : String) (verbatim : Bool) : P b → P (b.addText s verbatim)
  /-- At the top, an `html` element may be opened. -/
  push {b : Builder} {tag : Tag} : P b → (b.stack = [] → IsHtmlTag tag) → P (b.push tag)
  pop {b : Builder} : P b → P b.pop

namespace Kept

variable {P : Builder → Prop} (hP : Kept P)
include hP

/-- Where an element is open, any other one can be opened in it. -/
theorem push_inside (h : P b) (hopen : b.stack ≠ []) (tag : Tag) : P (b.push tag) :=
  hP.push h fun hnil => absurd hnil hopen

theorem popWhile (test : String → Bool) (fuel : Nat) (h : P b) : P (popWhile test fuel b) := by
  induction fuel generalizing b with
  | zero => exact h
  | succ fuel ih =>
    unfold Builder.popWhile
    split
    · exact h
    · split
      · exact ih (hP.pop h)
      · exact h

theorem implyPart (h : P b) (hopen : b.stack ≠ []) (name : String) : P (b.implyPart name) := by
  unfold Builder.implyPart
  split_ifs
  · exact h
  · exact hP.push_inside h hopen _
  · exact h
  · exact h
  · exact hP.push_inside h hopen _

theorem imply (h : P b) (name : String) : P (b.imply name) := by
  have hpage : P (if b.stack.isEmpty then b.pushPlain "html" else b) := by
    split_ifs
    · exact hP.push h fun _ => rfl
    · exact h
  unfold Builder.imply
  split
  · exact h
  · dsimp only
    split
    · exact hpage
    · exact hP.implyPart hpage (openPage_stack_ne_nil b) name

theorem startTag (h : P b) (name : String) (written : List (String × Option String))
    (closed : Bool) : P (b.startTag name written closed) := by
  have hready : P ((b.autoClose name).imply name) := hP.imply (hP.popWhile _ _ h) name
  have hpush : P (((b.autoClose name).imply name).push
      ⟨.plain name, attributesOf written, []⟩) := by
    refine hP.push hready fun hnil => ?_
    have hname : name = "html" := Decidable.byContradiction fun hne => imply_stack_ne_nil hne hnil
    rw [IsHtmlTag, hname]
  unfold Builder.startTag
  dsimp only
  split_ifs
  · exact hP.congr hready rfl rfl
  · exact hP.congr hready rfl rfl
  · exact hP.pop hpush
  · exact hpush

theorem endTag (h : P b) (name : String) : P (b.endTag name) := by
  have hinside : P (b.closeInside name) := by
    unfold Builder.closeInside
    dsimp only
    split_ifs
    · exact h
    · exact hP.popWhile _ _ h
  unfold Builder.endTag
  dsimp only
  split_ifs
  · exact hP.congr h rfl rfl
  · exact h
  · exact hP.pop hinside
  · exact hinside

theorem startText (h : P b) : P b.startText := by
  unfold Builder.startText
  dsimp only
  split_ifs
  · exact hP.imply (hP.popWhile _ _ h) "p"
  · exact hP.imply h "p"

theorem textToken (h : P b) (s : String) (verbatim : Bool) : P (b.text s verbatim) := by
  have hblanks (blanks : List Char) :
      P (if blanks.isEmpty then b else b.addText (String.ofList blanks) verbatim) := by
    split_ifs
    · exact h
    · exact hP.text _ _ h
  unfold Builder.text
  dsimp only
  split
  · split
    · exact hblanks _
    · exact hP.text _ _ (hP.startText (hblanks _))
  · exact hP.text _ _ h

theorem step (h : P b) (t : Token) : P (b.step t) := by
  unfold Builder.step
  split
  · exact h
  · cases t with
    | startTag name attributes closed => exact hP.startTag h name attributes closed
    | endTag name => exact hP.endTag h name
    | comment s => exact hP.comment s h
    | text s verbatim => exact hP.textToken h s verbatim
    | doctype d => exact h

theorem foldl (h : P b) (ts : List Token) : P (ts.foldl Builder.step b) := by
  induction ts generalizing b with
  | nil => exact h
  | cons t ts ih => exact ih (hP.step h t)

/-- The tree of a page is what stands at the top when all elements are closed. -/
theorem tree (h : P .empty) (ts : List Token) :
    ∃ b : Builder, P b ∧ Html.tree ts = b.top.reverse :=
  ⟨_, hP.popWhile _ _ (hP.foldl h ts), rfl⟩

end Kept

end Builder

/-! ### Pages -/

/-- The nodes of a page: those that tokens describe, or those of the empty page. -/
inductive IsBuilt : List Node → Prop
  | empty : IsBuilt emptyPage.nodes
  | tree (ts : List Token) : IsBuilt (Html.tree ts)

theorem isBuilt_ofChars (s : List Char) : IsBuilt (ofChars s).nodes := by
  unfold ofChars
  dsimp only
  split_ifs
  · exact .tree _
  · exact .empty

theorem isBuilt_ofBytes (bytes : List UInt8) : IsBuilt (ofBytes bytes).nodes := by
  unfold ofBytes
  dsimp only
  split_ifs
  · exact .empty
  · exact isBuilt_ofChars _

theorem isBuilt_ofString (s : String) : IsBuilt (ofString s).nodes := by
  unfold ofString
  dsimp only
  split
  · exact .empty
  · split_ifs
    · exact isBuilt_ofChars _
    · exact isBuilt_ofChars _

end PagePlan.Html
