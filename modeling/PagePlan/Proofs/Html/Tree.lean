/-
# Nodes before a page

No token looks at the top-level nodes that are there already: nothing is joined to them and nothing
is opened or closed because of them.  So a comment before a page is a comment before its tree.

* `Builder.step_behind` — a token does to a tree under construction what it does to that tree with
  nodes before it;
* `tree_comment` — the tree of a comment and more tokens.
-/
import PagePlan.Html.Tree

namespace PagePlan.Html

open Dom (Node Tag)

namespace Builder

variable (front : List Node) (b : Builder)

/-- A tree under construction with nodes before it, the last one first. -/
def behind (b : Builder) : Builder := { b with top := b.top ++ front }

@[simp] theorem behind_stack : (b.behind front).stack = b.stack := rfl

@[simp] theorem behind_top : (b.behind front).top = b.top ++ front := rfl

@[simp] theorem behind_dropped : (b.behind front).dropped = b.dropped := rfl

@[simp] theorem behind_headSeen : (b.behind front).headSeen = b.headSeen := rfl

@[simp] theorem behind_bodySeen : (b.behind front).bodySeen = b.bodySeen := rfl

@[simp] theorem behind_halted : (b.behind front).halted = b.halted := rfl

@[simp] theorem behind_current? : (b.behind front).current? = b.current? := rfl

@[simp] theorem behind_isOpen (name : String) : (b.behind front).isOpen name = b.isOpen name := rfl

@[simp] theorem behind_beforeBody : (b.behind front).beforeBody = b.beforeBody := rfl

@[simp] theorem behind_drops (name : String) : (b.behind front).drops name = b.drops name := rfl

/-! ### Opening and closing elements -/

@[simp] theorem add_behind (n : Node) : (b.behind front).add n = (b.add n).behind front := by
  unfold add
  rw [behind_stack]
  split <;> rfl

@[simp] theorem addText_behind (s : String) (verbatim : Bool) :
    (b.behind front).addText s verbatim = (b.addText s verbatim).behind front := by
  unfold addText
  rw [behind_stack]
  split
  · rfl
  · split
    · split
      · rfl
      · exact add_behind front b _
    · exact add_behind front b _

@[simp] theorem push_behind (tag : Tag) :
    (b.behind front).push tag = (b.push tag).behind front := rfl

@[simp] theorem pushPlain_behind (name : String) :
    (b.behind front).pushPlain name = (b.pushPlain name).behind front := rfl

@[simp] theorem pop_behind : (b.behind front).pop = b.pop.behind front := by
  unfold pop
  rw [behind_stack]
  split
  · rfl
  · next e rest _ => exact add_behind front { b with stack := rest } e.node

@[simp] theorem popWhile_behind (test : String → Bool) (fuel : Nat) :
    popWhile test fuel (b.behind front) = (popWhile test fuel b).behind front := by
  induction fuel generalizing b with
  | zero => rfl
  | succ fuel ih =>
    unfold popWhile
    rw [behind_current?]
    split
    · rfl
    · split
      · rw [pop_behind, ih]
      · rfl

@[simp] theorem autoClose_behind (name : String) :
    (b.behind front).autoClose name = (b.autoClose name).behind front :=
  popWhile_behind front b _ _

@[simp] theorem implyPart_behind (name : String) :
    (b.behind front).implyPart name = (b.implyPart name).behind front := by
  unfold implyPart
  simp only [behind_stack, behind_headSeen, behind_bodySeen, behind_isOpen, pushPlain_behind,
    apply_ite (behind front)]
  rfl

@[simp] theorem imply_behind (name : String) :
    (b.behind front).imply name = (b.imply name).behind front := by
  have hpage : (if (b.behind front).stack.isEmpty then (b.behind front).pushPlain "html"
      else b.behind front) = (if b.stack.isEmpty then b.pushPlain "html" else b).behind front := by
    rw [apply_ite (behind front), behind_stack, pushPlain_behind]
  simp only [imply, hpage, implyPart_behind]
  simp only [apply_ite (behind front)]

/-! ### Tokens -/

@[simp] theorem startTag_behind (name : String) (written : List (String × Option String))
    (closed : Bool) :
    (b.behind front).startTag name written closed =
      (b.startTag name written closed).behind front := by
  unfold startTag
  simp only [autoClose_behind, imply_behind, behind_drops, behind_stack, push_behind, pop_behind,
    apply_ite (behind front)]
  rfl

@[simp] theorem closeInside_behind (name : String) :
    (b.behind front).closeInside name = (b.closeInside name).behind front := by
  unfold closeInside
  simp only [behind_stack, popWhile_behind, apply_ite (behind front)]

@[simp] theorem endTag_behind (name : String) :
    (b.behind front).endTag name = (b.endTag name).behind front := by
  unfold endTag
  simp only [behind_dropped, behind_isOpen, closeInside_behind, behind_current?, pop_behind,
    apply_ite (behind front)]
  rfl

@[simp] theorem startText_behind : (b.behind front).startText = b.startText.behind front := by
  unfold startText
  simp only [behind_current?, autoClose_behind, imply_behind, ← apply_ite (behind front)]

@[simp] theorem text_behind (s : String) (verbatim : Bool) :
    (b.behind front).text s verbatim = (b.text s verbatim).behind front := by
  unfold text
  simp only [behind_beforeBody, addText_behind, startText_behind, ← apply_ite (behind front)]

/-- **A token leaves the nodes before a tree alone, and they make no difference to it.** -/
theorem step_behind (t : Token) : (b.behind front).step t = (b.step t).behind front := by
  unfold step
  rw [behind_halted]
  split
  · rfl
  · cases t <;> simp

theorem foldl_step_behind (ts : List Token) :
    ts.foldl step (b.behind front) = (ts.foldl step b).behind front := by
  induction ts generalizing b with
  | nil => rfl
  | cons t ts ih => rw [List.foldl_cons, List.foldl_cons, step_behind, ih]

theorem finish_behind : (b.behind front).finish = front.reverse ++ b.finish := by
  simp [finish]

end Builder

/-- **The tree of a comment and more tokens is the comment and the tree of those.** -/
theorem tree_comment (s : String) (ts : List Token) :
    tree (.comment s :: ts) = .comment s :: tree ts := by
  have hstep : Builder.empty.step (.comment s) = Builder.empty.behind [.comment s] := rfl
  rw [tree, List.foldl_cons, hstep, Builder.foldl_step_behind, Builder.finish_behind]
  rfl

end PagePlan.Html
