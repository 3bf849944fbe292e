/-
# How condensing a page ends

Nothing but one thing can go wrong where a page is condensed: the root of an HTML page is among the
non-content elements, and there is nothing around it that it could be taken out of.  The root of a
page that was read is an `html` element, so that this never happens to a whole page; it happens to
an element that is condensed by itself, as the root of a page of its own, if it is one that never
holds content.  In XML such a root stays where it is.

* `Condense.removeEach_eq` — a run of removals fails just if the root of an HTML page is among them;
* `Condense.condense_outcome` — so a page is condensed unless it is refused;
* `Condense.condense_outcome_cases` — every page that was read is condensed, and every element of
  one but the non-content elements of HTML.
-/
import PagePlan.Condense.Summary
import PagePlan.Proofs.Condense.Strip
import PagePlan.Proofs.Dom.Parsed
import PagePlan.Proofs.Html.Root

namespace PagePlan.Condense

open Dom (Node Tag Page Markup Numbered Edit Site)
open Dom.Numbered (elementsAmong ofNodes toNodes)

/-- Whether a page is refused: it is HTML, and its root never holds content. -/
def isRefused (p : Page) : Bool :=
  p.markup = .html && (p.root?.bind Node.tag?).any isNonContent

/-! ### Stripping -/

/-- One removal fails if it is that of the root of an HTML page, and so does a run of them. -/
theorem removeEach_eq (m : Markup) (root : Option Nat) (e : Edit) (ids : List Nat) :
    removeEach m root e ids =
      if m = .html && ids.any fun k => some k == root then .error .topRemoved
      else .ok (ids.foldl Edit.remove e) := by
  induction ids generalizing e with
  | nil => simp [removeEach]
  | cons k ids ih =>
    rw [removeEach, List.any_cons, List.foldl_cons, ih, Bool.and_or_distrib_left]
    by_cases hk : m = .html && some k == root
    · simp [hk]
    · simp [hk]

/-- A page without a number at its top has no root. -/
theorem find?_isElement_of_findSome? (k : Nat) {ns : List Node}
    (h : (ofNodes k ns).findSome? Numbered.number? = none) : ns.find? Node.isElement = none := by
  induction ns generalizing k with
  | nil => rfl
  | cons n ns ih =>
    rw [ofNodes, List.findSome?_cons] at h
    cases n with
    | element t cs => simp [Numbered.ofNode, Numbered.number?] at h
    | text _ _ => simpa [Node.isElement] using ih _ h
    | comment _ => simpa [Node.isElement] using ih _ h
    | instruction _ _ => simpa [Node.isElement] using ih _ h

/-- The root of a page is among the elements that should go just if it never holds content. -/
theorem any_root_nonContentOf (p : Page) :
    ((nonContentOf (ofNodes 0 p.nodes)).any fun k =>
      some k == (ofNodes 0 p.nodes).findSome? Numbered.number?) =
    (p.root?.bind Node.tag?).any isNonContent := by
  cases hnumber : (ofNodes 0 p.nodes).findSome? Numbered.number? with
  | none =>
    have hroot : p.root? = none := find?_isElement_of_findSome? 0 hnumber
    simp [hroot]
  | some root =>
    obtain ⟨t, cs, hfind, hmem⟩ := exists_root_of_findSome? 0 hnumber
    have hroot : p.root? = some (.element t cs) := hfind
    have hgone := selects_nonContentOf (Numbered.nodup_numbersAmong_ofNodes 0 p.nodes) root t hmem
    rw [Bool.eq_iff_iff]
    simp [hroot, Node.tag?, ← hgone]

/-- A page is stripped unless it is refused. -/
theorem strip_outcome (p : Page) :
    if isRefused p then strip p = .error .topRemoved else ∃ r, strip p = .ok r := by
  have heach := removeEach_eq p.markup ((ofNodes 0 p.nodes).findSome? Numbered.number?)
    (Edit.start p.nodes) (nonContentOf (ofNodes 0 p.nodes))
  rw [any_root_nonContentOf, ← isRefused] at heach
  split
  · next h =>
    rw [if_pos h] at heach
    simp only [strip, Edit.start_nodes, heach]
    rfl
  · next h =>
    rw [if_neg h] at heach
    simp only [strip, Edit.start_nodes, heach]
    exact ⟨_, rfl⟩

/-! ### Condensing -/

/-- **A page is condensed unless it is refused**, however many items of a list are kept. -/
theorem condense_outcome (source : PageSource) (limit : Option Int) :
    if isRefused source.ownPage then (condense source limit).outcome = .error .topRemoved
    else ∃ text, (condense source limit).outcome = .ok text := by
  have hstrip := strip_outcome source.ownPage
  unfold condense
  split
  · next h =>
    rw [if_pos h] at hstrip
    exact Run.outcome_bind_of_error _ (by rw [Run.ofExcept_outcome, hstrip])
  · next h =>
    rw [if_neg h] at hstrip
    obtain ⟨r, hr⟩ := hstrip
    exact ⟨_, Run.outcome_bind_of_ok _ (by rw [Run.ofExcept_outcome, hr])⟩

/-! ### Pages that were read, and their elements -/

/-- An `html` element can hold content. -/
theorem isNonContent_of_isHtmlTag {t : Tag} (h : Html.IsHtmlTag t) : isNonContent t = false := by
  rw [isNonContent, h]
  decide

theorem isRefused_of_allHtml {p : Page} (h : Html.AllHtml p.nodes) : isRefused p = false := by
  cases hroot : p.root? with
  | none => simp [isRefused, hroot]
  | some n =>
    cases n with
    | element t cs =>
      simp [isRefused, hroot, Node.tag?, isNonContent_of_isHtmlTag (h.root? hroot)]
    | text _ _ => simp [isRefused, hroot, Node.tag?]
    | comment _ => simp [isRefused, hroot, Node.tag?]
    | instruction _ _ => simp [isRefused, hroot, Node.tag?]

theorem isRefused_of_xml {p : Page} (h : p.markup = .xml) : isRefused p = false := by
  simp [isRefused, h]

theorem markup_ofString? {s : String} {p : Page} (h : Xml.ofString? s = some p) :
    p.markup = .xml := by
  unfold Xml.ofString? at h
  obtain ⟨⟨front, rest⟩, -, h⟩ := Option.bind_eq_some_iff.1 h
  dsimp only at h
  split at h
  · obtain ⟨⟨root, after⟩, -, h⟩ := Option.bind_eq_some_iff.1 h
    obtain ⟨⟨back, after'⟩, -, h⟩ := Option.bind_eq_some_iff.1 h
    dsimp only at h
    split at h
    · cases h
      rfl
    · cases h
  · cases h

/-- No page that was read is refused. -/
theorem isRefused_of_parsed {p : Page} (h : Parsed p) : isRefused p = false := by
  cases h with
  | text s => exact isRefused_of_allHtml (Html.isBuilt_ofString s).allHtml
  | bytes bs => exact isRefused_of_allHtml (Html.isBuilt_ofBytes bs).allHtml
  | xml h => exact isRefused_of_xml (markup_ofString? h)

/-- An element is refused if it never holds content itself: what it takes along from around it is
no part of its name. -/
theorem isRefused_asPage {s : Site} {t : Tag} {cs : List Node} (h : s.node? = some (.element t cs)) :
    isRefused s.asPage = (s.page.markup = .html && isNonContent t) := by
  simp [isRefused, Site.asPage, Html.standalone, h, Page.root?, List.find?_cons, Node.isElement,
    Node.tag?, isNonContent]

/-- **Every page that was read is condensed, and every element of a page but the non-content
elements of HTML.** -/
theorem condense_outcome_cases (limit : Option Int) :
    (∀ s, ∃ text, (condense (.text s) limit).outcome = .ok text) ∧
    (∀ bs, ∃ text, (condense (.bytes bs) limit).outcome = .ok text) ∧
    (∀ p, Parsed p → ∃ text, (condense (.page p) limit).outcome = .ok text) ∧
    (∀ (s : Site) t cs, s.node? = some (.element t cs) →
      if s.page.markup = .html ∧ isNonContent t then
        (condense (.element s) limit).outcome = .error .topRemoved
      else ∃ text, (condense (.element s) limit).outcome = .ok text) := by
  have hread (source : PageSource) (h : isRefused source.ownPage = false) :
      ∃ text, (condense source limit).outcome = .ok text := by
    simpa [h] using condense_outcome source limit
  refine ⟨fun s => ?_, fun bs => ?_, fun p hp => ?_, fun s t cs hs => ?_⟩
  · exact hread (.text s) (isRefused_of_parsed (.text s))
  · exact hread (.bytes bs) (isRefused_of_parsed (.bytes bs))
  · exact hread (.page p) (isRefused_of_parsed hp)
  · simpa [PageSource.ownPage, isRefused_asPage hs] using condense_outcome (.element s) limit

/-- The head of an HTML page is refused, that of an XML page is condensed, and so is a page that was
read. -/
theorem condense_outcome_cases_head :
    (∃ t cs, Site.node? ⟨drawnPage, [0, 0]⟩ = some (.element t cs) ∧ t.name = .plain "head") ∧
    (condense (.element ⟨drawnPage, [0, 0]⟩) (some 3)).outcome = .error .topRemoved ∧
    (∃ text, (condense (.element ⟨{ drawnPage with markup := .xml }, [0, 0]⟩) (some 3)).outcome =
      .ok text) ∧
    Parsed (Html.ofString "<svg>x</svg>") ∧
    ∃ text, (condense (.page (Html.ofString "<svg>x</svg>")) none).outcome = .ok text := by
  obtain ⟨-, -, -, helement⟩ := condense_outcome_cases (some 3)
  obtain ⟨-, -, hpage, -⟩ := condense_outcome_cases none
  have hparsed : Parsed (Html.ofString "<svg>x</svg>") := .text _
  exact ⟨⟨_, _, rfl, rfl⟩, helement ⟨drawnPage, [0, 0]⟩ _ _ rfl,
    helement ⟨{ drawnPage with markup := .xml }, [0, 0]⟩ _ _ rfl, hparsed, hpage _ hparsed⟩

end PagePlan.Condense
