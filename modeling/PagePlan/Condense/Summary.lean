/-
# Condensed pages

A page goes into a prompt condensed: without non-content elements and style attributes, with its
lists truncated, and with each run of blanks as one space.  The page itself is not changed.
-/
import PagePlan.Condense.Truncate
import PagePlan.Html.Writer
import PagePlan.Run
import PagePlan.Source

namespace PagePlan

open Dom (Page Site Node)

/-- The page whose root element is the one at a site, with the text after it. -/
def Dom.Site.asPage (s : Site) : Page :=
  let tail := s.tail
  ⟨s.page.markup, s.page.doctype,
    (Html.standalone s).toList ++ if tail.isEmpty then [] else [.text tail false]⟩

/-- The page that a source is condensed as. -/
def PageSource.ownPage : PageSource → Page
  | text s => Html.ofString s
  | bytes bs => Html.ofBytes bs
  | page p => p
  | element s => s.asPage

namespace Condense

/-- What the journal says about a condensed page. -/
def report (before after stripped truncated : Nat) : String :=
  let number (n : Nat) : String := String.ofList (Decimal.ofNat n)
  "Preprocessed HTML " ++ number before ++ " -> " ++ number after ++ " chars (" ++
    number stripped ++ " non-content elements, " ++ number truncated ++
    " repeated items removed)"

/-- The text of a condensed page: of each list at most so many items are kept, or all. -/
def condense (source : PageSource) (limit : Option Int) : Run String := do
  let page := source.ownPage
  let original := (Html.writeSite (.root page)).length
  let (stripped, strippedCount) ← Run.ofExcept (strip page)
  let plain := unstyle stripped
  let (kept, truncatedCount) := match limit with
    | some n => truncate plain n
    | none => (plain, 0)
  let content := Text.strip (Text.squeeze (Html.writeSite (.root kept)))
  Run.log .debug "dom.preprocessor"
    (report original content.length strippedCount truncatedCount)
  return content

end Condense

end PagePlan
