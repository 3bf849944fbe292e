/-
# What pages are taken from

A page is given as text, as bytes, as a parsed page, or as an element inside a parsed page.  The
first two are read as HTML; queries then start at the root element, or at the given one.
-/
import PagePlan.Dom.Place
import PagePlan.Html.Page

namespace PagePlan

open Dom (Page Site)

/-- Where a page comes from. -/
inductive PageSource where
  | text (s : String)
  | bytes (bs : List UInt8)
  | page (p : Page)
  | element (s : Site)

namespace PageSource

/-- The element at which queries start. -/
def site : PageSource → Site
  | text s => .root (Html.ofString s)
  | bytes bs => .root (Html.ofBytes bs)
  | page p => .root p
  | element s => s

end PageSource

end PagePlan
