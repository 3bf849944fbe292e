/-
# Scraping with a cached plan

With a file name for the plan, the plan is read from that file, or drafted from the page and
saved there, and then carried out; without one the model is asked for the data.  Only a draft
that was accepted is saved.
-/
import PagePlan.Extract
import PagePlan.Model.Draft

namespace PagePlan

/-- The value in a plan file, which has to be JSON. -/
def savedPlan (fs : Files) (name : FileName) : Except Failure Value := do
  let text ← fs.text name
  match Json.read text with
  | .ok v => return v
  | .error (.syntaxError e) => .error (.json e)
  | .error (.tooManyDigits count) => .error (.tooManyDigits count)

/-- The text of a plan or of data in a file. -/
def fileText (v : Value) : Except Failure (List Text.Letter) :=
  match Json.write? .unicode v with
  | some text => .ok text
  | none => .error .wrongKind

namespace Assistant

/-- The plan in a file, drafted and saved there if there is none. -/
def loadOrDraft (a : Assistant) (fs : Files) (source : PageSource) (r : Requirements)
    (name : FileName) : Run Value :=
  if fs.has name then do
    Run.log .debug "service" ("Using cached XPath schema " ++ name.text)
    Run.ofExcept (savedPlan fs name)
  else do
    let plan ← a.draft source r (some sampleItems)
    Run.save fs name (← Run.ofExcept (fileText plan))
    Run.log .info "service" ("Saved generated XPath schema to " ++ name.text)
    return plan

/-- The data of a page: by the plan in a file, or straight from the model. -/
def scrape (a : Assistant) (fs : Files) (source : PageSource) (r : Requirements) :
    Option FileName → Run Value
  | none => a.extract source r
  | some name => do
    let plan ← a.loadOrDraft fs source r name
    PagePlan.extract source (.value plan)

end Assistant

end PagePlan
