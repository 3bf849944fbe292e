/-
# Running commands

A command reads its files, does its work and either prints data or saves them.  What it cannot do
is reported in one line; failures that it does not expect end the program.  Data go to the
standard output, and lines of the journal, notices and reports to the error stream, in the order
in which they arise.
-/
import PagePlan.Cli.Command
import PagePlan.Cli.Markup
import PagePlan.Journal.Sinks
import PagePlan.Scrape
import PagePlan.Settings.Basic

namespace PagePlan.Cli

/-- A run that may end with a report to the user. -/
abbrev Session := ExceptT String Run

namespace Session

variable {α : Type}

/-- A part that fails only unexpectedly. -/
def ofRun (r : Run α) : Session α := ExceptT.lift r

/-- Ends with a report. -/
def report (text : String) : Session α := throw text

/-- How a failure of work with a model is reported; none if it is unexpected. -/
def wording? : Failure → Option String
  | .provider status _ message => some (worded status message)
  | .rateLimited _ message => some (worded 429 message)
  | .unusableAnswer _ cause => some (worded 502 cause.message)
  | .wrongKind | .noEntries | .refusedName | .topRemoved | .noSuchEntry | .storage _
  | .noAttempt | .markup _ => none
  | e => some e.message
where
  /-- The wording of a provider's failure. -/
  worded (status : Int) (message : String) : String :=
    "Model provider error (" ++ String.ofList (Decimal.ofInt status) ++ "): " ++ message

/-- A part whose failures are reported, as far as they are expected. -/
def guarded (wording? : Failure → Option String) (r : Run α) : Session α := do
  match ← ofRun r.attempt with
  | .ok a => return a
  | .error e =>
    match wording? e with
    | some text => report text
    | none => ofRun (Run.fail e)

/-- The value in a JSON file; `what` names the file in the report. -/
def readJson (fs : Files) (name : FileName) (what : String) : Session Value := do
  let text ← ofRun (Run.ofExcept (fs.text name))
  match Json.read text with
  | .ok v => return v
  | .error (.syntaxError e) =>
    report (what ++ " " ++ name.text ++ " is not valid JSON: " ++ e.message)
  | .error (.tooManyDigits count) => ofRun (Run.fail (.tooManyDigits count))

/-- Shows a marked-up line to the user. -/
def notice (marked : String) : Session Unit := do
  let line ← ofRun (Run.ofExcept (Markup.shown marked))
  ofRun (Run.emit (.notice line))

/-- The marked-up line about a file that was written. -/
def writtenLine (name : FileName) : String :=
  "[green]✓[/green] Wrote [cyan]" ++ name.text ++ "[/cyan]"

/-- The marked-up line about a draft that a model is asked for. -/
def draftingLine (model : String) : String :=
  "[bold]Generating XPath schema[/bold] with [cyan]" ++ model ++ "[/cyan]..."

/-- Prints data, or saves them. -/
def emit (fs : Files) (v : Value) : Option FileName → Session Unit
  | none => do
    let text ← ofRun (Run.ofExcept (fileText v))
    match Text.halfFault? text with
    | none => ofRun (Run.emit (.print (String.ofList (text.filterMap Text.Letter.char?))))
    | some fault => ofRun (Run.fail (.unencodable fault))
  | some name => do
    ofRun (Run.save fs name (← ofRun (Run.ofExcept (fileText v))))
    notice (writtenLine name)

/-- The page of a command. -/
def page (fs : Files) (c : Command) : PageSource :=
  .bytes ((fs.bytes? c.page).getD [])

/-- The wording of a plan's problem; other failures are unexpected. -/
def planWording? : Failure → Option String
  | .plan problem => some problem.message
  | _ => none

/-- Carries out a command. -/
def perform (fs : Files) (c : Command) (a : Assistant) : Session Unit := do
  match c.verb with
  | .extract => do
    let saved ← readJson fs c.document "Schema"
    let plan ← guarded planWording? (Plan.read (.value saved))
    let data ← ofRun (plan.extractFrom (page fs c))
    emit fs data c.output
  | .generate => do
    let requirements ← readJson fs c.document "Requirements"
    notice (draftingLine a.name)
    let plan ← guarded wording?
      (a.draft (page fs c) (.document requirements) (some Assistant.sampleItems))
    emit fs plan c.output
  | .scrape => do
    let requirements ← readJson fs c.document "Requirements"
    let scraped := a.scrape fs (page fs c) (.document requirements) c.cache
    let data ← guarded wording? scraped
    emit (fs.after scraped.events) data c.output

end Session

/-- How the program ends. -/
structure Exit where
  code : Nat
  /-- The standard output. -/
  output : String
  /-- The error stream. -/
  errors : String
  /-- The failure that the program did not expect. -/
  crash : Option Failure

/-- What an event adds to the standard output. -/
def outputOf : Event → String
  | .print text => text ++ "\n"
  | _ => ""

/-- What an event adds to the error stream, the journal being written from a threshold on. -/
def errorsOf (threshold : Journal.Level) : Event → String
  | .log e => if e.reaches threshold then e.line ++ "\n" else ""
  | .notice line => line ++ "\n"
  | _ => ""

/-- The wording of a report on the error stream. -/
def reported (text : String) : String := "Error: " ++ text ++ "\n"

/-- How a session ends the program. -/
def Exit.ofRun (threshold : Journal.Level) (r : Run (Except String Unit)) : Exit :=
  let output := String.join (r.events.map outputOf)
  let errors := String.join (r.events.map (errorsOf threshold))
  match r.outcome with
  | .ok (.ok _) => ⟨0, output, errors, none⟩
  | .ok (.error text) => ⟨1, output, errors ++ reported text, none⟩
  | .error e => ⟨1, output, errors, some e⟩

/-- How a command line that is not carried out ends the program. -/
def Exit.ofStop : Stop → Exit
  | .help verb => ⟨0, helpText verb ++ "\n", "", none⟩
  | .nothing => ⟨2, "", helpText none ++ "\n", none⟩
  | .usage verb problem =>
    ⟨2, "", usageLine verb ++ "\nTry '" ++ callPath verb ++ " --help' for help.\n\n" ++
      reported problem.message, none⟩

/-- The session that a command line asks for, with the threshold of its journal. -/
def session (env : Environment) (settings : Settings) (provider : Provider) (fs : Files)
    (args : List String) : Except Stop (Journal.Level × Run (Except String Unit)) := do
  let i ← Invocation.read fs args
  let a : Assistant := ⟨settings.chatModel i.command.model, env, provider⟩
  return (Journal.threshold i.logLevel env, (Session.perform fs i.command a).run)

/-- Runs the program: how it ends, and the events on the way. -/
def run (env : Environment) (settings : Settings) (provider : Provider) (fs : Files)
    (args : List String) : Exit × List Event :=
  match session env settings provider fs args with
  | .error stop => (.ofStop stop, [])
  | .ok (threshold, r) => (.ofRun threshold r, r.events)

end PagePlan.Cli
