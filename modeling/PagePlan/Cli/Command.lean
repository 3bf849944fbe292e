/-
# Commands

There are three commands: one carries out a plan, one drafts a plan, and one scrapes.  Reading a
command checks its parameters against the files that are there: first the options in the order
in which they were given, then the arguments, and at last whether any are left over.
-/
import PagePlan.Cli.Arguments
import PagePlan.Files.Basic

namespace PagePlan.Cli

/-- The name of the program. -/
def program : String := "scrapeplan"

/-- The commands by name. -/
inductive Verb where
  | extract
  | generate
  | scrape
deriving DecidableEq, Repr

namespace Verb

def name : Verb → String
  | extract => "extract"
  | generate => "generate"
  | scrape => "scrape"

def all : List Verb := [extract, generate, scrape]

/-- The options of a command. -/
def flags : Verb → List Flag
  | extract => [.output, .help]
  | generate => [.output, .model, .help]
  | scrape => [.schema, .output, .model, .help]

/-- The names of the two files that a command reads. -/
def files : Verb → String × String
  | extract => ("HTML_FILE", "SCHEMA_FILE")
  | generate => ("HTML_FILE", "REQUIREMENTS_FILE")
  | scrape => ("HTML_FILE", "REQUIREMENTS_FILE")

/-- What a command is for. -/
def purpose : Verb → String
  | extract => "Apply an XPath schema to an HTML file. No model calls."
  | generate => "Generate an XPath schema for a JSON Schema requirements file."
  | scrape => "Extract requirements from an HTML file, reusing or creating a cached schema."

end Verb

/-- A command with its parameters. -/
structure Command where
  verb : Verb
  page : FileName
  /-- The plan of a command that carries one out, else the requirements. -/
  document : FileName
  output : Option FileName
  cache : Option FileName
  model : Option String
deriving DecidableEq, Repr

/-- What a command line asks for. -/
structure Invocation where
  logLevel : Option String
  command : Command
deriving DecidableEq, Repr

/-- Why a command line is not carried out. -/
inductive Stop where
  /-- Help was asked for, of a command or of the program. -/
  | help (verb : Option Verb)
  /-- There are no arguments at all. -/
  | nothing
  | usage (verb : Option Verb) (problem : UsageProblem)
deriving DecidableEq, Repr

/-- The words for the levels of the journal. -/
def levelChoices : List String := ["debug", "info", "warning", "error"]

/-- Whether a text is the path of a directory; an empty text is no path. -/
def namesDirectory (fs : Files) (path : String) : Bool :=
  path != "" && fs.isDirectory (.ofString path)

/-- Checks the value of an option. -/
def checkFlag (fs : Files) (f : Flag) (value : String) : Except UsageProblem Unit :=
  match f with
  | .logLevel =>
    if levelChoices.contains (Text.lower value) then .ok ()
    else .error (.noChoice f.spellings value levelChoices)
  | .output | .schema =>
    if namesDirectory fs value then .error (.isDirectory f.spellings value) else .ok ()
  | .model | .help => .ok ()

/-- Checks the options that were given. -/
def checkFlags (fs : Files) (s : Scanned) : Except UsageProblem Unit :=
  s.given.forM fun f => checkFlag fs f ((s.value? f).getD "")

/-- Checks a file that is to be read. -/
def checkFile (fs : Files) (name : String) : Option String → Except UsageProblem FileName
  | none => .error (.argumentMissing name)
  | some path =>
    if namesDirectory fs path then .error (.isDirectory [name] path)
    else if path != "" && (fs.bytes? (.ofString path)).isSome then .ok (.ofString path)
    else .error (.noSuchFile [name] path)

namespace Command

/-- The command that scanned arguments spell. -/
def ofScanned (fs : Files) (verb : Verb) (s : Scanned) : Except UsageProblem Command := do
  checkFlags fs s
  let page ← checkFile fs verb.files.1 s.rest[0]?
  let document ← checkFile fs verb.files.2 s.rest[1]?
  match s.rest.drop 2 with
  | [] => return ⟨verb, page, document, (s.value? .output).map .ofString,
      (s.value? .schema).map .ofString, s.value? .model⟩
  | extra => .error (.extraArguments extra)

/-- The command that arguments spell. -/
def read (fs : Files) (verb : Verb) (args : List String) : Except Stop Command :=
  match scan verb.flags true args with
  | .error p => .error (.usage (some verb) p)
  | .ok s =>
    if s.given.contains .help then .error (.help (some verb))
    else (ofScanned fs verb s).mapError (.usage (some verb))

end Command

namespace Invocation

/-- What a command line asks for. -/
def read (fs : Files) (args : List String) : Except Stop Invocation :=
  if args.isEmpty then .error .nothing
  else match scan [.logLevel, .help] false args with
    | .error p => .error (.usage none p)
    | .ok s =>
      if s.given.contains .help then .error (.help none)
      else match checkFlags fs s, s.rest with
        | .error p, _ => .error (.usage none p)
        | .ok _, [] => .error (.usage none .commandMissing)
        | .ok _, name :: args =>
          match Verb.all.find? fun v => v.name = name with
          | none => .error (.usage none (.noSuchCommand name))
          | some verb => (Command.read fs verb args).map fun c => ⟨s.value? .logLevel, c⟩

end Invocation

/-- How the program, or a command, is called. -/
def callPath : Option Verb → String
  | none => program
  | some verb => program ++ " " ++ verb.name

/-- The line that says how the program, or a command, is used. -/
def usageLine (verb : Option Verb) : String :=
  "Usage: " ++ callPath verb ++ " [OPTIONS] " ++
    (verb.map fun v => v.files.1 ++ " " ++ v.files.2).getD "COMMAND [ARGS]..."

/-- The help for the program or for a command. -/
def helpText : Option Verb → String
  | none => usageLine none ++ "\n\n  Reusable XPath extraction plans for similar HTML pages.\n\n" ++
      "Commands:\n" ++
      String.join (Verb.all.map fun v => "  " ++ v.name ++ ": " ++ v.purpose ++ "\n")
  | some verb => usageLine (some verb) ++ "\n\n  " ++ verb.purpose ++ "\n\nOptions:\n" ++
      String.join (verb.flags.map fun f => "  " ++ ", ".intercalate f.spellings ++ "\n")

end PagePlan.Cli
