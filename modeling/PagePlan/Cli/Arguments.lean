/-
# Arguments of the command line

Options may stand anywhere among a command's arguments and take their value from the same
argument or from the next one; two dashes alone end them.  Before the command, the first argument
that is no option ends them.  What is wrong with the arguments is a usage problem with a wording
of its own.
-/
import PagePlan.Text.Blank
import PagePlan.Text.Quoted

namespace PagePlan.Cli

/-- An option. -/
inductive Flag where
  | logLevel
  | output
  | schema
  | model
  | help
deriving DecidableEq, Repr

/-- The spellings of an option. -/
def Flag.spellings : Flag → List String
  | logLevel => ["--log-level"]
  | output => ["-o", "--output"]
  | schema => ["--schema"]
  | model => ["--model"]
  | help => ["--help"]

/-- Whether an option takes a value. -/
def Flag.takesValue : Flag → Bool
  | help => false
  | _ => true

/-- A parameter in messages: its spellings in quotes. -/
def shownAs (spellings : List String) : String :=
  " / ".intercalate (spellings.map fun s => "'" ++ s ++ "'")

/-- What is wrong with the arguments. -/
inductive UsageProblem where
  | noSuchOption (spelling : String)
  | valueMissing (spelling : String)
  | valueUnwanted (spelling : String)
  | argumentMissing (name : String)
  | extraArguments (args : List String)
  | commandMissing
  | noSuchCommand (name : String)
  /-- A word that is none of the choices. -/
  | noChoice (spellings : List String) (word : String) (choices : List String)
  | noSuchFile (spellings : List String) (path : String)
  | isDirectory (spellings : List String) (path : String)
deriving DecidableEq, Repr

/-- The wording of an unfitting value. -/
def unfitting (spellings : List String) (why : String) : String :=
  "Invalid value for " ++ shownAs spellings ++ ": " ++ why

/-- The wording of a usage problem. -/
def UsageProblem.message : UsageProblem → String
  | noSuchOption spelling => "No such option: " ++ spelling
  | valueMissing spelling => "Option " ++ Text.quoted spelling ++ " requires an argument."
  | valueUnwanted spelling => "Option " ++ Text.quoted spelling ++ " does not take a value."
  | argumentMissing name => "Missing argument '" ++ name ++ "'."
  | extraArguments [arg] => "Got unexpected extra argument (" ++ arg ++ ")"
  | extraArguments args => "Got unexpected extra arguments (" ++ " ".intercalate args ++ ")"
  | commandMissing => "Missing command."
  | noSuchCommand name => "No such command " ++ Text.quoted name ++ "."
  | noChoice spellings word choices =>
    unfitting spellings (Text.quoted word ++ " is not one of " ++
      ", ".intercalate (choices.map Text.quoted) ++ ".")
  | noSuchFile spellings path =>
    unfitting spellings ("File " ++ Text.quoted path ++ " does not exist.")
  | isDirectory spellings path =>
    unfitting spellings ("File " ++ Text.quoted path ++ " is a directory.")

/-- Arguments taken apart. -/
structure Scanned where
  /-- The options with their values, in the order in which they were given. -/
  flags : List (Flag × String)
  /-- The other arguments. -/
  rest : List String
deriving DecidableEq, Repr

namespace Scanned

def empty : Scanned := ⟨[], []⟩

def withFlag (s : Scanned) (f : Flag) (value : String) : Scanned :=
  { s with flags := (f, value) :: s.flags }

def withArgument (s : Scanned) (arg : String) : Scanned :=
  { s with rest := arg :: s.rest }

/-- The value of an option: the one that was given last. -/
def value? (s : Scanned) (f : Flag) : Option String :=
  (s.flags.reverse.find? fun e => e.1 = f).map Prod.snd

/-- The options that were given, each once. -/
def given (s : Scanned) : List Flag :=
  (s.flags.map Prod.fst).eraseDups

end Scanned

/-- The name and the value of a long option. -/
def splitValue (arg : String) : String × Option String :=
  match Text.splitAtFirst ['='] arg.toList with
  | some (name, value) => (String.ofList name, some (String.ofList value))
  | none => (arg, none)

/-- What one argument is. -/
inductive Piece where
  | argument
  /-- The end of the options. -/
  | dashes
  /-- An option that takes its value from the next argument. -/
  | awaiting (f : Flag) (spelling : String)
  | flag (f : Flag) (value : String)
  | problem (p : UsageProblem)

/-- What an argument with a dash in front is; only options of one letter may be joined with
their value. -/
def pieceOfOption (flags : List Flag) (arg : String) : Piece :=
  let (name, value) := splitValue arg
  let isLong := arg.startsWith "--"
  match if isLong then flags.find? (·.spellings.contains name) else none with
  | some f =>
    match f.takesValue, value with
    | true, some v => .flag f v
    | true, none => .awaiting f name
    | false, some _ => .problem (.valueUnwanted name)
    | false, none => .flag f ""
  | none =>
    if isLong then .problem (.noSuchOption name)
    else
      let letter := String.ofList (arg.toList.take 2)
      match flags.find? (·.spellings.contains letter) with
      | some f =>
        if arg = letter then .awaiting f letter else .flag f (String.ofList (arg.toList.drop 2))
      | none => .problem (.noSuchOption letter)

/-- What an argument is. -/
def piece (flags : List Flag) (arg : String) : Piece :=
  if arg = "--" then .dashes
  else if arg.startsWith "-" && arg ≠ "-" then pieceOfOption flags arg
  else .argument

/-- Takes arguments apart; `mixed` says whether options may follow other arguments. -/
def scan (flags : List Flag) (mixed : Bool) : List String → Except UsageProblem Scanned
  | [] => .ok .empty
  | arg :: args =>
    match piece flags arg with
    | .dashes => .ok ⟨[], args⟩
    | .problem p => .error p
    | .flag f v => (scan flags mixed args).map (·.withFlag f v)
    | .awaiting f spelling =>
      match args with
      | [] => .error (.valueMissing spelling)
      | v :: args => (scan flags mixed args).map (·.withFlag f v)
    | .argument =>
      if mixed then (scan flags mixed args).map (·.withArgument arg) else .ok ⟨[], arg :: args⟩

end PagePlan.Cli
