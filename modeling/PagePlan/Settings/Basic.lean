/-
# Settings

The settings that chat models are made with.  They start from the environment; a change names
settings and their new values, and is checked as a whole: either every named setting takes its
value or none does.  The waiting time is positive and the number of retries no negative number,
whatever changes were made.
-/
import PagePlan.Model.Chat

namespace PagePlan

/-- A waiting time: a positive number of seconds. -/
structure WaitingTime where
  seconds : Binary64
  positive : seconds.isPositive = true

/-- The settings of chat models. -/
structure Settings where
  model : String
  apiKey : Option String
  baseUrl : String
  temperature : Option Binary64
  timeout : WaitingTime
  maxRetries : Nat

/-- A setting. -/
inductive Setting where
  | model
  | apiKey
  | baseUrl
  | temperature
  | timeout
  | maxRetries
deriving DecidableEq, Repr

namespace Setting

/-- The name of a setting. -/
def name : Setting → String
  | model => "model"
  | apiKey => "api_key"
  | baseUrl => "base_url"
  | temperature => "temperature"
  | timeout => "timeout"
  | maxRetries => "max_retries"

/-- All settings, in the order in which they are checked. -/
def all : List Setting := [model, apiKey, baseUrl, temperature, timeout, maxRetries]

theorem mem_all (k : Setting) : k ∈ all := by cases k <;> decide

/-- The setting of a name. -/
def ofName? (s : String) : Option Setting :=
  all.find? fun k => k.name = s

/-- A value or null. -/
def orNull {α : Type} (read : Value → Except FaultKind α) (v : Value) :
    Except FaultKind (Option α) :=
  if v.isNull then .ok none else (read v).map some

/-- A value as a waiting time. -/
def waitingTime (v : Value) : Except FaultKind WaitingTime := do
  let x ← Lenient.number v
  if h : x.isPositive = true then .ok ⟨x, h⟩ else .error .greaterThan

/-- A value as a number of retries. -/
def retries (v : Value) : Except FaultKind Nat := do
  let n ← Lenient.integer v
  if n < 0 then .error .greaterThanEqual else .ok n.toNat

/-- Gives a setting a value. -/
def put (s : Settings) (v : Value) : Setting → Except FaultKind Settings
  | model => (Lenient.string v).map fun x => { s with model := x }
  | apiKey => (orNull Lenient.string v).map fun x => { s with apiKey := x }
  | baseUrl => (Lenient.string v).map fun x => { s with baseUrl := x }
  | temperature => (orNull Lenient.number v).map fun x => { s with temperature := x }
  | timeout => (waitingTime v).map fun x => { s with timeout := x }
  | maxRetries => (retries v).map fun x => { s with maxRetries := x }

/-- The value of a setting. -/
def get (s : Settings) : Setting → Value
  | model => .str s.model
  | apiKey => (s.apiKey.map Value.str).getD .null
  | baseUrl => .str s.baseUrl
  | temperature => (s.temperature.map Value.float).getD .null
  | timeout => .float s.timeout.seconds
  | maxRetries => .int s.maxRetries

end Setting

namespace Settings

/-- The waiting time to begin with. -/
def defaultTimeout : WaitingTime := ⟨ChatModel.defaultTimeout, by decide⟩

/-- The settings that an environment gives. -/
def ofEnvironment (env : Environment) : Settings where
  model := (env.get? Environment.modelVariable).getD ChatModel.defaultModel
  apiKey := env.get? Environment.keyVariable
  baseUrl := (env.get? Environment.addressVariable).getD ChatModel.defaultUrl
  temperature := some .zero
  timeout := defaultTimeout
  maxRetries := 5

/-- Gives one setting a value. -/
def put (s : Settings) (k : Setting) (v : Value) : Checked Settings :=
  (Checked.ofKind (k.put s v)).under (.name k.name)

/-- Gives a setting the value that a mapping has for it, if any; the faults of earlier settings
are kept. -/
def putFrom (s : Settings) (es : Entries) (sofar : Checked Settings) (k : Setting) :
    Checked Settings :=
  match es.get? k.name with
  | none => sofar
  | some v =>
    match sofar with
    | .ok changed => changed.put k v
    | .error faults =>
      match s.put k v with
      | .ok _ => .error faults
      | .error more => .error (faults ++ more)

/-- The settings as data. -/
def toEntries (s : Settings) : Entries :=
  Setting.all.map fun k => (.str k.name, k.get s)

/-- The settings after a change of the named ones.  All settings are written down with the new values
in place of the old ones, and all of them are checked. -/
def change (s : Settings) (es : Entries) : Checked Settings :=
  let given := s.toEntries.merge es
  let known := Setting.all.foldl (putFrom s given) (.ok s)
  match known, Record.unknownKeys (Setting.all.map Setting.name) given with
  | outcome, [] => outcome
  | .ok _, faults => .error faults
  | .error faults, more => .error (faults ++ more)

/-- Changes settings by name. -/
def configure (s : Settings) (es : Entries) : Run Settings :=
  if es.any fun e => e.1.str?.isNone then Run.fail .wrongKind
  else do
    let changed ← Run.ofExcept ((s.change es).mapError Failure.invalid)
    Run.log .debug "config" ("Configured model " ++ changed.model ++ " at " ++ changed.baseUrl)
    return changed

/-- Assigns one setting by name.  A name that starts with an underscore is no setting's and is
passed over. -/
def assign (s : Settings) (name : String) (v : Value) : Checked Settings :=
  if name.startsWith "_" then .ok s
  else match Setting.ofName? name with
    | some k => s.put k v
    | none => .error [⟨.noSuchAttribute, [.name name]⟩]

/-- The settings as messages show them, without the key. -/
def display (s : Settings) : String :=
  let part (k : Setting) : String := k.name ++ "=" ++ (k.get s).display
  "Config(" ++ ", ".intercalate ((Setting.all.filter (· ≠ .apiKey)).map part) ++ ")"

/-- A chat model with these settings, of the given name if there is one. -/
def chatModel (s : Settings) (model : Option String) : ChatModel :=
  { ChatModel.initial with
    model := some ((model.filter (· != "")).getD s.model)
    apiKey := s.apiKey
    baseUrl := some s.baseUrl
    temperature := (s.temperature.map Value.float).getD .null
    timeout := .float s.timeout.seconds
    maxRetries := some s.maxRetries }

end Settings

end PagePlan
