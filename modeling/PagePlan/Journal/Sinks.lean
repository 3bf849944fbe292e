/-
# Where the journal is written

Entries below the root go to sinks from a threshold on.  Setting up the journal puts one sink of
its own in the place of the one before, on some stream, and sets the threshold; sinks that others
have attached stay as they are and get the bare texts.
-/
import PagePlan.Environment
import PagePlan.Journal.Entry
import PagePlan.Text.Blank

namespace PagePlan.Journal

/-- The level that a word names. -/
def Level.ofWord? (word : String) : Option Level :=
  match word with
  | "debug" => some .debug
  | "info" => some .info
  | "warning" => some .warning
  | "error" => some .error
  | "critical" => some .critical
  | _ => none

/-- The threshold that is asked for: by a word, else by the environment, else that of
information. -/
def threshold (word : Option String) (env : Environment) : Level :=
  let asked := (word.filter (· != "")).getD
    ((env.get? Environment.levelVariable).getD "info")
  (Level.ofWord? (Text.lower asked)).getD .info

/-- Whether a source is the root or below it. -/
def isOwnSource (source : String) : Bool :=
  source = root || source.startsWith (root ++ ".")

/-- Whether an entry is to be written at a threshold. -/
def Entry.reaches (e : Entry) (threshold : Level) : Bool :=
  isOwnSource e.source && threshold.rank ≤ e.level.rank

/-- A level's name, filled up to eight characters. -/
def Level.padded (l : Level) : String :=
  l.name ++ String.ofList (List.replicate (8 - l.name.length) ' ')

/-- An entry as a line of the written journal. -/
def Entry.line (e : Entry) : String :=
  e.level.padded ++ " [" ++ e.source ++ "] " ++ e.text

/-- A sink. -/
structure Sink where
  /-- Whether it was put there by setting up the journal. -/
  own : Bool
  /-- The stream that it writes to. -/
  stream : Nat
deriving DecidableEq, Repr

/-- What a sink writes for an entry. -/
def Sink.write (s : Sink) (e : Entry) : String :=
  (if s.own then e.line else e.text) ++ "\n"

/-- The sinks of the journal with the texts of their streams. -/
structure Sinks where
  threshold : Level
  sinks : List Sink
  streams : List String
deriving DecidableEq, Repr

namespace Sinks

/-- No sinks, and no entry held back. -/
def initial : Sinks := ⟨.debug, [], []⟩

/-- How many sinks were put there by setting up the journal. -/
def ownCount (s : Sinks) : Nat :=
  s.sinks.countP Sink.own

/-- The streams up to one of some number, empty where nothing was written to them. -/
def reserve (s : Sinks) (stream : Nat) : Sinks :=
  { s with streams := s.streams ++ List.replicate (stream + 1 - s.streams.length) "" }

/-- Adds a sink on a stream. -/
def addOn (s : Sinks) (own : Bool) (stream : Nat) : Sinks :=
  { s.reserve stream with sinks := s.sinks ++ [⟨own, stream⟩] }

/-- Attaches a sink that gets the bare texts to a stream. -/
def attachTo (s : Sinks) (stream : Nat) : Sinks := s.addOn false stream

/-- Attaches a sink that gets the bare texts, with a stream of its own. -/
def attach (s : Sinks) : Sinks := s.attachTo s.streams.length

/-- Sets up the journal on a stream at a threshold. -/
def setUpOn (s : Sinks) (threshold : Level) (stream : Nat) : Sinks :=
  addOn { s with threshold := threshold, sinks := s.sinks.filter (!·.own) } true stream

/-- Sets up the journal at a threshold, on a stream of its own. -/
def setUp (s : Sinks) (threshold : Level) : Sinks := s.setUpOn threshold s.streams.length

/-- Writes an entry to every sink, if it reaches the threshold. -/
def write (s : Sinks) (e : Entry) : Sinks :=
  let writeTo (streams : List String) (sink : Sink) : List String :=
    streams.modify sink.stream (· ++ sink.write e)
  if e.reaches s.threshold then { s with streams := s.sinks.foldl writeTo s.streams } else s

/-- Setting up leaves exactly one sink of its own. -/
@[simp] theorem ownCount_setUpOn (s : Sinks) (threshold : Level) (stream : Nat) :
    (s.setUpOn threshold stream).ownCount = 1 := by
  simp [setUpOn, addOn, ownCount, List.countP_append, List.countP_filter]

end Sinks

end PagePlan.Journal
