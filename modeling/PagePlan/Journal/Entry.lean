/-
# Journal entries

What the library has to say about its own work goes to a journal.  An entry has a level, the
name of the part that wrote it and a text; the names are dotted paths below one root, so that
sinks and thresholds are set for all of them at once.
-/
import PagePlan.Decimal.Digits

namespace PagePlan.Journal

/-- How much an entry matters. -/
structure Level where
  /-- The place on the scale that thresholds use. -/
  rank : Int
deriving DecidableEq, Repr

namespace Level

def debug : Level := ⟨10⟩

def info : Level := ⟨20⟩

def warning : Level := ⟨30⟩

def error : Level := ⟨40⟩

def critical : Level := ⟨50⟩

/-- The name of a level in the written journal; one without a name of its own shows its rank. -/
def name (l : Level) : String :=
  match l.rank with
  | 0 => "NOTSET"
  | 10 => "DEBUG"
  | 20 => "INFO"
  | 30 => "WARNING"
  | 40 => "ERROR"
  | 50 => "CRITICAL"
  | n => "Level " ++ String.ofList (Decimal.ofInt n)

end Level

/-- An entry of the journal. -/
structure Entry where
  level : Level
  /-- The part that wrote it. -/
  source : String
  text : String
deriving DecidableEq, Repr

/-- The root of all sources. -/
def root : String := "scrapeplan"

/-- The source for a part below the root. -/
def part (name : String) : String := root ++ "." ++ name

end PagePlan.Journal
