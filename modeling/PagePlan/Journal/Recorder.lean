/-
# Recording over time

A process sets up its journal as often as it likes, on a stream of its choice and at a level of its
choice, or at that of its environment as it is then.  In between others attach their sinks, and
entries are written.
-/
import PagePlan.Journal.Sinks

namespace PagePlan.Journal

/-- What a process has of its journal.  Streams have numbers. -/
structure Recorder where
  environment : Environment
  /-- The error stream of the process. -/
  errors : Nat
  journal : Sinks

namespace Recorder

/-- What can be done with the journal of a process. -/
inductive Step where
  /-- Sets a variable of the environment, or removes it. -/
  | setVariable (name : String) (value : Option String)
  /-- Sets up the journal at the level of a word; without a stream, on the error stream. -/
  | setUp (word : Option String) (stream : Option Nat)
  /-- Attaches a sink of others to a stream. -/
  | attach (stream : Nat)
  | write (entry : Entry)

/-- A process that has not set up its journal. -/
def start (env : Environment) (errors : Nat) : Recorder := ⟨env, errors, .initial⟩

/-- A process after a step. -/
def after (r : Recorder) : Step → Recorder
  | .setVariable name value => { r with environment := r.environment.set name value }
  | .setUp word stream =>
    { r with journal :=
        r.journal.setUpOn (threshold word r.environment) (stream.getD r.errors) }
  | .attach stream => { r with journal := r.journal.attachTo stream }
  | .write entry => { r with journal := r.journal.write entry }

/-- A process after some steps in order. -/
def run (r : Recorder) (steps : List Step) : Recorder := steps.foldl after r

end Recorder

end PagePlan.Journal
