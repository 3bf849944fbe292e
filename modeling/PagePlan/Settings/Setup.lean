/-
# A process and its settings

A process has the variables of its environment and the current settings.  The settings are read from
the environment when they are made and not again until they are reset.  In between they are changed
by name, several at once or one at a time; a change that fails is not made.
-/
import PagePlan.Settings.Basic

namespace PagePlan

/-- What a process has of settings. -/
structure Setup where
  environment : Environment
  settings : Settings

/-- Settings that are named in a call with their new values, each at most once. -/
structure Overrides where
  entries : Entries
  distinct : entries.Pairwise fun a b => a.1.sameKey b.1 = false

namespace Setup

/-- What can be done with the settings of a process. -/
inductive Step where
  /-- Sets a variable of the environment, or removes it. -/
  | setVariable (name : String) (value : Option String)
  /-- Makes the settings anew. -/
  | reset
  | configure (overrides : Overrides)
  | assign (name : String) (value : Value)

/-- A process with fresh settings. -/
def start (env : Environment) : Setup := ⟨env, .ofEnvironment env⟩

/-- Takes a step, or fails. -/
def perform (p : Setup) : Step → Except Failure Setup
  | .setVariable name value => .ok { p with environment := p.environment.set name value }
  | .reset => .ok { p with settings := .ofEnvironment p.environment }
  | .configure overrides =>
    (p.settings.configure overrides.entries).outcome.map fun s => { p with settings := s }
  | .assign name value =>
    ((p.settings.assign name value).mapError Failure.invalid).map fun s => { p with settings := s }

/-- A process after a step; one that fails is caught. -/
def after (p : Setup) (step : Step) : Setup :=
  match p.perform step with
  | .ok next => next
  | .error _ => p

/-- A process after some steps in order. -/
def run (p : Setup) (steps : List Step) : Setup := steps.foldl after p

end Setup

end PagePlan
