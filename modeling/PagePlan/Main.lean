/-
# The program

The outermost layer: it reads the environment and the files that the arguments name, runs the
command line, and writes what came of it.  Requests to a model provider are not sent from here;
without a provider every one of them finds the connection failing.
-/
import PagePlan.Cli.Session

open PagePlan

namespace Program

/-- The texts among the arguments that may be paths. -/
def candidates (args : List String) : List String :=
  args.flatMap fun arg =>
    match Cli.splitValue arg with
    | (_, some value) => [arg, value]
    | (name, none) =>
      if name.startsWith "-o" then [arg, String.ofList (arg.toList.drop 2)] else [arg]

/-- Adds what is found under a path. -/
def load (fs : Files) (path : String) : IO Files := do
  try
    let place ← IO.FS.realPath path
    if ← place.isDir then
      return { fs with directories := (FileName.ofString path).normal :: fs.directories }
    else
      return fs.put (.ofString path) (← IO.FS.readBinFile place).toList
  catch _ => return fs

/-- The variables that matter to the program. -/
def environment : IO Environment := do
  let names := [Environment.keyVariable, Environment.addressVariable, Environment.modelVariable,
    Environment.levelVariable]
  names.foldlM (fun env name => return env.set name (← IO.getEnv name)) Environment.empty

/-- Writes the files that were saved. -/
def store : Event → IO Unit
  | .save name text => do
    match name.normal.above with
    | parent :: _ => IO.FS.createDirAll parent.text
    | [] => pure ()
    IO.FS.writeFile name.text text
  | _ => pure ()

end Program

def main (args : List String) : IO UInt32 := do
  let env ← Program.environment
  let fs ← (Program.candidates args).foldlM Program.load Files.empty
  let (exit, events) := Cli.run env (.ofEnvironment env) .none fs args
  events.forM Program.store
  (← IO.getStdout).putStr exit.output
  (← IO.getStderr).putStr exit.errors
  if exit.crash.isSome then
    (← IO.getStderr).putStr "The program met a failure it did not expect.\n"
  return exit.code.toUInt32
