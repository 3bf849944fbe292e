/-
# File names

A file name is a path of steps from the working directory or from the root.  Empty steps and
single dots are dropped when a name is read; a step to the parent is kept in the text of the name
and undone where the name is looked up.
-/
import PagePlan.Text.Blank

namespace PagePlan

/-- The name of a file or of a directory. -/
structure FileName where
  /-- Whether the path starts at the root. -/
  absolute : Bool
  steps : List String
deriving DecidableEq, Repr

namespace FileName

/-- The name that a text spells. -/
def ofString (s : String) : FileName :=
  ⟨Text.startsWith ['/'] s.toList,
    ((Text.pieces '/' s.toList).map String.ofList).filter fun step => step != "" && step != "."⟩

/-- The text of a name. -/
def text (n : FileName) : String :=
  if n.absolute then "/" ++ "/".intercalate n.steps
  else if n.steps.isEmpty then "."
  else "/".intercalate n.steps

/-- Takes one more step, the steps so far being listed backwards. -/
def advance (behind : List String) (step : String) : List String :=
  match step, behind with
  | "..", [] => [".."]
  | "..", last :: rest => if last == ".." then ".." :: behind else rest
  | _, _ => step :: behind

/-- The name without steps back, except those in front of it. -/
def normal (n : FileName) : FileName :=
  ⟨n.absolute, (n.steps.foldl advance []).reverse⟩

/-- The names of the directories above a name, the nearest one first. -/
def above (n : FileName) : List FileName :=
  (List.range n.steps.length).reverse.map fun k => ⟨n.absolute, n.steps.take k⟩

end FileName

end PagePlan
