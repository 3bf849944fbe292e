/-
# Files

The files that a program sees, by name; a directory is there where a file is below it, and others
may be empty.  Putting a file changes that file alone.
-/
import PagePlan.Failure
import PagePlan.Files.Name

namespace PagePlan

/-- The files below a working directory. -/
structure Files where
  /-- The bytes of the files by their normal names. -/
  contents : List (FileName × List UInt8)
  /-- The normal names of directories that may be empty. -/
  directories : List FileName

namespace Files

/-- No files. -/
def empty : Files := ⟨[], []⟩

/-- The bytes of a file. -/
def bytes? (fs : Files) (n : FileName) : Option (List UInt8) :=
  (fs.contents.find? fun e => e.1 = n.normal).map Prod.snd

/-- Whether a name is that of a directory. -/
def isDirectory (fs : Files) (n : FileName) : Bool :=
  n.normal.steps.isEmpty || fs.directories.contains n.normal ||
    fs.contents.any fun e => e.1.above.contains n.normal

/-- Whether a name is that of a file or of a directory. -/
def has (fs : Files) (n : FileName) : Bool :=
  (fs.bytes? n).isSome || fs.isDirectory n

/-- Puts a file. -/
def put (fs : Files) (n : FileName) (bytes : List UInt8) : Files :=
  { fs with contents := (n.normal, bytes) :: fs.contents.filter fun e => e.1 ≠ n.normal }

/-- The file that was put is there. -/
@[simp] theorem bytes?_put (fs : Files) (n : FileName) (bytes : List UInt8) :
    (fs.put n bytes).bytes? n = some bytes := by
  simp [bytes?, put]

/-- The other files are as before. -/
theorem bytes?_put_of_ne (fs : Files) {n m : FileName} (bytes : List UInt8)
    (h : m.normal ≠ n.normal) : (fs.put n bytes).bytes? m = fs.bytes? m := by
  have hne : ¬n.normal = m.normal := fun e => h e.symm
  have hput : (fs.put n bytes).contents.find? (fun e => e.1 = m.normal) =
      fs.contents.find? fun e => e.1 = m.normal := by
    simp only [put, List.find?_cons, hne, decide_false, List.find?_filter]
    congr 1
    funext e
    by_cases he : e.1 = m.normal <;> simp_all
  simp only [bytes?, hput]

/-- What stands in the way of a file of some name. -/
def obstacle? (fs : Files) (n : FileName) : Option StorageProblem :=
  match n.normal.above with
  | parent :: higher =>
    if (fs.bytes? parent).isSome then some .fileExists
    else if higher.any fun d => (fs.bytes? d).isSome then some .notDirectory
    else if fs.isDirectory n then some .isDirectory
    else none
  | [] => some .isDirectory

/-- The text of a file, with line feeds for line breaks. -/
def text (fs : Files) (n : FileName) : Except Failure String :=
  match fs.bytes? n with
  | some bytes =>
    match Text.ofUtf8? bytes, Text.byteFault? bytes with
    | some cs, _ => .ok (String.ofList (Text.unifyLineBreaks cs))
    | none, some fault => .error (.notUtf8 fault)
    | none, none => .error .undecodable
  | none => .error (.storage (if fs.isDirectory n then .isDirectory else .notFound))

end Files

end PagePlan
