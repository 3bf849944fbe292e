/-
# Model replies

A model may wrap its JSON in a code fence.  Fences and blanks around the text are dropped, at the
ends only, and the rest is read as JSON.
-/
import PagePlan.Failure
import PagePlan.Value.Display

namespace PagePlan.Reply

open Text (Letter letters)

/-- A code fence. -/
def fence : List Letter := letters "\x60\x60\x60".toList

/-- Drops an opening fence with its language and the blanks after it. -/
def dropOpening (s : List Letter) : List Letter :=
  match Text.afterFront? fence s with
  | none => s
  | some rest =>
    ((Text.afterFront? (letters "json".toList) rest).getD rest).dropWhile (Letter.isIn Text.isBlank)

/-- Drops a closing fence and the blanks before it. -/
def dropClosing (s : List Letter) : List Letter :=
  match Text.afterFront? fence s.reverse with
  | none => s
  | some rest => (rest.dropWhile (Letter.isIn Text.isBlank)).reverse

/-- A reply without its fences and the blanks around it. -/
def stripFences (s : List Letter) : List Letter :=
  dropClosing (dropOpening (Text.trim (Letter.isIn Text.isBlank) s))

/-- The data of a reply.  A mapping is data already, and any other value is read as text. -/
def parse : Value → Except Failure Value
  | .dict es => .ok (.dict es)
  | v =>
    let text := stripFences v.asLetters
    match Json.readLetters text with
    | .ok data => .ok data
    | .error (.syntaxError e) => .error (.reply e.problem text)
    | .error (.tooManyDigits count) => .error (.tooManyDigits count)

end PagePlan.Reply
