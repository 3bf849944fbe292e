/-
# Marked-up notices

A notice to the user is written with tags in square brackets, which style the text between them
and are not shown.  A backslash before a tag makes it text, and two backslashes before a tag show
one.  A closing tag has to close a style that is open, so a name that is put into a notice as it
is can make the notice unfit to be shown.
-/
import PagePlan.Failure

namespace PagePlan.Cli.Markup

/-- Whether a character may stand first in a tag. -/
def opensTag (c : Char) : Bool :=
  ('a' ≤ c && c ≤ 'z') || c == '#' || c == '/' || c == '@'

/-- The text of the tag at the front, without its brackets, and the text after it. -/
def tag? : List Char → Option (List Char × List Char)
  | '[' :: rest =>
    let inner := rest.takeWhile fun c => c != '[' && c != ']'
    match rest.dropWhile fun c => c != '[' && c != ']' with
    | ']' :: after => if inner.head?.any opensTag then some (inner, after) else none
    | _ => none
  | _ => none

theorem length_lt_of_tag? {s inner after : List Char} (h : tag? s = some (inner, after)) :
    after.length < s.length := by
  cases s with
  | nil => simp [tag?] at h
  | cons c rest =>
    have hdrop := (rest.dropWhile_sublist fun c => c != '[' && c != ']').length_le
    simp only [tag?] at h
    split at h
    · next rest' heq =>
      simp only [List.cons.injEq] at heq
      obtain ⟨-, rfl⟩ := heq
      split at h
      · next after' hafter =>
        split at h
        · simp only [Option.some.injEq, Prod.mk.injEq] at h
          obtain ⟨-, rfl⟩ := h
          simp only [hafter, List.length_cons] at hdrop ⊢
          omega
        · cases h
      · cases h
    · cases h

/-- The short names of styles. -/
def shortNames : List (String × String) :=
  [("d", "dim"), ("b", "bold"), ("i", "italic"), ("u", "underline"), ("r", "reverse"),
    ("c", "conceal"), ("s", "strike"), ("uu", "underline2"), ("o", "overline")]

/-- The name of a style by which a tag and its closing tag are compared. -/
def styleName (s : List Char) : String :=
  let name := Text.lower (Text.strip (String.ofList s))
  (shortNames.lookup name).getD name

/-- The open styles after a tag, the last one first; none if it closes nothing. -/
def afterTag? (styles : List String) (inner : List Char) : Option (List String) :=
  match inner.takeWhile (· != '=') with
  | '/' :: name =>
    if styleName name = "" then
      match styles with
      | [] => none
      | _ :: rest => some rest
    else if styles.contains (styleName name) then some (styles.erase (styleName name)) else none
  | name => some (styleName name :: styles)

/-- What the front of a text shows, the styles that are open after it, and what follows it.  The
front is a tag with the backslashes before it, or a single character. -/
def front (styles : List String) (s : List Char) :
    Except Failure (List Char × List String × List Char) :=
  match tag? (s.dropWhile (· == '\\')) with
  | some (inner, after) =>
    let slashes := (s.takeWhile (· == '\\')).length
    let kept := List.replicate (slashes / 2) '\\'
    if slashes % 2 = 1 then .ok (kept ++ '[' :: inner ++ [']'], styles, after)
    else
      match afterTag? styles inner with
      | some styles => .ok (kept, styles, after)
      | none => .error (.markup (String.ofList inner))
  | none =>
    match s with
    | '\\' :: '[' :: rest => .ok (['['], styles, rest)
    | c :: rest => .ok ([c], styles, rest)
    | [] => .ok ([], styles, [])

theorem length_lt_of_front {styles styles' : List String} {s shown rest : List Char} (hs : s ≠ [])
    (h : front styles s = .ok (shown, styles', rest)) : rest.length < s.length := by
  unfold front at h
  split at h
  · next inner after htag =>
    have hafter := length_lt_of_tag? htag
    have hdrop := (s.dropWhile_sublist (· == '\\')).length_le
    simp only at h
    split at h
    · cases h
      omega
    · split at h
      · cases h
        omega
      · cases h
  · split at h
    · cases h
      simp only [List.length_cons]
      omega
    · cases h
      simp only [List.length_cons]
      omega
    · exact absurd rfl hs

/-- What a marked-up text shows, some styles being open before it. -/
def render (styles : List String) (s : List Char) : Except Failure (List Char) :=
  if hs : s = [] then .ok []
  else
    match h : front styles s with
    | .error e => .error e
    | .ok (shown, styles, rest) =>
      have := length_lt_of_front hs h
      (render styles rest).map (shown ++ ·)
termination_by s.length

/-- The line that a marked-up text shows. -/
def shown (s : String) : Except Failure String :=
  (render [] s.toList).map String.ofList

end PagePlan.Cli.Markup
