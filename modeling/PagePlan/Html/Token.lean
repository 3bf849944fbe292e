/-
# Tokens of HTML

A page is a sequence of tags, comments and texts.  What a token is depends on the tokens before
it in one way only: after the start tag of a script, a style sheet and the like the text is read
in another mode up to the end tag of that element.  Nothing is an error; what is no markup is
text.
-/
import PagePlan.Dom.Basic
import PagePlan.Html.Element
import PagePlan.Html.Entity
import PagePlan.Text.Encoding

namespace PagePlan.Html

/-- A token. -/
inductive Token where
  /-- A start tag; `closed` tells whether it ends itself. -/
  | startTag (name : String) (attributes : List (String × Option String)) (closed : Bool)
  | endTag (name : String)
  | comment (s : String)
  /-- Text; a verbatim one comes from an element whose text has no character references. -/
  | text (s : String) (verbatim : Bool)
  | doctype (d : Dom.Doctype)
deriving Repr

/-- Line ends as one line feed each, and the null character replaced. -/
def normalize : List Char → List Char
  | [] => []
  | '\r' :: '\n' :: rest => '\n' :: normalize rest
  | '\r' :: rest => '\n' :: normalize rest
  | c :: rest => (if c.toNat = 0 then '\ufffd' else c) :: normalize rest

/-! ## Character references -/

/-- The characters that the numbers 128 to 159 stand for: those of windows-1252. -/
def c1Characters : List Nat :=
  [0x20AC, 0x81, 0x201A, 0x0192, 0x201E, 0x2026, 0x2020, 0x2021, 0x02C6, 0x2030, 0x0160, 0x2039,
    0x0152, 0x8D, 0x017D, 0x8F, 0x90, 0x2018, 0x2019, 0x201C, 0x201D, 0x2022, 0x2013, 0x2014,
    0x02DC, 0x2122, 0x0161, 0x203A, 0x0153, 0x9D, 0x017E, 0x0178]

/-- The character that a number stands for. -/
def numbered (n : Nat) : Char :=
  if n = 0 then '\ufffd'
  else if 0x80 ≤ n && n < 0xA0 then Char.ofNat ((c1Characters[n - 0x80]?).getD n)
  else Text.codePoint n

/-- Drops a semicolon at the front. -/
def dropSemicolon : List Char → List Char
  | ';' :: rest => rest
  | s => s

/-- A reference by number, after its number sign. -/
def numericReference? (s : List Char) : Option (List Char × List Char) :=
  let isHexDigit (c : Char) := (Json.hexValue? c).isSome
  let hex (rest : List Char) : Option (List Char × List Char) :=
    match rest.takeWhile isHexDigit with
    | [] => none
    | ds =>
      some ([numbered (min (hexNumber ds) 0x110000)], dropSemicolon (rest.dropWhile isHexDigit))
  match s with
  | 'x' :: rest => hex rest
  | 'X' :: rest => hex rest
  | _ =>
    match s.takeWhile Char.isDigit with
    | [] => none
    | ds => some ([numbered (min (Decimal.toNat ds) 0x110000)],
        dropSemicolon (s.dropWhile Char.isDigit))

/-- A reference by name.  Inside an attribute value a name without a semicolon is no reference
where an equals sign, a letter or a digit follows. -/
def namedReference? (inAttribute : Bool) (s : List Char) : Option (List Char × List Char) :=
  let name := (s.take entityNameLimit).takeWhile Char.isAlphanum
  let full := match s.drop name.length with
    | ';' :: rest => (entity? name).map fun cs => (cs, rest)
    | _ => none
  match full with
  | some found => some found
  | none =>
    match shortEntityAt s name.length with
    | none => none
    | some (cs, rest) =>
      let followed := match rest with
        | c :: _ => c == '=' || c.isAlphanum
        | [] => false
      if inAttribute && followed then none else some (cs, rest)

/-- A character reference, after its ampersand. -/
def reference? (inAttribute : Bool) : List Char → Option (List Char × List Char)
  | '#' :: rest => numericReference? rest
  | s => namedReference? inAttribute s

/-- A text with its character references replaced; the fuel is its length. -/
def expand (inAttribute : Bool) : Nat → List Char → List Char
  | 0, s => s
  | _, [] => []
  | fuel + 1, c :: rest =>
    if c == '&' then
      match reference? inAttribute rest with
      | some (cs, after) => cs ++ expand inAttribute fuel after
      | none => c :: expand inAttribute fuel rest
    else c :: expand inAttribute fuel rest

/-- The value of an attribute as it is meant. -/
def attributeText (s : List Char) : String :=
  String.ofList (expand true s.length s)

/-! ## Tags -/

def isNameEnd (c : Char) : Bool := Text.isHtmlBlank c || c == '/' || c == '>'

/-- A name in lower case at the front of a text, and the text after it. -/
def readName (s : List Char) : String × List Char :=
  (String.ofList ((s.takeWhile (!isNameEnd ·)).map Char.toLower), s.dropWhile (!isNameEnd ·))

/-- The end of an attribute's name. -/
def isAttributeEnd (c : Char) : Bool := isNameEnd c || c == '='

/-- The name of an attribute; an equals sign in front is part of it. -/
def readAttributeName : List Char → List Char × List Char
  | '=' :: rest =>
    ('=' :: (rest.takeWhile (!isAttributeEnd ·)).map Char.toLower,
      rest.dropWhile (!isAttributeEnd ·))
  | s => ((s.takeWhile (!isAttributeEnd ·)).map Char.toLower, s.dropWhile (!isAttributeEnd ·))

/-- The value after an equals sign; none where its closing quote is missing. -/
def readAttributeValue (s : List Char) : Option (String × List Char) :=
  let quotedBy (q : Char) (rest : List Char) : Option (String × List Char) :=
    match rest.dropWhile (· != q) with
    | [] => none
    | _ :: after => some (attributeText (rest.takeWhile (· != q)), after)
  match s.dropWhile Text.isHtmlBlank with
  | '\x22' :: rest => quotedBy '\x22' rest
  | '\x27' :: rest => quotedBy '\x27' rest
  | rest =>
    let isEnd (c : Char) := Text.isHtmlBlank c || c == '>'
    some (attributeText (rest.takeWhile (!isEnd ·)), rest.dropWhile (!isEnd ·))

/-- The attributes of a tag, whether it ends itself, and the text after it; none where the text
ends inside the tag.  The fuel is the length of the text. -/
def readAttributes :
    Nat → List Char → Option (List (String × Option String) × Bool × List Char)
  | 0, _ => none
  | fuel + 1, s =>
    match s.dropWhile Text.isHtmlBlank with
    | [] => none
    | '>' :: rest => some ([], false, rest)
    | '/' :: '>' :: rest => some ([], true, rest)
    | '/' :: rest => readAttributes fuel rest
    | s =>
      let (name, rest) := readAttributeName s
      match rest.dropWhile Text.isHtmlBlank with
      | '=' :: rest => do
        let (value, rest) ← readAttributeValue rest
        let (others, closed, rest) ← readAttributes fuel rest
        return ((String.ofList name, some value) :: others, closed, rest)
      | rest => do
        let (others, closed, rest) ← readAttributes fuel rest
        return ((String.ofList name, none) :: others, closed, rest)

/-! ## Comments -/

/-- The content of a comment after its opening, and the text after its end. -/
def readCommentBody : List Char → List Char × List Char
  | [] => ([], [])
  | '-' :: '-' :: '>' :: rest => ([], rest)
  | '-' :: '-' :: '!' :: '>' :: rest => ([], rest)
  | ['-', '-'] => ([], [])
  | ['-'] => ([], [])
  | ['-', '-', '!'] => ([], [])
  | c :: rest =>
    let (body, after) := readCommentBody rest
    (c :: body, after)

/-- The content of a comment; two short forms are empty. -/
def readComment : List Char → List Char × List Char
  | '>' :: rest => ([], rest)
  | '-' :: '>' :: rest => ([], rest)
  | s => readCommentBody s

/-- What is read as a comment up to the next angle bracket. -/
def readBogusComment (s : List Char) : List Char × List Char :=
  (s.takeWhile (· != '>'), (s.dropWhile (· != '>')).drop 1)

/-- A quoted text at the front, and the text after it; without quotes there is none. -/
def readQuoted (s : List Char) : Option String × List Char :=
  let quotedBy (q : Char) (rest : List Char) : Option String × List Char :=
    (some (String.ofList (rest.takeWhile (· != q))), (rest.dropWhile (· != q)).drop 1)
  match s.dropWhile Text.isHtmlBlank with
  | '\x22' :: rest => quotedBy '\x22' rest
  | '\x27' :: rest => quotedBy '\x27' rest
  | rest => (none, rest)

/-- The document type that a declaration gives, the text between its keyword and its end. -/
def readDoctype (s : List Char) : Dom.Doctype :=
  let s := s.dropWhile Text.isHtmlBlank
  let name := String.ofList ((s.takeWhile (!Text.isHtmlBlank ·)).map Char.toLower)
  let rest := (s.dropWhile (!Text.isHtmlBlank ·)).dropWhile Text.isHtmlBlank
  let keyword := (rest.take 6).map Char.toLower
  if keyword == "public".toList then
    let (publicId, rest) := readQuoted (rest.drop 6)
    ⟨name, publicId, if publicId.isSome then (readQuoted rest).1 else none⟩
  else if keyword == "system".toList then ⟨name, none, (readQuoted (rest.drop 6)).1⟩
  else ⟨name, none, none⟩

/-! ## Text -/

/-- Whether markup begins at a text. -/
def startsMarkup : List Char → Bool
  | '<' :: '/' :: _ => true
  | '<' :: '!' :: _ => true
  | '<' :: '?' :: _ => true
  | '<' :: c :: _ => c.isAlpha
  | _ => false

/-- The characters before the next markup, and the text from there on. -/
def spanText : List Char → List Char × List Char
  | [] => ([], [])
  | c :: rest =>
    if startsMarkup (c :: rest) then ([], c :: rest)
    else
      let (before, after) := spanText rest
      (c :: before, after)

/-- Whether the end tag of an element begins at a text. -/
def startsEndTag (name : List Char) (s : List Char) : Bool :=
  match s with
  | '<' :: '/' :: rest =>
    (rest.take name.length).map Char.toLower == name &&
      match rest.drop name.length with
      | c :: _ => isNameEnd c
      | [] => false
  | _ => false

/-- The characters before the end tag of an element, and the text from there on. -/
def spanRaw (name : List Char) : List Char → List Char × List Char
  | [] => ([], [])
  | c :: rest =>
    if startsEndTag name (c :: rest) then ([], c :: rest)
    else
      let (before, after) := spanRaw name rest
      (c :: before, after)

/-- Where the text of a script stands. -/
inductive ScriptState where
  | outside
  /-- Inside a comment. -/
  | escaped
  /-- Inside a script inside a comment. -/
  | nested
deriving DecidableEq

/-- Whether the start tag of a script begins at a text. -/
def startsScript (s : List Char) : Bool :=
  match s with
  | '<' :: rest =>
    (rest.take 6).map Char.toLower == "script".toList &&
      match rest.drop 6 with
      | c :: _ => isNameEnd c
      | [] => false
  | _ => false

/-- The characters before the end tag of a script, and the text from there on. -/
def spanScript : ScriptState → List Char → List Char × List Char
  | _, [] => ([], [])
  | state, c :: rest =>
    let s := c :: rest
    if state ≠ .nested && startsEndTag "script".toList s then ([], s)
    else
      let next :=
        if state = .outside && Text.startsWith "<!--".toList s then .escaped
        else if state ≠ .outside && Text.startsWith "-->".toList s then .outside
        else if state = .escaped && startsScript s then .nested
        else if state = .nested && startsEndTag "script".toList s then .escaped
        else state
      let (before, after) := spanScript next rest
      (c :: before, after)

/-- A text token, if there is any text. -/
def textToken (s : List Char) (verbatim : Bool) : List Token :=
  if s.isEmpty then [] else [.text (String.ofList s) verbatim]

/-- The text after the start tag of an element that is read in a mode of its own, and what
follows it. -/
def readElementText (name : String) (s : List Char) : List Token × List Char :=
  match textMode name with
  | .markup => ([], s)
  | .references =>
    let (before, after) := spanRaw name.toList s
    (textToken (expand false before.length before) false, after)
  | .raw =>
    let (before, after) := spanRaw name.toList s
    (textToken before true, after)
  | .script =>
    let (before, after) := spanScript .outside s
    (textToken before true, after)
  | .plain => (textToken s true, [])

/-! ## The sequence of tokens -/

/-- The token at the front of a text and those that belong to it, and the text after them; none
where the text ends inside a tag. -/
def readToken : List Char → Option (List Token × List Char)
  | '<' :: '/' :: '>' :: rest => some ([], rest)
  | '<' :: '/' :: c :: rest =>
    if c.isAlpha then do
      let (name, rest) := readName (c :: rest)
      let (_, _, rest) ← readAttributes (rest.length + 1) rest
      return ([.endTag name], rest)
    else
      let (body, rest) := readBogusComment (c :: rest)
      some ([.comment (String.ofList body)], rest)
  | ['<', '/'] => some ([.comment ""], [])
  | '<' :: '!' :: '-' :: '-' :: rest =>
    let (body, rest) := readComment rest
    some ([.comment (String.ofList body)], rest)
  | '<' :: '!' :: rest =>
    let (body, after) := readBogusComment rest
    if (rest.take 7).map Char.toLower == "doctype".toList then
      some ([.doctype (readDoctype (body.drop 7))], after)
    else some ([.comment (String.ofList body)], after)
  | '<' :: '?' :: rest =>
    let (body, rest) := readBogusComment ('?' :: rest)
    some ([.comment (String.ofList body)], rest)
  | '<' :: c :: rest =>
    if c.isAlpha then do
      let (name, rest) := readName (c :: rest)
      let (attributes, closed, rest) ← readAttributes (rest.length + 1) rest
      let (inside, rest) := if closed then ([], rest) else readElementText name rest
      return (.startTag name attributes closed :: inside, rest)
    else
      let (before, after) := spanText (c :: rest)
      let s := '<' :: before
      some (textToken (expand false s.length s) false, after)
  | s =>
    let (before, after) := spanText s
    match before, after with
    | [], c :: rest => some (textToken [c] false, rest)
    | _, _ => some (textToken (expand false before.length before) false, after)

/-- The tokens of a normalized text; the fuel is its length and one. -/
def readTokens : Nat → List Char → List Token
  | 0, _ => []
  | _, [] => []
  | fuel + 1, s =>
    match readToken s with
    | none => []
    | some (found, rest) => found ++ readTokens fuel rest

/-- The tokens of a page. -/
def tokens (s : List Char) : List Token :=
  let s := normalize s
  readTokens (s.length + 1) s

end PagePlan.Html
