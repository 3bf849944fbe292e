/-
# Well-formed XML

An XML page is one element with comments and instructions around it.  Names are resolved against
the declarations in force; a text that is not well-formed is refused.
-/
import PagePlan.Dom.Basic
import PagePlan.Decimal.Digits
import PagePlan.Json.Reader
import PagePlan.Text.Encoding
import PagePlan.Text.NameChar
import PagePlan.Text.Blank

namespace PagePlan.Xml

open Dom (Node Tag Attribute Name Declaration Page)

/-- The space of the short name `xml`. -/
def xmlSpace : String := "http://www.w3.org/XML/1998/namespace"

/-- A name as it was written: a short name, if there is a colon, and a label. -/
abbrev WrittenName := Option String × String

/-- A name at the front of a text. -/
def readName? (s : List Char) : Option (WrittenName × List Char) := do
  let (first, rest) ← Text.readNamePart? s
  match rest with
  | ':' :: after =>
    let (second, rest) ← Text.readNamePart? after
    return ((some first, second), rest)
  | _ => return ((none, first), rest)

/-- The characters that references name. -/
def namedCharacters : List (String × Char) :=
  [("lt", '<'), ("gt", '>'), ("amp", '&'), ("quot", '\x22'), ("apos", '\x27')]

/-- The character of a reference, after its ampersand. -/
def readReference? (s : List Char) : Option (Char × List Char) :=
  let number (digits : List Char) (n : Nat) (rest : List Char) : Option (Char × List Char) :=
    match digits, rest with
    | _ :: _, ';' :: after =>
      let c := Text.codePoint n
      if n ≤ 0x10FFFF && Text.isPageChar c then some (c, after) else none
    | _, _ => none
  let isHexDigit (c : Char) := (Json.hexValue? c).isSome
  match s with
  | '#' :: 'x' :: rest =>
    let ds := rest.takeWhile isHexDigit
    let n := ds.foldl (fun n c => 16 * n + (Json.hexValue? c).getD 0) 0
    number ds n (rest.dropWhile isHexDigit)
  | '#' :: rest =>
    let ds := rest.takeWhile Char.isDigit
    number ds (Decimal.toNat ds) (rest.dropWhile Char.isDigit)
  | _ => do
    let (name, rest) ← Text.readNamePart? s
    let c ← namedCharacters.lookup name
    match rest with
    | ';' :: after => return (c, after)
    | _ => none

/-- Line ends as one line feed each. -/
def normalize : List Char → List Char
  | [] => []
  | '\r' :: '\n' :: rest => '\n' :: normalize rest
  | '\r' :: rest => '\n' :: normalize rest
  | c :: rest => c :: normalize rest

/-- The value of an attribute up to its quote; the fuel is the length of the text. -/
def readValue? (quote : Char) : Nat → List Char → Option (List Char × List Char)
  | 0, _ => none
  | _, [] => none
  | fuel + 1, c :: rest =>
    if c == quote then some ([], rest)
    else if c == '<' then none
    else if c == '&' then do
      let (d, rest) ← readReference? rest
      let (ds, rest) ← readValue? quote fuel rest
      return (d :: ds, rest)
    else do
      let (ds, rest) ← readValue? quote fuel rest
      return ((if Text.isXmlBlank c then ' ' else c) :: ds, rest)

/-- The attributes of a start tag as written, whether it ends itself, and the text after it. -/
def readAttributes? : Nat → List Char →
    Option (List (WrittenName × String) × Bool × List Char)
  | 0, _ => none
  | fuel + 1, s =>
    match s.dropWhile Text.isXmlBlank with
    | '/' :: '>' :: rest => some ([], true, rest)
    | '>' :: rest => some ([], false, rest)
    | s' => do
      if s'.length = s.length then none
      let (name, rest) ← readName? s'
      match rest.dropWhile Text.isXmlBlank with
      | '=' :: rest =>
        match rest.dropWhile Text.isXmlBlank with
        | quote :: rest =>
          if quote != '\x22' && quote != '\x27' then none
          let (v, rest) ← readValue? quote (rest.length + 1) rest
          let (others, closed, rest) ← readAttributes? fuel rest
          return ((name, String.ofList v) :: others, closed, rest)
        | [] => none
      | _ => none

/-- The declarations among the attributes of a tag. -/
def declarationsOf (written : List (WrittenName × String)) : List Declaration :=
  written.filterMap fun (n, v) =>
    match n with
    | (none, "xmlns") => some ⟨none, v⟩
    | (some "xmlns", qualifier) => some ⟨some qualifier, v⟩
    | _ => none

/-- The name that a written name means under declarations, the innermost first. -/
def resolve? (scope : List Declaration) (useDefault : Bool) (n : WrittenName) : Option Name :=
  match n with
  | (none, label) =>
    if useDefault then
      match scope.find? (·.qualifier.isNone) with
      | some d => some (if d.space = "" then .plain label else ⟨some d.space, none, label⟩)
      | none => some (.plain label)
    else some (.plain label)
  | (some "xml", label) => some ⟨some xmlSpace, some "xml", label⟩
  | (some qualifier, label) =>
    (scope.find? (·.qualifier == some qualifier)).map fun d =>
      ⟨some d.space, some qualifier, label⟩

/-- The tag that a written one means, and the declarations in force inside it. -/
def tagOf? (scope : List Declaration) (name : WrittenName)
    (written : List (WrittenName × String)) : Option (Tag × List Declaration) := do
  let declared := declarationsOf written
  let scope := declared ++ scope
  let resolved ← resolve? scope true name
  let attributes : List Attribute ← written.filterMapM fun (n, v) =>
    match n with
    | (none, "xmlns") => some none
    | (some "xmlns", _) => some none
    | n => (resolve? scope false n).map fun a => some (Attribute.mk a (some v))
  if (attributes.map fun (a : Attribute) => (a.name.space, a.name.label)).Nodup then
    return (⟨resolved, attributes, declared⟩, scope)
  else none

/-- The content of a comment, after its opening. -/
def readComment? (s : List Char) : Option (String × List Char) :=
  match Text.splitAtFirst ['-', '-'] s with
  | some (body, '>' :: rest) => some (String.ofList body, rest)
  | _ => none

/-- An instruction, after its opening. -/
def readInstruction? (s : List Char) : Option (Node × List Char) := do
  let (target, rest) ← Text.readNamePart? s
  let (body, rest) ← Text.splitAtFirst ['?', '>'] rest
  if Text.lower target = "xml" then none
  match body with
  | [] => return (.instruction target "", rest)
  | c :: _ =>
    if Text.isXmlBlank c then
      return (.instruction target (String.ofList (body.dropWhile Text.isXmlBlank)), rest)
    else none

/-- Puts text in front of nodes, joined to a text that they begin with. -/
def consText (s : List Char) (ns : List Node) : List Node :=
  if s.isEmpty then ns
  else match ns with
    | .text t _ :: rest => .text (String.ofList s ++ t) false :: rest
    | ns => .text (String.ofList s) false :: ns

/-- Whether a character of a text stands for itself. -/
def isPlain (c : Char) : Bool := c != '<' && c != '&' && Text.isPageChar c

mutual

/-- An element, after the opening bracket of its start tag. -/
def readElement? (scope : List Declaration) : Nat → List Char → Option (Node × List Char)
  | 0, _ => none
  | fuel + 1, s => do
    let (name, rest) ← readName? s
    let (written, closed, rest) ← readAttributes? (rest.length + 1) rest
    let (tag, inner) ← tagOf? scope name written
    if closed then return (.element tag [], rest)
    let (children, ended, rest) ← readContent? inner fuel rest
    if ended = name then return (.element tag children, rest) else none

/-- The content of an element, the name in its end tag, and the text after that. -/
def readContent? (scope : List Declaration) : Nat → List Char →
    Option (List Node × WrittenName × List Char)
  | 0, _ => none
  | _, [] => none
  | fuel + 1, c :: rest =>
    if c == '<' then
      match rest with
      | '/' :: rest => do
        let (name, rest) ← readName? rest
        match rest.dropWhile Text.isXmlBlank with
        | '>' :: rest => return ([], name, rest)
        | _ => none
      | '!' :: '-' :: '-' :: rest => do
        let (body, rest) ← readComment? rest
        let (others, name, rest) ← readContent? scope fuel rest
        return (.comment body :: others, name, rest)
      | '!' :: rest => do
        let rest ← Text.afterFront? "[CDATA[".toList rest
        let (body, rest) ← Text.splitAtFirst "]]>".toList rest
        let (others, name, rest) ← readContent? scope fuel rest
        return (consText body others, name, rest)
      | '?' :: rest => do
        let (n, rest) ← readInstruction? rest
        let (others, name, rest) ← readContent? scope fuel rest
        return (n :: others, name, rest)
      | rest => do
        let (n, rest) ← readElement? scope fuel rest
        let (others, name, rest) ← readContent? scope fuel rest
        return (n :: others, name, rest)
    else if c == '&' then do
      let (d, rest) ← readReference? rest
      let (others, name, rest) ← readContent? scope fuel rest
      return (consText [d] others, name, rest)
    else if !isPlain c then none
    else do
      let (others, name, after) ← readContent? scope fuel (rest.dropWhile isPlain)
      return (consText (c :: rest.takeWhile isPlain) others, name, after)

end

/-- The comments and instructions at the front of a text, and the text after them; a document type
without declarations of its own is passed over. -/
def readMisc? : Nat → List Char → Option (List Node × List Char)
  | 0, _ => none
  | fuel + 1, s =>
    match s.dropWhile Text.isXmlBlank with
    | '<' :: '!' :: '-' :: '-' :: rest => do
      let (body, rest) ← readComment? rest
      let (others, rest) ← readMisc? fuel rest
      return (.comment body :: others, rest)
    | '<' :: '!' :: rest => do
      let rest ← Text.afterFront? "DOCTYPE".toList rest
      let (inside, rest) ← Text.splitAtFirst ['>'] rest
      if inside.contains '[' then none else readMisc? fuel rest
    | '<' :: '?' :: rest => do
      let (n, rest) ← readInstruction? rest
      let (others, rest) ← readMisc? fuel rest
      return (n :: others, rest)
    | rest => some ([], rest)

/-- Drops an XML declaration at the front. -/
def dropDeclaration (s : List Char) : List Char :=
  match Text.afterFront? "<?xml".toList s with
  | some rest@(c :: _) =>
    if Text.isXmlBlank c then ((Text.splitAtFirst ['?', '>'] rest).map Prod.snd).getD s else s
  | _ => s

/-- The page of a well-formed XML text. -/
def ofString? (s : String) : Option Page := do
  let cs := dropDeclaration (normalize s.toList)
  let (before, rest) ← readMisc? (cs.length + 1) cs
  match rest with
  | '<' :: rest =>
    let (root, rest) ← readElement? [] (rest.length + 1) rest
    let (after, rest) ← readMisc? (rest.length + 1) rest
    if rest.isEmpty then return ⟨.xml, none, before ++ root :: after⟩ else none
  | _ => none

end PagePlan.Xml
