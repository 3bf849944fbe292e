/-
# The grammar of XPath

Expressions are read from the front of a text by recursive descent, one function for each rule of
the grammar.  The rules are those of XPath 1.0, read without a separate division into tokens: an
operator is recognised wherever an operand has ended, and names need not end where an operator
begins with a letter.  The parentheses of a call may stay open at the end of the text.
-/
import PagePlan.XPath.Expression
import PagePlan.XPath.Number
import PagePlan.XPath.Problem
import PagePlan.Text.NameChar

namespace PagePlan.XPath

namespace Grammar

/-- The outcome of a rule that may only fail for being no expression. -/
def orInvalid {α : Type} : Option (α × List Char) → Except Problem (α × List Char)
  | some found => .ok found
  | none => .error .expression

/-- Drops the blanks at the front. -/
def skip (s : List Char) : List Char := s.dropWhile Text.isXmlBlank

/-- The name at the front of a text: one part, or two with a colon between. -/
def readQName? (s : List Char) : Option (QName × List Char) := do
  let (first, rest) ← Text.readNamePart? s
  match rest with
  | ':' :: after =>
    let (second, rest) ← Text.readNamePart? after
    return (⟨some first, second⟩, rest)
  | _ => return (⟨none, first⟩, rest)

/-- A quoted text at the front. -/
def readLiteral (s : List Char) : Except Problem (String × List Char) :=
  let quotedBy (q : Char) (rest : List Char) : Except Problem (String × List Char) :=
    match rest.dropWhile (· != q) with
    | [] => .error .unfinishedLiteral
    | _ :: after => .ok (String.ofList (rest.takeWhile (· != q)), after)
  match s with
  | '\x22' :: rest => quotedBy '\x22' rest
  | '\x27' :: rest => quotedBy '\x27' rest
  | _ => .error .literalExpected

/-- The binary operators by how tightly they bind, the loosest first, each with its text. -/
def operators : List (List (String × Operator)) :=
  [[("or", .or)], [("and", .and)], [("=", .equal), ("!=", .notEqual)],
    [("<=", .lessOrEqual), ("<", .less), (">=", .greaterOrEqual), (">", .greater)],
    [("+", .plus), ("-", .minus)], [("*", .times), ("div", .div), ("mod", .mod)]]

/-- The operator of a level at the front of a text. -/
def readOperator? (level : Nat) (s : List Char) : Option (Operator × List Char) :=
  ((operators[level]?).getD []).findSome? fun (text, op) =>
    (Text.afterFront? text.toList s).map fun rest => (op, rest)

/-- The minus signs in front of an operand, with blanks between. -/
def readSigns : List Char → Nat × List Char
  | [] => (0, [])
  | c :: rest =>
    if c == '-' then
      let (n, after) := readSigns rest
      (n + 1, after)
    else if Text.isXmlBlank c then readSigns rest
    else (0, c :: rest)

/-- An operand under its minus signs. -/
def negated : Nat → Expr → Expr
  | 0, e => e
  | n + 1, e => .negate (negated n e)

/-- Whether a path begins at a text, and not a literal, a number, a call, a variable or a
parenthesis; none where no operand can begin. -/
def startsPath? (s : List Char) : Option Bool :=
  match s with
  | '$' :: _ => some false
  | '(' :: _ => some false
  | '\x22' :: _ => some false
  | '\x27' :: _ => some false
  | '*' :: _ => some true
  | '/' :: _ => some true
  | '@' :: _ => some true
  | '.' :: c :: _ => some (!c.isDigit)
  | '.' :: _ => some true
  | c :: _ =>
    if c.isDigit then some false
    else
      let isNamePart (c : Char) := Text.isNameChar c || c == ':'
      let name := s.takeWhile isNamePart
      if !(Text.isNameStart c || c == ':') then none
      else if Text.contains [':', ':'] name then some true
      else match skip (s.drop name.length) with
        | '(' :: _ => some (NodeTest.kinds.contains (String.ofList name))
        | _ => some true
  | [] => none

/-- Whether a step may follow a single slash at the front of a path. -/
def startsStep : List Char → Bool
  | [] => false
  | c :: _ => c.isAlpha || c == '_' || c == '.' || c == '@' || c == '*'

/-- A test for a kind of node by its call, after the opening parenthesis. -/
def readKindTest (kind : String) (s : List Char) : Except Problem (NodeTest × List Char) := do
  let s := skip s
  let (test, s) ←
    if kind = "comment" then .ok (NodeTest.comment, s)
    else if kind = "node" then .ok (.anyNode, s)
    else if kind = "text" then .ok (.text, s)
    else if kind = "processing-instruction" then
      match s with
      | ')' :: _ => .ok (.instruction none, s)
      | _ => do
        let (target, rest) ← readLiteral s
        .ok (.instruction (some target), skip rest)
    else .error .expression
  match s with
  | ')' :: rest => return (test, rest)
  | _ => .error .unclosedTest

/-- The rest of a node test, after its first name. -/
def readNodeTestAfter (name : String) (s : List Char) : Except Problem (NodeTest × List Char) :=
  match skip s with
  | '(' :: rest => readKindTest name rest
  | rest =>
    match s with
    | ':' :: '*' :: after => .ok (.anyName (some name), after)
    | ':' :: after => do
      let (label, rest) ← orInvalid (Text.readNamePart? after)
      return (.name ⟨some name, label⟩, rest)
    | _ => .ok (.name ⟨none, name⟩, rest)

/-- A node test. -/
def readNodeTest (s : List Char) : Except Problem (NodeTest × List Char) :=
  match skip s with
  | '*' :: rest => .ok (.anyName none, rest)
  | s => do
    let (name, rest) ← orInvalid (Text.readNamePart? s)
    readNodeTestAfter name rest

/-- The axis and the node test of a step. -/
def readAxisAndTest (s : List Char) : Except Problem ((Axis × NodeTest) × List Char) := do
  match s with
  | '*' :: rest => return ((.child, .anyName none), rest)
  | '@' :: rest =>
    let (test, rest) ← readNodeTest rest
    return ((.attributes, test), rest)
  | _ =>
    let (name, rest) ← orInvalid (Text.readNamePart? s)
    match Axis.named? name, skip rest with
    | some axis, ':' :: ':' :: after =>
      let (test, rest) ← readNodeTest after
      return ((axis, test), rest)
    | _, _ =>
      let (test, rest) ← readNodeTestAfter name rest
      return ((.child, test), rest)

mutual

/-- An expression of operators from a level on.  Here and below the first number is the fuel, and
`depth` is how many more expressions may be nested. -/
def readLevel (depth : Nat) : Nat → Nat → List Char → Except Problem (Expr × List Char)
  | 0, _, _ => .error .nesting
  | fuel + 1, level, s =>
    if operators.length ≤ level then readUnary depth fuel s
    else do
      let (left, rest) ← readLevel depth fuel (level + 1) s
      readOperands depth fuel level left (skip rest)

/-- The further operands of a level after the first. -/
def readOperands (depth : Nat) :
    Nat → Nat → Expr → List Char → Except Problem (Expr × List Char)
  | 0, _, _, _ => .error .nesting
  | fuel + 1, level, left, s =>
    match readOperator? level s with
    | none => .ok (left, s)
    | some (op, rest) => do
      let (right, rest) ← readLevel depth fuel (level + 1) (skip rest)
      readOperands depth fuel level (.binary op left right) (skip rest)

/-- An operand with its signs. -/
def readUnary (depth : Nat) : Nat → List Char → Except Problem (Expr × List Char)
  | 0, _ => .error .nesting
  | fuel + 1, s => do
    let (signs, rest) := readSigns s
    let (first, rest) ← readPath depth fuel rest
    let (e, rest) ← readUnion depth fuel first (skip rest)
    return (negated signs e, rest)

/-- The further operands of a union after the first. -/
def readUnion (depth : Nat) : Nat → Expr → List Char → Except Problem (Expr × List Char)
  | 0, _, _ => .error .nesting
  | fuel + 1, left, s =>
    match s with
    | '|' :: rest => do
      let (right, rest) ← readPath depth fuel (skip rest)
      readUnion depth fuel (.union left right) (skip rest)
    | _ => .ok (left, s)

/-- A path, or an operand with predicates and maybe a path from it. -/
def readPath (depth : Nat) : Nat → List Char → Except Problem (Expr × List Char)
  | 0, _ => .error .nesting
  | fuel + 1, s => do
    let s := skip s
    let isPath ← match startsPath? s with
      | some b => .ok b
      | none => .error .expression
    if isPath then
      match s with
      | '/' :: _ => readFromTop depth fuel .top s
      | _ => readSteps depth fuel .here s
    else
      let (e, rest) ← readPrimary depth fuel s
      let (e, rest) ← readFilters depth fuel e (skip rest)
      match rest with
      | '/' :: '/' :: rest => readSteps depth fuel (.step e .anyBelow) (skip rest)
      | '/' :: _ => readSteps depth fuel e rest
      | _ => return (e, rest)

/-- A path from the top of the page; its first slash may stand alone. -/
def readFromTop (depth : Nat) : Nat → Expr → List Char → Except Problem (Expr × List Char)
  | 0, _, _ => .error .nesting
  | fuel + 1, e, s =>
    match s with
    | '/' :: '/' :: rest => do
      let (e, rest) ← readSteps depth fuel (.step e .anyBelow) (skip rest)
      readFromTop depth fuel e rest
    | '/' :: rest =>
      let rest := skip rest
      if startsStep rest then do
        let (e, rest) ← readSteps depth fuel e rest
        readFromTop depth fuel e rest
      else readFromTop depth fuel e rest
    | _ => .ok (e, s)

/-- One step or more; a slash or two may stand in front of the first. -/
def readSteps (depth : Nat) : Nat → Expr → List Char → Except Problem (Expr × List Char)
  | 0, _, _ => .error .nesting
  | fuel + 1, e, s => do
    let (e, rest) := match skip s with
      | '/' :: '/' :: rest => (Expr.step e .anyBelow, skip rest)
      | '/' :: rest => (e, skip rest)
      | rest => (e, rest)
    let (e, rest) ← readStep depth fuel e rest
    readMoreSteps depth fuel e (skip rest)

/-- The further steps of a path. -/
def readMoreSteps (depth : Nat) : Nat → Expr → List Char → Except Problem (Expr × List Char)
  | 0, _, _ => .error .nesting
  | fuel + 1, e, s =>
    match s with
    | '/' :: '/' :: rest => do
      let (e, rest) ← readStep depth fuel (.step e .anyBelow) (skip rest)
      readMoreSteps depth fuel e (skip rest)
    | '/' :: rest => do
      let (e, rest) ← readStep depth fuel e (skip rest)
      readMoreSteps depth fuel e (skip rest)
    | _ => .ok (e, s)

/-- One step. -/
def readStep (depth : Nat) : Nat → Expr → List Char → Except Problem (Expr × List Char)
  | 0, _, _ => .error .nesting
  | fuel + 1, e, s => do
    match skip s with
    | '.' :: '.' :: rest => return (.step e .above, skip rest)
    | '.' :: rest => return (e, skip rest)
    | s =>
      let ((axis, test), rest) ← readAxisAndTest s
      let (predicates, rest) ← readPredicates depth fuel (skip rest)
      return (.step e (.mk axis test predicates), rest)

/-- The predicates of a step. -/
def readPredicates (depth : Nat) : Nat → List Char → Except Problem (List Expr × List Char)
  | 0, _ => .error .nesting
  | fuel + 1, s =>
    match s with
    | '[' :: rest => do
      let (p, rest) ← readPredicate depth fuel rest
      let (ps, rest) ← readPredicates depth fuel rest
      return (p :: ps, rest)
    | _ => .ok ([], s)

/-- The predicates after an operand. -/
def readFilters (depth : Nat) : Nat → Expr → List Char → Except Problem (Expr × List Char)
  | 0, _, _ => .error .nesting
  | fuel + 1, e, s =>
    match s with
    | '[' :: rest => do
      let (p, rest) ← readPredicate depth fuel rest
      readFilters depth fuel (.filter e p) rest
    | _ => .ok (e, s)

/-- A predicate after its opening bracket. -/
def readPredicate (depth : Nat) : Nat → List Char → Except Problem (Expr × List Char)
  | 0, _ => .error .nesting
  | fuel + 1, s => do
    let (p, rest) ← readNested depth fuel (skip s)
    match rest with
    | ']' :: rest => return (p, skip rest)
    | _ => .error .predicate

/-- A literal, a number, a call, a variable or an expression in parentheses. -/
def readPrimary (depth : Nat) : Nat → List Char → Except Problem (Expr × List Char)
  | 0, _ => .error .nesting
  | fuel + 1, s =>
    match s with
    | '$' :: rest =>
      match readQName? rest with
      | some (_, rest) => .ok (.variable, rest)
      | none => .error .variableName
    | '(' :: rest => do
      let (e, rest) ← readNested depth fuel (skip rest)
      match rest with
      | ')' :: rest => return (e, rest)
      | _ => .error .expression
    | '\x22' :: _ => do
      let (t, rest) ← readLiteral s
      return (.literal t, rest)
    | '\x27' :: _ => do
      let (t, rest) ← readLiteral s
      return (.literal t, rest)
    | c :: _ =>
      if c.isDigit || c == '.' then do
        let (x, rest) ← orInvalid (Number.read? s)
        return (.number x, rest)
      else do
        let (name, rest) ← orInvalid (readQName? s)
        match skip rest with
        | '(' :: rest => do
          let (arguments, rest) ← match skip rest with
            | ')' :: rest => .ok ([], rest)
            | rest => readArguments depth fuel rest
          return (.call name arguments, rest)
        | _ => .error .expression
    | [] => .error .expression

/-- The arguments of a call, up to the closing parenthesis or the end of the text. -/
def readArguments (depth : Nat) : Nat → List Char → Except Problem (List Expr × List Char)
  | 0, _ => .error .nesting
  | fuel + 1, s =>
    match s with
    | [] => .ok ([], [])
    | _ => do
      let (e, rest) ← readNested depth fuel s
      match rest with
      | ')' :: rest => return ([e], rest)
      | ',' :: rest =>
        let (es, rest) ← readArguments depth fuel (skip rest)
        return (e :: es, rest)
      | _ => .error .expression

/-- An expression inside another one. -/
def readNested (depth : Nat) : Nat → List Char → Except Problem (Expr × List Char)
  | 0, _ => .error .nesting
  | fuel + 1, s =>
    match depth with
    | 0 => .error .nesting
    | depth + 1 => readLevel depth fuel 0 s

end

/-- How deep expressions may be nested. -/
def depthLimit : Nat := 500

/-- How much fuel a text needs: no rule is entered more often than this at one place. -/
def fuelFor (s : List Char) : Nat := 32 * (s.length + 1)

end Grammar

/-- The expression that a whole text is. -/
def Expr.read (s : String) : Except Problem Expr := do
  let cs := s.toList
  let (e, rest) ← Grammar.readNested Grammar.depthLimit (Grammar.fuelFor cs) cs
  if rest.isEmpty then .ok e else .error .expression

end PagePlan.XPath
