/-
# The evaluation of expressions

An expression is evaluated against a page with an item as its context, and gives a set of items,
a truth value, a number or a text.  Sets are kept in the order of the page; predicates count in
the direction of their axis.  Operands and arguments that are never needed are never evaluated, so
a problem in them does not show.
-/
import PagePlan.XPath.Item
import PagePlan.XPath.Number
import PagePlan.XPath.Problem

namespace PagePlan.XPath

open Dom (Page)

/-- The value of an expression. -/
inductive Object where
  /-- Items in the order of the page. -/
  | nodes (xs : List Item)
  | truth (b : Bool)
  | number (x : Binary64)
  | text (s : String)

namespace Object

variable (page : Page)

/-- A value as text: that of the first item of a set. -/
def toText : Object → String
  | nodes [] => ""
  | nodes (x :: _) => x.stringValue page.nodes
  | truth b => if b then "true" else "false"
  | number x => Number.text x
  | text s => s

/-- A value as a number. -/
def toNumber : Object → Binary64
  | truth b => if b then .one else .zero
  | number x => x
  | v => Number.ofText (v.toText page).toList

/-- A value as a truth value. -/
def toTruth : Object → Bool
  | nodes xs => !xs.isEmpty
  | truth b => b
  | number x => !x.isZero && !x.isNaN
  | text s => !s.isEmpty

/-- The items of a set. -/
def items : Object → Except Problem (List Item)
  | nodes xs => .ok xs
  | _ => .error .notNodes

/-- Whether two values other than sets are equal: as truth values if one is one, else as numbers
if one is one, else as texts. -/
def sameAtoms (a b : Object) : Bool :=
  match a, b with
  | truth p, b => p == b.toTruth
  | a, truth q => a.toTruth == q
  | number x, b => x.same (b.toNumber page)
  | a, number y => (a.toNumber page).same y
  | a, b => a.toText page == b.toText page

/-- Whether a comparison holds between two values other than sets. -/
def compareAtoms (op : Operator) (a b : Object) : Bool :=
  let x := a.toNumber page
  let y := b.toNumber page
  match op with
  | .equal => sameAtoms page a b
  | .notEqual => !sameAtoms page a b
  | .less => x.lt y
  | .lessOrEqual => x.lt y || x.same y
  | .greater => y.lt x
  | .greaterOrEqual => y.lt x || x.same y
  | _ => false

/-- Whether a comparison holds: for a set, for the text of one of its items, and against a truth
value for whether it has any. -/
def compare (op : Operator) (a b : Object) : Bool :=
  let textOf (x : Item) : Object := text (x.stringValue page.nodes)
  match a, b with
  | nodes xs, nodes ys => xs.any fun x => ys.any fun y => compareAtoms page op (textOf x) (textOf y)
  | nodes xs, truth q => compareAtoms page op (truth (!xs.isEmpty)) (truth q)
  | truth p, nodes ys => compareAtoms page op (truth p) (truth (!ys.isEmpty))
  | nodes xs, b => xs.any fun x => compareAtoms page op (textOf x) b
  | a, nodes ys => ys.any fun y => compareAtoms page op a (textOf y)
  | a, b => compareAtoms page op a b

/-- The value of an operator that needs both operands. -/
def combine (op : Operator) (a b : Object) : Object :=
  let arithmetic (f : Binary64 → Binary64 → Binary64) : Object :=
    number (f (a.toNumber page) (b.toNumber page))
  match op with
  | .or => truth (a.toTruth || b.toTruth)
  | .and => truth (a.toTruth && b.toTruth)
  | .plus => arithmetic Number.add
  | .minus => arithmetic Number.subtract
  | .times => arithmetic Number.multiply
  | .div => arithmetic Number.divide
  | .mod => arithmetic Number.remainder
  | op => truth (compare page op a b)

end Object

/-- Where an expression is evaluated. -/
structure Context where
  item : Item
  /-- The number of the item in the set that is being filtered, and the size of the set. -/
  position? : Option (Nat × Nat)

namespace Function

variable (page : Page)

/-- The words of a text between blanks. -/
def words (s : String) : List (List Char) :=
  (Text.pieces ' ' (s.toList.map fun c => if Text.isXmlBlank c then ' ' else c)).filter
    fun w => !w.isEmpty

/-- The characters of a text from a position on, at most a number of them, both rounded. -/
def substring (s : List Char) (start : Binary64) (length : Option Binary64) : List Char :=
  let limit : Binary64 := .ofInt ((Decimal.twoTo 31 : Int) - 1)
  let from1 :=
    if !start.lt limit then Decimal.twoTo 31
    else if start.lt .one then 1
    else (Number.round start).truncate.toNat
  let stop := match length with
    | none => s.length + 1
    | some n =>
      let finish := Number.add (Number.round start) (Number.round n)
      if finish.isNaN || finish.lt .one then 1
      else if finish.lt limit then finish.truncate.toNat
      else s.length + 1
  (s.take (stop - 1)).drop (from1 - 1)

/-- Replaces characters by those at the same places of another list, and drops those that have
none there. -/
def translate (s old new : List Char) : List Char :=
  s.filterMap fun c => if old.contains c then new[old.idxOf c]? else some c

/-- The items that carry one of some identifiers. -/
def withIds (ids : List (List Char)) : List Item :=
  let carries (id : List Char) (x : Item) : Bool :=
    match x with
    | .node _ (.element tag _) => tag.attributes.any fun a =>
        a.isIdentifier page.markup tag && a.text.toList == id
    | _ => false
  Item.sorted (ids.filterMap fun id => ((Item.belowAll [] 0 page.nodes).find? (carries id)))

/-- Whether an item is in a language, by the nearest declaration of one above it. -/
def inLanguage (language : List Char) (x : Item) : Bool :=
  let declared? (y : Item) : Option String :=
    match y with
    | .node _ (.element tag _) => (tag.attributes.find? fun a =>
        a.name.space == some xmlSpace && a.name.label == "lang").map Dom.Attribute.text
    | _ => none
  match (Item.onAxis page.nodes x .ancestorOrSelf).findSome? declared? with
  | none => false
  | some found =>
    let found := found.toList.map Char.toLower
    let language := language.map Char.toLower
    found == language || Text.startsWith (language ++ ['-']) found

/-- The value of a function of the core library at arguments. -/
def apply (c : Context) (name : String) (arguments : List Object) : Except Problem Object :=
  let here : Object := .nodes [c.item]
  let ofText (f : String → Object) : Except Problem Object :=
    match arguments with
    | [] => .ok (f (here.toText page))
    | [a] => .ok (f (a.toText page))
    | _ => .error .argumentCount
  let ofFirst (f : Item → String) : Except Problem Object := do
    let argument ← match arguments with
      | [] => .ok here
      | [a] => .ok a
      | _ => .error .argumentCount
    let xs ← argument.items
    return .text ((xs.head?.map f).getD "")
  let ofTexts (f : List Char → List Char → Object) : Except Problem Object :=
    match arguments with
    | [a, b] => .ok (f (a.toText page).toList (b.toText page).toList)
    | _ => .error .argumentCount
  let ofNumber (f : Binary64 → Binary64) : Except Problem Object :=
    match arguments with
    | [a] => .ok (.number (f (a.toNumber page)))
    | _ => .error .argumentCount
  let ofOne (f : Object → Except Problem Object) : Except Problem Object :=
    match arguments with
    | [a] => f a
    | _ => .error .argumentCount
  let ofNone (r : Except Problem Object) : Except Problem Object :=
    match arguments with
    | [] => r
    | _ => .error .argumentCount
  let countOf (n : Nat) : Object := .number (.ofInt n)
  match name with
  | "last" => ofNone (match c.position? with
    | some (_, size) => .ok (countOf size)
    | none => .error .noSize)
  | "position" => ofNone (match c.position? with
    | some (position, _) => .ok (countOf position)
    | none => .error .noPosition)
  | "count" => ofOne fun a => do return countOf (← a.items).length
  | "sum" => ofOne fun a => do
    return .number ((← a.items).foldl (fun x y =>
      Number.add x (Number.ofText (y.stringValue page.nodes).toList)) .zero)
  | "id" => ofOne fun a =>
    let ids := match a with
      | .nodes xs => xs.flatMap fun x => words (x.stringValue page.nodes)
      | a => words (a.toText page)
    .ok (.nodes (withIds page ids))
  | "local-name" => ofFirst Item.localName
  | "name" => ofFirst Item.name
  | "namespace-uri" => ofFirst Item.nameSpace
  | "string" => ofText .text
  | "string-length" => ofText fun s => countOf s.length
  | "normalize-space" => ofText fun s =>
    .text (String.ofList (List.intercalate [' '] (words s)))
  | "number" => match arguments with
    | [] => .ok (.number (here.toNumber page))
    | [a] => .ok (.number (a.toNumber page))
    | _ => .error .argumentCount
  | "concat" => match arguments with
    | [] => .error .argumentCount
    | [_] => .error .argumentCount
    | many => .ok (.text (String.join (many.map (Object.toText page))))
  | "starts-with" => ofTexts fun s t => .truth (Text.startsWith t s)
  | "contains" => ofTexts fun s t => .truth (Text.contains t s)
  | "substring-before" => ofTexts fun s t =>
    .text (String.ofList (((Text.splitAtFirst t s).map Prod.fst).getD []))
  | "substring-after" => ofTexts fun s t =>
    .text (String.ofList (((Text.splitAtFirst t s).map Prod.snd).getD []))
  | "substring" => match arguments with
    | [a, b] =>
      .ok (.text (String.ofList (substring (a.toText page).toList (b.toNumber page) none)))
    | [a, b, c] => .ok (.text (String.ofList
        (substring (a.toText page).toList (b.toNumber page) (some (c.toNumber page)))))
    | _ => .error .argumentCount
  | "translate" => match arguments with
    | [a, b, c] => .ok (.text (String.ofList
        (translate (a.toText page).toList (b.toText page).toList (c.toText page).toList)))
    | _ => .error .argumentCount
  | "boolean" => ofOne fun a => .ok (.truth a.toTruth)
  | "not" => ofOne fun a => .ok (.truth (!a.toTruth))
  | "true" => ofNone (.ok (.truth true))
  | "false" => ofNone (.ok (.truth false))
  | "lang" => ofOne fun a => .ok (.truth (inLanguage page (a.toText page).toList c.item))
  | "floor" => ofNumber Number.floor
  | "ceiling" => ofNumber Number.ceiling
  | "round" => ofNumber Number.round
  | _ => .error .unknownFunction

end Function

/-- Whether an item that has a position passes a predicate of some value: a number has to be the
position. -/
def Object.selects (v : Object) (position : Nat) : Bool :=
  match v with
  | number x => x.same (.ofInt position)
  | v => v.toTruth

/-- Whether the short names of a step's test are bound. -/
def NodeTest.isBound : NodeTest → Bool
  | .anyName (some qualifier) => (boundSpace? qualifier).isSome
  | .name ⟨some qualifier, _⟩ => (boundSpace? qualifier).isSome
  | _ => true

mutual

/-- The value of an expression. -/
def Expr.eval (page : Page) (c : Context) : Expr → Except Problem Object
  | .number x => .ok (.number x)
  | .literal s => .ok (.text s)
  | .variable => .error .unboundVariable
  | .negate e => do
    let v ← Expr.eval page c e
    return .number (v.toNumber page).neg
  | .binary op left right => do
    let a ← Expr.eval page c left
    if op = .or && a.toTruth then return .truth true
    else if op = .and && !a.toTruth then return .truth false
    else
      let b ← Expr.eval page c right
      return Object.combine page op a b
  | .union left right => do
    let a ← Expr.eval page c left
    let b ← Expr.eval page c right
    return .nodes (Item.merge (← a.items) (← b.items))
  | .call name arguments => do
    let vs ← Expr.evalAll page c arguments
    match name.qualifier with
    | none => Function.apply page c name.label vs
    | some qualifier =>
      .error (if (boundSpace? qualifier).isSome then .unknownFunction else .unboundQualifier)
  | .top => .ok (.nodes [.document])
  | .here => .ok (.nodes [c.item])
  | .filter e p => do
    let v ← Expr.eval page c e
    return .nodes (← Expr.select page p (← v.items))
  | .step e s => do
    let v ← Expr.eval page c e
    return .nodes (← Step.eval page s (← v.items))

/-- The values of expressions in order. -/
def Expr.evalAll (page : Page) (c : Context) : List Expr → Except Problem (List Object)
  | [] => .ok []
  | e :: es => do
    let v ← Expr.eval page c e
    let vs ← Expr.evalAll page c es
    return v :: vs

/-- The items of a list that pass a predicate. -/
def Expr.select (page : Page) (p : Expr) (xs : List Item) : Except Problem (List Item) := do
  let kept ← xs.zipIdx.mapM fun (x, i) => do
    let v ← Expr.eval page ⟨x, some (i + 1, xs.length)⟩ p
    return if v.selects (i + 1) then some x else none
  return kept.filterMap id

/-- The items of a list that pass predicates, each counted among those that passed the ones
before. -/
def Expr.selectAll (page : Page) (ps : List Expr) (xs : List Item) :
    Except Problem (List Item) :=
  match ps with
  | [] => .ok xs
  | p :: rest => do
    let kept ← Expr.select page p xs
    Expr.selectAll page rest kept

/-- The items that a step leads to. -/
def Step.eval (page : Page) (s : Step) (xs : List Item) : Except Problem (List Item) :=
  match s with
  | .mk axis test predicates =>
    if !test.isBound then .error .unboundQualifier
    else do
      let found ← xs.mapM fun x =>
        Expr.selectAll page predicates ((x.onAxis page.nodes axis).filter (Item.passes test axis))
      return Item.sorted found.flatten

end

end PagePlan.XPath
