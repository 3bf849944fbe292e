/-
# Checking data against a record

Data are checked leniently: a text that spells a number is one, a whole floating-point number is
a whole number, and a few words are truth values.  A record takes a mapping, fills in the defaults
of missing fields and reports every fault, those of its fields in their order and then those of
the keys that it does not know.
-/
import PagePlan.Requirements.Record
import PagePlan.Text.Blank

namespace PagePlan

namespace Lenient

/-- The blanks that may stand around a number. -/
def isPadding (c : Char) : Bool :=
  Text.isBlank c && !(28 ≤ c.toNat && c.toNat ≤ 31)

/-- Drops single underscores between other characters; none where there is no underscore, or one
at an end or beside another. -/
def dropUnderscores? (s : List Char) : Option (List Char) :=
  if s.head? == some '_' || s.getLast? == some '_' || !s.contains '_' ||
      Text.contains ['_', '_'] s then none
  else some (s.filter (· != '_'))

/-- Drops a point and the zeros after it at the end of a number. -/
def dropZeroPlaces (s : List Char) : List Char :=
  match Text.splitAtFirst ['.'] s with
  | some (whole, places) => if places.all (· == '0') then whole else s
  | none => s

/-- A whole number in its plain form: a minus sign at most, and no zeros in front. -/
def plainInteger? (s : List Char) : Option (Bool × List Char) :=
  let (negative, ds) := match s with
    | '-' :: rest => (true, rest)
    | _ => (false, s)
  if ds.isEmpty || !ds.all Char.isDigit || (ds.head? == some '0' && ds.length != 1) then none
  else some (negative, ds)

/-- Drops the zeros in front of a number, underscores among them included; `last` is the
character before.  None where something else than a number follows. -/
def dropZeros? (last : Char) : List Char → Option (List Char)
  | [] => some [last]
  | c :: rest =>
    if c == '0' || c == '_' then dropZeros? c rest
    else if c.isDigit then some (c :: rest)
    else if c == '.' then some (last :: c :: rest)
    else none

/-- Drops what the plain form of a whole number does not have: a plus sign, zeros in front, zero
places and single underscores. -/
def plainForm? (s : List Char) : Option (List Char) := do
  let unsigned ← match s with
    | '+' :: '-' :: _ => none
    | '+' :: rest => some rest
    | _ => some s
  let reduced ← match unsigned with
    | '0' :: rest => dropZeros? '0' rest
    | c :: _ => if c.isDigit || c == '-' then some unsigned else none
    | [] => none
  let whole := dropZeroPlaces reduced
  return (dropUnderscores? whole).getD whole

/-- The whole number that a text spells, between blanks, with a sign, with single underscores
between its digits and with a point and zeros behind it. -/
def integerOfText (s : String) : Except FaultKind Int :=
  let cs := Text.trim isPadding s.toList
  match plainInteger? cs <|> (plainForm? cs >>= plainInteger?) with
  | none => .error .intParsing
  | some (negative, ds) =>
    if Json.digitLimit < ds.length then .error .intParsingSize
    else
      let n : Int := Decimal.toNat ds
      .ok (if negative then -n else n)

/-- The whole number that a floating-point number equals. -/
def integerOfNumber (x : Binary64) : Except FaultKind Int :=
  if !x.isFinite then .error .finiteNumber
  else if !x.isWhole then .error .intFromFloat
  else if x.truncate.natAbs < Decimal.twoTo 63 then .ok x.truncate
  else .error .intParsingSize

/-- The special number that a text names, in any case. -/
def namedNumber? (negative : Bool) (s : List Char) : Option Binary64 :=
  let name := String.ofList (s.map Char.toLower)
  if name = "inf" || name = "infinity" then some (.infinity negative)
  else if name = "nan" then some .nan
  else none

/-- The floating-point number that a text spells without blanks around it. -/
def numeral? (s : List Char) : Option Binary64 :=
  let (negative, s) := match s with
    | '-' :: rest => (true, rest)
    | '+' :: rest => (false, rest)
    | _ => (false, s)
  match namedNumber? negative s with
  | some x => some x
  | none =>
    let whole := s.takeWhile Char.isDigit
    let (places, rest) := match s.dropWhile Char.isDigit with
      | '.' :: rest => (rest.takeWhile Char.isDigit, rest.dropWhile Char.isDigit)
      | rest => ([], rest)
    if whole.isEmpty && places.isEmpty then none
    else
      let read (e : Int) := some (Binary64.ofDecimal negative (Decimal.toNat (whole ++ places))
        (e - places.length))
      match rest with
      | [] => read 0
      | _ =>
        match Json.exponent? (Text.letters rest) with
        | some (e, []) => read e
        | _ => none

/-- The floating-point number that a text spells, between blanks or with single underscores. -/
def numberOfText (s : String) : Except FaultKind Binary64 :=
  match numeral? (Text.trim isPadding s.toList) with
  | some x => .ok x
  | none =>
    match dropUnderscores? s.toList >>= numeral? with
    | some x => .ok x
    | none => .error .floatParsing

/-- The words for false. -/
def falseWords : List String := ["0", "off", "f", "false", "n", "no"]

/-- The words for true. -/
def trueWords : List String := ["1", "on", "t", "true", "y", "yes"]

/-- The truth value that a text spells. -/
def boolOfText (s : String) : Except FaultKind Bool :=
  if falseWords.contains (Text.lower s) then .ok false
  else if trueWords.contains (Text.lower s) then .ok true
  else .error .boolParsing

/-- The truth value that a whole number stands for; one beyond 64 bits is none at all. -/
def boolOfInt (n : Int) : Except FaultKind Bool :=
  if n = 0 then .ok false
  else if n = 1 then .ok true
  else if -(Decimal.twoTo 63 : Int) ≤ n && n < (Decimal.twoTo 63 : Int) then .error .boolParsing
  else .error .boolType

/-- A value as a whole number. -/
def integer : Value → Except FaultKind Int
  | .int n => .ok n
  | .bool b => .ok b.toInt
  | .str s => integerOfText s
  | .unpaired _ => .error .stringUnicode
  | .float x => integerOfNumber x
  | _ => .error .intType

/-- A value as a floating-point number. -/
def number : Value → Except FaultKind Binary64
  | .float x => .ok x
  | .str s => numberOfText s
  | .unpaired _ => .error .stringUnicode
  | .bool b => .ok (.ofInt b.toInt)
  | .int n => if (Binary64.ofInt n).isFinite then .ok (.ofInt n) else .error .floatType
  | _ => .error .floatType

/-- A value as a truth value. -/
def boolean : Value → Except FaultKind Bool
  | .bool b => .ok b
  | .str s => boolOfText s
  | .unpaired _ => .error .stringUnicode
  | .int n => boolOfInt n
  | .float x =>
    match integerOfNumber x with
    | .ok n => boolOfInt n
    | .error _ => .error .boolType
  | _ => .error .boolType

/-- A value as a text. -/
def string : Value → Except FaultKind String
  | .str s => .ok s
  | .unpaired _ => .error .stringUnicode
  | _ => .error .stringType

end Lenient

/-- The outcome of a check: the value in its type, or the faults. -/
abbrev Checked (α : Type) := Except (List Fault) α

namespace Checked

variable {α β : Type}

/-- A check that found one fault, right here. -/
def ofKind (e : Except FaultKind α) : Checked α :=
  e.mapError fun kind => [⟨kind, []⟩]

/-- The faults seen from one step further out. -/
def under (step : PathStep) (c : Checked α) : Checked α :=
  c.mapError fun faults => faults.map (·.under step)

/-- Two checks, the faults of both. -/
def both (a : Checked α) (b : Checked β) : Checked (α × β) :=
  match a, b with
  | .ok x, .ok y => .ok (x, y)
  | .ok _, .error fs => .error fs
  | .error fs, .ok _ => .error fs
  | .error fs, .error gs => .error (fs ++ gs)

end Checked

namespace Record

/-- The faults of the keys that a closed record does not know. -/
def unknownKeys (names : List String) (es : Entries) : List Fault :=
  es.filterMap fun (k, _) =>
    match k with
    | .str s => if names.contains s then none else some ⟨.extraForbidden, [.name s]⟩
    | k => some ⟨.invalidKey, [.ofKey k]⟩

/-- Adds the faults of unknown keys to the check of the fields. -/
def guardKeys (closed : Bool) (names : List String) (es : Entries) (c : Checked Entries) :
    Checked Entries :=
  match c, if closed then unknownKeys names es else [] with
  | .ok fields, [] => .ok fields
  | .ok _, faults => .error faults
  | .error faults, more => .error (faults ++ more)

mutual

/-- Checks a value against a type; `top` is the record that the check began with. -/
def check (top : Record) (t : DataType) (v : Value) : Checked Value :=
  match t with
  | .string => .ofKind ((Lenient.string v).map Value.str)
  | .integer => .ofKind ((Lenient.integer v).map Value.int)
  | .number => .ofKind ((Lenient.number v).map Value.float)
  | .boolean => .ofKind ((Lenient.boolean v).map Value.bool)
  | .null => match v with
    | .null => .ok .null
    | _ => .error [⟨.noneRequired, []⟩]
  | .mapping => match v with
    | .dict es => .ok (.dict es)
    | _ => .error [⟨.dictType, []⟩]
  | .anyList => match v with
    | .list xs => .ok (.list xs)
    | .tuple xs => .ok (.list xs)
    | _ => .error [⟨.listType, []⟩]
  | .list item => match v with
    | .list xs => (checkItems top item 0 xs).map Value.list
    | .tuple xs => (checkItems top item 0 xs).map Value.list
    | _ => .error [⟨.listType, []⟩]
  | .optional inner => match v with
    | .null => .ok .null
    | v => check top inner v
  | .record _ closed fields => match v with
    | .dict es => (guardKeys closed (fields.map Prod.fst) es (checkFields top es fields)).map
        Value.dict
    | _ => .error [⟨.modelType, []⟩]
  | .enclosing => match v with
    | .dict es => (guardKeys top.closed (top.fields.map Prod.fst) es
        (checkFields top es top.fields)).map Value.dict
    | _ => .error [⟨.modelType, []⟩]
termination_by (sizeOf v, sizeOf t)

/-- Checks items from an index on. -/
def checkItems (top : Record) (item : DataType) (i : Nat) (xs : List Value) :
    Checked (List Value) :=
  match xs with
  | [] => .ok []
  | x :: xs =>
    (Checked.both ((check top item x).under (.index i)) (checkItems top item (i + 1) xs)).map
      fun (y, ys) => y :: ys
termination_by (sizeOf xs, 0)

/-- Checks the fields of a mapping, in the order of the fields. -/
def checkFields (top : Record) (es : Entries) (fields : List (String × DataType × FieldNote)) :
    Checked Entries :=
  match fields with
  | [] => .ok []
  | (name, t, note) :: rest =>
    let here : Checked Value :=
      match h : es.get? name with
      | some v =>
        have := Entries.sizeOf_lt_of_get? h
        (check top t v).under (.name name)
      | none => if note.required then .error [⟨.missing, [.name name]⟩] else .ok note.default
    (Checked.both here (checkFields top es rest)).map fun (v, others) => (.str name, v) :: others
termination_by (sizeOf es, sizeOf fields)

end

/-- Data in the form of a record: its fields in order, and nothing else. -/
def validate (r : Record) (v : Value) : Checked Value :=
  check r r.toType v

end Record

end PagePlan
