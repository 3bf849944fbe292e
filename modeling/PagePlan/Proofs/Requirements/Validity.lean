/-
# What requirements allow

A schema of requirements allows a value if each keyword that the reader knows does: `type`, `enum`,
`anyOf`, `items`, `properties`, `required` and `nullable`.  Keys that are not declared are not
allowed where properties are.  Numbers are compared by their values, and a number without a fraction
is an integer however it is written.

The reader makes one type of a schema, and takes less than the schema allows in some places: an
enumeration is read as texts, and so is a schema without a type; where a type has its own range, a
number has to be in it, and a text has to be a string; and `nullable` is read beside the types of
texts, numbers and truth values.  A value is plain for a schema if none of this is in its way.

* `Schema.isValid` — whether a schema allows a value;
* `Schema.isPlain` — whether a value is plain for a schema.
-/
import PagePlan.Proofs.Requirements.Acceptance
import PagePlan.Requirements.Reading

namespace PagePlan

namespace Schema

/-! ### Allowed values -/

/-- Whether a value is of a type with a name. -/
def isOfType (name : String) (d : Value) : Bool :=
  match name, d with
  | "integer", .float x => x.isWhole
  | name, d => hasType name d

/-- Whether a value is of the type that a schema gives, or of one of several. -/
def isOfTypes (type d : Value) : Bool :=
  match type with
  | .str name => isOfType name d
  | .list types => types.any fun
    | .str name => isOfType name d
    | _ => false
  | _ => false

mutual

/-- Whether two values are the same data; numbers are, if they are equal. -/
def sameData : Value → Value → Bool
  | .null, .null => true
  | .bool b, .bool c => b == c
  | .int n, .int m => n == m
  | .int n, .float x => x.sameInt n
  | .float x, .int n => x.sameInt n
  | .float x, .float y => x.same y
  | .str s, .str t => s == t
  | .unpaired s, .unpaired t => s == t
  | .list xs, .list ys => sameItems xs ys
  | .dict es, .dict fs => es.length == fs.length && sameEntries es fs
  | _, _ => false

/-- Whether the items of two lists are the same data. -/
def sameItems : List Value → List Value → Bool
  | [], [] => true
  | x :: xs, y :: ys => sameData x y && sameItems xs ys
  | _, _ => false

/-- Whether the entries of one mapping are the same data in another. -/
def sameEntries : List (Value × Value) → List (Value × Value) → Bool
  | [], _ => true
  | (k, v) :: rest, fs =>
    (match fs.find? fun e => e.1.sameKey k with
      | some e => sameData v e.2
      | none => false) && sameEntries rest fs

end

/-- Whether an enumeration has a value. -/
def isListed (values d : Value) : Bool :=
  match values with
  | .list values => values.any fun v => sameData v d
  | _ => false

/-- Whether a mapping has all the names that a schema requires. -/
def hasNames (names d : Value) : Bool :=
  match names with
  | .list names =>
    match d with
    | .dict ds => names.all fun name => ds.any fun e => e.1.sameKey name
    | _ => true
  | _ => false

/-- Whether a mapping has no other keys than those of properties. -/
def hasOnly (properties ds : Entries) : Bool :=
  ds.all fun e => properties.any fun p => p.1.sameKey e.1

/-- Whether a schema allows null beside what else it allows. -/
def isNullable (es : Entries) : Bool :=
  match es.get? "nullable" with
  | some (.bool true) => true
  | _ => false

mutual

/-- Whether a schema allows a value. -/
@[simp] def isValid : Value → Value → Bool
  | .bool b, _ => b
  | .dict es, d => (d.isNull && isNullable es) || meets es d
  | _, _ => false

/-- Whether a value meets keywords of a schema. -/
@[simp] def meets : List (Value × Value) → Value → Bool
  | [], _ => true
  | (k, v) :: rest, d =>
    (match k with
      | .str "type" => isOfTypes v d
      | .str "enum" => isListed v d
      | .str "required" => hasNames v d
      | .str "anyOf" =>
        match v with
        | .list variants => isValidForSome variants d
        | _ => false
      | .str "items" =>
        match d with
        | .list xs => xs.all fun x => isValid v x
        | _ => true
      | .str "properties" =>
        match v with
        | .dict properties =>
          match d with
          | .dict ds => hasOnly properties ds && meetsProperties properties ds
          | _ => true
        | _ => false
      | _ => true) && meets rest d

/-- Whether one of several schemas allows a value. -/
def isValidForSome : List Value → Value → Bool
  | [], _ => false
  | s :: rest, d => isValid s d || isValidForSome rest d

/-- Whether the schemas of properties allow the values of those that are there. -/
def meetsProperties : List (Value × Value) → Entries → Bool
  | [], _ => true
  | (k, s) :: rest, ds =>
    (match ds.find? fun e => e.1.sameKey k with
      | some e => isValid s e.2
      | none => true) && meetsProperties rest ds

end

/-! ### Plain values -/

/-- Whether a schema requires a key. -/
def requires (es : Entries) (key : Value) : Bool :=
  match es.get? "required" with
  | some (.list names) => names.any fun name => name.sameKey key
  | _ => false

/-- Whether a number without a fraction is in the range of those that are taken as integers. -/
def isIntegerSized : Value → Bool
  | .float x => decide (x.truncate.natAbs < Decimal.twoTo 63)
  | _ => true

/-- Whether an integer is in the range of floating-point numbers. -/
def isNumberSized : Value → Bool
  | .int n => (Binary64.ofInt n).isFinite
  | _ => true

/-- Whether a value is plain for the type of a schema without alternatives. -/
def isPlainHere (es : Entries) (d : Value) : Bool :=
  if Entries.has es "enum" then d.str?.isSome
  else
    match es.get? "type" with
    | some (.str "object") => !d.isNull
    | some (.str "array") => !d.isNull
    | some (.str "boolean") => true
    | some (.str "null") => true
    | some (.str "integer") => isIntegerSized d
    | some (.str "number") => isNumberSized d
    | _ => d.str?.isSome || (d.isNull && isNullable es)

mutual

/-- Whether a value is plain for a schema, and so is all in it. -/
@[simp] def isPlain : Value → Value → Bool
  | .dict es, d => (Entries.has es "anyOf" || isPlainHere es d) && isPlainIn es es d
  | _, _ => true

/-- Whether what is in a value is plain for keywords of a schema; where there are alternatives, the
other keywords are not read. -/
@[simp] def isPlainIn (es : Entries) : List (Value × Value) → Value → Bool
  | [], _ => true
  | (k, v) :: rest, d =>
    (match k with
      | .str "anyOf" =>
        match v with
        | .list variants => d.isNull || isPlainForEach variants d
        | _ => true
      | .str "items" =>
        match d with
        | .list xs => Entries.has es "anyOf" || !v.truthy || xs.all fun x => isPlain v x
        | _ => true
      | .str "properties" =>
        match v with
        | .dict properties =>
          match d with
          | .dict ds => Entries.has es "anyOf" || arePlain es properties ds
          | _ => true
        | _ => true
      | _ => true) && isPlainIn es rest d

/-- Whether a value is plain for each of several schemas that allows it. -/
def isPlainForEach : List Value → Value → Bool
  | [], _ => true
  | s :: rest, d => (!isValid s d || isPlain s d) && isPlainForEach rest d

/-- Whether the values of properties are plain for their schemas; those that are not required may be
null. -/
def arePlain (es : Entries) : List (Value × Value) → Entries → Bool
  | [], _ => true
  | (k, s) :: rest, ds =>
    (match ds.find? fun e => e.1.sameKey k with
      | some e => (!requires es k && e.2.isNull) || isPlain s e.2
      | none => true) && arePlain es rest ds

end

/-- Whether the properties of an object are plain for its schema. -/
def hasPlainFields (es ds : Entries) : Bool :=
  match es.get? "properties" with
  | some (.dict properties) => arePlain es properties ds
  | _ => true

/-! ### One keyword -/

section

variable {es properties ds : Entries} {d s v : Value} {key : String}

theorem isNull_iff : d.isNull = true ↔ d = .null := by
  cases d <;> simp [Value.isNull]

theorem meets_cons (e : Value × Value) (es : Entries) (d : Value) :
    meets (e :: es) d = (meets [e] d && meets es d) := by
  rw [meets.eq_def (e :: es), meets.eq_def [e]]
  simp only [meets.eq_1, Bool.and_true]

/-- Keywords are met one by one. -/
theorem meets_of_get? (h : meets es d = true) (hv : es.get? key = some v) :
    meets [(.str key, v)] d = true := by
  have hmem := Entries.mem_of_get? hv
  clear hv
  induction es with
  | nil => cases hmem
  | cons e es ih =>
    rw [meets_cons, Bool.and_eq_true] at h
    rcases List.mem_cons.1 hmem with rfl | hmem
    · exact h.1
    · exact ih h.2 hmem

/-- What a schema allows meets its keywords, but for null. -/
theorem meets_of_isValid (h : isValid (.dict es) d = true)
    (hnull : ¬ (d = .null ∧ isNullable es = true)) : meets es d = true := by
  rw [isValid, Bool.or_eq_true, Bool.and_eq_true] at h
  exact h.resolve_left fun hboth => hnull ⟨isNull_iff.1 hboth.1, hboth.2⟩

theorem isOfType_of_meets (h : meets es d = true) {name : String}
    (htype : es.get? "type" = some (.str name)) : isOfType name d = true := by
  simpa [meets, isOfTypes] using meets_of_get? h htype

theorem isValid_item {xs : List Value} (h : meets es (.list xs) = true)
    (hitems : es.get? "items" = some s) : ∀ x ∈ xs, isValid s x = true := by
  simpa [meets] using meets_of_get? h hitems

theorem exists_valid_variant {variants : List Value} (h : meets es d = true)
    (hvariants : es.get? "anyOf" = some (.list variants)) : ∃ s ∈ variants, isValid s d = true := by
  have hsome : isValidForSome variants d = true := by
    simpa [meets] using meets_of_get? h hvariants
  clear hvariants
  induction variants with
  | nil => simp [isValidForSome] at hsome
  | cons s variants ih =>
    rw [isValidForSome, Bool.or_eq_true] at hsome
    rcases hsome with hs | hsome
    · exact ⟨s, List.mem_cons_self, hs⟩
    · obtain ⟨s', hs', hvalid⟩ := ih hsome
      exact ⟨s', List.mem_cons_of_mem s hs', hvalid⟩

/-- The keys of an object are declared, and the schemas of properties allow their values. -/
theorem meets_object (h : meets es (.dict ds) = true)
    (hproperties : es.get? "properties" = some (.dict properties)) :
    (∀ e ∈ ds, ∃ p ∈ properties, p.1.sameKey e.1 = true) ∧
      ∀ name s, (.str name, s) ∈ properties → ∀ v, ds.get? name = some v → isValid s v = true := by
  have hboth : hasOnly properties ds = true ∧ meetsProperties properties ds = true := by
    simpa [meets] using meets_of_get? h hproperties
  refine ⟨by simpa [hasOnly] using hboth.1, ?_⟩
  have hvalues := hboth.2
  clear hboth hproperties
  intro name s hmem v hv
  induction properties with
  | nil => cases hmem
  | cons p properties ih =>
    obtain ⟨k, t⟩ := p
    rw [meetsProperties, Bool.and_eq_true] at hvalues
    rcases List.mem_cons.1 hmem with heq | hmem
    · obtain ⟨rfl, rfl⟩ := Prod.mk.inj heq
      obtain ⟨e, he, rfl⟩ := Option.map_eq_some_iff.1 hv
      simpa [he] using hvalues.1
    · exact ih hvalues.2 hmem

/-- The names that a schema requires are there. -/
theorem exists_of_requires (h : meets es (.dict ds) = true) {name : String}
    (hname : requires es (.str name) = true) : ∃ v, ds.get? name = some v := by
  unfold requires at hname
  split at hname
  · next names hrequired =>
    have hnames : ∀ k ∈ names, ∃ e ∈ ds, e.1.sameKey k = true := by
      simpa [meets, hasNames] using meets_of_get? h hrequired
    obtain ⟨k, hk, hsame⟩ := List.any_eq_true.1 hname
    obtain rfl := Value.sameKey_str.1 hsame
    obtain ⟨e, he, hkey⟩ := hnames _ hk
    exact Entries.get?_of_any (List.any_eq_true.2 ⟨e, he, hkey⟩)
  · cases hname

/-! ### One keyword of a plain value -/

theorem isPlainIn_cons (all : Entries) (e : Value × Value) (es : Entries) (d : Value) :
    isPlainIn all (e :: es) d = (isPlainIn all [e] d && isPlainIn all es d) := by
  rw [isPlainIn.eq_def all (e :: es), isPlainIn.eq_def all [e]]
  simp only [isPlainIn.eq_1, Bool.and_true]

theorem isPlainIn_of_get? {all : Entries} (h : isPlainIn all es d = true)
    (hv : es.get? key = some v) : isPlainIn all [(.str key, v)] d = true := by
  have hmem := Entries.mem_of_get? hv
  clear hv
  induction es with
  | nil => cases hmem
  | cons e es ih =>
    rw [isPlainIn_cons, Bool.and_eq_true] at h
    rcases List.mem_cons.1 hmem with rfl | hmem
    · exact h.1
    · exact ih h.2 hmem

theorem isPlain_keyword (h : isPlain (.dict es) d = true) (hv : es.get? key = some v) :
    isPlainIn es [(.str key, v)] d = true := by
  rw [isPlain, Bool.and_eq_true] at h
  exact isPlainIn_of_get? h.2 hv

theorem isPlainHere_of_isPlain (h : isPlain (.dict es) d = true)
    (hvariants : es.get? "anyOf" = none) : isPlainHere es d = true := by
  rw [isPlain, Bool.and_eq_true] at h
  simpa [Entries.has, hvariants] using h.1

theorem isPlain_item {xs : List Value} (h : isPlain (.dict es) (.list xs) = true)
    (hvariants : es.get? "anyOf" = none) (hitems : es.get? "items" = some s)
    (hs : s.truthy = true) : ∀ x ∈ xs, isPlain s x = true := by
  simpa [isPlainIn, Entries.has, hvariants, hs] using isPlain_keyword h hitems

theorem isPlain_variant {variants : List Value} (h : isPlain (.dict es) d = true)
    (hnull : d ≠ .null) (hvariants : es.get? "anyOf" = some (.list variants)) {s : Value}
    (hs : s ∈ variants) (hvalid : isValid s d = true) : isPlain s d = true := by
  have heach : isPlainForEach variants d = true := by
    simpa [isPlainIn, isNull_iff, hnull] using isPlain_keyword h hvariants
  clear hvariants
  induction variants with
  | nil => cases hs
  | cons first variants ih =>
    rw [isPlainForEach, Bool.and_eq_true] at heach
    rcases List.mem_cons.1 hs with rfl | hs
    · simpa [hvalid] using heach.1
    · exact ih hs heach.2

theorem hasPlainFields_of_isPlain (h : isPlain (.dict es) (.dict ds) = true)
    (hvariants : es.get? "anyOf" = none) : hasPlainFields es ds = true := by
  unfold hasPlainFields
  split
  · next properties hproperties =>
    simpa [isPlainIn, Entries.has, hvariants] using isPlain_keyword h hproperties
  · rfl

/-- The value of a field is plain, or null where it need not be there. -/
theorem plain_field (h : hasPlainFields es ds = true)
    (hproperties : es.get? "properties" = some (.dict properties)) {name : String}
    (hs : (.str name, s) ∈ properties) (hv : ds.get? name = some v) :
    (requires es (.str name) = false ∧ v = .null) ∨ isPlain s v = true := by
  simp only [hasPlainFields, hproperties] at h
  clear hproperties
  induction properties with
  | nil => cases hs
  | cons p properties ih =>
    obtain ⟨k, t⟩ := p
    rw [arePlain, Bool.and_eq_true] at h
    rcases List.mem_cons.1 hs with heq | hs
    · obtain ⟨rfl, rfl⟩ := Prod.mk.inj heq
      obtain ⟨e, he, rfl⟩ := Option.map_eq_some_iff.1 hv
      simpa [he, isNull_iff] using h.1
    · exact ih hs h.2

end

/-! ### Values of a type -/

section

variable {d : Value}

theorem eq_dict_of_isOfType (h : isOfType "object" d = true) : ∃ ds, d = .dict ds := by
  cases d with
  | dict ds => exact ⟨ds, rfl⟩
  | _ => cases h

theorem eq_list_of_isOfType (h : isOfType "array" d = true) : ∃ xs, d = .list xs := by
  cases d with
  | list xs => exact ⟨xs, rfl⟩
  | _ => cases h

theorem eq_bool_of_isOfType (h : isOfType "boolean" d = true) : ∃ b, d = .bool b := by
  cases d with
  | bool b => exact ⟨b, rfl⟩
  | _ => cases h

theorem eq_null_of_isOfType (h : isOfType "null" d = true) : d = .null := by
  cases d with
  | null => rfl
  | _ => cases h

theorem eq_number_of_isOfType (h : isOfType "number" d = true) :
    (∃ n, d = .int n) ∨ ∃ x, d = .float x := by
  cases d with
  | int n => exact .inl ⟨n, rfl⟩
  | float x => exact .inr ⟨x, rfl⟩
  | _ => cases h

theorem eq_integer_of_isOfType (h : isOfType "integer" d = true) :
    (∃ n, d = .int n) ∨ ∃ x, d = .float x ∧ x.isWhole = true := by
  cases d with
  | int n => exact .inl ⟨n, rfl⟩
  | float x => exact .inr ⟨x, rfl, h⟩
  | _ => cases h

end

end Schema

end PagePlan
