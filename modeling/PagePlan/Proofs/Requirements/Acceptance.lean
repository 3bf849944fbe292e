/-
# What a schema accepts

A schema is a truth value or a mapping of keywords, and a value is accepted if every keyword in the
mapping allows it.  The keywords that say something about a value are those of the schemas of
records: `type`, `anyOf`, `items`, `properties`, `required` and `additionalProperties`; all others
are notes.  A keyword about sequences or mappings says nothing about other values.

An integer is one that is written without a point or an exponent.

* `accepts_strict_type`, `accepts_strict_items`, `accepts_strict_anyOf` — what a value is that the
  strict form of a schema with these keywords accepts;
* `accepts_strict_object` — a mapping that the strict form of an object schema accepts has exactly
  the properties of the schema.
-/
import PagePlan.Proofs.Value.Entries
import PagePlan.Requirements.Strict

namespace PagePlan

namespace Schema

/-! ### Accepted values -/

/-- Whether a value is of a type with a name. -/
def hasType : String → Value → Bool
  | "string", .str _ => true
  | "string", .unpaired _ => true
  | "integer", .int _ => true
  | "number", .int _ => true
  | "number", .float _ => true
  | "boolean", .bool _ => true
  | "null", .null => true
  | "array", .list _ => true
  | "object", .dict _ => true
  | _, _ => false

/-- Whether the type that a schema gives, or one of several, is that of a value. -/
def allowsType (type d : Value) : Bool :=
  match type with
  | .str name => hasType name d
  | .list types => types.any fun
    | .str name => hasType name d
    | _ => false
  | _ => false

/-- Whether all names that a schema requires are there. -/
def hasRequired (names d : Value) : Bool :=
  match names, d with
  | .list names, .dict ds => names.all fun name => ds.any fun e => e.1.sameKey name
  | _, _ => true

/-- Whether a key is among the properties of a schema. -/
def isDeclared (es : Entries) (key : Value) : Bool :=
  match es.get? "properties" with
  | some (.dict properties) => properties.any fun e => e.1.sameKey key
  | _ => false

mutual

/-- Whether a schema accepts a value. -/
def accepts : Value → Value → Bool
  | .bool b, _ => b
  | .dict es, d => allows es es d
  | _, _ => false

/-- Whether keywords of a schema allow a value; `es` are all of its keywords. -/
def allows (es : Entries) : List (Value × Value) → Value → Bool
  | [], _ => true
  | (k, v) :: rest, d =>
    (match k with
      | .str "type" => allowsType v d
      | .str "anyOf" =>
        match v with
        | .list variants => acceptsSome variants d
        | _ => false
      | .str "items" =>
        match d with
        | .list xs => xs.all fun x => accepts v x
        | _ => true
      | .str "properties" =>
        match v, d with
        | .dict properties, .dict ds => acceptsProperties properties ds
        | _, _ => true
      | .str "required" => hasRequired v d
      | .str "additionalProperties" =>
        match d with
        | .dict ds => ds.all fun e => isDeclared es e.1 || accepts v e.2
        | _ => true
      | _ => true) && allows es rest d

/-- Whether one of several schemas accepts a value. -/
def acceptsSome : List Value → Value → Bool
  | [], _ => false
  | s :: rest, d => accepts s d || acceptsSome rest d

/-- Whether the values of properties are accepted, where they are there. -/
def acceptsProperties : List (Value × Value) → Entries → Bool
  | [], _ => true
  | (name, s) :: rest, ds =>
    (ds.all fun e => !e.1.sameKey name || accepts s e.2) && acceptsProperties rest ds

end

theorem allows_cons (es : Entries) (e : Value × Value) (rest : Entries) (d : Value) :
    allows es (e :: rest) d = (allows es [e] d && allows es rest d) := by
  rw [allows.eq_def es (e :: rest), allows.eq_def es [e]]
  simp only [allows.eq_1, Bool.and_true]

/-- Keywords that allow a value do so one by one. -/
theorem allows_of_mem {es rest : Entries} {d : Value} (h : allows es rest d = true)
    {e : Value × Value} (he : e ∈ rest) : allows es [e] d = true := by
  induction rest with
  | nil => simp at he
  | cons first rest ih =>
    rw [allows_cons, Bool.and_eq_true] at h
    rcases List.mem_cons.1 he with rfl | he
    · exact h.1
    · exact ih h.2 he

theorem accepts_of_acceptsProperties {properties ds : Entries}
    (h : acceptsProperties properties ds = true) {name s : Value} (hs : (name, s) ∈ properties)
    {e : Value × Value} (he : e ∈ ds) (hkey : e.1.sameKey name = true) :
    accepts s e.2 = true := by
  induction properties with
  | nil => simp at hs
  | cons first rest ih =>
    rw [acceptsProperties, Bool.and_eq_true, List.all_eq_true] at h
    rcases List.mem_cons.1 hs with rfl | hs
    · simpa [hkey] using h.1 e he
    · exact ih h.2 hs

/-! ### Strict forms -/

theorem strictProperties_eq_map (properties : Entries) :
    strictProperties properties = properties.map fun p => (p.1, strict p.2) := by
  induction properties with
  | nil => rw [strictProperties, List.map_nil]
  | cons p rest ih => rw [strictProperties, ih, List.map_cons]

/-- The strict form keeps a keyword that is not left out, with the strict form of its value. -/
theorem get?_strictEntries {key : String} (hkept : isDropped (.str key) = false) (es : Entries) :
    Entries.get? (strictEntries es) key =
      (es.get? key).map (if key = "properties" then strictSection else strict) := by
  induction es with
  | nil => simp [strictEntries, Entries.get?]
  | cons e es ih =>
    obtain ⟨k, v⟩ := e
    rw [strictEntries, Entries.get?_cons]
    by_cases hk : k.sameKey (.str key) = true
    · -- the keyword: its section of properties is no schema and has a strict form of its own
      rw [Value.sameKey_str.1 hk, hkept]
      by_cases hname : key = "properties"
      · simp [hname, Entries.get?_cons, Value.sameKey]
      · simp [hname, Entries.get?_cons, Value.sameKey]
    · rw [if_neg hk, ← ih]
      split
      · rfl
      · split <;> rw [Entries.get?_cons, if_neg hk]

/-- Closing changes what is required and what else is allowed. -/
theorem get?_close {key : String} (hadditional : key ≠ "additionalProperties")
    (hrequired : key ≠ "required") (es : Entries) : (close es).get? key = es.get? key := by
  rw [close]
  split
  · rw [Entries.get?_insert, if_neg hrequired.symm, Entries.get?_insert, if_neg hadditional.symm]
  · rfl

/-- A closed object allows no other properties and requires all its own. -/
theorem get?_close_of_object {es properties : Entries}
    (htype : es.get? "type" = some (.str "object"))
    (hproperties : es.get? "properties" = some (.dict properties)) :
    (close es).get? "additionalProperties" = some (.bool false) ∧
      (close es).get? "required" = some (.list (properties.map Prod.fst)) := by
  simp only [close, htype, hproperties]
  constructor
  · rw [Entries.get?_insert, if_neg (by decide), Entries.get?_insert, if_pos rfl]
  · rw [Entries.get?_insert, if_pos rfl]

/-- The keywords of the strict form of an object schema: what is allowed and required besides the
properties. -/
structure IsClosed (properties closed : Entries) : Prop where
  additional : closed.get? "additionalProperties" = some (.bool false)
  required : closed.get? "required" = some (.list (properties.map Prod.fst))
  properties : closed.get? "properties" = some (.dict (strictProperties properties))

theorem isClosed_strict {es properties : Entries} (htype : es.get? "type" = some (.str "object"))
    (hproperties : es.get? "properties" = some (.dict properties)) :
    IsClosed properties (close (strictEntries es)) := by
  have htype' : (strictEntries es).get? "type" = some (.str "object") := by
    rw [get?_strictEntries (by decide), htype]
    simp [strict]
  have hproperties' : (strictEntries es).get? "properties" =
      some (.dict (strictProperties properties)) := by
    rw [get?_strictEntries (by decide), hproperties]
    simp [strictSection]
  have hnames : (strictProperties properties).map Prod.fst = properties.map Prod.fst := by
    rw [strictProperties_eq_map, List.map_map]
    rfl
  obtain ⟨hadditional, hrequired⟩ := get?_close_of_object htype' hproperties'
  refine ⟨hadditional, hnames ▸ hrequired, ?_⟩
  rw [get?_close (by decide) (by decide), hproperties']

section Strict

variable {es : Entries} {d : Value}

/-- The strict form of a schema allows what it accepts by each keyword of the schema. -/
theorem allows_of_accepts_strict (h : accepts (strict (.dict es)) d = true) {key : String}
    {v : Value} (hv : (close (strictEntries es)).get? key = some v) :
    allows (close (strictEntries es)) [(.str key, v)] d = true := by
  rw [strict, accepts] at h
  exact allows_of_mem h (Entries.mem_of_get? hv)

theorem accepts_strict_type (h : accepts (strict (.dict es)) d = true) {name : String}
    (htype : es.get? "type" = some (.str name)) : hasType name d = true := by
  have hget : (close (strictEntries es)).get? "type" = some (.str name) := by
    rw [get?_close (by decide) (by decide), get?_strictEntries (by decide), htype]
    simp [strict]
  simpa [allows, allowsType] using allows_of_accepts_strict h hget

theorem accepts_strict_items {xs : List Value}
    (h : accepts (strict (.dict es)) (.list xs) = true) {item : Value}
    (hitems : es.get? "items" = some item) : ∀ x ∈ xs, accepts (strict item) x = true := by
  have hget : (close (strictEntries es)).get? "items" = some (strict item) := by
    rw [get?_close (by decide) (by decide), get?_strictEntries (by decide), hitems]
    simp
  simpa [allows] using allows_of_accepts_strict h hget

theorem accepts_strict_anyOf (h : accepts (strict (.dict es)) d = true) {variants : List Value}
    (hvariants : es.get? "anyOf" = some (.list variants)) :
    acceptsSome (strictItems variants) d = true := by
  have hget : (close (strictEntries es)).get? "anyOf" = some (.list (strictItems variants)) := by
    rw [get?_close (by decide) (by decide), get?_strictEntries (by decide), hvariants]
    simp [strict]
  simpa [allows] using allows_of_accepts_strict h hget

/-- **A mapping that the strict form of an object schema accepts has exactly the properties of the
schema**, with values that the strict forms of their schemas accept. -/
theorem accepts_strict_object (h : accepts (strict (.dict es)) d = true) {properties : Entries}
    (htype : es.get? "type" = some (.str "object"))
    (hproperties : es.get? "properties" = some (.dict properties)) :
    ∃ ds, d = .dict ds ∧ (∀ e ∈ ds, ∃ p ∈ properties, p.1.sameKey e.1 = true) ∧
      ∀ name s, (.str name, s) ∈ properties →
        ∃ v, Entries.get? ds name = some v ∧ accepts (strict s) v = true := by
  have hobject := accepts_strict_type h htype
  obtain ⟨ds, rfl⟩ : ∃ ds, d = .dict ds := by
    cases d <;> simp [hasType] at hobject ⊢
  -- the three keywords of a closed object
  have hget := isClosed_strict htype hproperties
  have hnames := allows_of_accepts_strict h hget.required
  have hothers := allows_of_accepts_strict h hget.additional
  have hvalues := allows_of_accepts_strict h hget.properties
  simp only [allows, hasRequired, Bool.and_true, List.all_eq_true] at hnames
  simp only [allows, isDeclared, hget.properties, accepts, Bool.or_false, Bool.and_true,
    List.all_eq_true, List.any_eq_true] at hothers
  simp only [allows, Bool.and_true] at hvalues
  rw [strictProperties_eq_map] at hothers hvalues
  refine ⟨ds, rfl, ?_, ?_⟩
  · intro e he
    obtain ⟨p, hp, hkey⟩ := hothers e he
    obtain ⟨q, hq, rfl⟩ := List.mem_map.1 hp
    exact ⟨q, hq, hkey⟩
  · intro name s hs
    obtain ⟨v, hv⟩ := Entries.get?_of_any (hnames (.str name) (List.mem_map_of_mem hs))
    have hstrict : (Value.str name, strict s) ∈ properties.map fun p => (p.1, strict p.2) :=
      List.mem_map_of_mem hs
    have hsame : (Value.str name).sameKey (.str name) = true := Value.sameKey_str.2 rfl
    exact ⟨v, hv, accepts_of_acceptsProperties hvalues hstrict (Entries.mem_of_get? hv) hsame⟩

end Strict

end Schema

/-- A value that a provider may reply with: JSON data with whole texts, and with numbers that are in
the range of floating-point numbers. -/
inductive IsReply : Value → Prop where
  | null : IsReply .null
  | bool (b : Bool) : IsReply (.bool b)
  | int {n : Int} (h : (Binary64.ofInt n).isFinite = true) : IsReply (.int n)
  | float {x : Binary64} (h : x.isFinite = true) : IsReply (.float x)
  | str (s : String) : IsReply (.str s)
  | list {xs : List Value} (h : ∀ x ∈ xs, IsReply x) : IsReply (.list xs)
  | dict {es : Entries} (hkeys : ∀ e ∈ es, ∃ s, e.1 = .str s) (hdistinct : es.Distinct)
      (h : ∀ e ∈ es, IsReply e.2) : IsReply (.dict es)

end PagePlan
