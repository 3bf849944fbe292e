/-
# The values that JSON text can hold

Reading gives texts, numbers, sequences and mappings with texts as keys, no key twice; whole
numbers have no more digits than are converted, and there is one not-a-number.

* `isJson_of_readLetters` — what is read is such a value.
-/
import PagePlan.Proofs.Json.Reading
import PagePlan.Proofs.Value.Entries

namespace PagePlan.Json

open Text (Letter letters)

/-- A value that JSON text can hold. -/
inductive IsJson : Value → Prop where
  | null : IsJson .null
  | bool (b : Bool) : IsJson (.bool b)
  | int {n : Int} (h : (Decimal.ofNat n.natAbs).length ≤ digitLimit) : IsJson (.int n)
  | float {x : Binary64} (h : x.isNaN = true → x = .nan) : IsJson (.float x)
  | str (s : String) : IsJson (.str s)
  | unpaired (t : Text.Unpaired) : IsJson (.unpaired t)
  | list {xs : List Value} (h : ∀ x ∈ xs, IsJson x) : IsJson (.list xs)
  | dict {es : Entries} (hkeys : ∀ e ∈ es, e.1.isText = true) (hdistinct : es.Distinct)
      (h : ∀ e ∈ es, IsJson e.2) : IsJson (.dict es)

theorem isText_ofLetters (s : List Letter) : (Value.ofLetters s).isText = true := by
  rw [Value.ofLetters]
  split <;> rfl

theorem isJson_ofLetters (s : List Letter) : IsJson (Value.ofLetters s) := by
  rw [Value.ofLetters]
  split
  · exact .unpaired _
  · exact .str _

/-- A mapping stays one that JSON text can hold when a text key is set. -/
theorem IsJson.set {es : Entries} (hes : IsJson (.dict es)) (name : List Letter) {v : Value}
    (hv : IsJson v) : IsJson (.dict (es.set (.ofLetters name) v)) := by
  cases hes with
  | dict hkeys hdistinct h =>
    have hkeys' : ∀ e ∈ es.set (.ofLetters name) v, e.1.isText = true :=
      Entries.forall_key_set (P := fun k => k.isText = true) hkeys (isText_ofLetters name)
    exact .dict hkeys' (hdistinct.set _ _) (Entries.forall_value_set h hv)

theorem isJson_emptyDict : IsJson (.dict []) :=
  .dict (List.forall_mem_nil _) List.Pairwise.nil (List.forall_mem_nil _)

/-! ### Reading -/

theorem IsNumber.isJson {v : Value} (h : IsNumber v) : IsJson v := by
  cases h with
  | int h => exact .int h
  | float h => exact .float fun hnan => absurd hnan (by simp [h])

theorem IsNamed.isJson {name : String} {v : Value} (h : IsNamed name v) : IsJson v := by
  cases h with
  | null => exact .null
  | yes => exact .bool true
  | no => exact .bool false
  | nan => exact .float fun _ => rfl
  | infinity => exact (IsNumber.float (Binary64.isNaN_infinity false)).isJson

/-- The three readers give values that JSON text can hold, the one for members if it is given such
a mapping to add to. -/
theorem rules_isJson :
    Rules (fun _ v _ => IsJson v) (fun _ vs _ => ∀ v ∈ vs, IsJson v)
      (fun es _ es' _ => IsJson (.dict es) → IsJson (.dict es')) where
  text _ := isJson_ofLetters _
  literal h := by
    obtain ⟨name, hname, -⟩ := isNamed_of_literal? h
    exact hname.isJson
  number h := (isNumber_of_readNumber h).isJson
  emptyDict _ := isJson_emptyDict
  dict hes := hes isJson_emptyDict
  emptyList _ := .list (List.forall_mem_nil _)
  list hvs := .list hvs
  lastItem hv _ := List.forall_mem_singleton.2 hv
  item hv _ hvs := List.forall_mem_cons.2 ⟨hv, hvs⟩
  lastMember := by
    rintro es _ name _ _ _ ⟨-, -, hv⟩ - hes
    exact hes.set name hv
  member := by
    rintro es _ _ name _ _ _ _ ⟨-, -, hv⟩ - hrest hes
    exact hrest (hes.set name hv)

/-- **What is read is a value that JSON text can hold.** -/
theorem isJson_of_readLetters {s : List Letter} {v : Value} (h : readLetters s = .ok v) :
    IsJson v := by
  obtain ⟨rest, hv, -⟩ := rules_isJson.of_readLetters h
  exact hv

end PagePlan.Json
