/-
# References inside a schema

A schema may hold definitions and refer to them.  Inlining replaces every reference by the
definition that the last part of its pointer names; the other keys beside a reference override
those of the definition.  The names that are still available shrink with each reference that is
followed, so that inlining ends and a definition that needs itself is noticed.
-/
import PagePlan.Failure

namespace PagePlan.Schema

/-- The key of a reference. -/
def referenceKey : String := "$ref"

/-- The older key of a section that holds definitions. -/
def olderKey : String := "definitions"

/-- The key of the section of definitions that win over those of the older one. -/
def newerKey : String := "$defs"

/-- The name that a reference points to: what stands after the last slash. -/
def targetName (ref : List Text.Letter) : Value :=
  .ofLetters (Text.afterLast (.char '/') ref)

/-- The reference that entries hold, where it is a text. -/
def reference? (es : Entries) : Option (List Text.Letter) :=
  es.get? referenceKey >>= Value.letters?

/-- The definition under a name. -/
def definition? (es : Entries) (name : Value) : Option Value :=
  (es.find? fun e => e.1.sameKey name).map Prod.snd

/-- The definitions without the one under a name. -/
def without (es : Entries) (name : Value) : Entries :=
  es.filter fun e => !e.1.sameKey name

theorem length_without_lt {es : Entries} {name v : Value} (h : definition? es name = some v) :
    (without es name).length < es.length := by
  simp only [definition?, Option.map_eq_some_iff] at h
  obtain ⟨e, he, -⟩ := h
  have hm := List.mem_of_find?_eq_some he
  have hp := List.find?_some he
  exact List.length_filter_lt_length_iff_exists.2 ⟨e, hm, by simpa using hp⟩

mutual

/-- Inlines the references of a value.  `defined` holds all definitions, `available` those that
are not being inlined already. -/
def inlineValue (defined available : Entries) (v : Value) : Except Failure Value :=
  match v with
  | .dict es =>
    match reference? es with
    | none => do return .dict (← inlineEntries defined available false es)
    | some ref =>
      match h : definition? available (targetName ref) with
      | none =>
        if (definition? defined (targetName ref)).isSome then
          .error (.requirements (.recursiveReference ref))
        else .error (.requirements (.unresolvableReference ref))
      | some target => do
        have := length_without_lt h
        match ← inlineValue defined (without available (targetName ref)) target with
        | .dict resolved =>
          let beside ← inlineEntries defined available true es
          return .dict (Entries.merge resolved beside)
        | _ => .error .wrongKind
  | .list xs => do return .list (← inlineItems defined available xs)
  | v => .ok v
termination_by (available.length, sizeOf v)
decreasing_by
  · exact Prod.Lex.right _ (by simp only [Value.dict.sizeOf_spec]; omega)
  · exact Prod.Lex.left _ _ this
  · exact Prod.Lex.right _ (by simp only [Value.dict.sizeOf_spec]; omega)
  · exact Prod.Lex.right _ (by simp only [Value.list.sizeOf_spec]; omega)

/-- Inlines the references of items. -/
def inlineItems (defined available : Entries) (xs : List Value) : Except Failure (List Value) :=
  match xs with
  | [] => .ok []
  | x :: xs => do
    let y ← inlineValue defined available x
    let ys ← inlineItems defined available xs
    return y :: ys
termination_by (available.length, sizeOf xs)
decreasing_by
  all_goals exact Prod.Lex.right _ (by simp only [List.cons.sizeOf_spec]; omega)

/-- Inlines the references of entries, the reference itself left out if asked. -/
def inlineEntries (defined available : Entries) (skip : Bool) (es : Entries) :
    Except Failure Entries :=
  match es with
  | [] => .ok []
  | (k, v) :: rest =>
    if skip && k.sameKey (.str referenceKey) then inlineEntries defined available skip rest
    else do
      let w ← inlineValue defined available v
      let others ← inlineEntries defined available skip rest
      return (k, w) :: others
termination_by (available.length, sizeOf es)
decreasing_by
  all_goals
    exact Prod.Lex.right _ (by simp only [List.cons.sizeOf_spec, Prod.mk.sizeOf_spec]; omega)

end

/-- The definitions of one section; a section that is no mapping is refused. -/
def section? (es : Entries) (key : String) : Except Failure Entries :=
  match es.get? key with
  | none => .ok []
  | some (.dict section') => .ok section'
  | some _ => .error .wrongKind

/-- Replaces every reference of a schema by the definition it names. -/
def inlineReferences : Value → Except Failure Value
  | .dict es => do
    let older ← section? es olderKey
    let newer ← section? es newerKey
    let defined := Entries.merge older newer
    inlineValue defined defined (.dict ((Entries.erase es newerKey).erase olderKey))
  | _ => .error .noEntries

end PagePlan.Schema
