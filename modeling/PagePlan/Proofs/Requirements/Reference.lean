/-
# Schemas whose references can be inlined

A schema needs the names that it refers to, and the names that their definitions refer to in turn.
Inlining gives a schema without references exactly where every name that is needed has a
definition and none of them needs itself; otherwise it reports a reference to a name for which that
fails.

Depth is counted through mappings and lists, which is what schemas are nested by.  In a mapping with
a reference the entries beside the reference are looked through as well.

* `inlineValue_settles` — what inlining a value comes to while some names are being inlined already;
* `inlineReferences_succeeds_iff_resolvable` — the same for a whole schema with its sections of
  definitions.
-/
import Mathlib
import PagePlan.Proofs.Outcome
import PagePlan.Proofs.Value.Entries
import PagePlan.Requirements.Reference

namespace PagePlan.Schema

open Relation (TransGen ReflTransGen)

/-! ### The names that are needed -/

/-- A value refers to a name: a mapping in it, at any depth, holds a reference to the name. -/
inductive Mentions : Value → Value → Prop where
  | reference {es : Entries} {ref : List Text.Letter} (h : reference? es = some ref) :
      Mentions (.dict es) (targetName ref)
  /-- The entry of a reference itself is not looked through. -/
  | entry {es : Entries} {e : Value × Value} {name : Value} (he : e ∈ es)
      (hbeside : reference? es = none ∨ e.1 ≠ .str referenceKey) (h : Mentions e.2 name) :
      Mentions (.dict es) name
  | item {xs : List Value} {x name : Value} (hx : x ∈ xs) (h : Mentions x name) :
      Mentions (.list xs) name

/-- The definition of one name refers to another. -/
def Refers (defined : Entries) (name other : Value) : Prop :=
  ∃ v, definition? defined name = some v ∧ Mentions v other

/-- A value refers to a name, if only through definitions. -/
def Needs (defined : Entries) (v name : Value) : Prop :=
  ∃ first, Mentions v first ∧ ReflTransGen (Refers defined) first name

/-- Every name that a value needs is defined, and none of them needs itself. -/
structure IsResolvable (defined : Entries) (v : Value) : Prop where
  isDefined : ∀ name, Needs defined v name → (definition? defined name).isSome
  isAcyclic : ∀ name, Needs defined v name → ¬ TransGen (Refers defined) name name

/-- A failure names a reference that a value needs and that cannot be followed: its name needs
itself, or has no definition. -/
def Blames (defined : Entries) (v : Value) (e : Failure) : Prop :=
  ∃ ref, Needs defined v (targetName ref) ∧
    (e = .requirements (.recursiveReference ref) ∧
        TransGen (Refers defined) (targetName ref) (targetName ref) ∨
      e = .requirements (.unresolvableReference ref) ∧
        definition? defined (targetName ref) = none)

section

variable {defined : Entries} {v x name : Value} {es : Entries} {xs : List Value}
  {e : Value × Value} {ref : List Text.Letter}

theorem Needs.trans {other : Value} (h : Needs defined v name)
    (hother : TransGen (Refers defined) name other) : Needs defined v other := by
  obtain ⟨first, hfirst, hname⟩ := h
  exact ⟨first, hfirst, hname.trans hother.to_reflTransGen⟩

theorem needs_entry (he : e ∈ es) (hbeside : reference? es = none ∨ e.1 ≠ .str referenceKey)
    (h : Needs defined e.2 name) : Needs defined (.dict es) name := by
  obtain ⟨first, hfirst, hname⟩ := h
  exact ⟨first, .entry he hbeside hfirst, hname⟩

theorem needs_item (hx : x ∈ xs) (h : Needs defined x name) : Needs defined (.list xs) name := by
  obtain ⟨first, hfirst, hname⟩ := h
  exact ⟨first, .item hx hfirst, hname⟩

/-- What the definition behind a reference needs is needed, by the name of the reference too. -/
theorem refers_of_needs (hv : definition? defined name = some v) {other : Value}
    (h : Needs defined v other) : TransGen (Refers defined) name other := by
  obtain ⟨first, hfirst, hother⟩ := h
  exact TransGen.head' ⟨v, hv, hfirst⟩ hother

/-- A name that needs another does so by way of its definition. -/
theorem needs_of_refers (hv : definition? defined name = some v) {other : Value}
    (h : TransGen (Refers defined) name other) : Needs defined v other := by
  obtain ⟨first, ⟨w, hw, hfirst⟩, hother⟩ := TransGen.head'_iff.1 h
  obtain rfl : v = w := Option.some.inj (hv.symm.trans hw)
  exact ⟨first, hfirst, hother⟩

variable {N : Value → Prop}

/-- What a list needs is what its items need. -/
theorem forall_needs_list : (∀ name, Needs defined (.list xs) name → N name) ↔
    ∀ x ∈ xs, ∀ name, Needs defined x name → N name := by
  constructor
  · exact fun h x hx name hneeds => h name (needs_item hx hneeds)
  · rintro h name ⟨first, hfirst, hname⟩
    cases hfirst with
    | item hx hfirst => exact h _ hx name ⟨first, hfirst, hname⟩

/-- What a mapping without a reference needs is what its entries need. -/
theorem forall_needs_dict (href : reference? es = none) :
    (∀ name, Needs defined (.dict es) name → N name) ↔
      ∀ e ∈ es, ∀ name, Needs defined e.2 name → N name := by
  constructor
  · exact fun h e he name hneeds => h name (needs_entry he (.inl href) hneeds)
  · rintro h name ⟨first, hfirst, hname⟩
    cases hfirst with
    | reference hsome => cases href.symm.trans hsome
    | entry he _ hfirst => exact h _ he name ⟨first, hfirst, hname⟩

/-- What a mapping with a reference needs is the name of the reference, what the definition needs,
and what the entries beside the reference need. -/
theorem forall_needs_reference (href : reference? es = some ref)
    (hv : definition? defined (targetName ref) = some v) :
    (∀ name, Needs defined (.dict es) name → N name) ↔
      (N (targetName ref) ∧ ∀ name, Needs defined v name → N name) ∧
        ∀ e ∈ es, e.1 ≠ .str referenceKey → ∀ name, Needs defined e.2 name → N name := by
  constructor
  · intro h
    have hname : Needs defined (.dict es) (targetName ref) := ⟨_, .reference href, .refl⟩
    refine ⟨⟨h _ hname, fun name hneeds => ?_⟩, fun e he hkey name hneeds => ?_⟩
    · exact h name (hname.trans (refers_of_needs hv hneeds))
    · exact h name (needs_entry he (.inr hkey) hneeds)
  · rintro ⟨⟨hname, htarget⟩, hbeside⟩ name ⟨first, hfirst, hneeds⟩
    cases hfirst with
    | reference hsome =>
      cases href.symm.trans hsome
      rcases Relation.reflTransGen_iff_eq_or_transGen.1 hneeds with rfl | hneeds
      · exact hname
      · exact htarget name (needs_of_refers hv hneeds)
    | entry he hkey hfirst =>
      exact hbeside _ he (hkey.resolve_left (by simp [href])) name ⟨first, hfirst, hneeds⟩

/-- Under a name stands a definition that does not need itself. -/
def IsSound (defined : Entries) (name : Value) : Prop :=
  (definition? defined name).isSome ∧ ¬ TransGen (Refers defined) name name

theorem isResolvable_iff :
    IsResolvable defined v ↔ ∀ name, Needs defined v name → IsSound defined name := by
  constructor
  · exact fun h name hneeds => ⟨h.isDefined name hneeds, h.isAcyclic name hneeds⟩
  · exact fun h => ⟨fun name hneeds => (h name hneeds).1, fun name hneeds => (h name hneeds).2⟩

/-- A name is sound if all that its definition needs is. -/
theorem isSound_of_definition (hv : definition? defined name = some v)
    (h : ∀ other, Needs defined v other → IsSound defined other) : IsSound defined name :=
  ⟨by rw [hv]; rfl, fun hcycle => (h name (needs_of_refers hv hcycle)).2 hcycle⟩

theorem isResolvable_list (h : ∀ x ∈ xs, IsResolvable defined x) :
    IsResolvable defined (.list xs) :=
  isResolvable_iff.2 (forall_needs_list.2 fun x hx => isResolvable_iff.1 (h x hx))

/-- A value that holds no mapping needs nothing. -/
theorem isResolvable_of_not_mentions (h : ∀ name, ¬ Mentions v name) :
    IsResolvable defined v :=
  isResolvable_iff.2 fun _ ⟨first, hfirst, _⟩ => absurd hfirst (h first)

theorem isResolvable_dict (href : reference? es = none) (h : ∀ e ∈ es, IsResolvable defined e.2) :
    IsResolvable defined (.dict es) :=
  isResolvable_iff.2 ((forall_needs_dict href).2 fun e he => isResolvable_iff.1 (h e he))

/-- A mapping with a reference can be resolved if the definition can, and what stands beside. -/
theorem isResolvable_reference (href : reference? es = some ref)
    (hv : definition? defined (targetName ref) = some v) (hresolvable : IsResolvable defined v)
    (h : ∀ e ∈ es, e.1 ≠ .str referenceKey → IsResolvable defined e.2) :
    IsResolvable defined (.dict es) := by
  have htarget := isResolvable_iff.1 hresolvable
  refine isResolvable_iff.2 ((forall_needs_reference href hv).2 ⟨⟨?_, htarget⟩, ?_⟩)
  · exact isSound_of_definition hv htarget
  · exact fun e he hkey => isResolvable_iff.1 (h e he hkey)

/-- A value for which a failure is to blame cannot be resolved. -/
theorem Blames.not_isResolvable {f : Failure} (h : Blames defined v f) :
    ¬ IsResolvable defined v := by
  intro hresolvable
  obtain ⟨ref, hneeds, ⟨-, hcycle⟩ | ⟨-, hnone⟩⟩ := h
  · exact hresolvable.isAcyclic _ hneeds hcycle
  · have hsome := hresolvable.isDefined _ hneeds
    simp [hnone] at hsome

end

/-! ### Definitions under names -/

theorem letters?_targetName (ref : List Text.Letter) :
    (targetName ref).letters? = some (Text.afterLast (.char '/') ref) := by
  rw [targetName, Value.letters?_ofLetters]

section

variable {es : Entries} {ref other : List Text.Letter}

theorem definition?_without_self (es : Entries) (name : Value) :
    definition? (without es name) name = none := by
  simp [definition?, without, List.find?_filter]

theorem definition?_without_of_ne (h : targetName other ≠ targetName ref) :
    definition? (without es (targetName ref)) (targetName other) =
      definition? es (targetName other) := by
  have hkept (e : Value × Value) (he : e.1.sameKey (targetName other) = true) :
      e.1.sameKey (targetName ref) = false := by
    rw [Value.sameKey_of_letters? (letters?_targetName other)] at he
    rw [← Bool.not_eq_true, Value.sameKey_of_letters? (letters?_targetName ref), he]
    exact h
  simp only [definition?, without, List.find?_filter]
  congr 2
  funext e
  by_cases he : e.1.sameKey (targetName other) = true
  · simp [he, hkept e he]
  · simp [he]

end

/-! ### Names that are being inlined -/

/-- The names that are being inlined already, while a value is: they are defined but not available,
and each of them needs all that the value refers to. -/
structure Pending (defined available : Entries) (v : Value) : Prop where
  isDefined : ∀ (ref : List Text.Letter) (t : Value),
    definition? available (targetName ref) = some t → definition? defined (targetName ref) = some t
  reaches : ∀ (ref : List Text.Letter) (name : Value),
    (definition? defined (targetName ref)).isSome → definition? available (targetName ref) = none →
      Mentions v name → TransGen (Refers defined) (targetName ref) name

section

variable {defined available : Entries} {v w target : Value} {es : Entries} {xs : List Value}
  {ref : List Text.Letter}

/-- Nothing is being inlined at the start. -/
theorem pending_self : Pending defined defined v := by
  constructor
  · intro ref t h
    exact h
  · intro ref name hsome hnone
    simp [hnone] at hsome

theorem Pending.of_mentions (h : Pending defined available v)
    (hw : ∀ name, Mentions w name → Mentions v name) : Pending defined available w :=
  ⟨h.isDefined, fun ref name hsome hnone hname => h.reaches ref name hsome hnone (hw name hname)⟩

/-- Following a reference makes its name one of those that are being inlined. -/
theorem Pending.follow (h : Pending defined available (.dict es)) (href : reference? es = some ref)
    (htarget : definition? available (targetName ref) = some target) :
    Pending defined (without available (targetName ref)) target := by
  constructor
  · intro other t ht
    by_cases heq : targetName other = targetName ref
    · rw [heq, definition?_without_self] at ht
      simp at ht
    · rw [definition?_without_of_ne heq] at ht
      exact h.isDefined other t ht
  · intro other name hsome hnone hname
    have hfirst : Refers defined (targetName ref) name :=
      ⟨target, h.isDefined ref target htarget, hname⟩
    by_cases heq : targetName other = targetName ref
    · exact heq ▸ .single hfirst
    · rw [definition?_without_of_ne heq] at hnone
      exact (h.reaches other _ hsome hnone (.reference href)).tail hfirst

end

/-! ### Values without references -/

/-- No mapping in a value, at any depth, holds a reference. -/
def IsFree (v : Value) : Prop := ∀ name, ¬ Mentions v name

section

variable {defined available : Entries} {v w : Value} {es others : Entries} {xs : List Value}
  {skip : Bool}

theorem isFree_list (h : ∀ x ∈ xs, IsFree x) : IsFree (.list xs) := by
  intro name hname
  cases hname with
  | item hx hname => exact h _ hx name hname

theorem isFree_dict (href : reference? es = none) (h : ∀ e ∈ es, IsFree e.2) :
    IsFree (.dict es) := by
  intro name hname
  cases hname with
  | reference hsome => simp [href] at hsome
  | entry he _ hname => exact h _ he name hname

/-- A mapping without references over which another one is put that has none. -/
theorem isFree_merge (hes : IsFree (.dict es)) (href : others.get? referenceKey = none)
    (hothers : ∀ e ∈ others, IsFree e.2) : IsFree (.dict (es.merge others)) := by
  -- What is put over a mapping has no reference, so one in the result would have been there before.
  have hnone : reference? es = none := by
    cases hes' : reference? es with
    | none => rfl
    | some ref => exact absurd (.reference hes') (hes _)
  apply isFree_dict
  · rw [reference?, Entries.get?_merge_of_eq_none href]
    exact hnone
  · intro e he
    obtain ⟨e', hmem | hmem, hvalue⟩ := Entries.mem_merge he
    · rw [← hvalue]
      exact fun name hname => hes name (.entry hmem (.inl hnone) hname)
    · rw [← hvalue]
      exact hothers e' hmem

/-- Inlining a mapping gives a mapping. -/
theorem exists_dict_of_inlineValue (h : inlineValue defined available (.dict es) = .ok w) :
    ∃ found, w = .dict found := by
  rw [inlineValue] at h
  split at h
  · obtain ⟨found, -, h⟩ := except_bind_eq_ok.1 h
    exact ⟨found, (Except.ok.inj h).symm⟩
  · split at h
    · split at h <;> simp at h
    · obtain ⟨resolved, -, h⟩ := except_bind_eq_ok.1 h
      split at h
      · obtain ⟨beside, -, h⟩ := except_bind_eq_ok.1 h
        exact ⟨_, (Except.ok.inj h).symm⟩
      · simp at h

/-- Inlining makes no text of what is none. -/
theorem letters?_of_inlineValue (h : inlineValue defined available v = .ok w)
    (hv : v.letters? = none) : w.letters? = none := by
  cases v with
  | dict es =>
    obtain ⟨found, rfl⟩ := exists_dict_of_inlineValue h
    rfl
  | list xs =>
    rw [inlineValue] at h
    obtain ⟨ys, -, h⟩ := except_bind_eq_ok.1 h
    rw [← Except.ok.inj h]
    rfl
  | _ =>
    simp only [inlineValue, Except.ok.injEq] at h
    rw [← h]
    exact hv

theorem reference?_cons (k v : Value) (es : Entries) :
    reference? ((k, v) :: es) =
      if k.sameKey (.str referenceKey) then v.letters? else reference? es := by
  rw [reference?, Entries.get?_cons]
  split <;> rfl

/-- Entries that hold no reference hold none after inlining. -/
theorem reference?_of_inlineEntries (h : inlineEntries defined available false es = .ok others)
    (href : reference? es = none) : reference? others = none := by
  induction es generalizing others with
  | nil =>
    rw [inlineEntries] at h
    rw [← Except.ok.inj h]
    exact href
  | cons e es ih =>
    obtain ⟨k, v⟩ := e
    rw [inlineEntries] at h
    simp only [Bool.false_and, Bool.false_eq_true, if_false] at h
    obtain ⟨w, hw, h⟩ := except_bind_eq_ok.1 h
    obtain ⟨rest, hrest, h⟩ := except_bind_eq_ok.1 h
    rw [← Except.ok.inj h, reference?_cons]
    rw [reference?_cons] at href
    split
    · next hk =>
      rw [if_pos hk] at href
      exact letters?_of_inlineValue hw href
    · next hk =>
      rw [if_neg hk] at href
      exact ih hrest href

/-- The entries beside a reference do not hold it. -/
theorem get?_of_inlineEntries (h : inlineEntries defined available true es = .ok others) :
    others.get? referenceKey = none := by
  induction es generalizing others with
  | nil =>
    rw [inlineEntries] at h
    rw [← Except.ok.inj h]
    rfl
  | cons e es ih =>
    obtain ⟨k, v⟩ := e
    rw [inlineEntries] at h
    simp only [Bool.true_and] at h
    split at h
    · exact ih h
    · next hk =>
      obtain ⟨w, -, h⟩ := except_bind_eq_ok.1 h
      obtain ⟨rest, hrest, h⟩ := except_bind_eq_ok.1 h
      rw [← Except.ok.inj h, Entries.get?_cons, if_neg hk]
      exact ih hrest

end

/-! ### What inlining comes to -/

/-- What inlining a value comes to: a value without references where all that is needed can be
resolved, else a failure that names what cannot. -/
def Settles (defined : Entries) (v : Value) : Except Failure Value → Prop
  | .ok w => IsFree w ∧ IsResolvable defined v
  | .error e => Blames defined v e

/-- What inlining items comes to. -/
def ItemsSettle (defined : Entries) (xs : List Value) : Except Failure (List Value) → Prop
  | .ok ys => (∀ y ∈ ys, IsFree y) ∧ ∀ x ∈ xs, IsResolvable defined x
  | .error e => ∃ x ∈ xs, Blames defined x e

/-- Whether an entry is looked through, where the reference is left out or not. -/
def IsKept (skip : Bool) (e : Value × Value) : Prop :=
  skip = false ∨ e.1 ≠ .str referenceKey

/-- What inlining entries comes to. -/
def EntriesSettle (defined : Entries) (skip : Bool) (es : Entries) :
    Except Failure Entries → Prop
  | .ok others => (∀ e ∈ others, IsFree e.2) ∧ ∀ e ∈ es, IsKept skip e → IsResolvable defined e.2
  | .error f => ∃ e ∈ es, IsKept skip e ∧ Blames defined e.2 f

section

variable {defined available es : Entries} {ref : List Text.Letter} {v target : Value}

/-- An item and the ones behind it. -/
theorem Settles.cons {xs : List Value} {a : Except Failure Value}
    {r : Except Failure (List Value)} (hfirst : Settles defined v a)
    (hrest : ItemsSettle defined xs r) :
    ItemsSettle defined (v :: xs) (do
      let y ← a
      let ys ← r
      return y :: ys) := by
  match a, r with
  | .error f, _ => exact ⟨v, List.mem_cons_self, hfirst⟩
  | .ok y, .error f =>
    obtain ⟨x, hx, hblame⟩ := hrest
    exact ⟨x, List.mem_cons_of_mem _ hx, hblame⟩
  | .ok y, .ok ys =>
    exact ⟨List.forall_mem_cons.2 ⟨hfirst.1, hrest.1⟩, List.forall_mem_cons.2 ⟨hfirst.2, hrest.2⟩⟩

/-- An entry that is looked through and the ones behind it. -/
theorem Settles.entry {skip : Bool} {k : Value} {a : Except Failure Value}
    {r : Except Failure Entries} (hfirst : Settles defined v a) (hkept : IsKept skip (k, v))
    (hrest : EntriesSettle defined skip es r) :
    EntriesSettle defined skip ((k, v) :: es) (do
      let w ← a
      let others ← r
      return (k, w) :: others) := by
  match a, r with
  | .error f, _ => exact ⟨_, List.mem_cons_self, hkept, hfirst⟩
  | .ok w, .error f =>
    obtain ⟨e, he, hblame⟩ := hrest
    exact ⟨e, List.mem_cons_of_mem _ he, hblame⟩
  | .ok w, .ok others =>
    exact ⟨List.forall_mem_cons.2 ⟨hfirst.1, hrest.1⟩,
      List.forall_mem_cons.2 ⟨fun _ => hfirst.2, hrest.2⟩⟩

/-- The entry of a reference is passed over. -/
theorem EntriesSettle.skip {skip : Bool} {e : Value × Value} {r : Except Failure Entries}
    (hrest : EntriesSettle defined skip es r) (hkept : ¬ IsKept skip e) :
    EntriesSettle defined skip (e :: es) r := by
  match r with
  | .error f =>
    obtain ⟨e', he', hblame⟩ := hrest
    exact ⟨e', List.mem_cons_of_mem _ he', hblame⟩
  | .ok others => exact ⟨hrest.1, List.forall_mem_cons.2 ⟨fun h => absurd h hkept, hrest.2⟩⟩

/-- A mapping without a reference settles as its entries do. -/
theorem settles_dict (href : reference? es = none)
    (h : EntriesSettle defined false es (inlineEntries defined available false es)) :
    Settles defined (.dict es) (inlineValue defined available (.dict es)) := by
  rw [inlineValue]
  split
  · cases hentries : inlineEntries defined available false es with
    | ok others =>
      rw [hentries] at h
      refine ⟨isFree_dict (reference?_of_inlineEntries hentries href) h.1, ?_⟩
      exact isResolvable_dict href fun e he => h.2 e he (.inl rfl)
    | error f =>
      rw [hentries] at h
      obtain ⟨e, he, -, ref, hneeds, hblame⟩ := h
      exact ⟨ref, needs_entry he (.inl href) hneeds, hblame⟩
  · next hsome => simp [href] at hsome

/-- A reference to a name that is not available is reported. -/
theorem settles_unavailable (hpending : Pending defined available (.dict es))
    (href : reference? es = some ref) (hnone : definition? available (targetName ref) = none) :
    Settles defined (.dict es) (inlineValue defined available (.dict es)) := by
  have hneeds : Needs defined (.dict es) (targetName ref) := ⟨_, .reference href, .refl⟩
  rw [inlineValue]
  split
  · next h => simp [href] at h
  · next ref' h =>
    obtain rfl : ref = ref' := Option.some.inj (href.symm.trans h)
    split
    · split
      · next hdefined =>
        -- The name is defined but not available: it is being inlined already, and so needs itself.
        exact ⟨ref, hneeds, .inl ⟨rfl, hpending.reaches ref _ hdefined hnone (.reference href)⟩⟩
      · next hdefined => exact ⟨ref, hneeds, .inr ⟨rfl, by simpa using hdefined⟩⟩
    · next hsome => simp [hnone] at hsome

/-- A reference to a definition settles as the definition and the entries beside it do. -/
theorem settles_reference (hpending : Pending defined available (.dict es))
    (href : reference? es = some ref)
    (htarget : definition? available (targetName ref) = some target)
    (hdict : ∃ ds, target = .dict ds)
    (hresolved : Settles defined target
      (inlineValue defined (without available (targetName ref)) target))
    (hbeside : EntriesSettle defined true es (inlineEntries defined available true es)) :
    Settles defined (.dict es) (inlineValue defined available (.dict es)) := by
  have hdefined := hpending.isDefined ref target htarget
  obtain ⟨ds, rfl⟩ := hdict
  rw [inlineValue]
  split
  · next h => simp [href] at h
  · next ref' h =>
    obtain rfl : ref = ref' := Option.some.inj (href.symm.trans h)
    split
    · next h => simp [htarget] at h
    · next target' h =>
      obtain rfl : .dict ds = target' := Option.some.inj (htarget.symm.trans h)
      cases hinline : inlineValue defined (without available (targetName ref)) (.dict ds) with
      | error f =>
        rw [hinline] at hresolved
        obtain ⟨other, hneeds, hblame⟩ := hresolved
        refine ⟨other, Needs.trans ⟨_, .reference href, .refl⟩ ?_, hblame⟩
        exact refers_of_needs hdefined hneeds
      | ok w =>
        obtain ⟨found, rfl⟩ := exists_dict_of_inlineValue hinline
        rw [hinline] at hresolved
        cases hentries : inlineEntries defined available true es with
        | error f =>
          rw [hentries] at hbeside
          obtain ⟨e, he, hkept, other, hneeds, hblame⟩ := hbeside
          exact ⟨other, needs_entry he (.inr (hkept.resolve_left (by simp))) hneeds, hblame⟩
        | ok others =>
          rw [hentries] at hbeside
          refine ⟨isFree_merge hresolved.1 (get?_of_inlineEntries hentries) hbeside.1, ?_⟩
          exact isResolvable_reference href hdefined hresolved.2
            fun e he hkey => hbeside.2 e he (.inr hkey)

end

mutual

/-- Inlining a value gives a value without references where all that is needed can be resolved, and
names what cannot be resolved elsewhere. -/
theorem inlineValue_settles {defined : Entries}
    (hdefined : ∀ name t, definition? defined name = some t → ∃ ds, t = .dict ds)
    (available : Entries) (v : Value) (h : Pending defined available v) :
    Settles defined v (inlineValue defined available v) := by
  match v with
  | .dict es =>
    cases href : reference? es with
    | none =>
      refine settles_dict href (inlineEntries_settles hdefined available false es ?_)
      exact fun e he _ => h.of_mentions fun name => .entry he (.inl href)
    | some ref =>
      cases htarget : definition? available (targetName ref) with
      | none => exact settles_unavailable h href htarget
      | some target =>
        -- Fewer names are available for the definition, as many as before beside the reference.
        have := length_without_lt htarget
        refine settles_reference h href htarget (hdefined _ _ (h.isDefined ref target htarget))
          (inlineValue_settles hdefined _ target (h.follow href htarget))
          (inlineEntries_settles hdefined available true es ?_)
        exact fun e he hkept =>
          h.of_mentions fun name => .entry he (.inr (hkept.resolve_left (by simp)))
  | .list xs =>
    have hitems := inlineItems_settles hdefined available xs fun x hx =>
      h.of_mentions fun name => .item hx
    rw [inlineValue]
    cases hinline : inlineItems defined available xs with
    | ok ys =>
      rw [hinline] at hitems
      exact ⟨isFree_list hitems.1, isResolvable_list hitems.2⟩
    | error f =>
      rw [hinline] at hitems
      obtain ⟨x, hx, ref, hneeds, hblame⟩ := hitems
      exact ⟨ref, needs_item hx hneeds, hblame⟩
  | .null | .bool _ | .int _ | .float _ | .str _ | .unpaired _ | .tuple _ =>
    rw [inlineValue]
    · exact ⟨by rintro name ⟨⟩, isResolvable_of_not_mentions (by rintro name ⟨⟩)⟩
    all_goals simp
termination_by (available.length, sizeOf v)
decreasing_by
  · exact Prod.Lex.right _ (by simp only [Value.dict.sizeOf_spec]; omega)
  · exact Prod.Lex.left _ _ this
  · exact Prod.Lex.right _ (by simp only [Value.dict.sizeOf_spec]; omega)
  · exact Prod.Lex.right _ (by simp only [Value.list.sizeOf_spec]; omega)

/-- Items settle one by one. -/
theorem inlineItems_settles {defined : Entries}
    (hdefined : ∀ name t, definition? defined name = some t → ∃ ds, t = .dict ds)
    (available : Entries) (xs : List Value) (h : ∀ x ∈ xs, Pending defined available x) :
    ItemsSettle defined xs (inlineItems defined available xs) := by
  match xs with
  | [] =>
    rw [inlineItems]
    simp [ItemsSettle]
  | x :: xs =>
    have hfirst := inlineValue_settles hdefined available x (h x List.mem_cons_self)
    have hrest := inlineItems_settles hdefined available xs fun y hy =>
      h y (List.mem_cons_of_mem _ hy)
    rw [inlineItems]
    exact hfirst.cons hrest
termination_by (available.length, sizeOf xs)
decreasing_by
  all_goals exact Prod.Lex.right _ (by simp only [List.cons.sizeOf_spec]; omega)

/-- Entries settle one by one. -/
theorem inlineEntries_settles {defined : Entries}
    (hdefined : ∀ name t, definition? defined name = some t → ∃ ds, t = .dict ds)
    (available : Entries) (skip : Bool) (es : Entries)
    (h : ∀ e ∈ es, IsKept skip e → Pending defined available e.2) :
    EntriesSettle defined skip es (inlineEntries defined available skip es) := by
  match es with
  | [] =>
    rw [inlineEntries]
    simp [EntriesSettle]
  | (k, v) :: rest =>
    have hrest := inlineEntries_settles hdefined available skip rest fun e he =>
      h e (List.mem_cons_of_mem _ he)
    rw [inlineEntries]
    split
    · next hskip =>
      simp only [Bool.and_eq_true, Value.sameKey_str] at hskip
      exact hrest.skip (by simp [IsKept, hskip])
    · next hskip =>
      have hkept : IsKept skip (k, v) := by
        simpa [IsKept, Value.sameKey_str, or_iff_not_imp_left] using hskip
      exact (inlineValue_settles hdefined available v (h _ List.mem_cons_self hkept)).entry hkept
        hrest
termination_by (available.length, sizeOf es)
decreasing_by
  all_goals
    exact Prod.Lex.right _ (by simp only [List.cons.sizeOf_spec, Prod.mk.sizeOf_spec]; omega)

end

/-! ### Whole schemas -/

/-- The definitions in a section of a schema. -/
def definitionsIn (es : Entries) (key : String) : Entries :=
  ((es.get? key).bind Value.dict?).getD []

/-- The definitions of a schema; those of the newer section win. -/
def definitions (es : Entries) : Entries :=
  (definitionsIn es olderKey).merge (definitionsIn es newerKey)

/-- A schema without its own sections of definitions. -/
def body (es : Entries) : Value :=
  .dict ((Entries.erase es newerKey).erase olderKey)

/-- The sections of definitions that a schema has are mappings of names to mappings. -/
def HasSections (es : Entries) : Prop :=
  ∀ key ∈ [olderKey, newerKey], ∀ v, es.get? key = some v →
    ∃ ds, v = .dict ds ∧ ∀ e ∈ ds, ∃ d, e.2 = .dict d

section

variable {es : Entries} {key : String}

theorem section?_eq (h : HasSections es) (hkey : key ∈ [olderKey, newerKey]) :
    (section? es key) = .ok (definitionsIn es key) := by
  rw [section?, definitionsIn]
  cases hv : es.get? key with
  | none => rfl
  | some v =>
    obtain ⟨ds, rfl, -⟩ := h key hkey v hv
    rfl

theorem exists_dict_of_mem_definitionsIn (h : HasSections es) (hkey : key ∈ [olderKey, newerKey]) :
    ∀ e ∈ definitionsIn es key, ∃ d, e.2 = .dict d := by
  rw [definitionsIn]
  cases hv : es.get? key with
  | none => simp
  | some v =>
    obtain ⟨ds, rfl, hds⟩ := h key hkey v hv
    exact hds

/-- Every definition of a schema is a mapping. -/
theorem exists_dict_of_definition? (h : HasSections es) {name t : Value}
    (ht : definition? (definitions es) name = some t) : ∃ ds, t = .dict ds := by
  simp only [definition?, Option.map_eq_some_iff] at ht
  obtain ⟨e, he, rfl⟩ := ht
  obtain ⟨e', hmem | hmem, hvalue⟩ := Entries.mem_merge (List.mem_of_find?_eq_some he)
  · rw [← hvalue]
    exact exists_dict_of_mem_definitionsIn h (by simp) e' hmem
  · rw [← hvalue]
    exact exists_dict_of_mem_definitionsIn h (by simp) e' hmem

theorem inlineReferences_eq (h : HasSections es) :
    inlineReferences (.dict es) = inlineValue (definitions es) (definitions es) (body es) := by
  rw [inlineReferences, section?_eq h (by simp), section?_eq h (by simp)]
  rfl

end

/-- **Inlining succeeds exactly on schemas all of whose names can be resolved**, and gives a schema
without references.  On every other schema it fails with a reference that cannot be followed. -/
theorem inlineReferences_succeeds_iff_resolvable (es : Entries) (h : HasSections es) :
    (IsResolvable (definitions es) (body es) →
      ∃ w, inlineReferences (.dict es) = .ok w ∧ IsFree w) ∧
    (¬ IsResolvable (definitions es) (body es) →
      ∃ f, inlineReferences (.dict es) = .error f ∧ Blames (definitions es) (body es) f) := by
  have hsettles := inlineValue_settles (fun _ _ => exists_dict_of_definition? h) (definitions es)
    (body es) pending_self
  rw [← inlineReferences_eq h] at hsettles
  cases hinline : inlineReferences (.dict es) with
  | ok w =>
    rw [hinline] at hsettles
    exact ⟨fun _ => ⟨w, rfl, hsettles.1⟩, fun hnot => absurd hsettles.2 hnot⟩
  | error f =>
    rw [hinline] at hsettles
    exact ⟨fun hresolvable => absurd hresolvable hsettles.not_isResolvable,
      fun _ => ⟨f, rfl, hsettles⟩⟩

/-- A schema that needs one definition in two ways, beside a reference and through another. -/
def sharedDefinition : Entries :=
  let reference (name : String) : Value := .record [("$ref", .str ("#/$defs/" ++ name))]
  [(.str "$defs", .record [("A", .record [("items", .list [reference "B"])]),
      ("B", .record [("type", .str "string")])]),
    (.str "properties", .record [("left", reference "A"),
      ("right", .record [("$ref", .str "B"), ("note", reference "B")])])]

theorem inlineReferences_sharedDefinition :
    HasSections sharedDefinition ∧
      IsResolvable (definitions sharedDefinition) (body sharedDefinition) ∧
      ∃ w, inlineReferences (.dict sharedDefinition) = .ok w ∧ IsFree w := by
  have hsections : HasSections sharedDefinition := by
    intro key hkey v hv
    simp only [List.mem_cons, List.not_mem_nil, or_false] at hkey
    rcases hkey with rfl | rfl
    · simp [sharedDefinition, olderKey, Entries.get?, Value.sameKey] at hv
    · simp only [sharedDefinition, newerKey, Entries.get?] at hv
      obtain rfl := Option.some.inj hv
      exact ⟨_, rfl, by simp [Value.record]⟩
  have hok : (inlineReferences (.dict sharedDefinition)).isOk = true := by cbv
  obtain ⟨hfree, hblame⟩ := inlineReferences_succeeds_iff_resolvable sharedDefinition hsections
  have hresolvable : IsResolvable (definitions sharedDefinition) (body sharedDefinition) := by
    by_contra hnot
    obtain ⟨f, hf, -⟩ := hblame hnot
    simp [hf, Except.isOk, Except.toBool] at hok
  exact ⟨hsections, hresolvable, hfree hresolvable⟩

end PagePlan.Schema
