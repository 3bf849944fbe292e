/-
# Accounts, and the one of following references

The reader of requirements fails in two ways.  It complains about what it does not support, and says
so in words for whoever wrote the requirements.  But it also takes for granted of what kinds the
parts of a schema are; where they are not, it stumbles, and what it fails with then is no complaint.

An outcome is accounted for by two conditions if success means both of them, a complaint that the
one on what is supported fails, and anything else that the one on the shape fails.  Accounts are put
together as computations are.

References are followed by the names that a schema needs: it is taken for granted that the
definitions of these are mappings, and complained about if one is missing or needs itself.

* `Accounted.bind` — accounts of computations in two parts;
* `inlineValue_accounted`, `inlineReferences_accounted` — the account of following references.
-/
import PagePlan.Proofs.Requirements.Forms
import PagePlan.Proofs.Requirements.Inlining

namespace PagePlan

/-! ### Accounts -/

/-- A failure is a complaint about requirements, in words for whoever wrote them. -/
inductive Complaint : Failure → Prop where
  | problem (p : RequirementsProblem) : Complaint (.requirements p)
  | unspellable : Complaint .unspellable

/-- A failure is one that the reader of requirements did not foresee. -/
inductive Stumble : Failure → Prop where
  | wrongKind : Stumble .wrongKind
  | noEntries : Stumble .noEntries
  | refusedName : Stumble .refusedName

/-- An outcome is accounted for by a shape that is taken for granted and by what is supported. -/
def Accounted {α : Type} (shaped supported : Prop) : Except Failure α → Prop
  | .ok _ => shaped ∧ supported
  | .error e => Complaint e ∧ ¬supported ∨ Stumble e ∧ ¬shaped

section

variable {α β : Type} {P P' Q Q' : Prop} {x : Except Failure α} {f : α → Except Failure β}

theorem Accounted.congr (h : Accounted P Q x) (hP : P ↔ P') (hQ : Q ↔ Q') : Accounted P' Q' x := by
  rw [← propext hP, ← propext hQ]
  exact h

theorem accounted_complaint {e : Failure} (he : Complaint e) (hQ : ¬Q) :
    Accounted P Q (.error e : Except Failure α) := Or.inl ⟨he, hQ⟩

theorem accounted_stumble {e : Failure} (he : Stumble e) (hP : ¬P) :
    Accounted P Q (.error e : Except Failure α) := Or.inr ⟨he, hP⟩

/-- Of two parts the second is accounted for where the first gives a result. -/
theorem Accounted.bind (hx : Accounted P Q x) (hf : ∀ a, x = .ok a → Accounted P' Q' (f a)) :
    Accounted (P ∧ P') (Q ∧ Q') (x >>= f) := by
  cases x with
  | error e =>
    rcases hx with ⟨he, hQ⟩ | ⟨he, hP⟩
    · exact accounted_complaint he fun h => hQ h.1
    · exact accounted_stumble he fun h => hP h.1
  | ok a => exact (hf a rfl).congr ⟨fun h => ⟨hx.1, h⟩, And.right⟩ ⟨fun h => ⟨hx.2, h⟩, And.right⟩

/-- What accounts for the second part may be about the result of the first. -/
theorem Accounted.bindResult (hx : Accounted P Q x) {S T : α → Prop}
    (hf : ∀ a, x = .ok a → Accounted (S a) (T a) (f a)) :
    Accounted (P ∧ ∀ a, x = .ok a → S a) (Q ∧ ∀ a, x = .ok a → T a) (x >>= f) := by
  refine hx.bind fun a ha => ?_
  have hone (R : α → Prop) : R a ↔ ∀ b, x = .ok b → R b :=
    ⟨fun h b hb => Except.ok.inj (ha.symm.trans hb) ▸ h, fun h => h a ha⟩
  exact (hf a ha).congr (hone S) (hone T)

/-- The result may be changed. -/
theorem Accounted.map (hx : Accounted P Q x) (g : α → β) :
    Accounted P Q (x >>= fun a => .ok (g a)) := by
  cases x with
  | error e => exact hx
  | ok a => exact hx

end

namespace Schema

/-! ### Following references -/

section

variable {defined : Entries} {es : Entries} {v name : Value} {ref : List Text.Letter}

/-- The definition under a name is a mapping, if there is one. -/
def NamesMapping (defined : Entries) (name : Value) : Prop :=
  ∀ t, definition? defined name = some t → IsMapping t

theorem namesMapping_iff (hv : definition? defined name = some v) :
    NamesMapping defined name ↔ IsMapping v := by
  constructor
  · exact fun h => h v hv
  · intro h t ht
    cases hv.symm.trans ht
    exact h

/-- A value is accounted for by the names that it needs. -/
def ValueAccounted {α : Type} (defined : Entries) (v : Value) : Except Failure α → Prop :=
  Accounted (∀ name, Needs defined v name → NamesMapping defined name)
    (∀ name, Needs defined v name → IsSound defined name)

/-- Entries are accounted for by the names that those need that are looked through. -/
def EntriesAccounted {α : Type} (defined : Entries) (skip : Bool) (es : Entries) :
    Except Failure α → Prop :=
  Accounted
    (∀ e ∈ es, IsKept skip e → ∀ name, Needs defined e.2 name → NamesMapping defined name)
    (∀ e ∈ es, IsKept skip e → ∀ name, Needs defined e.2 name → IsSound defined name)

/-- Inlining makes mappings of mappings alone. -/
theorem isMapping_of_inlineValue {available : Entries} {w : Value}
    (h : inlineValue defined available v = .ok w) : IsMapping w ↔ IsMapping v := by
  cases v with
  | dict es => exact ⟨fun _ => ⟨es, rfl⟩, fun _ => exists_dict_of_inlineValue h⟩
  | list xs =>
    rw [inlineValue] at h
    obtain ⟨ys, -, h⟩ := except_bind_eq_ok.1 h
    cases h
    simp [IsMapping]
  | _ =>
    rw [inlineValue] at h
    · cases h
      rfl
    all_goals simp

/-- A reference to a name that is not available is complained about. -/
theorem accounted_unavailable {available : Entries} (h : Pending defined available (.dict es))
    (href : reference? es = some ref) (hnone : definition? available (targetName ref) = none) :
    ValueAccounted defined (.dict es) (inlineValue defined available (.dict es)) := by
  have hneeds : Needs defined (.dict es) (targetName ref) := ⟨_, .reference href, .refl⟩
  have hcomplaint (p : RequirementsProblem) (hname : ¬IsSound defined (targetName ref)) :
      ValueAccounted defined (.dict es) (.error (.requirements p) : Except Failure Value) :=
    accounted_complaint (.problem p) fun hsound => hname (hsound _ hneeds)
  rw [inlineValue]
  split
  · next hsome => cases href.symm.trans hsome
  · next ref' href' =>
    cases href.symm.trans href'
    split
    · split
      · next hdefined =>
        exact hcomplaint _ fun hsound =>
          hsound.2 (h.reaches ref _ hdefined hnone (.reference href))
      · next hdefined => exact hcomplaint _ fun hsound => hdefined hsound.1
    · next hsome => cases hnone.symm.trans hsome

/-- A reference is replaced by its definition, inlined, and the entries beside it. -/
theorem inlineValue_reference {available : Entries} (href : reference? es = some ref)
    (hv : definition? available (targetName ref) = some v) :
    inlineValue defined available (.dict es) =
      inlineValue defined (without available (targetName ref)) v >>= fun
        | .dict resolved => inlineEntries defined available true es >>= fun beside =>
          .ok (.dict (Entries.merge resolved beside))
        | _ => .error .wrongKind := by
  rw [inlineValue]
  split
  · next hsome => cases href.symm.trans hsome
  · next ref' href' =>
    cases href.symm.trans href'
    split
    · next hnone => cases hv.symm.trans hnone
    · next v' hv' =>
      cases hv.symm.trans hv'
      rfl

/-- A reference to a definition is accounted for by that and by the entries beside it. -/
theorem accounted_reference {available : Entries} (h : Pending defined available (.dict es))
    (href : reference? es = some ref) (hv : definition? available (targetName ref) = some v)
    (htarget : ValueAccounted defined v
      (inlineValue defined (without available (targetName ref)) v))
    (hbeside : EntriesAccounted defined true es (inlineEntries defined available true es)) :
    ValueAccounted defined (.dict es) (inlineValue defined available (.dict es)) := by
  have hdefined := h.isDefined ref v hv
  have hall : Accounted
      ((∀ name, Needs defined v name → NamesMapping defined name) ∧ IsMapping v ∧
        ∀ e ∈ es, IsKept true e → ∀ name, Needs defined e.2 name → NamesMapping defined name)
      ((∀ name, Needs defined v name → IsSound defined name) ∧
        ∀ e ∈ es, IsKept true e → ∀ name, Needs defined e.2 name → IsSound defined name)
      (inlineValue defined available (.dict es)) := by
    rw [inlineValue_reference href hv]
    refine htarget.bind fun w hw => ?_
    have hmapping := isMapping_of_inlineValue hw
    split
    · next resolved =>
      exact (hbeside.map _).congr (iff_and_self.2 fun _ => hmapping.1 ⟨resolved, rfl⟩) Iff.rfl
    · next hnot =>
      refine accounted_stumble .wrongKind fun h => ?_
      obtain ⟨resolved, rfl⟩ := hmapping.2 h.1
      exact hnot resolved rfl
  simp only [IsKept, Bool.true_eq_false, false_or] at hall
  refine hall.congr ?_ ?_
  · rw [forall_needs_reference href hdefined, namesMapping_iff hdefined]
    tauto
  · rw [forall_needs_reference href hdefined]
    constructor
    · exact fun hsound => ⟨⟨isSound_of_definition hdefined hsound.1, hsound.1⟩, hsound.2⟩
    · exact fun hsound => ⟨hsound.1.2, hsound.2⟩

end

mutual

/-- **Following references is accounted for by the names that a value needs**: their definitions
are mappings, and none is missing or needs itself. -/
theorem inlineValue_accounted {defined : Entries} (available : Entries) (v : Value)
    (h : Pending defined available v) :
    ValueAccounted defined v (inlineValue defined available v) := by
  match v with
  | .dict es =>
    cases href : reference? es with
    | none =>
      have hentries := inlineEntries_accounted available false es fun e he _ =>
        h.of_mentions fun name => .entry he (.inl href)
      rw [inlineValue]
      split
      · exact (hentries.map _).congr (by simp [IsKept, forall_needs_dict href])
          (by simp [IsKept, forall_needs_dict href])
      · next hsome => cases href.symm.trans hsome
    | some ref =>
      cases htarget : definition? available (targetName ref) with
      | none => exact accounted_unavailable h href htarget
      | some target =>
        have := length_without_lt htarget
        refine accounted_reference h href htarget
          (inlineValue_accounted _ target (h.follow href htarget))
          (inlineEntries_accounted available true es ?_)
        exact fun e he hkept =>
          h.of_mentions fun name => .entry he (.inr (hkept.resolve_left (by simp)))
  | .list xs =>
    have hitems := inlineItems_accounted available xs fun x hx =>
      h.of_mentions fun name => .item hx
    rw [inlineValue]
    exact (hitems.map _).congr forall_needs_list.symm forall_needs_list.symm
  | .null | .bool _ | .int _ | .float _ | .str _ | .unpaired _ | .tuple _ =>
    rw [inlineValue]
    · constructor <;> rintro name ⟨first, ⟨⟩, -⟩
    all_goals simp
termination_by (available.length, sizeOf v)
decreasing_by
  · exact Prod.Lex.right _ (by simp only [Value.dict.sizeOf_spec]; omega)
  · exact Prod.Lex.left _ _ this
  · exact Prod.Lex.right _ (by simp only [Value.dict.sizeOf_spec]; omega)
  · exact Prod.Lex.right _ (by simp only [Value.list.sizeOf_spec]; omega)

/-- Items one by one. -/
theorem inlineItems_accounted {defined : Entries} (available : Entries) (xs : List Value)
    (h : ∀ x ∈ xs, Pending defined available x) :
    Accounted (∀ x ∈ xs, ∀ name, Needs defined x name → NamesMapping defined name)
      (∀ x ∈ xs, ∀ name, Needs defined x name → IsSound defined name)
      (inlineItems defined available xs) := by
  match xs with
  | [] =>
    rw [inlineItems]
    exact ⟨nofun, nofun⟩
  | x :: xs =>
    have hfirst := inlineValue_accounted available x (h x List.mem_cons_self)
    have hrest := inlineItems_accounted available xs fun y hy => h y (List.mem_cons_of_mem _ hy)
    rw [inlineItems]
    exact (hfirst.bind fun _ _ => hrest.map _).congr (by rw [List.forall_mem_cons])
      (by rw [List.forall_mem_cons])
termination_by (available.length, sizeOf xs)
decreasing_by
  all_goals exact Prod.Lex.right _ (by simp only [List.cons.sizeOf_spec]; omega)

/-- Entries one by one. -/
theorem inlineEntries_accounted {defined : Entries} (available : Entries) (skip : Bool)
    (es : Entries) (h : ∀ e ∈ es, IsKept skip e → Pending defined available e.2) :
    EntriesAccounted defined skip es (inlineEntries defined available skip es) := by
  match es with
  | [] =>
    rw [inlineEntries]
    exact ⟨nofun, nofun⟩
  | (k, v) :: es =>
    have hrest := inlineEntries_accounted available skip es fun e he =>
      h e (List.mem_cons_of_mem _ he)
    rw [inlineEntries]
    split
    · next hskip =>
      have hpassed : ¬IsKept skip (k, v) := by
        simp only [Bool.and_eq_true, Value.sameKey_str] at hskip
        simp [IsKept, hskip]
      exact hrest.congr (by simp [hpassed]) (by simp [hpassed])
    · next hskip =>
      have hkept : IsKept skip (k, v) := by
        simpa [IsKept, Value.sameKey_str, or_iff_not_imp_left] using hskip
      have hfirst := inlineValue_accounted available v (h _ List.mem_cons_self hkept)
      exact (hfirst.bind fun _ _ => hrest.map _).congr (by simp [hkept]) (by simp [hkept])
termination_by (available.length, sizeOf es)
decreasing_by
  all_goals
    exact Prod.Lex.right _ (by simp only [List.cons.sizeOf_spec, Prod.mk.sizeOf_spec]; omega)

end

/-- A schema is a mapping, and so are its sections of definitions and the definitions that it
needs. -/
def HasDefinitions (v : Value) : Prop :=
  ∃ es : Entries, v = .dict es ∧
    (∀ key ∈ [olderKey, newerKey], ∀ s, es.get? key = some s → IsMapping s) ∧
    ∀ name, Needs (definitions es) (body es) name → NamesMapping (definitions es) name

/-- Every reference of a schema can be followed. -/
def CanBeFollowed (v : Value) : Prop :=
  ∀ es, v = .dict es → IsResolvable (definitions es) (body es)

theorem section?_accounted (es : Entries) (key : String) :
    Accounted (∀ s, es.get? key = some s → IsMapping s) True (section? es key) := by
  rw [section?]
  split
  · next hnone => exact ⟨fun s hs => (Option.some_ne_none s (hs.symm.trans hnone)).elim, trivial⟩
  · next ds hsome => exact ⟨fun s hs => ⟨ds, by cases hsome.symm.trans hs; rfl⟩, trivial⟩
  · next s hs hsome =>
    refine accounted_stumble .wrongKind fun h => ?_
    obtain ⟨ds, rfl⟩ := h s hsome
    exact hs ds rfl

theorem inlineReferences_accounted (v : Value) :
    Accounted (HasDefinitions v) (CanBeFollowed v) (inlineReferences v) := by
  cases v with
  | dict es =>
    have hsections : Accounted
        ((∀ s, Entries.get? es olderKey = some s → IsMapping s) ∧
          (∀ s, Entries.get? es newerKey = some s → IsMapping s) ∧
          ∀ name, Needs (definitions es) (body es) name → NamesMapping (definitions es) name)
        (True ∧ True ∧
          ∀ name, Needs (definitions es) (body es) name → IsSound (definitions es) name)
        (inlineReferences (.dict es)) := by
      rw [inlineReferences]
      refine (section?_accounted es olderKey).bind fun older holder => ?_
      refine (section?_accounted es newerKey).bind fun newer hnewer => ?_
      have hdefined : older.merge newer = definitions es := by
        rw [definitions, definitionsIn_of_section? holder, definitionsIn_of_section? hnewer]
      rw [hdefined]
      exact inlineValue_accounted (definitions es) (body es) pending_self
    refine hsections.congr ?_ ?_
    · rw [← and_assoc]
      constructor
      · rintro ⟨hmappings, hneeds⟩
        exact ⟨es, rfl, by simpa using hmappings, hneeds⟩
      · rintro ⟨es', heq, hmappings, hneeds⟩
        cases heq
        exact ⟨by simpa using hmappings, hneeds⟩
    · rw [true_and, true_and, ← isResolvable_iff]
      constructor
      · rintro h es' heq
        cases heq
        exact h
      · exact fun h => h es rfl
  | _ => exact accounted_stumble .noEntries (by rintro ⟨es, ⟨⟩, -⟩)

end Schema

end PagePlan
