/-
# What stands where a reference stood

Where inlining gives a schema, every reference that it comes to has been replaced: by the definition
that it was resolved to, inlined in turn, with the inlined entries beside the reference put over it.
This is said here of any way to resolve references (`Inlined`), so that the way in which inlining
does it can be held against the pointers of the references.

A pointer into one of the two sections of definitions designates an entry there.  Inlining goes by
the last part of a pointer alone, and looks in the newer section first.  A reference is thus resolved
to what it designates, unless its pointer leads somewhere else, or into one section while the other
is the one that has the name, or has it first.

* `inlined_of_inlineValue` — inlining replaces references as they are resolved;
* `definition?_merge` — the newer section wins;
* `inlineReferences_resolves` — what every reference of a schema is replaced by, and when that is
  what it designates.
-/
import PagePlan.Proofs.Requirements.Reference
import PagePlan.Proofs.Requirements.Strict

namespace PagePlan.Schema

open Text (Letter letters)

/-! ### Values with their references replaced -/

/-- What a value is with every reference in it replaced, `Resolves` being how references are resolved
to definitions.  The entries beside a reference stay under their keys, and win over those of the
definition. -/
inductive Inlined (Resolves : List Letter → Value → Prop) : Value → Value → Prop where
  | leaf {v : Value} (h : isLeaf v = true) : Inlined Resolves v v
  | list {xs ys : List Value} (hlength : xs.length = ys.length)
      (hitems : ∀ p ∈ xs.zip ys, Inlined Resolves p.1 p.2) : Inlined Resolves (.list xs) (.list ys)
  | dict {es others : Entries} (href : reference? es = none)
      (hkeys : es.map Prod.fst = others.map Prod.fst)
      (hvalues : ∀ p ∈ es.zip others, Inlined Resolves p.1.2 p.2.2) :
      Inlined Resolves (.dict es) (.dict others)
  | reference {es beside found : Entries} {ref : List Letter} {target : Value}
      (href : reference? es = some ref) (htarget : Resolves ref target)
      (hfound : Inlined Resolves target (.dict found))
      (hkeys : (es.erase referenceKey).map Prod.fst = beside.map Prod.fst)
      (hvalues : ∀ p ∈ (es.erase referenceKey).zip beside, Inlined Resolves p.1.2 p.2.2) :
      Inlined Resolves (.dict es) (.dict (found.merge beside))

/-- A reference is come to in a value, or in a definition that one before it is resolved to. -/
inductive Reached (Resolves : List Letter → Value → Prop) : Value → List Letter → Prop where
  | here {es : Entries} {ref : List Letter} (h : reference? es = some ref) :
      Reached Resolves (.dict es) ref
  | behind {es : Entries} {first ref : List Letter} {target : Value}
      (hfirst : reference? es = some first) (htarget : Resolves first target)
      (h : Reached Resolves target ref) : Reached Resolves (.dict es) ref
  /-- The entry of a reference itself is not looked through. -/
  | entry {es : Entries} {e : Value × Value} {ref : List Letter} (he : e ∈ es)
      (hbeside : reference? es = none ∨ e.1 ≠ .str referenceKey) (h : Reached Resolves e.2 ref) :
      Reached Resolves (.dict es) ref
  | item {xs : List Value} {x : Value} {ref : List Letter} (hx : x ∈ xs)
      (h : Reached Resolves x ref) : Reached Resolves (.list xs) ref

section

variable {α β : Type}

/-- A list is settled by another one that it is related to element by element. -/
theorem eq_of_forall_mem_zip {R : α → β → Prop} {xs : List α} {ys zs : List β}
    (hys : xs.length = ys.length) (hzs : xs.length = zs.length)
    (hunique : ∀ p ∈ xs.zip ys, ∀ z, R p.1 z → p.2 = z) (h : ∀ p ∈ xs.zip zs, R p.1 p.2) :
    ys = zs := by
  refine List.ext_getElem (hys.symm.trans hzs) fun i hi hi' => ?_
  have hx : i < xs.length := hys ▸ hi
  have hy : (xs[i], ys[i]) ∈ xs.zip ys := by
    rw [← List.getElem_zip (h := by simp only [List.length_zip]; omega)]
    exact List.getElem_mem _
  have hz : (xs[i], zs[i]) ∈ xs.zip zs := by
    rw [← List.getElem_zip (h := by simp only [List.length_zip]; omega)]
    exact List.getElem_mem _
  exact hunique _ hy _ (h _ hz)

theorem exists_mem_zip_left {xs : List α} {ys : List β} (h : xs.length = ys.length) {x : α}
    (hx : x ∈ xs) : ∃ y, (x, y) ∈ xs.zip ys := by
  obtain ⟨i, hi, rfl⟩ := List.getElem_of_mem hx
  refine ⟨ys[i], ?_⟩
  rw [← List.getElem_zip (h := by simp [hi, ← h])]
  exact List.getElem_mem _

end

section

variable {R S : List Letter → Value → Prop} {v w w' : Value} {es others : Entries}
  {ref : List Letter}

/-- Under the same keys stand the same entries if the values are settled. -/
theorem entries_eq_of_zip {T : Value → Value → Prop} {es' : Entries}
    (hkeys : es.map Prod.fst = others.map Prod.fst) (hkeys' : es.map Prod.fst = es'.map Prod.fst)
    (hunique : ∀ p ∈ es.zip others, ∀ z, T p.1.2 z → p.2.2 = z)
    (h : ∀ p ∈ es.zip es', T p.1.2 p.2.2) : others = es' := by
  have hlength : es.length = others.length := by simpa using congrArg List.length hkeys
  have hlength' : es.length = es'.length := by simpa using congrArg List.length hkeys'
  have hvalues : others.map Prod.snd = es'.map Prod.snd := by
    have hfirst : es.length = (others.map Prod.snd).length := by simpa using hlength
    refine eq_of_forall_mem_zip (R := fun e z => T e.2 z) hfirst (by simpa using hlength') ?_ ?_
    · intro p hp z hz
      rw [List.zip_map_right] at hp
      obtain ⟨q, hq, rfl⟩ := List.mem_map.1 hp
      exact hunique q hq z hz
    · intro p hp
      rw [List.zip_map_right] at hp
      obtain ⟨q, hq, rfl⟩ := List.mem_map.1 hp
      exact h q hq
  calc others = (others.map Prod.fst).zip (others.map Prod.snd) := List.zip_of_prod rfl rfl
    _ = (es'.map Prod.fst).zip (es'.map Prod.snd) := by rw [← hkeys, hkeys', hvalues]
    _ = es' := (List.zip_of_prod rfl rfl).symm

/-- **There is one way to replace references** if there is one way to resolve them. -/
theorem Inlined.unique (hR : ∀ ref t u, R ref t → R ref u → t = u) (h : Inlined R v w)
    (h' : Inlined R v w') : w = w' := by
  induction h generalizing w' with
  | leaf hleaf =>
    cases h' with
    | leaf _ => rfl
    | list _ _ => cases hleaf
    | dict _ _ _ => cases hleaf
    | reference _ _ _ _ _ => cases hleaf
  | list hlength _ ih =>
    cases h' with
    | leaf hleaf => cases hleaf
    | list hlength' hitems' =>
      rw [eq_of_forall_mem_zip hlength hlength' (fun p hp z hz => ih p hp hz) hitems']
  | dict href hkeys _ ih =>
    cases h' with
    | leaf hleaf => cases hleaf
    | dict _ hkeys' hvalues' =>
      rw [entries_eq_of_zip hkeys hkeys' (fun p hp z hz => ih p hp hz) hvalues']
    | reference href' _ _ _ _ => cases href.symm.trans href'
  | reference href htarget _ hkeys _ ihfound ih =>
    cases h' with
    | leaf hleaf => cases hleaf
    | dict href' _ _ => cases href.symm.trans href'
    | reference href' htarget' hfound' hkeys' hvalues' =>
      cases href.symm.trans href'
      cases hR _ _ _ htarget htarget'
      cases ihfound hfound'
      rw [entries_eq_of_zip hkeys hkeys' (fun p hp z hz => ih p hp hz) hvalues']

theorem mem_erase {e : Value × Value} :
    e ∈ es.erase referenceKey ↔ e ∈ es ∧ e.1 ≠ .str referenceKey := by
  rw [Entries.erase, List.mem_filter, Bool.not_eq_true', ← Bool.not_eq_true, Value.sameKey_str]

/-- Only the references that are come to matter. -/
theorem Inlined.congr (h : Inlined R v w)
    (hS : ∀ ref t, Reached R v ref → R ref t → S ref t) : Inlined S v w := by
  induction h with
  | leaf hleaf => exact .leaf hleaf
  | list hlength _ ih =>
    exact .list hlength fun p hp => ih p hp fun ref t href =>
      hS ref t (.item (List.of_mem_zip hp).1 href)
  | dict href hkeys _ ih =>
    exact .dict href hkeys fun p hp => ih p hp fun ref t hreached =>
      hS ref t (.entry (List.of_mem_zip hp).1 (.inl href) hreached)
  | reference href htarget _ hkeys _ ihfound ih =>
    refine .reference href (hS _ _ (.here href) htarget) ?_ hkeys ?_
    · exact ihfound fun ref t hreached => hS ref t (.behind href htarget hreached)
    · intro p hp
      obtain ⟨hmem, hbeside⟩ := mem_erase.1 (List.of_mem_zip hp).1
      exact ih p hp fun ref t hreached => hS ref t (.entry hmem (.inr hbeside) hreached)

/-! ### The parts of a value with its references replaced -/

theorem Inlined.item {xs : List Value} {x : Value} (h : Inlined R (.list xs) w) (hx : x ∈ xs) :
    ∃ y, Inlined R x y := by
  cases h with
  | leaf hleaf => cases hleaf
  | list hlength hitems =>
    obtain ⟨y, hy⟩ := exists_mem_zip_left hlength hx
    exact ⟨y, hitems _ hy⟩

theorem exists_mem_zip_of_keys (hkeys : es.map Prod.fst = others.map Prod.fst)
    {e : Value × Value} (he : e ∈ es) : ∃ e', (e, e') ∈ es.zip others :=
  exists_mem_zip_left (by simpa using congrArg List.length hkeys) he

theorem Inlined.entry (h : Inlined R (.dict es) w) {e : Value × Value} (he : e ∈ es)
    (hbeside : reference? es = none ∨ e.1 ≠ .str referenceKey) : ∃ y, Inlined R e.2 y := by
  cases h with
  | leaf hleaf => cases hleaf
  | dict _ hkeys hvalues =>
    obtain ⟨e', he'⟩ := exists_mem_zip_of_keys hkeys he
    exact ⟨e'.2, hvalues _ he'⟩
  | reference href _ _ hkeys hvalues =>
    have hbeside := hbeside.resolve_left (by simp [href])
    obtain ⟨e', he'⟩ := exists_mem_zip_of_keys hkeys (mem_erase.2 ⟨he, hbeside⟩)
    exact ⟨e'.2, hvalues _ he'⟩

theorem Inlined.definition (h : Inlined R (.dict es) w) (href : reference? es = some ref) :
    ∃ target found, R ref target ∧ Inlined R target (.dict found) := by
  cases h with
  | leaf hleaf => cases hleaf
  | dict hnone _ _ => cases hnone.symm.trans href
  | reference href' htarget hfound _ _ =>
    cases href.symm.trans href'
    exact ⟨_, _, htarget, hfound⟩

/-- Only a mapping becomes a mapping. -/
theorem Inlined.exists_dict {found : Entries} (h : Inlined R v (.dict found)) :
    ∃ ds, v = .dict ds := by
  cases h with
  | leaf hleaf => cases hleaf
  | dict _ _ _ => exact ⟨_, rfl⟩
  | reference _ _ _ _ _ => exact ⟨_, rfl⟩

/-- Every reference that is come to was resolved, to a mapping. -/
theorem Inlined.exists_of_reached (hR : ∀ ref t u, R ref t → R ref u → t = u) (h : Inlined R v w)
    (hreached : Reached R v ref) : ∃ ds, R ref (.dict ds) := by
  induction hreached generalizing w with
  | here href =>
    obtain ⟨target, found, htarget, hfound⟩ := h.definition href
    obtain ⟨ds, rfl⟩ := hfound.exists_dict
    exact ⟨ds, htarget⟩
  | behind hfirst htarget _ ih =>
    obtain ⟨target, found, htarget', hfound⟩ := h.definition hfirst
    cases hR _ _ _ htarget htarget'
    exact ih hfound
  | entry he hbeside _ ih =>
    obtain ⟨y, hy⟩ := h.entry he hbeside
    exact ih hy
  | item hx _ ih =>
    obtain ⟨y, hy⟩ := h.item hx
    exact ih hy

end

/-! ### Inlining replaces references -/

/-- References are resolved by their last parts. -/
def ByName (defined : Entries) (ref : List Letter) (t : Value) : Prop :=
  definition? defined (targetName ref) = some t

section

variable {defined available es others : Entries} {v w : Value} {skip : Bool}

/-- The entries that are looked through, where the reference is left out or not. -/
def keptEntries (skip : Bool) (es : Entries) : Entries :=
  if skip then es.erase referenceKey else es

theorem keptEntries_cons (skip : Bool) (k v : Value) (es : Entries) :
    keptEntries skip ((k, v) :: es) = if skip && k.sameKey (.str referenceKey) then
      keptEntries skip es else (k, v) :: keptEntries skip es := by
  cases skip with
  | false => rfl
  | true =>
    rw [keptEntries, if_pos rfl, Entries.erase, List.filter_cons, Bool.true_and]
    cases k.sameKey (.str referenceKey) <;> rfl

/-- Entries under the same keys, with references replaced. -/
def EntriesInlined (defined : Entries) (es others : Entries) : Prop :=
  es.map Prod.fst = others.map Prod.fst ∧
    ∀ p ∈ es.zip others, Inlined (ByName defined) p.1.2 p.2.2

/-- What is available is part of what is defined. -/
def IsPart (available defined : Entries) : Prop :=
  ∀ ref t, ByName available ref t → ByName defined ref t

theorem IsPart.without (h : IsPart available defined) (ref : List Letter) :
    IsPart (without available (targetName ref)) defined := by
  intro other t ht
  rw [ByName] at ht
  by_cases heq : targetName other = targetName ref
  · rw [heq, definition?_without_self] at ht
    cases ht
  · rw [definition?_without_of_ne heq] at ht
    exact h other t ht

end

mutual

/-- **Inlining replaces references by the definitions of their names.** -/
theorem inlined_of_inlineValue {defined : Entries} (available : Entries)
    (hpart : IsPart available defined) (v : Value) {w : Value}
    (h : inlineValue defined available v = .ok w) : Inlined (ByName defined) v w := by
  match v with
  | .dict es =>
    rw [inlineValue] at h
    split at h
    · next href =>
      obtain ⟨others, hothers, h⟩ := except_bind_eq_ok.1 h
      obtain ⟨hkeys, hvalues⟩ := inlined_of_inlineEntries available hpart false es hothers
      cases h
      exact .dict href hkeys hvalues
    · next ref href =>
      split at h
      · split at h <;> cases h
      · next target htarget =>
        have := length_without_lt htarget
        obtain ⟨resolved, hresolved, h⟩ := except_bind_eq_ok.1 h
        split at h
        · next found =>
          obtain ⟨beside, hbeside, h⟩ := except_bind_eq_ok.1 h
          obtain ⟨hkeys, hvalues⟩ := inlined_of_inlineEntries available hpart true es hbeside
          cases h
          exact .reference href (hpart _ _ htarget)
            (inlined_of_inlineValue _ (hpart.without ref) target hresolved) hkeys hvalues
        · cases h
  | .list xs =>
    rw [inlineValue] at h
    obtain ⟨ys, hys, h⟩ := except_bind_eq_ok.1 h
    obtain ⟨hlength, hitems⟩ := inlined_of_inlineItems available hpart xs hys
    cases h
    exact .list hlength hitems
  | .null | .bool _ | .int _ | .float _ | .str _ | .unpaired _ | .tuple _ =>
    rw [inlineValue] at h
    · cases h
      exact .leaf rfl
    all_goals simp
termination_by (available.length, sizeOf v)
decreasing_by
  · exact Prod.Lex.right _ (by simp only [Value.dict.sizeOf_spec]; omega)
  · exact Prod.Lex.right _ (by simp only [Value.dict.sizeOf_spec]; omega)
  · exact Prod.Lex.left _ _ this
  · exact Prod.Lex.right _ (by simp only [Value.list.sizeOf_spec]; omega)

/-- Items one by one. -/
theorem inlined_of_inlineItems {defined : Entries} (available : Entries)
    (hpart : IsPart available defined) (xs : List Value) {ys : List Value}
    (h : inlineItems defined available xs = .ok ys) :
    xs.length = ys.length ∧ ∀ p ∈ xs.zip ys, Inlined (ByName defined) p.1 p.2 := by
  match xs with
  | [] =>
    rw [inlineItems] at h
    cases h
    exact ⟨rfl, by simp⟩
  | x :: xs =>
    rw [inlineItems] at h
    obtain ⟨y, hy, h⟩ := except_bind_eq_ok.1 h
    obtain ⟨rest, hrest, h⟩ := except_bind_eq_ok.1 h
    cases h
    have hfirst := inlined_of_inlineValue available hpart x hy
    obtain ⟨hlength, hitems⟩ := inlined_of_inlineItems available hpart xs hrest
    exact ⟨congrArg Nat.succ hlength, List.forall_mem_cons.2 ⟨hfirst, hitems⟩⟩
termination_by (available.length, sizeOf xs)
decreasing_by
  all_goals exact Prod.Lex.right _ (by simp only [List.cons.sizeOf_spec]; omega)

/-- Entries one by one. -/
theorem inlined_of_inlineEntries {defined : Entries} (available : Entries)
    (hpart : IsPart available defined) (skip : Bool) (es : Entries) {others : Entries}
    (h : inlineEntries defined available skip es = .ok others) :
    EntriesInlined defined (keptEntries skip es) others := by
  match es with
  | [] =>
    rw [inlineEntries] at h
    cases h
    cases skip <;> exact ⟨rfl, nofun⟩
  | (k, v) :: es =>
    rw [inlineEntries] at h
    rw [keptEntries_cons]
    split at h
    · next hskip =>
      rw [if_pos hskip]
      exact inlined_of_inlineEntries available hpart skip es h
    · next hskip =>
      rw [if_neg hskip]
      obtain ⟨w, hw, h⟩ := except_bind_eq_ok.1 h
      obtain ⟨rest, hrest, h⟩ := except_bind_eq_ok.1 h
      cases h
      have hfirst := inlined_of_inlineValue available hpart v hw
      obtain ⟨hkeys, hvalues⟩ := inlined_of_inlineEntries available hpart skip es hrest
      exact ⟨congrArg (k :: ·) hkeys, List.forall_mem_cons.2 ⟨hfirst, hvalues⟩⟩
termination_by (available.length, sizeOf es)
decreasing_by
  all_goals
    exact Prod.Lex.right _ (by simp only [List.cons.sizeOf_spec, Prod.mk.sizeOf_spec]; omega)

end

/-! ### The two sections of definitions -/

section

variable {es others older newer : Entries} {ref name : List Letter} {k v t w : Value} {key : String}

theorem definition?_cons (k v : Value) (es : Entries) (name : Value) :
    definition? ((k, v) :: es) name = if k.sameKey name then some v else definition? es name := by
  simp only [definition?, List.find?_cons]
  cases k.sameKey name <;> rfl

theorem sameKey_targetName : k.sameKey (targetName ref) = true ↔ k = targetName ref :=
  Value.sameKey_of_letters? (letters?_targetName ref)

/-- A text is no other key than itself. -/
theorem targetName_sameKey : (targetName ref).sameKey k = true ↔ k = targetName ref := by
  have hletters := letters?_targetName ref
  generalize targetName ref = name at hletters ⊢
  cases name with
  | str s => exact Value.str_sameKey
  | unpaired t =>
    cases k with
    | unpaired u => simpa [Value.sameKey] using (eq_comm : t = u ↔ u = t)
    | _ => simp [Value.sameKey]
  | _ => cases hletters

/-- The definition that was set has its value, and the others have theirs. -/
theorem definition?_set (es : Entries) (k v : Value) (ref : List Letter) :
    definition? (es.set k v) (targetName ref) =
      if k.sameKey (targetName ref) then some v else definition? es (targetName ref) := by
  induction es with
  | nil => rw [Entries.set, definition?_cons]
  | cons e es ih =>
    obtain ⟨first, u⟩ := e
    rw [Entries.set]
    split
    · next hfirst =>
      have hsame : first.sameKey (targetName ref) = k.sameKey (targetName ref) := by
        rw [Bool.eq_iff_iff, sameKey_targetName, sameKey_targetName]
        constructor
        · rintro rfl
          exact targetName_sameKey.1 hfirst
        · rintro rfl
          exact sameKey_targetName.1 hfirst
      rw [definition?_cons, definition?_cons, hsame]
      split <;> rfl
    · next hfirst =>
      rw [definition?_cons, definition?_cons, ih]
      by_cases hk : k.sameKey (targetName ref) = true
      · rw [if_pos hk, if_pos hk, if_neg]
        rw [sameKey_targetName.1 hk] at hfirst
        exact hfirst
      · rw [if_neg hk, if_neg hk]

/-- Of two sections one over the other, the one on top wins. -/
theorem definition?_merge (hnewer : newer.Distinct) (ref : List Letter) :
    definition? (older.merge newer) (targetName ref) =
      (definition? newer (targetName ref)).or (definition? older (targetName ref)) := by
  induction newer generalizing older with
  | nil => rfl
  | cons e newer ih =>
    obtain ⟨k, v⟩ := e
    obtain ⟨hk, hrest⟩ := List.pairwise_cons.1 hnewer
    rw [Entries.merge, List.foldl_cons, ← Entries.merge, ih hrest, definition?_set, definition?_cons]
    split
    · next hname =>
      -- the name is not there again
      have hnone : definition? newer (targetName ref) = none := by
        rw [definition?, List.find?_eq_none.2, Option.map_none]
        intro e he hsame
        rw [sameKey_targetName.1 hname] at hk
        have := hk e he
        rw [sameKey_targetName.1 hsame, sameKey_targetName.2 rfl] at this
        cases this
      rw [hnone]
      rfl
    · rfl

/-! ### Pointers -/

/-- The pointer to a name in a section. -/
def pointer (key : String) (name : List Letter) : List Letter :=
  letters ("#/" ++ key ++ "/").toList ++ name

/-- A reference designates the entry of the section that it points into. -/
inductive Designates (es : Entries) : List Letter → Value → Prop where
  | entry {key : String} {name : List Letter} {t : Value} (hkey : key ∈ [olderKey, newerKey])
      (hname : .char '/' ∉ name) (h : definition? (definitionsIn es key) (.ofLetters name) = some t) :
      Designates es (pointer key name) t

/-- A reference is resolved by its last part, in the newer section if the name is there. -/
def FoundByName (es : Entries) (ref : List Letter) (t : Value) : Prop :=
  (definition? (definitionsIn es newerKey) (targetName ref)).or
    (definition? (definitionsIn es olderKey) (targetName ref)) = some t

/-- A reference points to a name that its section has, and that the newer section does not have
otherwise. -/
def IsFaithful (es : Entries) (ref : List Letter) : Prop :=
  ∃ name, .char '/' ∉ name ∧
    (ref = pointer newerKey name ∧
        (definition? (definitionsIn es newerKey) (.ofLetters name)).isSome ∨
      ref = pointer olderKey name ∧
        (definition? (definitionsIn es olderKey) (.ofLetters name)).isSome ∧
        (definition? (definitionsIn es newerKey) (.ofLetters name) = none ∨
          definition? (definitionsIn es newerKey) (.ofLetters name) =
            definition? (definitionsIn es olderKey) (.ofLetters name)))

theorem targetName_pointer (key : String) (hname : .char '/' ∉ name) :
    targetName (pointer key name) = .ofLetters name := by
  have hlast : Text.afterLast (.char '/') (pointer key name) = name := by
    have hall : ∀ l ∈ name.reverse, (l != .char '/') = true := by
      intro l hl
      rw [bne_iff_ne]
      rintro rfl
      exact hname (List.mem_reverse.1 hl)
    simp [Text.afterLast, pointer, List.takeWhile_append_of_pos hall]
  rw [targetName, hlast]

/-- A reference is resolved to what it designates just if it points to that faithfully. -/
theorem designates_iff (h : FoundByName es ref t) : Designates es ref t ↔ IsFaithful es ref := by
  constructor
  · intro hdesignates
    cases hdesignates with
    | @entry key name _ hkey hname ht =>
      rw [FoundByName, targetName_pointer key hname] at h
      rw [List.mem_cons, List.mem_singleton] at hkey
      refine ⟨name, hname, ?_⟩
      rcases hkey with rfl | rfl
      · refine Or.inr ⟨rfl, by rw [ht]; rfl, ?_⟩
        cases hnewer : definition? (definitionsIn es newerKey) (.ofLetters name) with
        | none => exact Or.inl rfl
        | some u =>
          rw [hnewer, Option.some_or] at h
          exact Or.inr (h.trans ht.symm)
      · exact Or.inl ⟨rfl, by rw [ht]; rfl⟩
  · rintro ⟨name, hname, ⟨rfl, hsome⟩ | ⟨rfl, hsome, hnewer⟩⟩
    · rw [FoundByName, targetName_pointer _ hname] at h
      obtain ⟨u, hu⟩ := Option.isSome_iff_exists.1 hsome
      rw [hu, Option.some_or] at h
      exact .entry (by simp) hname (hu.trans h)
    · rw [FoundByName, targetName_pointer _ hname] at h
      obtain ⟨u, hu⟩ := Option.isSome_iff_exists.1 hsome
      refine .entry (by simp) hname ?_
      rcases hnewer with hnone | hsame
      · rwa [hnone, Option.none_or] at h
      · rwa [hsame, Option.or_self] at h

theorem definitionsIn_of_section? {defined : Entries} (h : section? es key = .ok defined) :
    definitionsIn es key = defined := by
  rw [section?] at h
  rw [definitionsIn]
  split at h
  · next hnone =>
    cases h
    rw [hnone]
    rfl
  · next hsome =>
    cases h
    rw [hsome]
    rfl
  · cases h

/-- A schema is inlined with the definitions of both of its sections. -/
theorem inlineValue_of_inlineReferences (h : inlineReferences (.dict es) = .ok w) :
    inlineValue (definitions es) (definitions es) (body es) = .ok w := by
  rw [inlineReferences] at h
  obtain ⟨older, holder, h⟩ := except_bind_eq_ok.1 h
  obtain ⟨newer, hnewer, h⟩ := except_bind_eq_ok.1 h
  rwa [definitions, definitionsIn_of_section? holder, definitionsIn_of_section? hnewer]

/-- **What a reference is replaced by.**  Where inlining gives a schema, every reference that it
comes to has been replaced by the one definition that the last part of its pointer finds, in the
newer section first, inlined in turn and overridden by the inlined entries beside the reference.
That is what the reference designates just if it points to a name in one of the sections that is
there, and that is not another definition in the newer one; if all references are of that kind, the
schema is inlined as its pointers say. -/
theorem inlineReferences_resolves (hnewer : (definitionsIn es newerKey).Distinct)
    (h : inlineReferences (.dict es) = .ok w) :
    Inlined (FoundByName es) (body es) w ∧
      (∀ w', Inlined (FoundByName es) (body es) w' → w' = w) ∧
      (∀ ref, Reached (FoundByName es) (body es) ref →
        ∃ t, FoundByName es ref t ∧ (Designates es ref t ↔ IsFaithful es ref)) ∧
      ((∀ ref, Reached (FoundByName es) (body es) ref → IsFaithful es ref) →
        Inlined (Designates es) (body es) w) := by
  have hfound (ref : List Letter) (t : Value) :
      ByName (definitions es) ref t ↔ FoundByName es ref t := by
    rw [ByName, definitions, definition?_merge hnewer, FoundByName]
  have hunique (ref : List Letter) (t u : Value) (ht : FoundByName es ref t)
      (hu : FoundByName es ref u) : t = u := Option.some.inj (ht.symm.trans hu)
  have hinlined : Inlined (FoundByName es) (body es) w :=
    (inlined_of_inlineValue _ (fun _ _ ht => ht) _ (inlineValue_of_inlineReferences h)).congr
      fun ref t _ => (hfound ref t).1
  refine ⟨hinlined, fun w' hw' => hw'.unique hunique hinlined, ?_, ?_⟩
  · intro ref href
    obtain ⟨ds, hds⟩ := hinlined.exists_of_reached hunique href
    exact ⟨_, hds, designates_iff hds⟩
  · intro hfaithful
    exact hinlined.congr fun ref t href ht => (designates_iff ht).2 (hfaithful ref href)

/-- A schema whose sections have different definitions under one name. -/
def twiceDefined : Entries :=
  [(.str "definitions", .record [("A", .record [("type", .str "string")])]),
    (.str "$defs", .record [("A", .record [("type", .str "integer")])]),
    (.str "x", .record [("$ref", .str "#/definitions/A"), ("note", .str "old")])]

theorem inlineReferences_resolves_twiceDefined :
    let ref := pointer olderKey [.char 'A']
    let w : Value := .record [("x", .record [("type", .str "integer"), ("note", .str "old")])]
    (definitionsIn twiceDefined newerKey).Distinct ∧
      inlineReferences (.dict twiceDefined) = .ok w ∧
      Inlined (FoundByName twiceDefined) (body twiceDefined) w ∧
      FoundByName twiceDefined ref (.record [("type", .str "integer")]) ∧
      Designates twiceDefined ref (.record [("type", .str "string")]) := by
  have hnewer : (definitionsIn twiceDefined newerKey).Distinct := by
    rw [Entries.Distinct]
    decide
  have hinlined : inlineReferences (.dict twiceDefined) = .ok (.record
      [("x", .record [("type", .str "integer"), ("note", .str "old")])]) := by cbv
  exact ⟨hnewer, hinlined, (inlineReferences_resolves hnewer hinlined).1, by rw [FoundByName]; rfl,
    .entry (by simp) (by simp) rfl⟩

end

end PagePlan.Schema
