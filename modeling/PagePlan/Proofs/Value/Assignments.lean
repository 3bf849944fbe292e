/-
# One assignment after another

A mapping is put together by assigning to one key after another: a key that is there keeps its
place, a new one goes to the end.  So the order of the keys is that in which they are first
assigned to, and the value of a key is the one that it is assigned last.  For keys that are texts
this says what a sequence of assignments comes to (`IsResultOf`).

* `isResultOf_ofAssignments` — what is left of assignments to texts;
* `ofAssignments_of_distinct` — the entries of a mapping, assigned in their order, are the mapping.
-/
import Mathlib.Data.List.Induction
import PagePlan.Proofs.Value.Entries

namespace PagePlan

/-- One more element is kept if it is none of those that are kept before it. -/
theorem eraseDupsBy_concat {α : Type} (r : α → α → Bool) (x : α) :
    ∀ xs : List α, (xs ++ [x]).eraseDupsBy r =
      if (xs.eraseDupsBy r).any (r x) = true then xs.eraseDupsBy r else xs.eraseDupsBy r ++ [x]
  | [] => rfl
  | y :: ys => by
    rw [List.cons_append, List.eraseDupsBy_cons, List.eraseDupsBy_cons, List.filter_append,
      List.any_cons]
    cases hx : r x y with
    | true => simp [hx]
    | false =>
      have ih := eraseDupsBy_concat r x (ys.filter fun z => r z y = false)
      have hkept : [x].filter (fun z => r z y = false) = [x] := by simp [hx]
      rw [hkept, ih, Bool.false_or]
      split <;> rfl
termination_by xs => xs.length
decreasing_by
  simp only [List.length_cons]
  exact Nat.lt_succ_of_le (List.length_filter_le _ _)

namespace Entries

/-- What a sequence of assignments comes to. -/
structure IsResultOf (es assignments : Entries) : Prop where
  /-- Each key is there once, in the order in which the keys are first assigned to. -/
  keys : es.map Prod.fst =
    (assignments.map Prod.fst).eraseDupsBy fun key first => first.sameKey key
  /-- Each entry is the last assignment to its key. -/
  last : ∀ e ∈ es, assignments.findRev? (fun e' => e.1.sameKey e'.1) = some e

theorem IsResultOf.mem {es assignments : Entries} (h : es.IsResultOf assignments)
    {e : Value × Value} (he : e ∈ es) : e ∈ assignments := by
  have hfound := h.last e he
  rw [List.findRev?_eq_find?_reverse] at hfound
  exact List.mem_reverse.1 (List.mem_of_find?_eq_some hfound)

theorem ofAssignments_concat (assignments : Entries) (key v : Value) :
    ofAssignments (assignments ++ [(key, v)]) = (ofAssignments assignments).set key v := by
  rw [ofAssignments, List.foldl_append]
  rfl

/-- Assignments to any keys leave no key twice. -/
theorem distinct_ofAssignments (assignments : Entries) : (ofAssignments assignments).Distinct := by
  induction assignments using List.reverseRecOn with
  | nil => exact List.Pairwise.nil
  | append_singleton assignments e ih =>
    rw [ofAssignments_concat]
    exact ih.set _ _

/-- Keys that are all different come one behind the other. -/
theorem merge_of_distinct (before : Entries) {es : Entries}
    (h : (before ++ es : Entries).Distinct) : before.merge es = before ++ es := by
  induction es generalizing before with
  | nil => exact (List.append_nil before).symm
  | cons e es ih =>
    have hset : before.set e.1 e.2 = before ++ [e] := set_of_distinct h
    have happend : before ++ e :: es = (before ++ [e]) ++ es := by
      rw [List.append_assoc, List.singleton_append]
    rw [merge, List.foldl_cons, ← merge, hset, ih _ (happend ▸ h), happend]

theorem ofAssignments_of_distinct {es : Entries} (h : es.Distinct) : ofAssignments es = es :=
  merge_of_distinct [] h

/-- An entry after setting a text key is the one that was set, or one of those under other keys. -/
theorem Distinct.mem_set_text {es : Entries} (h : es.Distinct) {key v : Value}
    (hkey : key.isText = true) {e : Value × Value} (he : e ∈ es.set key v) :
    e = (key, v) ∨ e ∈ es ∧ e.1 ≠ key := by
  induction es with
  | nil => exact Or.inl (List.mem_singleton.1 he)
  | cons first es ih =>
    obtain ⟨k, w⟩ := first
    obtain ⟨hdiffer, hes⟩ := List.pairwise_cons.1 h
    rw [Entries.set] at he
    split at he
    · next hk =>
      obtain rfl := (Value.sameKey_of_isText hkey).1 hk
      refine (List.mem_cons.1 he).imp_right fun he => ⟨List.mem_cons_of_mem _ he, ?_⟩
      intro heq
      have hne : k.sameKey e.1 = false := hdiffer e he
      rw [heq, hk] at hne
      cases hne
    · next hk =>
      rcases List.mem_cons.1 he with rfl | he
      · exact Or.inr ⟨List.mem_cons_self, fun heq => hk ((Value.sameKey_of_isText hkey).2 heq)⟩
      · exact (ih hes he).imp_right fun hold => ⟨List.mem_cons_of_mem _ hold.1, hold.2⟩

/-- Assignments to texts keep the place of the first one to a key and the value of the last. -/
theorem isResultOf_ofAssignments {assignments : Entries}
    (h : ∀ e ∈ assignments, e.1.isText = true) :
    (ofAssignments assignments).IsResultOf assignments := by
  induction assignments using List.reverseRecOn with
  | nil => exact ⟨rfl, List.forall_mem_nil _⟩
  | append_singleton assignments e ih =>
    obtain ⟨key, v⟩ := e
    have hkey : key.isText = true := h (key, v) (by simp)
    obtain ⟨hkeys, hlast⟩ := ih fun e he => h e (List.mem_append_left _ he)
    rw [ofAssignments_concat]
    constructor
    · rw [map_fst_set, List.map_append, List.map_singleton, eraseDupsBy_concat, ← hkeys,
        List.any_map]
      rfl
    · intro e he
      rw [List.findRev?_eq_find?_reverse, List.reverse_append, List.reverse_singleton,
        List.singleton_append, List.find?_cons]
      rcases (distinct_ofAssignments assignments).mem_set_text hkey he with rfl | ⟨he, hne⟩
      · rw [(Value.sameKey_of_isText hkey).2 rfl]
      · have hdiffer : e.1.sameKey key = false :=
          Bool.eq_false_iff.2 fun hsame => hne ((Value.sameKey_of_isText hkey).1 hsame)
        rw [hdiffer, ← List.findRev?_eq_find?_reverse, hlast e he]

end Entries

end PagePlan
