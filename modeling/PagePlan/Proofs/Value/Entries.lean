/-
# Entries of a mapping

A mapping is a list of entries, and a key is looked up from the front.  Whatever is put together,
filtered or set, looking a key up afterwards is told from looking it up before.  A mapping that was
put together by setting keys has no key twice.
-/
import PagePlan.Value.Basic

namespace PagePlan

/-! ### Looking up keys -/

theorem Value.sameKey_str {k : Value} {s : String} : k.sameKey (.str s) = true ↔ k = .str s := by
  cases k <;> simp [sameKey]

/-- A text is the same key as itself alone. -/
theorem Value.sameKey_of_letters? {k t : Value} {s : List Text.Letter} (h : t.letters? = some s) :
    k.sameKey t = true ↔ k = t := by
  cases t with
  | str t => exact sameKey_str
  | unpaired t => cases k <;> simp [sameKey]
  | _ => simp [letters?] at h

/-- A text is the same key as itself alone. -/
theorem Value.sameKey_of_isText {k t : Value} (h : t.isText = true) :
    k.sameKey t = true ↔ k = t := by
  cases t with
  | str s => exact sameKey_str
  | unpaired t => exact sameKey_of_letters? rfl
  | _ => cases h

theorem Value.str_sameKey {k : Value} {s : String} :
    (Value.str s).sameKey k = true ↔ k = .str s := by
  cases k with
  | str t => simpa [sameKey] using (eq_comm : s = t ↔ t = s)
  | _ => simp [sameKey]

theorem Value.sizeOf_value_lt {es : Entries} {e : Value × Value} (he : e ∈ es) :
    sizeOf e.2 < sizeOf es := by
  have hlt := List.sizeOf_lt_of_mem he
  obtain ⟨k, v⟩ := e
  simp only [Prod.mk.sizeOf_spec] at hlt ⊢
  omega

namespace Entries

theorem get?_cons (k v : Value) (es : Entries) (key : String) :
    get? ((k, v) :: es) key = if k.sameKey (.str key) then some v else es.get? key := by
  simp only [get?, List.find?_cons]
  cases k.sameKey (.str key) <;> rfl

theorem mem_of_get? {es : Entries} {key : String} {v : Value} (h : es.get? key = some v) :
    (.str key, v) ∈ es := by
  simp only [get?, Option.map_eq_some_iff] at h
  obtain ⟨⟨k, w⟩, he, rfl⟩ := h
  have hk : k.sameKey (.str key) = true := by simpa using List.find?_some he
  exact Value.sameKey_str.1 hk ▸ List.mem_of_find?_eq_some he

theorem get?_append (es others : Entries) (key : String) :
    get? (es ++ others) key = (es.get? key).or (others.get? key) := by
  simp only [get?, List.find?_append]
  cases es.find? fun e => e.1.sameKey (.str key) <;> rfl

/-- A key that a filter keeps is looked up as before. -/
theorem get?_filter {es : Entries} {p : Value × Value → Bool} {key : String}
    (h : ∀ v, p (.str key, v) = true) : get? (es.filter p) key = es.get? key := by
  induction es with
  | nil => rfl
  | cons e es ih =>
    obtain ⟨k, v⟩ := e
    rw [List.filter_cons]
    split
    · rw [get?_cons, get?_cons, ih]
    · next hp =>
      have hk : ¬ k.sameKey (.str key) = true := by
        rintro hk
        rw [Value.sameKey_str.1 hk, h v] at hp
        exact hp rfl
      rw [get?_cons, if_neg hk, ih]

/-- A key that a filter drops is not there. -/
theorem get?_filter_eq_none {es : Entries} {p : Value × Value → Bool} {key : String}
    (h : ∀ v, p (.str key, v) = false) : get? (es.filter p) key = none := by
  induction es with
  | nil => rfl
  | cons e es ih =>
    obtain ⟨k, v⟩ := e
    rw [List.filter_cons]
    split
    · next hp =>
      have hk : ¬ k.sameKey (.str key) = true := by
        rintro hk
        rw [Value.sameKey_str.1 hk, h v] at hp
        exact Bool.false_ne_true hp
      rw [get?_cons, if_neg hk, ih]
    · exact ih

/-- The key that was set has its value, and the others have theirs. -/
theorem get?_insert (es : Entries) (name key : String) (v : Value) :
    get? (es.insert name v) key = if name = key then some v else es.get? key := by
  induction es with
  | nil => simp [insert, set, get?_cons, Value.sameKey]
  | cons e es ih =>
    obtain ⟨k, w⟩ := e
    rw [insert] at ih
    rw [insert, set]
    split
    · next hk =>
      rw [Value.sameKey_str.1 hk, get?_cons, get?_cons]
      by_cases hname : name = key <;> simp [hname, Value.sameKey]
    · next hk =>
      rw [get?_cons, get?_cons, ih]
      by_cases hname : name = key
      · subst hname
        simp [hk]
      · simp [hname]

/-- A key that was taken away is not there, and the others are looked up as before. -/
theorem get?_erase (es : Entries) (name key : String) :
    (es.erase name).get? key = if name = key then none else es.get? key := by
  by_cases hname : name = key
  · rw [if_pos hname]
    refine get?_filter_eq_none fun v => ?_
    rw [hname, Value.sameKey_str.2 rfl, Bool.not_true]
  · rw [if_neg hname]
    refine get?_filter fun v => ?_
    simpa [Value.sameKey] using Ne.symm hname

theorem get?_erase_self (es : Entries) (key : String) : (es.erase key).get? key = none := by
  rw [get?_erase, if_pos rfl]

theorem get?_erase_of_ne (es : Entries) {name key : String} (h : name ≠ key) :
    (es.erase name).get? key = es.get? key := by
  rw [get?_erase, if_neg h]

/-- A key that has the value already is set without a change. -/
theorem insert_of_get? {es : Entries} {key : String} {v : Value} (h : es.get? key = some v) :
    es.insert key v = es := by
  induction es with
  | nil => cases h
  | cons e es ih =>
    obtain ⟨k, w⟩ := e
    rw [get?_cons] at h
    rw [insert, set]
    split
    · next hk =>
      rw [if_pos hk] at h
      rw [Option.some.inj h]
    · next hk =>
      rw [if_neg hk] at h
      rw [← insert, ih h]

theorem get?_of_any {es : Entries} {key : String}
    (h : (es.any fun e => e.1.sameKey (.str key)) = true) : ∃ v, es.get? key = some v := by
  rw [List.any_eq_true] at h
  obtain ⟨e, he, hkey⟩ := h
  have hfound : (es.find? fun e => e.1.sameKey (.str key)).isSome = true :=
    List.find?_isSome.2 ⟨e, he, hkey⟩
  obtain ⟨found, hfound⟩ := Option.isSome_iff_exists.1 hfound
  exact ⟨found.2, by simp [get?, hfound]⟩

/-! ### Mappings without a key twice -/

/-- No key is there twice. -/
def Distinct (es : Entries) : Prop :=
  es.Pairwise fun a b => a.1.sameKey b.1 = false

/-- A key that is not there goes to the end. -/
theorem set_of_absent {es : Entries} {key v : Value} (h : ∀ e ∈ es, e.1.sameKey key = false) :
    es.set key v = es ++ [(key, v)] := by
  induction es with
  | nil => rfl
  | cons e es ih =>
    have he : e.1.sameKey key = false := h e List.mem_cons_self
    simp [set, he, ih fun e' h' => h e' (List.mem_cons_of_mem e h')]

/-- A mapping has the entries that it had, and the one that was set. -/
theorem mem_set {es : Entries} {key v : Value} {e : Value × Value} (h : e ∈ es.set key v) :
    e ∈ es ∨ e.2 = v ∧ (e.1 = key ∨ ∃ e' ∈ es, e'.1 = e.1) := by
  induction es with
  | nil =>
    simp only [set, List.mem_singleton] at h
    subst h
    exact Or.inr ⟨rfl, Or.inl rfl⟩
  | cons first es ih =>
    simp only [set] at h
    split at h
    · rcases List.mem_cons.1 h with rfl | h
      · exact Or.inr ⟨rfl, Or.inr ⟨first, List.mem_cons_self, rfl⟩⟩
      · exact Or.inl (List.mem_cons_of_mem _ h)
    · rcases List.mem_cons.1 h with rfl | h
      · exact Or.inl List.mem_cons_self
      · rcases ih h with hmem | ⟨hv, rfl | ⟨e', he', hkey⟩⟩
        · exact Or.inl (List.mem_cons_of_mem _ hmem)
        · exact Or.inr ⟨hv, Or.inl rfl⟩
        · exact Or.inr ⟨hv, Or.inr ⟨e', List.mem_cons_of_mem _ he', hkey⟩⟩

/-- What holds of all keys still does when a key of which it holds is set. -/
theorem forall_key_set {P : Value → Prop} {es : Entries} {key v : Value}
    (hes : ∀ e ∈ es, P e.1) (hkey : P key) : ∀ e ∈ es.set key v, P e.1 := by
  intro e he
  rcases mem_set he with hmem | ⟨-, hset | ⟨e', he', hset⟩⟩
  · exact hes e hmem
  · rwa [hset]
  · rw [← hset]
    exact hes e' he'

/-- What holds of all values still does when one of which it holds is set. -/
theorem forall_value_set {P : Value → Prop} {es : Entries} {key v : Value}
    (hes : ∀ e ∈ es, P e.2) (hv : P v) : ∀ e ∈ es.set key v, P e.2 := by
  intro e he
  rcases mem_set he with hmem | ⟨hset, -⟩
  · exact hes e hmem
  · rwa [hset]

/-- A mapping has the entries that it had, and the text key that was set with its value. -/
theorem mem_insert {es : Entries} {key : String} {v : Value} {e : Value × Value}
    (h : e ∈ es.insert key v) : e ∈ es ∨ e = (.str key, v) := by
  induction es with
  | nil => exact Or.inr (List.mem_singleton.1 h)
  | cons first es ih =>
    obtain ⟨k, w⟩ := first
    rw [insert, set] at h
    split at h
    · next hk =>
      rw [Value.sameKey_str.1 hk] at h
      rcases List.mem_cons.1 h with rfl | h
      · exact Or.inr rfl
      · exact Or.inl (List.mem_cons_of_mem _ h)
    · rcases List.mem_cons.1 h with rfl | h
      · exact Or.inl List.mem_cons_self
      · exact (ih h).imp_left (List.mem_cons_of_mem _)

/-- The keys after setting one are those before, and the new one behind them if it was not there. -/
theorem map_fst_set (es : Entries) (key v : Value) :
    (es.set key v).map Prod.fst =
      if (es.any fun e => e.1.sameKey key) = true then es.map Prod.fst
      else es.map Prod.fst ++ [key] := by
  induction es with
  | nil => rfl
  | cons e es ih =>
    obtain ⟨k, w⟩ := e
    rw [set, List.any_cons]
    cases hk : k.sameKey key with
    | true => rfl
    | false =>
      rw [if_neg Bool.false_ne_true, List.map_cons, ih, Bool.false_or]
      split <;> rfl

/-- Whether a key is there twice is up to the keys. -/
theorem distinct_iff_keys {es : Entries} :
    es.Distinct ↔ (es.map Prod.fst).Pairwise fun a b => a.sameKey b = false := by
  rw [Distinct, List.pairwise_map]

/-- Keys that are strings are there once just if the strings are. -/
theorem distinct_iff_nodup {es : Entries} {names : List String}
    (hkeys : es.map Prod.fst = names.map Value.str) : es.Distinct ↔ names.Nodup := by
  rw [distinct_iff_keys, hkeys, List.pairwise_map, List.Nodup]
  refine List.Pairwise.iff fun a b => ?_
  rw [Bool.eq_false_iff, Ne, Value.sameKey_str, Value.str.injEq]

theorem Distinct.set {es : Entries} (h : es.Distinct) (key v : Value) :
    (es.set key v).Distinct := by
  rw [distinct_iff_keys] at h ⊢
  rw [map_fst_set]
  split
  · exact h
  · next habsent =>
    rw [List.any_eq_true, not_exists] at habsent
    refine List.pairwise_append.2 ⟨h, List.pairwise_singleton _ _, ?_⟩
    intro k hk l hl
    obtain ⟨e, he, rfl⟩ := List.mem_map.1 hk
    obtain rfl := List.mem_singleton.1 hl
    exact Bool.eq_false_iff.2 fun hsame => habsent e ⟨he, hsame⟩

/-- A text key that is there once is not there behind. -/
theorem Distinct.get?_tail {key : String} {v : Value} {es : Entries}
    (h : Distinct ((.str key, v) :: es)) : es.get? key = none := by
  refine Option.eq_none_iff_forall_ne_some.2 fun w hw => ?_
  have hdiffer : (Value.str key).sameKey (.str key) = false :=
    (List.pairwise_cons.1 h).1 _ (mem_of_get? hw)
  rw [Value.sameKey_str.2 rfl] at hdiffer
  cases hdiffer

/-- A key that comes behind others in a mapping goes to the end of them. -/
theorem set_of_distinct {before es : Entries} {key v : Value}
    (h : (before ++ (key, v) :: es : Entries).Distinct) :
    before.set key v = before ++ [(key, v)] :=
  set_of_absent fun e he => (List.pairwise_append.1 h).2.2 e he (key, v) List.mem_cons_self

/-! ### One mapping over another -/

/-- A key that is not the one that was set is looked up as before. -/
theorem get?_set_of_ne {es : Entries} {k v : Value} {key : String} (h : k ≠ .str key) :
    get? (es.set k v) key = es.get? key := by
  induction es with
  | nil =>
    have hk : ¬ k.sameKey (.str key) = true := mt Value.sameKey_str.1 h
    rw [set, get?_cons, if_neg hk]
  | cons e es ih =>
    obtain ⟨first, w⟩ := e
    rw [set]
    split
    · next hsame =>
      have hfirst : ¬ first.sameKey (.str key) = true := by
        intro hfirst
        rw [Value.sameKey_str.1 hfirst, Value.str_sameKey] at hsame
        exact h hsame
      rw [get?_cons, if_neg hfirst, get?_cons, if_neg hfirst]
    · rw [get?_cons, get?_cons, ih]

/-- A key that the other mapping does not have is looked up as before. -/
theorem get?_merge_of_eq_none {es others : Entries} {key : String} (h : others.get? key = none) :
    get? (es.merge others) key = es.get? key := by
  induction others generalizing es with
  | nil => rfl
  | cons e others ih =>
    obtain ⟨k, v⟩ := e
    rw [get?_cons] at h
    split at h
    · simp at h
    · next hk =>
      have hne : k ≠ .str key := mt Value.sameKey_str.2 hk
      rw [merge, List.foldl_cons, ← merge, ih h, get?_set_of_ne hne]

/-- A key has its value in the other mapping if it is there, and the one from before if not. -/
theorem get?_merge {es others : Entries} (h : others.Distinct) (key : String) :
    get? (es.merge others) key = (others.get? key).or (es.get? key) := by
  induction others generalizing es with
  | nil => rfl
  | cons e others ih =>
    obtain ⟨k, v⟩ := e
    have hothers : Distinct others := (List.pairwise_cons.1 h).2
    rw [merge, List.foldl_cons, ← merge, ih hothers, get?_cons]
    by_cases hk : k = .str key
    · subst hk
      rw [h.get?_tail, if_pos (Value.sameKey_str.2 rfl), Option.none_or, Option.some_or,
        ← insert, get?_insert, if_pos rfl]
    · rw [if_neg (mt Value.sameKey_str.1 hk), get?_set_of_ne hk]

/-- The values of one mapping over another are values of the two. -/
theorem mem_merge {es others : Entries} {e : Value × Value} (h : e ∈ es.merge others) :
    ∃ e', (e' ∈ es ∨ e' ∈ others) ∧ e'.2 = e.2 := by
  induction others generalizing es with
  | nil => exact ⟨e, Or.inl h, rfl⟩
  | cons first others ih =>
    rw [merge, List.foldl_cons, ← merge] at h
    obtain ⟨e', hmem | hmem, hvalue⟩ := ih h
    · rcases mem_set hmem with hes | ⟨hfirst, -⟩
      · exact ⟨e', Or.inl hes, hvalue⟩
      · exact ⟨first, Or.inr List.mem_cons_self, hfirst.symm.trans hvalue⟩
    · exact ⟨e', Or.inr (List.mem_cons_of_mem _ hmem), hvalue⟩

end Entries

end PagePlan
