/-
# A change of settings

All settings are written down for a change, and all of them are checked again.  Still a change
depends on what it names alone.  The settings that it does not name have been checked before, and a
setting that was checked passes its check again as it is: it is a text, a number or null already,
and a waiting time stays positive.  So no fault is found in them and they keep their values.

* `Setting.checked_get` — the value of a setting passes its own check unchanged;
* `Setting.put_of_checked` — a setting that is given a value takes it as the check makes it, and no
  other setting changes;
* `Settings.change_of_faults`, `Settings.change_of_sound` — what a change makes of the settings, and
  which faults it has, whatever the settings are.
-/
import PagePlan.Settings.Basic
import PagePlan.Proofs.Outcome
import PagePlan.Proofs.Value.Entries

namespace PagePlan

namespace Setting

variable {k : Setting} {v w : Value} {kind : FaultKind} {s : Settings}

/-! ### One setting -/

/-- The value that a setting takes when it is given one. -/
def checked : Setting → Value → Except FaultKind Value
  | model, v => (Lenient.string v).map .str
  | apiKey, v => (orNull Lenient.string v).map fun x => (x.map Value.str).getD .null
  | baseUrl, v => (Lenient.string v).map .str
  | temperature, v => (orNull Lenient.number v).map fun x => (x.map Value.float).getD .null
  | timeout, v => (waitingTime v).map fun x => .float x.seconds
  | maxRetries, v => (retries v).map fun n : Nat => .int n

/-- What is null is kept, and what is not is read and written down again. -/
theorem orNull_map_getD {α : Type} {read : Value → Except FaultKind α} (write : α → Value)
    (hwrite : ∀ x, read (write x) = .ok x ∧ (write x).isNull = false) (x : Option α) :
    (orNull read ((x.map write).getD .null)).map (fun y => (y.map write).getD .null) =
      .ok ((x.map write).getD .null) := by
  cases x with
  | none => rfl
  | some x =>
    obtain ⟨hread, hnull⟩ := hwrite x
    simp [orNull, hread, hnull, Except.map]

/-- **The value of a setting passes its own check unchanged.** -/
theorem checked_get (s : Settings) (k : Setting) : k.checked (k.get s) = .ok (k.get s) := by
  cases k with
  | model => rfl
  | apiKey => exact orNull_map_getD .str (fun _ => ⟨rfl, rfl⟩) s.apiKey
  | baseUrl => rfl
  | temperature => exact orNull_map_getD .float (fun _ => ⟨rfl, rfl⟩) s.temperature
  | timeout =>
    have hread : waitingTime (.float s.timeout.seconds) = .ok s.timeout := dif_pos s.timeout.positive
    rw [checked, get, hread]
    rfl
  | maxRetries =>
    have hread : retries (.int s.maxRetries) = .ok s.maxRetries := by
      change (if (s.maxRetries : Int) < 0 then Except.error FaultKind.greaterThanEqual
        else Except.ok (s.maxRetries : Int).toNat) = _
      rw [if_neg (by omega), Int.toNat_natCast]
    rw [checked, get, hread]
    rfl

/-- A setting that is given a value takes it as the check makes it, and no other one changes. -/
theorem put_of_checked (s : Settings) (h : k.checked v = .ok w) :
    ∃ s', k.put s v = .ok s' ∧ k.get s' = w ∧ ∀ j, j ≠ k → j.get s' = j.get s := by
  cases k <;> obtain ⟨x, hx, rfl⟩ := except_map_eq_ok.1 h
  all_goals
    refine ⟨_, except_map_eq_ok.2 ⟨x, hx, rfl⟩, rfl, fun j hj => ?_⟩
    cases j <;> first | rfl | exact absurd rfl hj

theorem put_of_not_checked (s : Settings) (h : k.checked v = .error kind) :
    k.put s v = .error kind := by
  cases k <;> exact except_map_eq_error.2 (except_map_eq_error.1 h)

/-! ### Settings in a mapping -/

/-- The fault of the value that a mapping has for a setting, if it has a faulty one. -/
def faultIn? (es : Entries) (k : Setting) : Option Fault :=
  match es.get? k.name with
  | none => none
  | some v =>
    match k.checked v with
    | .ok _ => none
    | .error kind => some ⟨kind, [.name k.name]⟩

/-- The value of a setting after those of a mapping: the one that the mapping has for it, as the
check makes it, or the old one. -/
def valueIn (es : Entries) (k : Setting) (old : Value) : Value :=
  match es.get? k.name with
  | none => old
  | some v =>
    match k.checked v with
    | .ok w => w
    | .error _ => old

end Setting

namespace Settings

open Setting (faultIn? valueIn)

variable {es : Entries} {k : Setting} {s base : Settings} {faults : List Fault}

theorem put_of_checked {v w : Value} (s : Settings) (h : k.checked v = .ok w) :
    ∃ s', s.put k v = .ok s' ∧ k.get s' = w ∧ ∀ j, j ≠ k → j.get s' = j.get s := by
  obtain ⟨s', hput, hvalues⟩ := Setting.put_of_checked s h
  exact ⟨s', by rw [put, hput]; rfl, hvalues⟩

theorem put_of_not_checked {v : Value} {kind : FaultKind} (s : Settings)
    (h : k.checked v = .error kind) : s.put k v = .error [⟨kind, [.name k.name]⟩] := by
  rw [put, Setting.put_of_not_checked s h]
  rfl

/-- A setting without a fault in a mapping takes its value from it, and no other one changes. -/
theorem putFrom_of_none (base s : Settings) (h : faultIn? es k = none) :
    ∃ s', base.putFrom es (.ok s) k = .ok s' ∧ k.get s' = valueIn es k (k.get s) ∧
      ∀ j, j ≠ k → j.get s' = j.get s := by
  unfold faultIn? at h
  unfold putFrom valueIn
  cases hv : es.get? k.name with
  | none => exact ⟨s, rfl, rfl, fun _ _ => rfl⟩
  | some v =>
    cases hchecked : k.checked v with
    | ok w =>
      obtain ⟨s', hput, hget, hothers⟩ := put_of_checked s hchecked
      exact ⟨s', hput, by simp [hget, hchecked], hothers⟩
    | error kind => simp [hv, hchecked] at h

theorem putFrom_of_some {fault : Fault} (h : faultIn? es k = some fault) :
    base.putFrom es (.ok s) k = .error [fault] := by
  unfold faultIn? at h
  unfold putFrom
  cases hv : es.get? k.name with
  | none => simp [hv] at h
  | some v =>
    cases hchecked : k.checked v with
    | ok w => simp [hv, hchecked] at h
    | error kind =>
      obtain rfl : ⟨kind, [.name k.name]⟩ = fault := by simpa [hv, hchecked] using h
      exact put_of_not_checked s hchecked

/-- Once there are faults, more are added. -/
theorem putFrom_error :
    base.putFrom es (.error faults) k = .error (faults ++ (faultIn? es k).toList) := by
  unfold putFrom faultIn?
  cases hv : es.get? k.name with
  | none => simp
  | some v =>
    cases hchecked : k.checked v with
    | ok w =>
      obtain ⟨s', hput, -⟩ := put_of_checked base hchecked
      simp [hput, hchecked]
    | error kind => simp [put_of_not_checked base hchecked, hchecked]

theorem foldl_putFrom_error (ks : List Setting) :
    ks.foldl (base.putFrom es) (.error faults) = .error (faults ++ ks.filterMap (faultIn? es)) := by
  induction ks generalizing faults with
  | nil => simp
  | cons k ks ih =>
    rw [List.foldl_cons, putFrom_error, ih]
    cases h : faultIn? es k <;> simp [h]

/-- If one of some settings has a fault, all of their faults are found. -/
theorem foldl_putFrom_of_faults {ks : List Setting} (h : ks.filterMap (faultIn? es) ≠ []) :
    ks.foldl (base.putFrom es) (.ok s) = .error (ks.filterMap (faultIn? es)) := by
  induction ks generalizing s with
  | nil => exact absurd rfl h
  | cons k ks ih =>
    cases hk : faultIn? es k with
    | none =>
      obtain ⟨s', hput, -⟩ := putFrom_of_none base s hk
      rw [List.filterMap_cons_none hk] at h ⊢
      rw [List.foldl_cons, hput, ih h]
    | some fault =>
      rw [List.foldl_cons, putFrom_of_some hk, foldl_putFrom_error, List.filterMap_cons_some hk]
      rfl

/-- If none of some settings has a fault, each of them takes its value. -/
theorem foldl_putFrom_of_sound (base s : Settings) {ks : List Setting} (hks : ks.Nodup)
    (h : ∀ k ∈ ks, faultIn? es k = none) :
    ∃ s', ks.foldl (base.putFrom es) (.ok s) = .ok s' ∧
      ∀ k : Setting, k.get s' = if k ∈ ks then valueIn es k (k.get s) else k.get s := by
  induction ks generalizing s with
  | nil => exact ⟨s, rfl, fun k => by simp⟩
  | cons k ks ih =>
    obtain ⟨hk, hks⟩ := List.nodup_cons.1 hks
    obtain ⟨s₁, hput, hget, hothers⟩ :=
      putFrom_of_none base s (h k List.mem_cons_self)
    obtain ⟨s', hfold, hvalues⟩ := ih s₁ hks fun j hj => h j (List.mem_cons_of_mem k hj)
    refine ⟨s', by rw [List.foldl_cons, hput, hfold], fun j => ?_⟩
    rw [hvalues j]
    by_cases hj : j = k
    · subst hj
      rw [if_neg hk, if_pos List.mem_cons_self, hget]
    · have hmem : j ∈ k :: ks ↔ j ∈ ks := by simp [hj]
      simp only [hmem, hothers j hj]

/-! ### A change of all settings -/

theorem get?_toEntries (s : Settings) (k : Setting) : s.toEntries.get? k.name = some (k.get s) := by
  cases k <;> rfl

/-- A setting that a change does not name is given the value that it has. -/
theorem get?_given (hes : es.Distinct) (s : Settings) (k : Setting) :
    (s.toEntries.merge es).get? k.name = some ((es.get? k.name).getD (k.get s)) := by
  rw [Entries.get?_merge hes, get?_toEntries]
  cases es.get? k.name <;> rfl

/-- So only the settings that it names can have faults. -/
theorem faultIn?_given (hes : es.Distinct) (s : Settings) (k : Setting) :
    faultIn? (s.toEntries.merge es) k = faultIn? es k := by
  unfold faultIn?
  rw [get?_given hes s k]
  cases es.get? k.name with
  | none => simp [Setting.checked_get]
  | some v => rfl

/-- And the others keep their values. -/
theorem valueIn_given (hes : es.Distinct) (s : Settings) (k : Setting) :
    valueIn (s.toEntries.merge es) k (k.get s) = valueIn es k (k.get s) := by
  unfold valueIn
  rw [get?_given hes s k]
  cases es.get? k.name with
  | none => simp [Setting.checked_get]
  | some v => rfl

/-- Whether a mapping has unknown keys is up to its keys. -/
theorem unknownKeys_congr {names : List String} {es es' : Entries}
    (h : es.map Prod.fst = es'.map Prod.fst) :
    Record.unknownKeys names es = Record.unknownKeys names es' := by
  induction es generalizing es' with
  | nil =>
    obtain rfl := List.map_eq_nil_iff.1 h.symm
    rfl
  | cons e es ih =>
    obtain ⟨e', es', rfl, he, hes⟩ := List.map_eq_cons_iff.1 h.symm
    obtain ⟨k, v⟩ := e
    obtain ⟨k', v'⟩ := e'
    obtain rfl : k' = k := he
    have hrest := ih hes.symm
    unfold Record.unknownKeys at hrest ⊢
    rw [List.filterMap_cons, List.filterMap_cons, hrest]

theorem unknownKeys_cons (names : List String) (e : Value × Value) (es : Entries) :
    Record.unknownKeys names (e :: es) =
      Record.unknownKeys names [e] ++ Record.unknownKeys names es := by
  rw [← List.singleton_append, Record.unknownKeys, List.filterMap_append]
  rfl

/-- The unknown keys of one mapping over another are those of the two, if all that they share are
known. -/
theorem unknownKeys_merge {names : List String} {first : Entries} (hes : es.Distinct)
    (hshared : ∀ e ∈ first, ∀ e' ∈ es, e.1.sameKey e'.1 = true → ∃ n ∈ names, e.1 = .str n) :
    Record.unknownKeys names (first.merge es) =
      Record.unknownKeys names first ++ Record.unknownKeys names es := by
  induction es generalizing first with
  | nil => simp [Entries.merge, Record.unknownKeys]
  | cons e es ih =>
    obtain ⟨hdiffer, hrest⟩ := List.pairwise_cons.1 hes
    rw [Entries.merge, List.foldl_cons, ← Entries.merge]
    by_cases habsent : ∀ e' ∈ first, e'.1.sameKey e.1 = false
    · -- A new key goes to the end, and no later one is the same.
      rw [Entries.set_of_absent habsent, ih hrest, Record.unknownKeys, List.filterMap_append,
        List.append_assoc, unknownKeys_cons]
      · rfl
      · intro e₁ he₁ e₂ he₂ hsame
        rcases List.mem_append.1 he₁ with he₁ | he₁
        · exact hshared e₁ he₁ e₂ (List.mem_cons_of_mem e he₂) hsame
        · obtain rfl := List.mem_singleton.1 he₁
          rw [hdiffer e₂ he₂] at hsame
          cases hsame
    · -- A key that is there keeps its place, and is known.
      obtain ⟨e', he', hsame⟩ : ∃ e' ∈ first, e'.1.sameKey e.1 = true := by
        simpa using habsent
      obtain ⟨n, hn, hkey⟩ := hshared e' he' e List.mem_cons_self hsame
      have hkeys : (first.set e.1 e.2).map Prod.fst = first.map Prod.fst := by
        rw [Entries.map_fst_set, if_pos (List.any_eq_true.2 ⟨e', he', hsame⟩)]
      have hknown : Record.unknownKeys names [e] = [] := by
        rw [hkey, Value.str_sameKey] at hsame
        obtain ⟨k, v⟩ := e
        obtain rfl : k = .str n := hsame
        simp [Record.unknownKeys, hn]
      rw [ih hrest, unknownKeys_congr hkeys, unknownKeys_cons names e es, hknown, List.nil_append]
      intro e₁ he₁ e₂ he₂ hsame₁
      obtain ⟨e₀, he₀, hkey₀⟩ := List.mem_map.1 (hkeys ▸ List.mem_map_of_mem he₁)
      rw [← hkey₀] at hsame₁ ⊢
      exact hshared e₀ he₀ e₂ (List.mem_cons_of_mem e he₂) hsame₁

/-- The faults of a change: those of the settings that it names and then those of other names. -/
def changeFaults (es : Entries) : List Fault :=
  Setting.all.filterMap (faultIn? es) ++ Record.unknownKeys (Setting.all.map Setting.name) es

theorem unknownKeys_given (hes : es.Distinct) (s : Settings) :
    Record.unknownKeys (Setting.all.map Setting.name) (s.toEntries.merge es) =
      Record.unknownKeys (Setting.all.map Setting.name) es := by
  have hknown : Record.unknownKeys (Setting.all.map Setting.name) s.toEntries = [] := rfl
  rw [unknownKeys_merge hes, hknown, List.nil_append]
  intro e he e' _ _
  obtain ⟨k, hk, rfl⟩ := List.mem_map.1 he
  exact ⟨k.name, List.mem_map_of_mem hk, rfl⟩

theorem filterMap_faultIn?_given (hes : es.Distinct) (s : Settings) :
    Setting.all.filterMap (faultIn? (s.toEntries.merge es)) =
      Setting.all.filterMap (faultIn? es) := by
  rw [funext (faultIn?_given hes s)]

/-- **A change fails with the faults of what it names, whatever the settings are.** -/
theorem change_of_faults (hes : es.Distinct) (s : Settings) (h : changeFaults es ≠ []) :
    s.change es = .error (changeFaults es) := by
  unfold change
  dsimp only
  rw [unknownKeys_given hes s]
  by_cases hfaults : Setting.all.filterMap (faultIn? es) = []
  · have hsound : ∀ k ∈ Setting.all, faultIn? (s.toEntries.merge es) k = none := by
      rw [← filterMap_faultIn?_given hes s] at hfaults
      exact List.filterMap_eq_nil_iff.1 hfaults
    obtain ⟨s', hfold, -⟩ := foldl_putFrom_of_sound s s (by decide) hsound
    rw [changeFaults, hfaults, List.nil_append] at h ⊢
    rw [hfold]
    split
    · next hnone => exact absurd hnone h
    · rfl
    · next heq _ => cases heq
  · have hgiven := filterMap_faultIn?_given hes s
    rw [foldl_putFrom_of_faults (hgiven ▸ hfaults), hgiven, changeFaults]
    split
    · next hnone => rw [hnone, List.append_nil]
    · next heq _ => cases heq
    · next heq _ =>
      cases heq
      rfl

/-- **A change without a fault gives the settings that it names their values, and keeps the others.**
-/
theorem change_of_sound (hes : es.Distinct) (s : Settings) (h : changeFaults es = []) :
    ∃ s', s.change es = .ok s' ∧ ∀ k : Setting, k.get s' = valueIn es k (k.get s) := by
  obtain ⟨hfaults, hknown⟩ := List.append_eq_nil_iff.1 h
  have hsound : ∀ k ∈ Setting.all, faultIn? (s.toEntries.merge es) k = none := by
    rw [← filterMap_faultIn?_given hes s] at hfaults
    exact List.filterMap_eq_nil_iff.1 hfaults
  obtain ⟨s', hfold, hvalues⟩ := foldl_putFrom_of_sound s s (by decide) hsound
  refine ⟨s', ?_, fun k => ?_⟩
  · unfold change
    dsimp only
    rw [unknownKeys_given hes s, hknown, hfold]
  · rw [hvalues k, if_pos (Setting.mem_all k), valueIn_given hes s k]

end Settings

end PagePlan
