/-
# The queries of a plan

Carrying out a plan puts its queries in a fixed order: field by field, each query before those of
the fields below it, and those once for each context that the query leads to.  The order is told
here without extraction, by recursion on the fields of the plan (`Evaluator.visits`); which contexts
there are is what the answers say.

A run stops at the first query that fails, or whose text cannot be coerced.  So it has put its
queries up to that one, and it gives data exactly if there is none.

* `extract_queries` — the queries that carrying out a plan puts;
* `extractFrom_queries` — the same for pages, which put no queries of their own.
-/
import PagePlan.Extract
import PagePlan.Proofs.Plan.Conformance
import PagePlan.Proofs.Scrape.Events

namespace PagePlan

namespace Run

variable {α β : Type}

theorem queries_bind_of_ok {r : Run α} {a : α} (f : α → Run β) (h : r.outcome = .ok a) :
    (r >>= f).queries = r.queries ++ (f a).queries := by
  rw [queries, events_bind_of_ok f h, List.filterMap_append]
  rfl

theorem queries_bind_of_error {r : Run α} {e : Failure} (f : α → Run β)
    (h : r.outcome = .error e) : (r >>= f).queries = r.queries := by
  rw [queries, events_bind_of_error f h]
  rfl

theorem queries_ofExcept (x : Except Failure α) : (ofExcept x).queries = [] := by
  simp [queries]

end Run

/-- An entry of the journal. -/
def Event.isNote : Event → Bool
  | log _ => true
  | _ => false

theorem Run.queries_of_emits {α : Type} {r : Run α} (h : r.Emits Event.isNote) :
    r.queries = [] := by
  rw [Run.queries, List.filterMap_eq_nil_iff]
  intro e he
  have hnote := h e he
  cases e <;> simp_all [Event.isNote]

namespace Evaluator

variable {γ : Type}

/-! ### The order of the queries -/

/-- A query that is put to a context, with the type of the scalar that is read from its answer if
one is; otherwise the answer leads to contexts. -/
structure Visit (γ : Type) where
  context : γ
  xpath : String
  type? : Option ValueType

variable (ev : Evaluator γ)

mutual

/-- The queries of a field that is read in a context, each with the context that it is put to.  The
queries below a context follow it if it leads anywhere, and those below a container follow it once
for each of its matches, in the order of the matches. -/
def visits (c : γ) : Field → List (Visit γ)
  | .primitive p => [⟨c, p.xpath, some p.type⟩]
  | .object none fields => visitsOf c fields
  | .object (some x) fields =>
    ⟨c, x, none⟩ :: match ev.narrowed c x with
      | none => []
      | some m => visitsOf m fields
  | .primitiveArray x item =>
    ⟨c, x, none⟩ :: (ev.answered c x).found.map fun m => ⟨m, item.xpath, some item.type⟩
  | .objectArray x fields =>
    ⟨c, x, none⟩ :: (ev.answered c x).found.flatMap fun m => visitsOf m fields
  | .emptyArray => []
  | .malformed _ => []

/-- The queries of fields, one field after the other. -/
def visitsOf (c : γ) : List (String × Field) → List (Visit γ)
  | [] => []
  | (_, f) :: rest => visits c f ++ visitsOf c rest

end

/-- What is asked when a query is put to a context: the query, and what the evaluator asks in turn
to answer it. -/
def asked (v : Visit γ) : List String :=
  v.xpath :: (ev.answer v.context v.xpath).queries

/-- Whether a query has no answer, or one whose text is not of the type that is read. -/
def fails (v : Visit γ) : Bool :=
  match (ev.answer v.context v.xpath).outcome with
  | .error _ => true
  | .ok a =>
    match v.type?, a.resolve? ev.textOf with
    | some t, some raw => !(coerce raw t).isOk
    | _, _ => false

/-- The queries up to the first that fails, that one included. -/
def untilFailure : List (Visit γ) → List (Visit γ)
  | [] => []
  | v :: vs => if ev.fails v then [v] else v :: untilFailure vs

variable {ev}

theorem untilFailure_append {vs : List (Visit γ)} (h : ∀ v ∈ vs, ev.fails v = false)
    (ws : List (Visit γ)) : ev.untilFailure (vs ++ ws) = vs ++ ev.untilFailure ws := by
  induction vs with
  | nil => rfl
  | cons v vs ih =>
    rw [List.cons_append, untilFailure, h v List.mem_cons_self,
      ih fun w hw => h w (List.mem_cons_of_mem _ hw)]
    rfl

theorem untilFailure_of_forall {vs : List (Visit γ)} (h : ∀ v ∈ vs, ev.fails v = false) :
    ev.untilFailure vs = vs := by
  simpa [untilFailure] using untilFailure_append h []

/-- What would come after a failure does not count. -/
theorem untilFailure_append_of_not_forall {vs : List (Visit γ)}
    (h : ¬∀ v ∈ vs, ev.fails v = false) (ws : List (Visit γ)) :
    ev.untilFailure (vs ++ ws) = ev.untilFailure vs := by
  induction vs with
  | nil => simp at h
  | cons v vs ih =>
    rw [List.cons_append, untilFailure, untilFailure]
    cases hv : ev.fails v with
    | true => rfl
    | false => rw [ih (by simpa [hv] using h)]

/-! ### Runs that follow a list of queries -/

/-- A run puts some queries in their order up to the first that fails, and it succeeds exactly if
none does. -/
structure Follows {α : Type} (ev : Evaluator γ) (r : Run α) (vs : List (Visit γ)) : Prop where
  queries : r.queries = (ev.untilFailure vs).flatMap ev.asked
  succeeds : (∃ a, r.outcome = .ok a) ↔ ∀ v ∈ vs, ev.fails v = false

section

variable {α β : Type} {vs ws : List (Visit γ)}

theorem follows_pure (a : α) : ev.Follows (pure a) [] :=
  ⟨rfl, iff_of_true ⟨a, rfl⟩ (by simp)⟩

/-- A run in two parts follows the queries of the first and then those of the second, which may
depend on the result of the first. -/
theorem Follows.bind {r : Run α} {f : α → Run β} (hr : ev.Follows r vs)
    (hf : ∀ a, r.outcome = .ok a → ev.Follows (f a) ws) : ev.Follows (r >>= f) (vs ++ ws) := by
  cases h : r.outcome with
  | error e =>
    -- the first part has stopped at one of its own queries, so those of the second are cut off
    have hfails : ¬∀ v ∈ vs, ev.fails v = false := by
      rw [← hr.succeeds, h]
      simp
    refine ⟨?_, iff_of_false ?_ fun hall => hfails fun v hv => hall v (List.mem_append_left _ hv)⟩
    · rw [Run.queries_bind_of_error f h, untilFailure_append_of_not_forall hfails, hr.queries]
    · rw [Run.outcome_bind_of_error f h]
      simp
  | ok a =>
    have hsucceeds : ∀ v ∈ vs, ev.fails v = false := hr.succeeds.1 ⟨a, h⟩
    constructor
    · rw [Run.queries_bind_of_ok f h, untilFailure_append hsucceeds, List.flatMap_append,
        (hf a h).queries, hr.queries, untilFailure_of_forall hsucceeds]
    · rw [Run.outcome_bind_of_ok f h, (hf a h).succeeds, List.forall_mem_append]
      exact ⟨fun h' => ⟨hsucceeds, h'⟩, fun h' => h'.2⟩

/-- What follows without a query of its own adds nothing. -/
theorem Follows.bind_nil {r : Run α} {f : α → Run β} (hr : ev.Follows r vs)
    (hf : ∀ a, r.outcome = .ok a → ev.Follows (f a) []) : ev.Follows (r >>= f) vs := by
  simpa using hr.bind hf

theorem follows_log (level : Journal.Level) (source text : String) :
    ev.Follows (Run.log level source text) [] :=
  ⟨rfl, iff_of_true ⟨(), rfl⟩ (by simp)⟩

theorem follows_mapM {f : α → Run β} {ws : α → List (Visit γ)} (xs : List α)
    (h : ∀ x ∈ xs, ev.Follows (f x) (ws x)) : ev.Follows (xs.mapM f) (xs.flatMap ws) := by
  induction xs with
  | nil => exact follows_pure []
  | cons x xs ih =>
    rw [List.mapM_cons, List.flatMap_cons]
    exact (h x List.mem_cons_self).bind fun y _ =>
      (ih fun z hz => h z (List.mem_cons_of_mem _ hz)).bind_nil fun ys _ => follows_pure (y :: ys)

/-- A run that is one query. -/
theorem follows_singleton {r : Run α} {v : Visit γ} (hqueries : r.queries = ev.asked v)
    (hsucceeds : (∃ a, r.outcome = .ok a) ↔ ev.fails v = false) : ev.Follows r [v] := by
  refine ⟨?_, by simpa using hsucceeds⟩
  rw [hqueries, untilFailure]
  split <;> simp [untilFailure]

end

/-! ### Extraction keeps to the order -/

theorem ask_queries (c : γ) (x : String) :
    (ev.ask c x).queries = x :: (ev.answer c x).queries :=
  Run.queries_bind_of_ok (r := Run.emit (.query x)) _ rfl

/-- A query that has an answer has the one that is told. -/
theorem answered_of_ask {c : γ} {x : String} {a : Answer γ} (h : (ev.ask c x).outcome = .ok a) :
    a = ev.answered c x := by
  rw [ask_outcome] at h
  rw [answered, h]
  rfl

theorem ask_follows (c : γ) (x : String) : ev.Follows (ev.ask c x) [⟨c, x, none⟩] := by
  refine follows_singleton (ask_queries c x) ?_
  rw [ask_outcome]
  simp only [fails]
  cases (ev.answer c x).outcome <;> simp

theorem narrow_follows (c : γ) (x : String) : ev.Follows (ev.narrow c x) [⟨c, x, none⟩] :=
  (ask_follows c x).bind_nil fun _ _ => follows_pure _

theorem narrowed_of_narrow {c : γ} {x : String} {m : Option γ}
    (h : (ev.narrow c x).outcome = .ok m) : m = ev.narrowed c x := by
  obtain ⟨a, ha, h⟩ := Run.outcome_bind_eq_ok.1 h
  obtain rfl := Except.ok.inj h
  rw [answered_of_ask ha, narrowed]

theorem containers_follows (c : γ) (x : String) :
    ev.Follows (ev.containers c x) [⟨c, x, none⟩] :=
  (ask_follows c x).bind_nil fun _ _ => (follows_log _ _ _).bind_nil fun _ _ => follows_pure _

theorem found_of_containers {c : γ} {x : String} {found : List γ}
    (h : (ev.containers c x).outcome = .ok found) : found = (ev.answered c x).found := by
  obtain ⟨a, ha, h⟩ := Run.outcome_bind_eq_ok.1 h
  obtain ⟨-, -, h⟩ := Run.outcome_bind_eq_ok.1 h
  obtain rfl := Except.ok.inj h
  rw [answered_of_ask ha]

/-- A scalar is one query, and it fails where its text is not of its type. -/
theorem extractPrimitive_follows (c : γ) (p : Primitive) :
    ev.Follows (ev.extractPrimitive c p) [⟨c, p.xpath, some p.type⟩] := by
  cases h : (ev.ask c p.xpath).outcome with
  | error e =>
    refine follows_singleton ?_ ?_
    · rw [extractPrimitive, Run.queries_bind_of_error _ h, ask_queries, asked]
    · rw [ask_outcome] at h
      rw [extractPrimitive, Run.outcome_bind_of_error _ (by rwa [ask_outcome])]
      simp [fails, h]
  | ok a =>
    refine follows_singleton ?_ ?_
    · rw [extractPrimitive, Run.queries_bind_of_ok _ h, ask_queries, asked]
      cases a.resolve? ev.textOf with
      | none => exact List.append_nil _
      | some raw => simp [Run.queries_ofExcept]
    · rw [extractPrimitive, Run.outcome_bind_of_ok _ h]
      rw [ask_outcome] at h
      simp only [fails, h]
      cases a.resolve? ev.textOf with
      | none => simp
      | some raw => cases hraw : coerce raw p.type <;> simp [hraw, Except.isOk, Except.toBool]

mutual

/-- A field puts its queries in their order. -/
theorem extractField_follows (c : γ) :
    ∀ f : Field, ev.Follows (ev.extractField c f) (ev.visits c f)
  | .primitive p => by
    rw [extractField, visits]
    exact extractPrimitive_follows c p
  | .object none fields => by
    rw [extractField, visits]
    exact (extractFields_follows c fields).bind_nil fun _ _ => follows_pure _
  | .object (some x) fields => by
    rw [extractField, visits]
    refine (narrow_follows c x).bind fun m hm => ?_
    -- the queries that follow are told by what the context query leads to
    obtain rfl := narrowed_of_narrow hm
    cases ev.narrowed c x with
    | none => exact (follows_log _ _ _).bind_nil fun _ _ => follows_pure _
    | some m => exact (extractFields_follows m fields).bind_nil fun _ _ => follows_pure _
  | .primitiveArray x item => by
    rw [extractField, visits, List.map_eq_flatMap]
    refine (containers_follows c x).bind fun found hfound => ?_
    obtain rfl := found_of_containers hfound
    exact (follows_mapM _ fun m _ => extractPrimitive_follows m item).bind_nil
      fun _ _ => follows_pure _
  | .objectArray x fields => by
    rw [extractField, visits]
    refine (containers_follows c x).bind fun found hfound => ?_
    obtain rfl := found_of_containers hfound
    refine (follows_mapM _ fun m _ => ?_).bind_nil fun _ _ => follows_pure _
    exact (extractFields_follows m fields).bind_nil fun _ _ => follows_pure _
  | .emptyArray => by
    rw [extractField, visits]
    exact follows_pure _
  | .malformed _ => by
    rw [extractField, visits]
    exact follows_pure _

/-- Fields put their queries one field after the other. -/
theorem extractFields_follows (c : γ) : ∀ fields : List (String × Field),
    ev.Follows (ev.extractFields c fields) (ev.visitsOf c fields)
  | [] => by
    rw [extractFields, visitsOf]
    exact follows_pure _
  | (name, f) :: rest => by
    rw [extractFields, visitsOf]
    exact (extractField_follows c f).bind fun _ _ =>
      (extractFields_follows c rest).bind_nil fun _ _ => follows_pure _

end

theorem extract_follows (c : γ) (plan : Plan) :
    ev.Follows (ev.extract c plan) (ev.visitsOf c plan.fields) :=
  (extractFields_follows c plan.fields).bind_nil fun _ _ => follows_pure _

/-! ### How often a query is put -/

variable (ev)

/-- The query of an item is put once for each match of the container. -/
theorem visits_primitiveArray_xpaths (c : γ) (x : String) (item : Primitive) :
    (ev.visits c (.primitiveArray x item)).map Visit.xpath =
      x :: List.replicate (ev.answered c x).found.length item.xpath := by
  simp [visits, Function.comp_def]

theorem visitsOf_scalars (c : γ) (scalars : List (String × Primitive)) :
    ev.visitsOf c (scalars.map fun s => (s.1, .primitive s.2)) =
      scalars.map fun s => ⟨c, s.2.xpath, some s.2.type⟩ := by
  induction scalars with
  | nil => rw [List.map_nil, visitsOf, List.map_nil]
  | cons s scalars ih =>
    rw [List.map_cons, visitsOf, visits, ih]
    rfl

/-- The queries of a record of scalars are put once for each match of the container. -/
theorem visits_objectArray_xpaths (c : γ) (x : String) (scalars : List (String × Primitive)) :
    (ev.visits c (.objectArray x (scalars.map fun s => (s.1, .primitive s.2)))).map Visit.xpath =
      x :: (List.replicate (ev.answered c x).found.length
        (scalars.map fun s => s.2.xpath)).flatten := by
  simp [visits, visitsOf_scalars, Function.comp_def, List.flatMap_def]

/-- The queries of an object whose context is not there are never put. -/
theorem visits_object_of_narrowed_eq_none {c : γ} {x : String} (h : ev.narrowed c x = none)
    (fields : List (String × Field)) :
    ev.visits c (.object (some x) fields) = [⟨c, x, none⟩] := by
  rw [visits, h]

variable {ev}

/-- Only the queries of a plan count if the evaluator asks none in turn. -/
theorem flatMap_asked_of_quiet (h : ∀ c x, (ev.answer c x).queries = []) (vs : List (Visit γ)) :
    vs.flatMap ev.asked = vs.map Visit.xpath := by
  have hasked : ev.asked = fun v => [v.xpath] := by
    funext v
    rw [asked, h]
  rw [hasked, List.map_eq_flatMap]

/-- **The queries of a plan are those of its fields in order, each where the query around it matched
and once there.**  All of them are put if the plan gives data, which is so exactly if none fails, and
otherwise those up to the first that fails.  The queries below a container are put once for each of
its matches, and those of an object whose context is not there never. -/
theorem extract_queries (c : γ) (plan : Plan) :
    (∀ data, (ev.extract c plan).outcome = .ok data →
      (ev.extract c plan).queries = (ev.visitsOf c plan.fields).flatMap ev.asked) ∧
    ((∃ data, (ev.extract c plan).outcome = .ok data) ↔
      ∀ v ∈ ev.visitsOf c plan.fields, ev.fails v = false) ∧
    (ev.extract c plan).queries = (ev.untilFailure (ev.visitsOf c plan.fields)).flatMap ev.asked ∧
    ((∀ d q, (ev.answer d q).queries = []) → ∀ vs : List (Visit γ),
      vs.flatMap ev.asked = vs.map Visit.xpath) ∧
    (∀ d x item, (ev.visits d (.primitiveArray x item)).map Visit.xpath =
      x :: List.replicate (ev.answered d x).found.length item.xpath) ∧
    (∀ d x (scalars : List (String × Primitive)),
      (ev.visits d (.objectArray x (scalars.map fun s => (s.1, .primitive s.2)))).map Visit.xpath =
        x :: (List.replicate (ev.answered d x).found.length
          (scalars.map fun s => s.2.xpath)).flatten) ∧
    ∀ d x fields, ev.narrowed d x = none →
      ev.visits d (.object (some x) fields) = [⟨d, x, none⟩] := by
  have hfollows : ev.Follows (ev.extract c plan) (ev.visitsOf c plan.fields) :=
    extract_follows c plan
  refine ⟨fun data hdata => ?_, hfollows.succeeds, hfollows.queries, flatMap_asked_of_quiet,
    ev.visits_primitiveArray_xpaths, ev.visits_objectArray_xpaths,
    fun d x fields h => ev.visits_object_of_narrowed_eq_none h fields⟩
  rw [hfollows.queries, untilFailure_of_forall (hfollows.succeeds.1 ⟨data, hdata⟩)]

/-- The parts of an outline are asked for one after the other, each for its title and its count. -/
example : (outline.extract 2 outlinePlan).queries =
    [".", "note", "below", ".", ".", "below", ".", ".", ".", "."] := by
  decide +kernel

end Evaluator

/-! ### Pages -/

/-- The evaluator of pages asks no queries of its own. -/
theorem XPath.answer_queries (m : XPath.Match) (xpath : String) :
    (XPath.evaluator.answer m xpath).queries = [] :=
  Run.queries_of_emits (XPath.ask_emits (fun _ => rfl) m xpath)

/-- **The queries that a plan puts to a page are those of its fields in order**, up to the first that
fails. -/
theorem Plan.extractFrom_queries (plan : Plan) (source : PageSource) :
    (plan.extractFrom source).queries = (XPath.evaluator.untilFailure
      (XPath.evaluator.visitsOf (.node source.site) plan.fields)).map Evaluator.Visit.xpath := by
  rw [extractFrom, (Evaluator.extract_follows _ plan).queries,
    Evaluator.flatMap_asked_of_quiet XPath.answer_queries]

end PagePlan
