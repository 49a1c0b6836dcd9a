/-
Evaluating queries against indexes.

A query is evaluated against two indexes, each behind a cache.  The first failure ends the
evaluation, but what was done until then is not undone: the caches keep the answers of the lookups
made, and the lookups and the uses of the combiner are on record.  Main statements:

* `lookup_hit` — a kept answer is used without asking the index;
* `lookup_miss` — otherwise the index is asked, and its answer is kept if it is no failure.
-/
import WeightedSearch.Evaluation.Basic
import WeightedSearch.Weight.Text
import WeightedSearch.Weight.Combiner
import WeightedSearch.Index.Cache

namespace WeightedSearch

variable {κ : Type}

/-- Two indexes whose keys are compared by one policy. An answer may hang on how many lookups were
made before. -/
structure Indexes (κ : Type) where
  /-- the answer to the lookup that follows so many others -/
  ask : Nat → Matching → String → Except LookupFailure (List (Entry κ))
  policy : KeyPolicy κ

/-- Why a query cannot be evaluated. -/
inductive EvaluationFailure
  | lookup (failure : LookupFailure)
  /-- the combiner gave a weight that is not finite and greater than zero -/
  | invalidWeight (weight : Weight)
deriving DecidableEq

/-- The text of the failure. -/
def EvaluationFailure.message : EvaluationFailure → String
  | lookup f => f.message
  | invalidWeight w => "match combiner produced invalid weight " ++ w.text

/-- The caches of the two indexes. -/
structure Caches (κ : Type) where
  standard : Cache κ
  precise : Cache κ

namespace Caches

/-- New caches, switched on or off. -/
def new (enabled : Bool) : Caches κ := ⟨.new enabled, .new enabled⟩

instance : Inhabited (Caches κ) := ⟨new true⟩

/-- The cache of one of the indexes. -/
def get (caches : Caches κ) : Matching → Cache κ
  | .standard => caches.standard
  | .precise => caches.precise

/-- The caches with another one for one of the indexes. -/
def set (caches : Caches κ) (m : Matching) (cache : Cache κ) : Caches κ :=
  match m with
  | .standard => { caches with standard := cache }
  | .precise => { caches with precise := cache }

/-- Forgets the answers of one of the indexes. -/
def clear (caches : Caches κ) (m : Matching) : Caches κ :=
  caches.set m (caches.get m).clear

@[simp] theorem set_get (caches : Caches κ) (m : Matching) :
    caches.set m (caches.get m) = caches := by
  cases m <;> rfl

theorem get_set (caches : Caches κ) (m n : Matching) (cache : Cache κ) :
    (caches.set m cache).get n = if n = m then cache else caches.get n := by
  cases m <;> cases n <;> rfl

/-- An answer that is kept once one more is stored is that one, or was kept before. -/
theorem mem_pairs_store {caches : Caches κ} {m n : Matching} {term : String}
    {answer : List (Entry κ)} {p : String × List (Entry κ)}
    (h : p ∈ ((caches.set m ((caches.get m).store term answer)).get n).answers.pairs) :
    n = m ∧ p = (term, answer) ∨ p ∈ (caches.get n).answers.pairs := by
  rw [get_set] at h
  by_cases hn : n = m
  · subst hn
    rw [if_pos rfl] at h
    exact (Cache.mem_pairs_store h).imp_left fun hp => ⟨rfl, hp⟩
  · rw [if_neg hn] at h
    exact Or.inr h

end Caches

/-- A lookup that an index was asked for. -/
structure Lookup (κ : Type) where
  matching : Matching
  term : String
  answer : Except LookupFailure (List (Entry κ))

/-- A use of the combiner. -/
structure Combining where
  weights : List Weight
  siblings : List Query
  weight : Weight

/-- The caches in the course of an evaluation, with what was done so far. -/
structure Progress (κ : Type) where
  caches : Caches κ
  lookups : List (Lookup κ)
  combinings : List Combining

/-- A step of an evaluation, which may fail and goes on with what was done. -/
abbrev Evaluation (κ : Type) := EStateM EvaluationFailure (Progress κ)

namespace Evaluation

theorem bind_ok {α β : Type} {x : Evaluation κ α} {f : α → Evaluation κ β}
    {p p' : Progress κ} {a : α} (h : x p = .ok a p') : (x >>= f) p = f a p' := by
  show EStateM.bind x f p = f a p'
  rw [EStateM.bind, h]

theorem bind_error {α β : Type} {x : Evaluation κ α} {f : α → Evaluation κ β}
    {p p' : Progress κ} {e : EvaluationFailure} (h : x p = .error e p') :
    (x >>= f) p = .error e p' := by
  show EStateM.bind x f p = .error e p'
  rw [EStateM.bind, h]

theorem exists_of_bind_ok {α β : Type} {x : Evaluation κ α} {f : α → Evaluation κ β}
    {p p' : Progress κ} {b : β} (h : (x >>= f) p = .ok b p') :
    ∃ a q, x p = .ok a q ∧ f a q = .ok b p' := by
  cases hx : x p with
  | ok a q => exact ⟨a, q, rfl, (bind_ok hx).symm.trans h⟩
  | error e q =>
    rw [bind_error hx] at h
    cases h

end Evaluation

/-- The entries of a term, from the cache or else from the index. -/
def lookup (indexes : Indexes κ) (m : Matching) (term : String) : Evaluation κ (List (Entry κ)) :=
  fun p =>
    let f := (p.caches.get m).consult term (indexes.ask p.lookups.length m)
    let made := match f.asked with
      | some t => [⟨m, t, f.result⟩]
      | none => []
    let p := { p with caches := p.caches.set m f.cache, lookups := p.lookups ++ made }
    match f.result with
    | .ok entries => .ok entries p
    | .error e => .error (.lookup e) p

/-- Uses the combiner on the weights of one key. -/
def useCombiner (combiner : Combiner) (siblings : List Query) (weights : List Weight) :
    Evaluation κ Weight :=
  fun p =>
    let w := combiner weights siblings
    let p := { p with combinings := p.combinings ++ [⟨weights, siblings, w⟩] }
    if w.isValid then .ok w p else .error (.invalidWeight w) p

/-- Lookups in indexes behind caches, and weights made by a combiner. -/
def Indexes.effects (indexes : Indexes κ) (combiner : Combiner) : Effects (Evaluation κ) κ where
  policy := indexes.policy
  lookup := lookup indexes
  combine := useCombiner combiner

@[simp] theorem Indexes.effects_policy (indexes : Indexes κ) (combiner : Combiner) :
    (indexes.effects combiner).policy = indexes.policy := rfl

theorem lookup_hit {indexes : Indexes κ} {m : Matching} {term : String} {p : Progress κ}
    {entries : List (Entry κ)} (h : (p.caches.get m).get? term = some entries) :
    lookup indexes m term p = .ok entries p := by
  have hf : (p.caches.get m).consult term (indexes.ask p.lookups.length m) =
      ⟨.ok entries, none, p.caches.get m⟩ := by
    simp [Cache.consult, h]
  simp [lookup, hf]

theorem lookup_miss {indexes : Indexes κ} {m : Matching} {term : String} {p : Progress κ}
    (h : (p.caches.get m).get? term = none) :
    lookup indexes m term p = match indexes.ask p.lookups.length m term with
      | .ok entries => .ok entries
          { p with
            caches := p.caches.set m ((p.caches.get m).store term entries)
            lookups := p.lookups ++ [⟨m, term, .ok entries⟩] }
      | .error e => .error (.lookup e)
          { p with lookups := p.lookups ++ [⟨m, term, .error e⟩] } := by
  cases hask : indexes.ask p.lookups.length m term <;> simp [lookup, Cache.consult, h, hask]

/-- What an evaluation leaves behind. -/
structure Outcome (κ : Type) (ε : Type) where
  /-- the entries found, or why there are none -/
  result : Except ε (List (Entry κ))
  progress : Progress κ

/-- Evaluates a query with the given caches. -/
def evaluate (indexes : Indexes κ) (combiner : Combiner) (caches : Caches κ) (q : Query) :
    Outcome κ EvaluationFailure :=
  match (indexes.effects combiner).found q ⟨caches, [], []⟩ with
  | .ok entries p => ⟨.ok entries, p⟩
  | .error e p => ⟨.error e, p⟩

end WeightedSearch
