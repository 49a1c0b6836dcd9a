/-
Caches.

A cache keeps the answers of an index by term.  A term that was answered is not looked up again, and
a failed lookup is not kept; a cache that is switched off keeps nothing.  Main statements:

* `Cache.get?_eq_none_iff`, `Cache.mem_keys_store` — which terms are kept;
* `Cache.cache_consult_of_error` — a failed lookup leaves the cache as it was.
-/
import WeightedSearch.Index.Entry
import WeightedSearch.Table
import WeightedSearch.Index.Failure

namespace WeightedSearch

/-- The answers of an index that are kept. -/
structure Cache (κ : Type) where
  /-- whether answers are kept at all -/
  enabled : Bool
  answers : Table String (List (Entry κ))

/-- What a cache does with a term. -/
structure Consultation (κ : Type) where
  result : Except LookupFailure (List (Entry κ))
  /-- the term that the index was asked for, if it was asked -/
  asked : Option String
  cache : Cache κ

namespace Cache

variable {κ : Type}

/-- The cache that keeps nothing yet, switched on or off. -/
def new (enabled : Bool) : Cache κ := ⟨enabled, .empty⟩

instance : Inhabited (Cache κ) := ⟨new true⟩

/-- Forgets all answers. -/
def clear (cache : Cache κ) : Cache κ :=
  { cache with answers := .empty }

/-- The number of terms with an answer. -/
def size (cache : Cache κ) : Nat :=
  cache.answers.size

/-- Whether no answer is kept. -/
def isEmpty (cache : Cache κ) : Bool :=
  cache.answers.pairs.isEmpty

/-- The kept answer of a term. -/
def get? (cache : Cache κ) (term : String) : Option (List (Entry κ)) :=
  if cache.enabled then cache.answers.get? term else none

/-- Keeps the answer of a term. -/
def store (cache : Cache κ) (term : String) (answer : List (Entry κ)) : Cache κ :=
  if cache.enabled then { cache with answers := cache.answers.insert term answer } else cache

/-- The kept answer of a term, or else the one that `ask` gives, which is kept if it is none of
the failures. -/
def consult (cache : Cache κ) (term : String)
    (ask : String → Except LookupFailure (List (Entry κ))) : Consultation κ :=
  match cache.get? term with
  | some answer => ⟨.ok answer, none, cache⟩
  | none =>
    match ask term with
    | .ok answer => ⟨.ok answer, some term, cache.store term answer⟩
    | .error e => ⟨.error e, some term, cache⟩

theorem get?_eq_none_iff (cache : Cache κ) (term : String) :
    cache.get? term = none ↔ cache.enabled = false ∨ term ∉ cache.answers.keys := by
  cases h : cache.enabled with
  | true => simp [get?, h, Table.get?_eq_none_iff]
  | false => simp [get?, h]

@[simp] theorem enabled_store (cache : Cache κ) (term : String) (answer : List (Entry κ)) :
    (cache.store term answer).enabled = cache.enabled := by
  unfold store
  split
  · rfl
  · rfl

theorem mem_keys_store (cache : Cache κ) (term : String) (answer : List (Entry κ)) (t : String) :
    t ∈ (cache.store term answer).answers.keys ↔
      t ∈ cache.answers.keys ∨ cache.enabled = true ∧ t = term := by
  cases h : cache.enabled with
  | true =>
    have hkeys := Table.keys_alter cache.answers term fun _ => answer
    simp only [store, h, if_true, Table.insert, hkeys]
    by_cases hterm : term ∈ cache.answers.keys
    · simp only [hterm, if_true, true_and]
      constructor
      · exact Or.inl
      · rintro (ht | rfl)
        · exact ht
        · exact hterm
    · simp [hterm]
  | false => simp [store, h]

theorem mem_pairs_of_get? {cache : Cache κ} {term : String} {answer : List (Entry κ)}
    (h : cache.get? term = some answer) : (term, answer) ∈ cache.answers.pairs := by
  unfold get? at h
  split at h
  · exact (Table.get?_eq_some_iff _).1 h
  · cases h

theorem mem_pairs_store {cache : Cache κ} {term : String} {answer : List (Entry κ)}
    {p : String × List (Entry κ)} (h : p ∈ (cache.store term answer).answers.pairs) :
    p = (term, answer) ∨ p ∈ cache.answers.pairs := by
  unfold store at h
  split at h
  · exact Table.mem_pairs_insert h
  · exact Or.inr h

theorem cache_consult_of_error {cache : Cache κ} {term : String}
    {ask : String → Except LookupFailure (List (Entry κ))} {e : LookupFailure}
    (h : (cache.consult term ask).result = .error e) :
    (cache.consult term ask).cache = cache := by
  unfold consult at h ⊢
  split
  · rfl
  · split <;> simp_all

end Cache

end WeightedSearch
