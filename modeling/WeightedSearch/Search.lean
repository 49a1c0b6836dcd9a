/-
Searching.

A searcher reads a search string, evaluates the query and ranks what it finds: the greatest weights
come first, and entries of equal weight keep their order.  A limit cuts the ranking.  Main
statements:

* `Searcher.result_search`, `Searcher.progress_search` — a search is an evaluation, ranked and cut;
* `Searcher.rank_perm` — ranking changes only the order;
* `Searcher.limited_prefix` — a limit only cuts.
-/
import WeightedSearch.Evaluation.Progress
import WeightedSearch.Query.Parse

namespace WeightedSearch

variable {κ : Type}

/-- Why a search finds nothing to answer with. -/
inductive SearchFailure
  | blank
  | evaluation (failure : EvaluationFailure)
deriving DecidableEq

/-- The text of the failure. -/
def SearchFailure.message : SearchFailure → String
  | blank => "search string is blank"
  | evaluation e => "query evaluation failed: " ++ e.message

/-- How searches are made, with the answers kept from earlier ones. -/
structure Searcher (κ : Type) where
  combiner : Combiner
  /-- the greatest number of entries, 0 for any number -/
  limit : Nat
  caches : Caches κ

namespace Searcher

/-- A searcher without a limit that keeps answers. -/
def new (combiner : Combiner) : Searcher κ := ⟨combiner, 0, .new true⟩

/-- The searcher with new caches, switched on or off. -/
def setCaching (s : Searcher κ) (enabled : Bool) : Searcher κ :=
  { s with caches := .new enabled }

/-- The searcher with another limit. -/
def setLimit (s : Searcher κ) (limit : Nat) : Searcher κ :=
  { s with limit }

/-- The searcher with the answers kept that an evaluation leaves behind. -/
def after {ε : Type} (s : Searcher κ) (o : Outcome κ ε) : Searcher κ :=
  { s with caches := o.progress.caches }

/-- Forgets the answers of one of the indexes. -/
def clear (s : Searcher κ) (m : Matching) : Searcher κ :=
  { s with caches := s.caches.clear m }

/-- Evaluates a query. The entries are in the order in which their keys were first found. -/
def evaluate (s : Searcher κ) (indexes : Indexes κ) (q : Query) : Outcome κ EvaluationFailure :=
  WeightedSearch.evaluate indexes s.combiner s.caches q

/-- The entries by falling weight; entries of equal weight keep their order. -/
def rank (entries : List (Entry κ)) : List (Entry κ) :=
  entries.mergeSort fun a b => b.weight.place ≤ a.weight.place

/-- The first entries, up to the limit. -/
def limited (s : Searcher κ) (entries : List (Entry κ)) : List (Entry κ) :=
  if s.limit = 0 then entries else entries.take s.limit

/-- Searches for a search string. -/
def search (s : Searcher κ) (indexes : Indexes κ) (input : String) : Outcome κ SearchFailure :=
  if isBlank input then ⟨.error .blank, ⟨s.caches, [], []⟩⟩
  else
    let o := s.evaluate indexes (.parse input)
    match o.result with
    | .ok entries => ⟨.ok (s.limited (rank entries)), o.progress⟩
    | .error e => ⟨.error (.evaluation e), o.progress⟩

theorem result_search (s : Searcher κ) (indexes : Indexes κ) (input : String) :
    (s.search indexes input).result =
      if isBlank input then .error .blank
      else match (s.evaluate indexes (.parse input)).result with
        | .ok entries => .ok (s.limited (rank entries))
        | .error e => .error (.evaluation e) := by
  rw [search]
  split
  · rfl
  · dsimp only
    cases (s.evaluate indexes (.parse input)).result <;> rfl

theorem progress_search (s : Searcher κ) (indexes : Indexes κ) (input : String) :
    (s.search indexes input).progress =
      if isBlank input then ⟨s.caches, [], []⟩
      else (s.evaluate indexes (.parse input)).progress := by
  rw [search]
  split
  · rfl
  · dsimp only
    split <;> rfl

theorem rank_perm (entries : List (Entry κ)) : (rank entries).Perm entries :=
  List.mergeSort_perm _ _

theorem limited_prefix (s : Searcher κ) (entries : List (Entry κ)) :
    s.limited entries <+: entries := by
  unfold limited
  split
  · exact List.prefix_refl _
  · exact List.take_prefix _ _

end Searcher

end WeightedSearch
