/-
The values of a query.

Groups and marks only arrange the values of a query; the values themselves are its leaves.  Main
statements:

* `leaves_ofList`, `leaves_require`, `leaves_exclude` — to drop what asks for nothing drops no leaf.
-/
import WeightedSearch.Query.Basic

namespace WeightedSearch

namespace Query

mutual

/-- The values from left to right, each with the index that it is looked up in. -/
def leaves : Query → List (Matching × String)
  | .nothing => []
  | .value m text => [(m, text)]
  | .group qs => leavesAll qs
  | .required q => leaves q
  | .excluded q => leaves q

/-- The values of every query of a list, from left to right. -/
def leavesAll : List Query → List (Matching × String)
  | [] => []
  | q :: qs => leaves q ++ leavesAll qs

end

theorem mem_leavesAll {l : Matching × String} {qs : List Query} :
    l ∈ leavesAll qs ↔ ∃ q ∈ qs, l ∈ q.leaves := by
  induction qs with
  | nil => simp [leavesAll]
  | cons q qs ih => simp [leavesAll, ih]

/-- A blank value is dropped. -/
theorem leaves_term (m : Matching) (text : String) :
    (term m text).leaves = if isBlank text then [] else [(m, text)] := by
  rw [term]
  split
  · rfl
  · rfl

theorem leaves_require (q : Query) : q.require.leaves = q.leaves := by
  cases q <;> rfl

theorem leaves_exclude (q : Query) : q.exclude.leaves = q.leaves := by
  cases q <;> rfl

/-- What asks for nothing has no values. -/
theorem leavesAll_filter (qs : List Query) :
    leavesAll (qs.filter fun q => !q.isNothing) = leavesAll qs := by
  induction qs with
  | nil => rfl
  | cons q qs ih =>
    by_cases h : q = .nothing
    · subst h
      exact ih
    · have hq : q.isNothing = false := Bool.eq_false_iff.2 fun hn => h (isNothing_iff.1 hn)
      rw [List.filter_cons, hq, Bool.not_false, if_pos rfl, leavesAll, leavesAll, ih]

/-- So a list rebuilt as one query keeps all values. -/
theorem leaves_ofList (qs : List Query) : (ofList qs).leaves = leavesAll qs := by
  rw [← leavesAll_filter, ofList]
  split
  · next h => rw [h]; rfl
  · next q h => rw [h, leavesAll, leavesAll, List.append_nil]
  · next h => rw [h]; rfl

end Query

end WeightedSearch
