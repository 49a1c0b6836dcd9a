/-
The query tree.

A query asks for values, alternatives side by side in groups, and marks some of them as required or
excluded.  The plain constructors build any tree; `term`, `ofList`, `require` and `exclude` build
only trees without blank values and without groups of fewer than two members.  Main statements:

* `Query.induct` — induction over a tree with one hypothesis per member of a group.
-/
import WeightedSearch.Text.Blank

namespace WeightedSearch

/-- Which of the two indexes a value is looked up in. -/
inductive Matching
  /-- the lenient index, whose terms are normalized -/
  | standard
  /-- the exact index -/
  | precise
deriving DecidableEq, Repr, Inhabited

/-- A search query. -/
inductive Query
  | nothing
  /-- asks for the matches of a text -/
  | value (matching : Matching) (text : String)
  /-- asks for the matches of any of its members -/
  | group (members : List Query)
  /-- what its siblings find must also be found by this -/
  | required (inner : Query)
  /-- what this finds is taken from its siblings -/
  | excluded (inner : Query)
deriving Repr, Inhabited

namespace Query

/-- Induction over a query: a group may assume the statement of each of its members. -/
@[elab_as_elim]
theorem induct {motive : Query → Prop} (nothing : motive .nothing)
    (value : ∀ m t, motive (.value m t))
    (group : ∀ qs, (∀ q ∈ qs, motive q) → motive (.group qs))
    (required : ∀ q, motive q → motive (.required q))
    (excluded : ∀ q, motive q → motive (.excluded q)) (q : Query) : motive q :=
  Query.rec (motive_1 := motive) (motive_2 := fun qs => ∀ q ∈ qs, motive q)
    nothing value group required excluded (fun _ h => nomatch h)
    (fun _ _ hq hqs p hp => by
      rcases List.mem_cons.1 hp with rfl | hp
      · exact hq
      · exact hqs p hp) q

mutual

/-- Whether two queries are the same tree. -/
def same : Query → Query → Bool
  | .nothing, .nothing => true
  | .value m t, .value n u => m == n && t == u
  | .group qs, .group ps => sameAll qs ps
  | .required q, .required p => same q p
  | .excluded q, .excluded p => same q p
  | _, _ => false

/-- Whether two lists of queries are the same, member by member. -/
def sameAll : List Query → List Query → Bool
  | [], [] => true
  | q :: qs, p :: ps => same q p && sameAll qs ps
  | _, _ => false

end

theorem sameAll_iff {qs ps : List Query} (h : ∀ q ∈ qs, ∀ p, same q p = true ↔ q = p) :
    sameAll qs ps = true ↔ qs = ps := by
  induction qs generalizing ps with
  | nil => cases ps <;> simp [sameAll]
  | cons q qs ih =>
    cases ps with
    | nil => simp [sameAll]
    | cons p ps =>
      simp [sameAll, h q (by simp), ih fun r hr => h r (List.mem_cons_of_mem _ hr)]

theorem same_iff {q p : Query} : same q p = true ↔ q = p := by
  induction q using induct generalizing p with
  | nothing => cases p <;> simp [same]
  | value m t => cases p <;> simp [same]
  | group qs ih => cases p <;> simp [same, sameAll_iff fun q hq p => ih q hq]
  | required q ih => cases p <;> simp [same, ih]
  | excluded q ih => cases p <;> simp [same, ih]

instance : DecidableEq Query := fun _ _ => decidable_of_iff _ same_iff

/-- Whether the query asks for nothing. -/
def isNothing : Query → Bool
  | .nothing => true
  | _ => false

@[simp] theorem isNothing_iff {q : Query} : q.isNothing = true ↔ q = .nothing := by
  cases q <;> simp [isNothing]

/-- A value, or nothing if the text is blank. -/
def term (matching : Matching) (text : String) : Query :=
  if isBlank text then .nothing else .value matching text

/-- The alternatives of a list: what asks for nothing is dropped, and a lone member stands for
itself. -/
def ofList (members : List Query) : Query :=
  match members.filter fun q => !q.isNothing with
  | [] => .nothing
  | [q] => q
  | q :: p :: qs => .group (q :: p :: qs)

/-- Marks a query as required; nothing stays nothing. -/
def require (inner : Query) : Query :=
  if inner.isNothing then .nothing else .required inner

/-- Marks a query as excluded; nothing stays nothing. -/
def exclude (inner : Query) : Query :=
  if inner.isNothing then .nothing else .excluded inner

/-- What the outermost node of the query is called. -/
def kind : Query → String
  | .nothing => "no match"
  | .value .standard _ => "standard value"
  | .value .precise _ => "precise value"
  | .group _ => "group"
  | .required _ => "compulsory"
  | .excluded _ => "excluding"

mutual

/-- The greatest number of groups one inside the other; marks add nothing. -/
def depth : Query → Nat
  | .nothing => 0
  | .value _ _ => 0
  | .group qs => 1 + depthAll qs
  | .required q => depth q
  | .excluded q => depth q

/-- The greatest depth in a list, 0 if it is empty. -/
def depthAll : List Query → Nat
  | [] => 0
  | q :: qs => max (depth q) (depthAll qs)

end

mutual

/-- The tree rebuilt from its leaves up without blank values and degenerate groups. -/
def normalize : Query → Query
  | .nothing => .nothing
  | .value m t => term m t
  | .group qs => ofList (normalizeAll qs)
  | .required q => require (normalize q)
  | .excluded q => exclude (normalize q)

/-- Every tree of a list, normalized. -/
def normalizeAll : List Query → List Query
  | [] => []
  | q :: qs => normalize q :: normalizeAll qs

end

end Query

end WeightedSearch
