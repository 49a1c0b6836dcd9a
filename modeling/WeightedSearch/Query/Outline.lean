/-
Queries as indented outlines.

An outline has one line per node of the query, in the order in which the query is written, and a
member of a group or the query under a mark stands two spaces further in.  Main statements:

* `Query.length_outlineLines` — an outline has as many lines as the query has nodes.
-/
import WeightedSearch.Query.Basic
import WeightedSearch.Text.Quoted

namespace WeightedSearch

namespace Query

/-- What the line of a node says. The text of a value is quoted, with the characters in it that are
not `shown` by their code points. -/
def label (shown : Char → Bool) : Query → List Char
  | .nothing => "NoMatch".toList
  | .value .standard text => "StandardValue(".toList ++ quote shown text.toList ++ [')']
  | .value .precise text => "PreciseValue(".toList ++ quote shown text.toList ++ [')']
  | .group _ => "Group".toList
  | .required _ => "Compulsory".toList
  | .excluded _ => "Excluding".toList

mutual

/-- The nodes of a query in the order in which it is written, each with its level. -/
def nodes (level : Nat) : Query → List (Nat × Query)
  | .nothing => [(level, .nothing)]
  | .value m t => [(level, .value m t)]
  | .group qs => (level, .group qs) :: nodesAll (level + 1) qs
  | .required q => (level, .required q) :: nodes (level + 1) q
  | .excluded q => (level, .excluded q) :: nodes (level + 1) q

/-- The nodes of a list of queries, one query after the other. -/
def nodesAll (level : Nat) : List Query → List (Nat × Query)
  | [] => []
  | q :: qs => nodes level q ++ nodesAll level qs

end

mutual

/-- The number of nodes of a query. -/
def size : Query → Nat
  | .nothing => 1
  | .value _ _ => 1
  | .group qs => 1 + sizeAll qs
  | .required q => 1 + size q
  | .excluded q => 1 + size q

/-- The number of nodes in a list of queries. -/
def sizeAll : List Query → Nat
  | [] => 0
  | q :: qs => size q + sizeAll qs

end

/-- The lines of the outline. -/
def outlineLines (shown : Char → Bool) (q : Query) : List (List Char) :=
  (q.nodes 0).map fun p => List.replicate (2 * p.1) ' ' ++ p.2.label shown

/-- The outline, each line with its end. -/
def outlineChars (shown : Char → Bool) (q : Query) : List Char :=
  (q.outlineLines shown).flatMap fun line => line ++ ['\n']

/-- The text of the outline. -/
def outline (q : Query) : String :=
  String.ofList (q.outlineChars isSeen)

theorem length_nodes (q : Query) (level : Nat) : (q.nodes level).length = q.size := by
  induction q using induct generalizing level with
  | nothing => rfl
  | value m t => rfl
  | group qs ih =>
    have h : ∀ l, (nodesAll l qs).length = sizeAll qs := by
      intro l
      induction qs with
      | nil => rfl
      | cons q qs ihs =>
        simp only [nodesAll, sizeAll, List.length_append, ih q (by simp)]
        rw [ihs fun p hp => ih p (List.mem_cons_of_mem _ hp)]
    simp [nodes, size, h, Nat.add_comm]
  | required q ih => simp [nodes, size, ih, Nat.add_comm]
  | excluded q ih => simp [nodes, size, ih, Nat.add_comm]

theorem length_outlineLines (shown : Char → Bool) (q : Query) :
    (q.outlineLines shown).length = q.size := by
  simp [outlineLines, length_nodes]

end Query

end WeightedSearch
