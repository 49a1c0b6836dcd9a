/-
Queries with the answers to their values.

What an evaluation finds depends on the answers to the values of its query and on where the values
stand.  A key is found at a level if one of the siblings finds it and if it gets past the level: no
excluded sibling finds it, and some required one does if there are any.  A value bears on a key if
it is not excluded and the key gets past all levels around it.  Main statements:

* `eq_of_query_of_answers` — the query and the answers make up the tree;
* `finds_eq_survives_and` — what gets past the level that a query stands for;
* `finds_iff_traced` — a query finds a key if one of the values that bear on the key was answered
  with it.
-/
import WeightedSearch.Proofs.Evaluation.Siblings
import WeightedSearch.Proofs.Evaluation.Grouping
import WeightedSearch.Proofs.Query.Leaves

namespace WeightedSearch

variable {κ : Type}

/-- A query with the entries that each of its values was answered with. -/
inductive Answered (κ : Type)
  | nothing
  | value (matching : Matching) (text : String) (entries : List (Entry κ))
  | group (members : List (Answered κ))
  | required (inner : Answered κ)
  | excluded (inner : Answered κ)

namespace Answered

/-- Induction over a query with its answers: a group may assume the statement of each member. -/
@[elab_as_elim]
theorem induct {motive : Answered κ → Prop} (nothing : motive .nothing)
    (value : ∀ m text es, motive (.value m text es))
    (group : ∀ as, (∀ a ∈ as, motive a) → motive (.group as))
    (required : ∀ a, motive a → motive (.required a))
    (excluded : ∀ a, motive a → motive (.excluded a)) (a : Answered κ) : motive a :=
  Answered.rec (motive_1 := motive) (motive_2 := fun as => ∀ a ∈ as, motive a)
    nothing value group required excluded (fun _ h => nomatch h)
    (fun _ _ ha has b hb => by
      rcases List.mem_cons.1 hb with rfl | hb
      · exact ha
      · exact has b hb) a

mutual

/-- The query. -/
def query : Answered κ → Query
  | .nothing => .nothing
  | .value m text _ => .value m text
  | .group as => .group (queries as)
  | .required a => .required (query a)
  | .excluded a => .excluded (query a)

/-- The queries of a list. -/
def queries : List (Answered κ) → List Query
  | [] => []
  | a :: as => query a :: queries as

end

mutual

/-- The answers to the values from left to right. -/
def answers : Answered κ → List (List (Entry κ))
  | .nothing => []
  | .value _ _ es => [es]
  | .group as => answersAll as
  | .required a => answers a
  | .excluded a => answers a

/-- The answers to the values of every query of a list, from left to right. -/
def answersAll : List (Answered κ) → List (List (Entry κ))
  | [] => []
  | a :: as => answers a ++ answersAll as

end

theorem queries_eq_map (as : List (Answered κ)) : queries as = as.map query := by
  induction as with
  | nil => rfl
  | cons a as ih => rw [queries, ih, List.map_cons]

theorem length_answersAll {as : List (Answered κ)}
    (h : ∀ a ∈ as, a.answers.length = a.query.leaves.length) :
    (answersAll as).length = (Query.leavesAll (queries as)).length := by
  induction as with
  | nil => rfl
  | cons a as ih =>
    rw [answersAll, queries, Query.leavesAll, List.length_append, List.length_append,
      h a (by simp), ih fun b hb => h b (List.mem_cons_of_mem _ hb)]

theorem length_answers (a : Answered κ) : a.answers.length = a.query.leaves.length := by
  induction a using induct with
  | nothing => rfl
  | value m text es => rfl
  | group as ih => exact length_answersAll ih
  | required a ih => exact ih
  | excluded a ih => exact ih

theorem eq_of_queries_of_answersAll {as bs : List (Answered κ)}
    (h : ∀ a ∈ as, ∀ b, a.query = b.query → a.answers = b.answers → a = b)
    (hqueries : queries as = queries bs) (hanswers : answersAll as = answersAll bs) : as = bs := by
  induction as generalizing bs with
  | nil => cases bs <;> simp_all [queries]
  | cons a as ih =>
    cases bs with
    | nil => simp [queries] at hqueries
    | cons b bs =>
      rw [queries, queries, List.cons.injEq] at hqueries
      -- the answers to the first member end where its values do
      have hlength : a.answers.length = b.answers.length := by
        rw [length_answers, length_answers, hqueries.1]
      obtain ⟨hhead, htail⟩ := List.append_inj hanswers hlength
      rw [h a (by simp) b hqueries.1 hhead,
        ih (fun c hc => h c (List.mem_cons_of_mem _ hc)) hqueries.2 htail]

/-- There is one way to put the answers to its values into a query. -/
theorem eq_of_query_of_answers {a b : Answered κ} (hquery : a.query = b.query)
    (hanswers : a.answers = b.answers) : a = b := by
  induction a using induct generalizing b with
  | nothing => cases b <;> simp_all [query]
  | value m text es => cases b <;> simp_all [query, answers]
  | group as ih =>
    cases b with
    | group bs =>
      exact congrArg group (eq_of_queries_of_answersAll (fun a ha b => ih a ha)
        (Query.group.inj hquery) hanswers)
    | _ => simp [query] at hquery
  | required a ih =>
    cases b with
    | required b => exact congrArg required (ih (Query.required.inj hquery) hanswers)
    | _ => simp [query] at hquery
  | excluded a ih =>
    cases b with
    | excluded b => exact congrArg excluded (ih (Query.excluded.inj hquery) hanswers)
    | _ => simp [query] at hquery

/-- The siblings of the level that a query stands for. -/
def siblings : Answered κ → List (Answered κ)
  | .group as => as
  | a => [a]

/-- The query without its mark. -/
def unmarked : Answered κ → Answered κ
  | .required a => a
  | .excluded a => a
  | a => a

theorem answersAll_siblings (a : Answered κ) : answersAll a.siblings = a.answers := by
  cases a <;> simp [siblings, answersAll, answers]

theorem exists_of_siblings {q : Query} {as : List (Answered κ)} (h : queries as = q.siblings) :
    ∃ a : Answered κ, a.query = q ∧ a.siblings = as := by
  cases q with
  | group qs => exact ⟨.group as, congrArg Query.group h, rfl⟩
  | _ =>
    -- there is one sibling, which is no group
    obtain ⟨a, rfl⟩ : ∃ a, as = [a] := by
      have hlength := congrArg List.length h
      rw [queries_eq_map, List.length_map] at hlength
      exact List.length_eq_one_iff.1 hlength
    have hquery := (List.cons.inj h).1
    refine ⟨a, hquery, ?_⟩
    cases a <;> simp_all [query, siblings]

/-! ### The keys that are found -/

section

variable (policy : KeyPolicy κ) (k : κ)

mutual

/-- Whether the query finds the key. -/
def finds : Answered κ → Bool
  | .nothing => false
  | .value _ _ es => es.any fun e => policy.same k e.key
  | .group as =>
    !excludes as && (!(queries as).any Query.isRequired || requires as) && findsAny as
  | .required a => finds a
  | .excluded _ => false

/-- Whether one of the siblings finds the key. -/
def findsAny : List (Answered κ) → Bool
  | [] => false
  | a :: as => finds a || findsAny as

/-- Whether the inside of one of the required siblings finds the key. -/
def requires : List (Answered κ) → Bool
  | [] => false
  | .required a :: as => finds a || requires as
  | _ :: as => requires as

/-- Whether the inside of one of the excluded siblings finds the key. -/
def excludes : List (Answered κ) → Bool
  | [] => false
  | .excluded a :: as => finds a || excludes as
  | _ :: as => excludes as

end

/-- Whether the key gets past the level of the siblings: no excluded one finds it, and if some are
required, one of these does. -/
def survives (as : List (Answered κ)) : Bool :=
  !excludes policy k as && (!(queries as).any Query.isRequired || requires policy k as)

end

variable {policy : KeyPolicy κ} {k : κ}

theorem requires_eq_any (as : List (Answered κ)) : requires policy k as =
    as.any fun a => a.query.isRequired && a.unmarked.finds policy k := by
  induction as with
  | nil => rfl
  | cons a as ih => cases a <;> simp [requires, ih, query, Query.isRequired, unmarked]

theorem excludes_eq_any (as : List (Answered κ)) : excludes policy k as =
    as.any fun a => a.query.isExcluded && a.unmarked.finds policy k := by
  induction as with
  | nil => rfl
  | cons a as ih => cases a <;> simp [excludes, ih, query, Query.isExcluded, unmarked]

theorem finds_eq_survives_and (a : Answered κ) : a.finds policy k =
    (survives policy k a.siblings && findsAny policy k a.siblings) := by
  cases a <;> simp [finds, findsAny, survives, requires, excludes, siblings, queries, query,
    Query.isRequired]

/-! ### The values that bear on a key -/

/-- A value with the entries it was answered with and the siblings at each level around it, the
outermost level first. -/
structure Placed (κ : Type) where
  levels : List (List (Answered κ))
  entries : List (Entry κ)

/-- The value with one more level around it. -/
def Placed.within (as : List (Answered κ)) (v : Placed κ) : Placed κ :=
  { v with levels := as :: v.levels }

/-- Puts the values of a query at a level of its own, if the query is no group and so has none. -/
def alone : Answered κ → List (Placed κ) → List (Placed κ)
  | .group _, vs => vs
  | a, vs => vs.map (.within [a])

mutual

/-- The values from left to right that are not excluded, without the level at which the query
stands. -/
def placed : Answered κ → List (Placed κ)
  | .nothing => []
  | .value _ _ es => [⟨[], es⟩]
  | .group as => (placedAll as).map (.within as)
  | .required a => a.alone (placed a)
  | .excluded _ => []

/-- The values of every query of a list, from left to right. -/
def placedAll : List (Answered κ) → List (Placed κ)
  | [] => []
  | a :: as => placed a ++ placedAll as

end

/-- The values of a query from left to right that are not excluded, with all levels around them. -/
def values (a : Answered κ) : List (Placed κ) :=
  a.alone a.placed

theorem values_eq_map (a : Answered κ) :
    a.values = (placedAll a.siblings).map (.within a.siblings) := by
  cases a <;> simp [values, alone, siblings, placedAll, placed]

theorem placed_of_isExcluded {a : Answered κ} (h : a.query.isExcluded = true) : a.placed = [] := by
  cases a with
  | excluded a => rfl
  | _ => cases h

/-- Whether the key gets past every level around the value. -/
def Placed.reached (policy : KeyPolicy κ) (k : κ) (v : Placed κ) : Bool :=
  v.levels.all (survives policy k)

/-- The entries of the key in the answers to the values that it gets past all levels from. -/
def traced (policy : KeyPolicy κ) (k : κ) (vs : List (Placed κ)) : List (Entry κ) :=
  (vs.filter (·.reached policy k)).flatMap fun v => Grouping.ofKey policy v.entries k

theorem traced_append (vs ws : List (Placed κ)) :
    traced policy k (vs ++ ws) = traced policy k vs ++ traced policy k ws := by
  rw [traced, List.filter_append, List.flatMap_append]
  rfl

theorem traced_within (as : List (Answered κ)) (vs : List (Placed κ)) :
    traced policy k (vs.map (.within as)) =
      if survives policy k as then traced policy k vs else [] := by
  have hreached : (fun v : Placed κ => (v.within as).reached policy k) =
      fun v => survives policy k as && v.reached policy k := rfl
  rw [traced, List.filter_map, List.flatMap_map, Function.comp_def, hreached]
  cases survives policy k as with
  | true => rfl
  | false => simp

theorem traced_value (es : List (Entry κ)) :
    traced policy k [⟨[], es⟩] = Grouping.ofKey policy es k :=
  List.append_nil _

/-- A query that finds the key lets it past the level at which the query stands alone. -/
theorem traced_values_of_finds_iff {a : Answered κ}
    (h : a.finds policy k = true ↔ traced policy k a.placed ≠ []) :
    traced policy k a.values = traced policy k a.placed := by
  -- a group brings its own level along, and any other query is put at one by itself
  have hvalues : a.values = a.placed ∨ a.values = a.placed.map (.within a.siblings) := by
    cases a with
    | group as => exact Or.inl rfl
    | _ => exact Or.inr rfl
  rcases hvalues with hvalues | hvalues
  · rw [hvalues]
  · rw [hvalues, traced_within]
    split
    · rfl
    · next hnot =>
      -- what does not get past the level is not found, so nothing is traced without the level
      -- either
      have hfinds : a.finds policy k = false := by
        rw [finds_eq_survives_and, Bool.eq_false_iff.2 hnot, Bool.false_and]
      exact (not_ne_iff.1 (h.not.1 (Bool.eq_false_iff.1 hfinds))).symm

theorem findsAny_iff_traced {as : List (Answered κ)}
    (h : ∀ a ∈ as, a.finds policy k = true ↔ traced policy k a.placed ≠ []) :
    findsAny policy k as = true ↔ traced policy k (placedAll as) ≠ [] := by
  induction as with
  | nil => simp [findsAny, placedAll, traced]
  | cons a as ih =>
    rw [findsAny, placedAll, traced_append, Bool.or_eq_true, h a (by simp),
      ih fun b hb => h b (List.mem_cons_of_mem _ hb), ← not_and_or, ← List.append_eq_nil_iff]

theorem finds_iff_traced_placed (a : Answered κ) :
    a.finds policy k = true ↔ traced policy k a.placed ≠ [] := by
  induction a using induct with
  | nothing => simp [finds, placed, traced]
  | value m text es =>
    rw [placed, traced_value]
    exact Grouping.any_iff_ofKey_ne_nil
  | group as ih =>
    rw [finds_eq_survives_and, siblings, Bool.and_eq_true, findsAny_iff_traced ih, placed,
      traced_within]
    cases survives policy k as <;> simp
  | required a ih =>
    rw [finds, ih, ← traced_values_of_finds_iff ih]
    rfl
  | excluded a ih => simp [finds, placed, traced]

theorem traced_values (a : Answered κ) : traced policy k a.values = traced policy k a.placed :=
  traced_values_of_finds_iff a.finds_iff_traced_placed

/-- A query finds a key if one of the values that bear on the key was answered with it. -/
theorem finds_iff_traced (a : Answered κ) :
    a.finds policy k = true ↔ traced policy k a.values ≠ [] := by
  rw [finds_iff_traced_placed, traced_values]

/-- What a sibling brings that is not excluded does not depend on its mark. -/
theorem traced_unmarked {a : Answered κ} (h : a.query.isExcluded = false) :
    traced policy k a.unmarked.values = traced policy k a.placed := by
  cases a with
  | required a => rfl
  | excluded a => simp [query, Query.isExcluded] at h
  | _ => exact traced_values _

end Answered

end WeightedSearch
