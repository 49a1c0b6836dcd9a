/-
Blank search strings and blank terms.

A blank search string is refused before it is read.  Blank text may still stand in a string that is
not blank: between quotes, behind a backslash, in brackets, behind a sign.  None of it is left in
the query, so no index is asked for a blank term, and the refusal of such terms is never met.  Main
statements:

* `Query.not_isBlank_of_mem_leaves_parse` — no value that is read is blank;
* `Lexicon.isBlank_of_ask` — a lexicon refuses nothing but blank terms, whatever its normal form;
* `Searcher.search_blank` — where a search meets blank text.
-/
import WeightedSearch.Index.Lexicon
import WeightedSearch.Search
import WeightedSearch.Proofs.Query.Reading
import WeightedSearch.Proofs.Query.Leaves
import WeightedSearch.Proofs.Evaluation.Lookups

namespace WeightedSearch

variable {κ : Type}

namespace Query

theorem not_isBlank_of_isSolid {q : Query} (h : q.isSolid = true) :
    ∀ l ∈ q.leaves, isBlank l.2 = false := by
  induction q using induct with
  | nothing => cases h
  | value m text =>
    intro l hl
    rw [leaves, List.mem_singleton] at hl
    rw [hl]
    simpa [isSolid] using h
  | group qs ih =>
    intro l hl
    rw [leaves, mem_leavesAll] at hl
    obtain ⟨q, hq, hl⟩ := hl
    exact ih q hq ((isSolid_group.1 h).2 q hq) l hl
  | required q ih => exact ih h
  | excluded q ih => exact ih h

/-- Whatever blank text a search string has, no value of its query is blank. -/
theorem not_isBlank_of_mem_leaves_parse (input : String) :
    ∀ l ∈ (parse input).leaves, isBlank l.2 = false := by
  have hwell : (parse input).isWellFormed = true :=
    isWellFormed_ofList (readingSteps_isWellFormed.parts false input.toList)
  -- a solid query has no blank value, and `nothing` has no value at all
  cases hn : (parse input).isNothing with
  | true =>
    rw [isNothing_iff.1 hn]
    intro l hl
    cases hl
  | false => exact not_isBlank_of_isSolid (isSolid_of_isWellFormed hwell hn)

end Query

theorem evaluate_nothing (indexes : Indexes κ) (combiner : Combiner) (caches : Caches κ) :
    evaluate indexes combiner caches .nothing = ⟨.ok [], ⟨caches, [], []⟩⟩ := rfl

/-- Two lexicons, whose keys are compared by the policy of the first. -/
def Lexicon.indexes (standard precise : Lexicon κ) : Indexes κ where
  ask _ m term := match m with
    | .standard => standard.lookup term
    | .precise => precise.lookup term
  policy := standard.policy

theorem Lexicon.isBlank_of_ask {standard precise : Lexicon κ} {n : Nat} {m : Matching}
    {term : String} (h : (standard.indexes precise).ask n m term = .error .blank) :
    isBlank term = true := by
  cases m with
  | standard => exact standard.lookup_eq_blank_iff.1 h
  | precise => exact precise.lookup_eq_blank_iff.1 h

namespace Searcher

theorem result_search_eq_blank_iff (s : Searcher κ) (indexes : Indexes κ) (input : String) :
    (s.search indexes input).result = .error .blank ↔ isBlank input = true := by
  rw [result_search]
  split
  · next hblank => exact ⟨fun _ => hblank, fun _ => rfl⟩
  · next hblank =>
    -- the failures of an evaluation are others
    cases (s.evaluate indexes (.parse input)).result <;> simp [hblank]

theorem not_isBlank_of_mem_lookups (s : Searcher κ) (indexes : Indexes κ) (input : String) :
    ∀ l ∈ (s.search indexes input).progress.lookups, isBlank l.term = false := by
  intro l hl
  rw [progress_search] at hl
  split at hl
  · cases hl
  · have hleaf : l.leaf ∈ (Query.parse input).leaves :=
      leaf_mem_leaves indexes s.combiner s.caches _ l hl
    exact Query.not_isBlank_of_mem_leaves_parse input l.leaf hleaf

theorem exists_ask_of_search {s : Searcher κ} {indexes : Indexes κ} {input : String}
    {f : LookupFailure}
    (h : (s.search indexes input).result = .error (.evaluation (.lookup f))) :
    ∃ n, ∃ l ∈ (Query.parse input).leaves, indexes.ask n l.1 l.2 = .error f := by
  rw [result_search] at h
  split at h
  · cases h
  · cases hresult : (s.evaluate indexes (.parse input)).result with
    | ok es =>
      rw [hresult] at h
      cases h
    | error e =>
      rw [hresult] at h
      cases h
      exact exists_ask_of_lookup hresult

theorem search_nothing (s : Searcher κ) (indexes : Indexes κ) {input : String}
    (hblank : isBlank input = false) (h : Query.parse input = .nothing) :
    s.search indexes input = ⟨.ok [], ⟨s.caches, [], []⟩⟩ := by
  have hevaluate : s.evaluate indexes (.parse input) = ⟨.ok [], ⟨s.caches, [], []⟩⟩ := by
    rw [h]
    exact evaluate_nothing indexes s.combiner s.caches
  have hrank : rank ([] : List (Entry κ)) = [] := List.mergeSort_nil
  have hlimited : s.limited [] = [] := List.prefix_nil.1 (s.limited_prefix [])
  rw [search, if_neg (Bool.eq_false_iff.1 hblank)]
  simp only [hevaluate, hrank, hlimited]

/-- Where the indexes refuse no more than blank terms, blank text is met in one place: a search
string that is blank as a whole is refused. No index is asked for a blank term, so none refuses one,
and where nothing is left of a search string nothing is found and nothing done. -/
theorem search_blank (s : Searcher κ) {indexes : Indexes κ}
    (h : ∀ n m term, indexes.ask n m term = .error .blank → isBlank term = true) (input : String) :
    let o := s.search indexes input
    (o.result = .error .blank ↔ isBlank input = true) ∧
    (∀ l ∈ o.progress.lookups, isBlank l.term = false) ∧
    o.result ≠ .error (.evaluation (.lookup .blank)) ∧
    (isBlank input = false → Query.parse input = .nothing →
      o = ⟨.ok [], ⟨s.caches, [], []⟩⟩) := by
  refine ⟨s.result_search_eq_blank_iff indexes input, s.not_isBlank_of_mem_lookups indexes input,
    fun hfail => ?_, s.search_nothing indexes⟩
  obtain ⟨n, l, hl, hask⟩ := exists_ask_of_search hfail
  have hblank : isBlank l.2 = true := h n l.1 l.2 hask
  rw [Query.not_isBlank_of_mem_leaves_parse input l hl] at hblank
  cases hblank

/-- Of a string with blank text in every place where it may stand, the one term that is not blank is
looked up, and of the string without this term nothing. -/
theorem search_blank_lenient :
    let w : Weight := .finite false ⟨1, Format.binary32_has_one⟩
    let standard : Lexicon Nat := (Lexicon.empty.setNormal Lexicon.lenient).insert "A " ⟨1, w, []⟩
    let indexes := standard.indexes .empty
    let s : Searcher Nat := (Searcher.new fun ws _ => ws.headD .zero).setCaching false
    let blanks := "\"\" +() -(\" \\ \" \\  +) + "
    let o := s.search indexes (blanks ++ "a")
    (∀ n m term, indexes.ask n m term = .error .blank → isBlank term = true) ∧
    o.result = .ok [⟨1, w, []⟩] ∧ o.progress.lookups.map Lookup.leaf = [(.standard, "a")] ∧
    (o.result = .error .blank ↔ isBlank (blanks ++ "a") = true) ∧
    (∀ l ∈ o.progress.lookups, isBlank l.term = false) ∧
    o.result ≠ .error (.evaluation (.lookup .blank)) ∧
    isBlank blanks = false ∧ Query.parse blanks = .nothing ∧
    s.search indexes blanks = ⟨.ok [], ⟨s.caches, [], []⟩⟩ := by
  intro w standard indexes s blanks o
  have hindexes : ∀ n m term, indexes.ask n m term = .error .blank → isBlank term = true :=
    fun _ _ _ => Lexicon.isBlank_of_ask
  have hresult : o.result = .ok [⟨1, w, []⟩] := by decide +kernel
  have hmade : o.progress.lookups.map Lookup.leaf = [(.standard, "a")] := by decide +kernel
  have hblanks : isBlank blanks = false := by decide +kernel
  have hparse : Query.parse blanks = .nothing := by
    rw [← Query.same_iff]
    decide +kernel
  obtain ⟨hrefused, hlookups, hfail, -⟩ := search_blank s hindexes (blanks ++ "a")
  obtain ⟨-, -, -, hnothing⟩ := search_blank s hindexes blanks
  exact ⟨hindexes, hresult, hmade, hrefused, hlookups, hfail, hblanks, hparse,
    hnothing hblanks hparse⟩

end Searcher

end WeightedSearch
