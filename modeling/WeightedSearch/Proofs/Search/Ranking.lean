/-
The ranking of a search.

A search gives what an evaluation finds by falling weight, entries of equal weight in the order in
which they were found, and a limit cuts the tail of it.  All weights found are valid, so there is
nothing that could not be compared, and the order of their bits is the order of the numbers.  Main
statements:

* `isRanking_rank` — ranking sorts, and keeps the order of entries of equal weight;
* `rank_eq_mergeSort_bits` — it makes no difference whether numbers or bits are compared;
* `search_ranked` — searches with any limits.
-/
import WeightedSearch.Search
import WeightedSearch.Proofs.Evaluation.Fixed
import WeightedSearch.Proofs.Weight.Order

namespace WeightedSearch

variable {κ : Type}

namespace Searcher

/-- Whether a list is the ranking of some entries: they are the same, none has less weight than one
behind it, and those of one weight have kept their order. -/
structure IsRanking (es ranked : List (Entry κ)) : Prop where
  perm : ranked.Perm es
  falling : ranked.Pairwise fun d e => d.weight.less e.weight = false
  stable : ∀ w, ranked.filter (fun e => e.weight = w) = es.filter fun e => e.weight = w

/-- Whether the entry may stand before the other in a ranking. -/
def precedes (d e : Entry κ) : Bool :=
  e.weight.place ≤ d.weight.place

theorem precedes_iff {d e : Entry κ} : precedes d e = true ↔ e.weight.place ≤ d.weight.place :=
  decide_eq_true_iff

theorem precedes_trans (a b c : Entry κ) (hab : precedes a b = true) (hbc : precedes b c = true) :
    precedes a c = true := by
  rw [precedes_iff] at *
  exact Int.le_trans hbc hab

theorem precedes_total (a b : Entry κ) : (precedes a b || precedes b a) = true := by
  rw [Bool.or_eq_true, precedes_iff, precedes_iff]
  exact Int.le_total _ _

variable {es : List (Entry κ)}

theorem filter_rank (es : List (Entry κ)) (w : Weight) :
    (rank es).filter (fun e => e.weight = w) = es.filter fun e => e.weight = w := by
  -- entries of one weight are sorted as they come, so the ranking has them in this order
  have hsorted : (es.filter fun e => e.weight = w).Pairwise fun d e => precedes d e = true := by
    refine List.pairwise_of_forall_mem_list fun d hd e he => ?_
    have hdw : d.weight = w := by simpa using (List.mem_filter.1 hd).2
    have hew : e.weight = w := by simpa using (List.mem_filter.1 he).2
    exact precedes_iff.2 (Int.le_of_eq (by rw [hdw, hew]))
  have hsub : (es.filter fun e => e.weight = w).Sublist (rank es) :=
    List.sublist_mergeSort precedes_trans precedes_total hsorted List.filter_sublist
  have hfilter := hsub.filter fun e => e.weight = w
  rw [List.filter_filter] at hfilter
  simp only [Bool.and_self] at hfilter
  exact (hfilter.eq_of_length ((rank_perm es).filter _).length_eq.symm).symm

/-- Ranking sorts entries with valid weights, and keeps the order of those of equal weight. -/
theorem isRanking_rank (h : ∀ e ∈ es, e.weight.isValid = true) : IsRanking es (rank es) where
  perm := rank_perm es
  falling := by
    have hnumber : ∀ e ∈ rank es, e.weight.isNumber = true := fun e he =>
      Weight.isNumber_of_isValid (h e ((rank_perm es).subset he))
    refine (List.pairwise_mergeSort precedes_trans precedes_total es).imp_of_mem fun hd he hle => ?_
    exact (Weight.less_eq_false_iff (hnumber _ hd) (hnumber _ he)).2 (precedes_iff.1 hle)
  stable := filter_rank es

theorem rank_eq_mergeSort_bits (h : ∀ e ∈ es, e.weight.isValid = true) :
    rank es = es.mergeSort fun d e => e.weight.bitPlace ≤ d.weight.bitPlace := by
  -- on valid weights the two orders decide alike, and then sorting makes the same list
  have hmap := List.map_mergeSort (f := id) (l := es)
    (r := precedes) (s := fun d e : Entry κ => decide (e.weight.bitPlace ≤ d.weight.bitPlace))
    fun d hd e he => decide_eq_decide.2 (Weight.bitPlace_le_iff (h e he) (h d hd)).symm
  rwa [List.map_id, List.map_id] at hmap

theorem IsRanking.less_of_drop {ranked : List (Entry κ)} (h : IsRanking es ranked) (k : Nat) :
    ∀ d ∈ ranked.take k, ∀ e ∈ ranked.drop k, d.weight.less e.weight = false := by
  have hfalling := h.falling
  rw [← List.take_append_drop k ranked, List.pairwise_append] at hfalling
  exact hfalling.2.2

/-- Over indexes with fixed answers all searches for a string that is not blank agree, whatever
limits they have and whatever answers are kept for them. If the evaluation of the query succeeds,
there is one ranking of what it finds, by the size of the weights or, what is the same, by their
bits. A search without a limit gives the whole of it and one with a limit its first entries; so no
entry left out weighs more than one that is given, and a greater limit only adds entries behind. If
the evaluation fails, so do all searches. -/
theorem search_ranked {indexes : Indexes κ} {replies : Replies κ} {input : String}
    (hblank : isBlank input = false)
    (hgives : ∀ l ∈ (Query.parse input).leaves, indexes.Repeats replies l.1 l.2) {s : Searcher κ}
    (hs : s.caches.Faithful replies) :
    match (s.evaluate indexes (.parse input)).result with
    | .ok es => ∃ ranked, IsRanking es ranked ∧ (∀ e ∈ ranked, e.weight.isValid = true) ∧
        ranked = es.mergeSort (fun d e => e.weight.bitPlace ≤ d.weight.bitPlace) ∧
        (∀ t : Searcher κ, t.combiner = s.combiner → t.caches.Faithful replies →
          (t.search indexes input).result
            = .ok (if t.limit = 0 then ranked else ranked.take t.limit)) ∧
        (∀ k, ∀ d ∈ ranked.take k, ∀ e ∈ ranked.drop k, d.weight.less e.weight = false) ∧
        ∀ k l, k ≤ l → ranked.take k <+: ranked.take l
    | .error e => ∀ t : Searcher κ, t.combiner = s.combiner → t.caches.Faithful replies →
        (t.search indexes input).result = .error (.evaluation e) := by
  -- what is evaluated goes by the answers alone, so all these searchers share one result
  have hevaluate : ∀ t : Searcher κ, t.combiner = s.combiner → t.caches.Faithful replies →
      (t.evaluate indexes (.parse input)).result
        = (replies.effects indexes.policy s.combiner).found (.parse input) := by
    intro t hcombiner ht
    rw [evaluate, hcombiner]
    exact (evaluate_fixed s.combiner ht hgives).1
  have hsearch : ∀ t : Searcher κ, t.combiner = s.combiner → t.caches.Faithful replies →
      (t.search indexes input).result =
        match (replies.effects indexes.policy s.combiner).found (.parse input) with
        | .ok es => .ok (t.limited (rank es))
        | .error e => .error (.evaluation e) := by
    intro t hcombiner ht
    have hresult := t.result_search indexes input
    rw [hevaluate t hcombiner ht, hblank, if_neg Bool.false_ne_true] at hresult
    exact hresult
  rw [hevaluate s rfl hs]
  cases hfound : (replies.effects indexes.policy s.combiner).found (.parse input) with
  | ok es =>
    simp only [hfound] at hsearch ⊢
    have hvalid := isValid_of_found hfound
    have hranking := isRanking_rank hvalid
    refine ⟨rank es, hranking, fun e he => hvalid e ((rank_perm es).subset he),
      rank_eq_mergeSort_bits hvalid, hsearch, hranking.less_of_drop, fun k l hkl => ?_⟩
    exact List.take_prefix_take_left hkl
  | error e =>
    simp only [hfound] at hsearch ⊢
    exact hsearch

/-- Of three entries the second has the least weight and comes last; a search with limit 2 leaves it
out. Next to a value whose lookup fails no search finds anything. -/
theorem search_ranked_second_last :
    let u : Weight := .finite false ⟨2, Format.binary32_has_two⟩
    let v : Weight := .finite false ⟨1, Format.binary32_has_one⟩
    let replies : Replies Nat := fun _ term => match term with
      | "a" => .ok [⟨1, u, []⟩, ⟨2, v, []⟩, ⟨3, u, []⟩]
      | _ => .error (.failed term "down")
    let indexes : Indexes Nat := ⟨fun _ => replies, .equality⟩
    let s : Searcher Nat := .new fun ws _ => ws.headD .zero
    let fails : EvaluationFailure := .lookup (.failed "b" "down")
    isBlank "a" = false ∧ isBlank "a b" = false ∧ s.caches.Faithful replies ∧
    (∀ input, ∀ l ∈ (Query.parse input).leaves, indexes.Repeats replies l.1 l.2) ∧
    (s.evaluate indexes (.parse "a")).result = .ok [⟨1, u, []⟩, ⟨2, v, []⟩, ⟨3, u, []⟩] ∧
    (∀ t : Searcher Nat, t.combiner = s.combiner → t.caches.Faithful replies → t.limit = 2 →
      (t.search indexes "a").result = .ok [⟨1, u, []⟩, ⟨3, u, []⟩]) ∧
    (s.evaluate indexes (.parse "a b")).result = .error fails ∧
    ∀ t : Searcher Nat, t.combiner = s.combiner → t.caches.Faithful replies →
      (t.search indexes "a b").result = .error (.evaluation fails) := by
  intro u v replies indexes s fails
  have hone : isBlank "a" = false := by decide +kernel
  have htwo : isBlank "a b" = false := by decide +kernel
  have hs : s.caches.Faithful replies := Caches.faithful_new replies true
  have hgives : ∀ input, ∀ l ∈ (Query.parse input).leaves, indexes.Repeats replies l.1 l.2 :=
    fun _ _ _ _ => rfl
  have hes : (s.evaluate indexes (.parse "a")).result
      = .ok [⟨1, u, []⟩, ⟨2, v, []⟩, ⟨3, u, []⟩] := by decide +kernel
  have hfails : (s.evaluate indexes (.parse "a b")).result = .error fails := by decide +kernel
  have hranked := search_ranked hone (hgives "a") hs
  have hfailed := search_ranked htwo (hgives "a b") hs
  rw [hes] at hranked
  rw [hfails] at hfailed
  obtain ⟨ranked, -, -, hbits, hsearch, -⟩ := hranked
  have hsorted : ranked = [⟨1, u, []⟩, ⟨3, u, []⟩, ⟨2, v, []⟩] := by
    have hless : v.bitPlace < u.bitPlace := by decide +kernel
    rw [hbits]
    simp [List.mergeSort, List.MergeSort.Internal.splitInTwo, hless, Int.le_of_lt hless]
  refine ⟨hone, htwo, hs, hgives, hes, fun t hcombiner ht hlimit => ?_, hfails, hfailed⟩
  rw [hsearch t hcombiner ht, hlimit, hsorted]
  rfl

end Searcher

end WeightedSearch
