/-
The scope of marks.

Behind a value, a query in brackets adds the keys that it finds, and the marks inside the brackets
have no say over the value.  There is one exception: brackets around a lone marked query are no
group, since a lone member stands for itself, and then its mark is one of the outer level.  Main
statements:

* `parse_nextToBrackets` — how a value and a query in brackets behind it are read;
* `siblingKeys_value_and`, `siblingKeys_value_required`, `siblingKeys_value_excluded` — the keys
  that the two stand for, by the mark of the second;
* `finds_parse` — a search finds the keys that its query stands for;
* `finds_nextToBrackets` — what is found next to brackets;
* `finds_nextToBrackets_lone_mark` — a lone mark in brackets does filter the value outside.
-/
import WeightedSearch.Search
import WeightedSearch.Proofs.Query.Reading
import WeightedSearch.Proofs.Evaluation.Meaning

namespace WeightedSearch

namespace Query

/-! ### A value with a query in brackets behind it -/

theorem isWellFormed_value (m : Matching) {text : String} (h : isBlank text = false) :
    (value m text).isWellFormed = true := by
  simp [isWellFormed, isSolid, h]

/-- The search string of a query, a space, and another query in brackets. -/
def nextToBrackets (v t : Query) : String :=
  v.toSearchString ++ " (" ++ t.toSearchString ++ ")"

theorem part_open_render (t : Query) (r : List Char) :
    part ('(' :: (render false t ++ ')' :: r)) = (t.normalize, r) := by
  obtain ⟨hread, hrest⟩ := parts_render_whole t true rfl (parts_close_nested r)
  rw [part_open, hread, hrest]
  rfl

theorem parse_nextToBrackets (m : Matching) (text : String) (t : Query) :
    parse ((value m text).nextToBrackets t) = ofList [(value m text).normalize, t.normalize] := by
  -- a value is written the same inside and outside of brackets
  have hvalue : render true (.value m text) = render false (.value m text) := by
    cases m <;> rw [render, render]
  have hchars : ((value m text).nextToBrackets t).toList
      = render true (.value m text) ++ ' ' :: '(' :: (render false t ++ ')' :: []) := by
    rw [hvalue]
    simp [nextToBrackets, toSearchString]
  have hrest : parts false (' ' :: '(' :: (render false t ++ ')' :: [])) = ([t.normalize], []) := by
    rw [parts_space false (by decide), parts_part false rfl, part_open_render, parts_nil]
  have hread := (parts_render (operand_render (.value m text)) false
    (r := ' ' :: '(' :: (render false t ++ ')' :: [])) rfl).1
  rw [hrest] at hread
  rw [parse, hchars]
  exact ofList_congr hread

end Query

variable {κ : Type}

section

open Query

variable {answers : Answers κ} {policy : KeyPolicy κ} (m : Matching) (text : String)

theorem siblingKeys_value_and {t : Query} (ht : t.isMarked = false) :
    siblingKeys answers policy [.value m text, t]
      = (Query.value m text).keys answers policy ∪ t.keys answers policy := by
  cases t with
  | required q => cases ht
  | excluded q => cases ht
  | _ => simp [siblingKeys, plainKeys, excludedKeys, isMarked, isRequired, isExcluded]

theorem siblingKeys_value_required (q : Query) :
    siblingKeys answers policy [.value m text, .required q] = q.keys answers policy := by
  simp [siblingKeys, requiredKeys, excludedKeys, isRequired]

theorem siblingKeys_value_excluded (q : Query) :
    siblingKeys answers policy [.value m text, .excluded q]
      = (Query.value m text).keys answers policy \ q.keys answers policy := by
  simp [siblingKeys, plainKeys, excludedKeys, isMarked, isRequired, isExcluded]

end

/-! ### The keys that a search finds -/

namespace Searcher

/-- Whether a search finds these keys. A search that is refused as blank finds none. -/
def Finds (s : Searcher κ) (indexes : Indexes κ) (input : String) (found : Set κ) : Prop :=
  (∃ es, (s.search indexes input).result = .ok es ∧ keysOf indexes.policy es = found) ∨
    (s.search indexes input).result = .error .blank ∧ found = ∅

theorem keysOf_perm {policy : KeyPolicy κ} {es ds : List (Entry κ)} (h : es.Perm ds) :
    keysOf policy es = keysOf policy ds := by
  ext k
  simp only [mem_keysOf, h.mem_iff]

variable {s : Searcher κ} {indexes : Indexes κ} {answers : Answers κ}

theorem Finds.unique {input : String} {ks ls : Set κ} (hks : s.Finds indexes input ks)
    (hls : s.Finds indexes input ls) : ks = ls := by
  rcases hks with ⟨es, hes, rfl⟩ | ⟨hes, rfl⟩ <;> rcases hls with ⟨ds, hds, rfl⟩ | ⟨hds, rfl⟩
  · obtain rfl : es = ds := Except.ok.inj (hes.symm.trans hds)
    rfl
  · cases hes.symm.trans hds
  · cases hes.symm.trans hds
  · rfl

/-- A search without a limit finds the keys that its query stands for. -/
theorem finds_parse (hlimit : s.limit = 0) (hpolicy : indexes.policy.Lawful)
    (hvalid : s.combiner.Valid) (hcaches : s.caches.Coherent answers) {input : String}
    (hgives : ∀ l ∈ (Query.parse input).leaves, indexes.Gives answers (fun _ => False) l.1 l.2) :
    s.Finds indexes input ((Query.parse input).keys answers indexes.policy) := by
  by_cases hblank : isBlank input = true
  · -- a blank string is refused, and its query stands for no keys
    right
    rw [result_search, if_pos hblank, Query.parse_of_isBlank hblank, Query.keys]
    exact ⟨rfl, rfl⟩
  · left
    obtain ⟨es, hes, hkeys⟩ := found_keys answers hpolicy hvalid (Query.parse input)
    have heval : (s.evaluate indexes (.parse input)).result = .ok es :=
      (evaluate_result s.combiner hcaches hgives).trans hes
    refine ⟨rank es, ?_, ?_⟩
    · rw [result_search, if_neg hblank, heval]
      dsimp only
      rw [limited, if_pos hlimit]
    · rw [keysOf_perm (rank_perm es), hkeys]

/-- A well-formed query is found by its own search string. -/
theorem finds_toSearchString (hlimit : s.limit = 0) (hpolicy : indexes.policy.Lawful)
    (hvalid : s.combiner.Valid) (hcaches : s.caches.Coherent answers) {q : Query}
    (hq : q.isWellFormed = true)
    (hgives : ∀ l ∈ q.leaves, indexes.Gives answers (fun _ => False) l.1 l.2) :
    s.Finds indexes q.toSearchString (q.keys answers indexes.policy) := by
  have hparse : Query.parse q.toSearchString = q := by
    rw [Query.parse_of_toSearchString, Query.normalize_of_isWellFormed hq]
  have hleaves : ∀ l ∈ (Query.parse q.toSearchString).leaves,
      indexes.Gives answers (fun _ => False) l.1 l.2 := by
    rw [hparse]
    exact hgives
  have hfinds := finds_parse hlimit hpolicy hvalid hcaches hleaves
  rwa [hparse] at hfinds

/-! ### A search with brackets -/

/-- A search with brackets behind a value finds the keys of the value and of the query in the
brackets as siblings. -/
theorem finds_nextToBrackets_siblings (hlimit : s.limit = 0) (hpolicy : indexes.policy.Lawful)
    (hvalid : s.combiner.Valid) (hcaches : s.caches.Coherent answers) {m : Matching}
    {text : String} (htext : isBlank text = false) {t : Query} (ht : t.isWellFormed = true)
    (hgives : ∀ l ∈ (m, text) :: t.leaves, indexes.Gives answers (fun _ => False) l.1 l.2) :
    s.Finds indexes ((Query.value m text).nextToBrackets t)
      (Query.siblingKeys answers indexes.policy [.value m text, t]) := by
  have hparse : Query.parse ((Query.value m text).nextToBrackets t)
      = .ofList [.value m text, t] := by
    have hvalue := Query.isWellFormed_value m htext
    rw [Query.parse_nextToBrackets, Query.normalize_of_isWellFormed hvalue,
      Query.normalize_of_isWellFormed ht]
  have hleaves : (Query.ofList [.value m text, t]).leaves = (m, text) :: t.leaves := by
    rw [Query.leaves_ofList, Query.leavesAll, Query.leavesAll, Query.leavesAll, List.append_nil]
    rfl
  have hall : ∀ l ∈ (Query.parse ((Query.value m text).nextToBrackets t)).leaves,
      indexes.Gives answers (fun _ => False) l.1 l.2 := by
    rw [hparse, hleaves]
    exact hgives
  have hfinds := finds_parse hlimit hpolicy hvalid hcaches hall
  rwa [hparse, Query.keys_ofList] at hfinds

/-- A query in brackets behind a value adds the keys that it finds alone, and no mark inside the
brackets takes a key of the value away. Only where the brackets hold a single marked query does its
mark concern the value: one that is required is then found alone, and what one excludes is taken
from the value. -/
theorem finds_nextToBrackets (hlimit : s.limit = 0) (hpolicy : indexes.policy.Lawful)
    (hvalid : s.combiner.Valid) (hcaches : s.caches.Coherent answers) {m : Matching}
    {text : String} (htext : isBlank text = false) {t : Query} (ht : t.isWellFormed = true)
    (hgives : ∀ l ∈ (m, text) :: t.leaves, indexes.Gives answers (fun _ => False) l.1 l.2) :
    ∃ ks ls, s.Finds indexes (Query.value m text).toSearchString ks ∧
      s.Finds indexes t.toSearchString ls ∧
      (t.isMarked = false → s.Finds indexes ((Query.value m text).nextToBrackets t) (ks ∪ ls)) ∧
      (t.isRequired = true → s.Finds indexes ((Query.value m text).nextToBrackets t) ls) ∧
      ∀ q, t = .excluded q → ∃ ms, s.Finds indexes q.toSearchString ms ∧
        s.Finds indexes ((Query.value m text).nextToBrackets t) (ks \ ms) := by
  have hboth := finds_nextToBrackets_siblings hlimit hpolicy hvalid hcaches htext ht hgives
  have hv := finds_toSearchString hlimit hpolicy hvalid hcaches (Query.isWellFormed_value m htext)
    fun l hl => hgives l (List.mem_cons.2 (Or.inl (List.mem_singleton.1 hl)))
  have ht' := finds_toSearchString hlimit hpolicy hvalid hcaches ht
    fun l hl => hgives l (List.mem_cons_of_mem _ hl)
  refine ⟨_, _, hv, ht', fun hmark => ?_, fun hreq => ?_, ?_⟩
  · rwa [siblingKeys_value_and m text hmark] at hboth
  · cases t with
    | required q => rwa [siblingKeys_value_required] at hboth
    | _ => cases hreq
  · rintro q rfl
    -- what stands under a mark is well-formed by itself, so it has a search string of its own
    have hinner : q.isWellFormed = true := by
      have hsolid := Query.isSolid_of_isWellFormed ht rfl
      rw [Query.isSolid] at hsolid
      exact Query.isWellFormed_of_isSolid hsolid
    have hq := finds_toSearchString hlimit hpolicy hvalid hcaches hinner
      fun l hl => hgives l (List.mem_cons_of_mem _ hl)
    rw [siblingKeys_value_excluded] at hboth
    exact ⟨_, hq, hboth⟩

/-- The exclusion in `b (a -b)` takes 2 from what `a` finds and leaves it to the `b` outside. -/
theorem finds_nextToBrackets_excluded_inside :
    let w : Weight := .finite false ⟨1, Format.binary32_has_one⟩
    let answers : Answers Nat := fun _ term =>
      (if term = "a" then [1, 2, 3] else [2, 4]).map fun k => ⟨k, w, []⟩
    let indexes := answers.indexes .equality
    let s : Searcher Nat := .new fun _ _ => w
    let a : Query := .value .standard "a"
    let b : Query := .value .standard "b"
    let t : Query := .group [a, .excluded b]
    s.limit = 0 ∧ indexes.policy.Lawful ∧ s.combiner.Valid ∧ s.caches.Coherent answers ∧
    isBlank "b" = false ∧ t.isWellFormed = true ∧
    (∀ l ∈ (.standard, "b") :: t.leaves, indexes.Gives answers (fun _ => False) l.1 l.2) ∧
    t.isMarked = false ∧ b.nextToBrackets t = "b (a -b)" ∧
    ∃ ks ls, s.Finds indexes "b" ks ∧ s.Finds indexes "a -b" ls ∧
      s.Finds indexes "b (a -b)" (ks ∪ ls) := by
  intro w answers indexes s a b t
  have hpolicy : indexes.policy.Lawful := KeyPolicy.equality_lawful
  have hw : w.isValid = true := by decide +kernel
  have hvalid : s.combiner.Valid := fun _ _ _ => hw
  have hcaches : s.caches.Coherent answers := Caches.coherent_new answers true
  have hgives : ∀ l ∈ (.standard, "b") :: t.leaves,
      indexes.Gives answers (fun _ => False) l.1 l.2 := fun _ _ _ => rfl
  obtain ⟨ks, ls, hb, ht, hboth, -⟩ := finds_nextToBrackets rfl hpolicy hvalid hcaches
    (by decide) (by decide) hgives
  exact ⟨rfl, hpolicy, hvalid, hcaches, by decide, by decide, hgives, rfl, by decide +kernel, ks, ls,
    hb, ht, hboth rfl⟩

/-- Next to the required query in `a (+b)` the value is not found, and the exclusion in `a (-a)`
takes from the value what it finds. With a limit, `a (b)` finds no more keys than `a` or `b` alone.
-/
theorem finds_nextToBrackets_lone_mark :
    let w : Weight := .finite false ⟨1, Format.binary32_has_one⟩
    let answers : Answers Nat := fun _ term => [⟨if term = "a" then 1 else 2, w, []⟩]
    let indexes := answers.indexes .equality
    let s : Searcher Nat := .new fun _ _ => w
    let a : Query := .value .standard "a"
    let b : Query := .value .standard "b"
    let t : Query := .required b
    let u : Query := .excluded a
    indexes.policy.Lawful ∧ s.combiner.Valid ∧ t.isWellFormed = true ∧ u.isWellFormed = true ∧
    s.Finds indexes a.toSearchString {1} ∧
    (s.Finds indexes t.toSearchString {2} ∧ s.Finds indexes (a.nextToBrackets t) {2} ∧
      ¬ s.Finds indexes (a.nextToBrackets t) ({1} ∪ {2})) ∧
    (s.Finds indexes u.toSearchString ∅ ∧ s.Finds indexes (a.nextToBrackets u) ∅ ∧
      ¬ s.Finds indexes (a.nextToBrackets u) ({1} ∪ ∅)) ∧
    (s.setLimit 1).Finds indexes a.toSearchString {1} ∧
      (s.setLimit 1).Finds indexes b.toSearchString {2} ∧
      ¬ (s.setLimit 1).Finds indexes (a.nextToBrackets b) ({1} ∪ {2}) := by
  intro w answers indexes s a b t u
  have hw : w.isValid = true := by decide +kernel
  have hone : ∀ k, keysOf indexes.policy [⟨k, w, []⟩] = {k} := by
    intro k
    ext n
    simp [mem_keysOf, indexes, Answers.indexes, KeyPolicy.equality, eq_comm]
  have hnone : keysOf indexes.policy [] = ∅ := by
    ext n
    simp [mem_keysOf]
  have hat : s.Finds indexes (a.nextToBrackets t) {2} :=
    Or.inl ⟨[⟨2, w, []⟩], by decide +kernel, hone 2⟩
  have hau : s.Finds indexes (a.nextToBrackets u) ∅ := Or.inl ⟨[], by decide +kernel, hnone⟩
  have hboth : ((s.setLimit 1).evaluate indexes (.parse (a.nextToBrackets b))).result
      = .ok [⟨1, w, []⟩, ⟨2, w, []⟩] := by decide +kernel
  have hrank : rank [⟨1, w, []⟩, ⟨2, w, []⟩] = [(⟨1, w, []⟩ : Entry Nat), ⟨2, w, []⟩] :=
    List.mergeSort_of_pairwise (by simp)
  have hab : (s.setLimit 1).Finds indexes (a.nextToBrackets b) {1} := by
    refine Or.inl ⟨[⟨1, w, []⟩], ?_, hone 1⟩
    rw [result_search, if_neg (by decide +kernel), hboth]
    dsimp only
    rw [hrank]
    rfl
  refine ⟨KeyPolicy.equality_lawful, fun _ _ _ => hw, by decide, by decide,
    Or.inl ⟨[⟨1, w, []⟩], by decide +kernel, hone 1⟩,
    ⟨Or.inl ⟨[⟨2, w, []⟩], by decide +kernel, hone 2⟩, hat, fun h => ?_⟩,
    ⟨Or.inl ⟨[], by decide +kernel, hnone⟩, hau, fun h => ?_⟩,
    Or.inl ⟨[⟨1, w, []⟩], by decide +kernel, hone 1⟩,
    Or.inl ⟨[⟨2, w, []⟩], by decide +kernel, hone 2⟩, fun h => ?_⟩
  · have hmem : (1 : Nat) ∈ ({2} : Set Nat) := (hat.unique h).symm ▸ Or.inl rfl
    cases hmem
  · have hmem : (1 : Nat) ∈ (∅ : Set Nat) := (hau.unique h).symm ▸ Or.inl rfl
    exact hmem
  · have hmem : (2 : Nat) ∈ ({1} : Set Nat) := (hab.unique h).symm ▸ Or.inr rfl
    cases hmem

end Searcher

end WeightedSearch
