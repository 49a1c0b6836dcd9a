/-
Putting together the entries of each key.

What is left at a level is put together in one pass: a slot is opened for each new key, and an entry
of a known key adds its places and its weight to the slot of the key.  The outcome is a plain
group-by over the classes of the key policy.  Main statements:

* `firsts_sublist`, `pairwise_firsts`, `exists_mem_firsts`, `find?_of_mem_firsts` — `firsts` has one
  entry of each key, the one found first, in the order of the entries;
* `merges_add` — the pass keeps the invariant `Merges`, which ties slots, entries and weights to the
  entries passed;
* `weighted_ofEntries` — the pass computes the group-by.
-/
import Mathlib.Data.List.Induction
import WeightedSearch.Evaluation.Level

namespace WeightedSearch

variable {κ : Type} {policy : KeyPolicy κ}

theorem KeyPolicy.Lawful.same_comm (h : policy.Lawful) (a b : κ) :
    policy.same a b = policy.same b a :=
  Bool.eq_iff_iff.2 ⟨h.symm a b, h.symm b a⟩

/-- Keys that are the same are the same as the same keys. -/
theorem KeyPolicy.Lawful.same_congr (h : policy.Lawful) {a b : κ} (hab : policy.same a b = true)
    (c : κ) : policy.same a c = policy.same b c :=
  Bool.eq_iff_iff.2 ⟨h.trans b a c (h.symm a b hab), h.trans a b c hab⟩

namespace Grouping

/-! ### The group-by -/

/-- The first entry of each key, in the order of the entries. -/
def firsts (policy : KeyPolicy κ) : List (Entry κ) → List (Entry κ)
  | [] => []
  | e :: es => e :: (firsts policy es).filter fun d => !policy.same e.key d.key

/-- The entries of a key. -/
def ofKey (policy : KeyPolicy κ) (es : List (Entry κ)) (key : κ) : List (Entry κ) :=
  es.filter fun e => policy.same key e.key

/-- An entry with the places of all entries of its key. -/
def located (policy : KeyPolicy κ) (es : List (Entry κ)) (e : Entry κ) : Entry κ :=
  { e with locations := (ofKey policy es e.key).flatMap (·.locations) }

/-- The weights of all entries of a key. -/
def weights (policy : KeyPolicy κ) (es : List (Entry κ)) (e : Entry κ) : List Weight :=
  (ofKey policy es e.key).map (·.weight)

theorem firsts_sublist (es : List (Entry κ)) : (firsts policy es).Sublist es := by
  induction es with
  | nil => exact List.Sublist.refl _
  | cons e es ih => exact (List.filter_sublist.trans ih).cons_cons e

theorem pairwise_firsts (es : List (Entry κ)) :
    (firsts policy es).Pairwise fun d e => policy.same d.key e.key = false := by
  induction es with
  | nil => exact List.Pairwise.nil
  | cons e es ih =>
    refine List.pairwise_cons.2 ⟨fun d hd => ?_, ih.filter _⟩
    simpa using (List.mem_filter.1 hd).2

/-- Every key has a first entry. -/
theorem exists_mem_firsts (h : policy.Lawful) {es : List (Entry κ)} {e : Entry κ} (he : e ∈ es) :
    ∃ d ∈ firsts policy es, policy.same d.key e.key = true := by
  induction es with
  | nil => cases he
  | cons c es ih =>
    rcases List.mem_cons.1 he with rfl | he
    · exact ⟨e, by simp [firsts], h.refl e.key⟩
    · obtain ⟨d, hd, hde⟩ := ih he
      -- the first entry of the key is `d`, unless `c` before it has that key
      by_cases hcd : policy.same c.key d.key = true
      · exact ⟨c, by simp [firsts], h.trans _ _ _ hcd hde⟩
      · exact ⟨d, by simp [firsts, hd, hcd], hde⟩

/-- The first entry of a key is found first. -/
theorem find?_of_mem_firsts (h : policy.Lawful) {es : List (Entry κ)} {d : Entry κ}
    (hd : d ∈ firsts policy es) : es.find? (fun e => policy.same d.key e.key) = some d := by
  induction es with
  | nil => cases hd
  | cons c es ih =>
    rcases List.mem_cons.1 hd with rfl | hd
    · simp [h.refl]
    · obtain ⟨hd, hcd⟩ := List.mem_filter.1 hd
      rw [h.same_comm] at hcd
      rw [List.find?_cons, ih hd]
      simp_all

/-- Of further entries those of new keys come first. -/
theorem firsts_append (es fs : List (Entry κ)) :
    firsts policy (es ++ fs) = firsts policy es ++
      (firsts policy fs).filter fun f => !es.any fun e => policy.same e.key f.key := by
  induction es with
  | nil => exact (List.filter_eq_self.2 fun _ _ => rfl).symm
  | cons e es ih => simp [firsts, ih, List.filter_append, List.filter_filter]

/-- Entries of different keys are all first. -/
theorem firsts_of_pairwise {es : List (Entry κ)}
    (hes : es.Pairwise fun d e => policy.same d.key e.key = false) : firsts policy es = es := by
  induction es with
  | nil => rfl
  | cons e es ih =>
    obtain ⟨he, hes⟩ := List.pairwise_cons.1 hes
    rw [firsts, ih hes, List.filter_eq_self.2 fun d hd => by simp [he d hd]]

theorem ofKey_append (es fs : List (Entry κ)) (key : κ) :
    ofKey policy (es ++ fs) key = ofKey policy es key ++ ofKey policy fs key :=
  List.filter_append ..

theorem ofKey_congr (h : policy.Lawful) {a b : κ} (hab : policy.same a b = true)
    (es : List (Entry κ)) : ofKey policy es a = ofKey policy es b := by
  unfold ofKey
  simp only [h.same_congr hab]

theorem any_iff_ofKey_ne_nil {es : List (Entry κ)} {key : κ} :
    (es.any fun e => policy.same key e.key) = true ↔ ofKey policy es key ≠ [] := by
  simp [ofKey]

theorem ofKey_ne_nil (h : policy.Lawful) {es : List (Entry κ)} {e : Entry κ} (he : e ∈ es) :
    ofKey policy es e.key ≠ [] :=
  List.ne_nil_of_mem (List.mem_filter.2 ⟨he, h.refl e.key⟩)

/-- Of the entries of a key the first is the one of that key. -/
theorem ofKey_firsts (h : policy.Lawful) (es : List (Entry κ)) (key : κ) :
    ofKey policy (firsts policy es) key = (ofKey policy es key).take 1 := by
  induction es with
  | nil => rfl
  | cons e es ih =>
    rw [firsts, ofKey, ofKey, List.filter_cons, List.filter_cons, List.filter_filter]
    by_cases hkey : policy.same key e.key = true
    · -- further entries of the key have been dropped
      have hnone : (firsts policy es).filter
          (fun d => policy.same key d.key && !policy.same e.key d.key) = [] := by
        refine List.filter_eq_nil_iff.2 fun d _ => ?_
        rw [h.same_congr hkey, Bool.and_not_self]
        exact Bool.false_ne_true
      rw [if_pos hkey, if_pos hkey, hnone]
      rfl
    · -- another key drops none of them
      have hsame : ∀ d : Entry κ, (policy.same key d.key && !policy.same e.key d.key)
          = policy.same key d.key := by
        intro d
        rw [Bool.and_eq_left_iff_imp, Bool.not_eq_true']
        intro hd
        rw [← h.same_comm, ← h.same_congr hd]
        exact Bool.eq_false_iff.2 hkey
      rw [if_neg hkey, if_neg hkey]
      simp only [hsame]
      exact ih

/-- A filter by the key takes all entries of a key or none. -/
theorem ofKey_filter (p : κ → Bool) (hp : ∀ a b, policy.same a b = true → p a = p b)
    (es : List (Entry κ)) (key : κ) :
    ofKey policy (es.filter fun e => p e.key) key = if p key then ofKey policy es key else [] := by
  have hkey : ∀ e : Entry κ,
      (policy.same key e.key && p e.key) = (policy.same key e.key && p key) := by
    intro e
    by_cases he : policy.same key e.key = true
    · rw [hp _ _ he]
    · rw [Bool.eq_false_iff.2 he, Bool.false_and, Bool.false_and]
  rw [ofKey, List.filter_filter]
  simp only [hkey]
  cases p key with
  | true => simp [ofKey]
  | false => simp

/-- Of several entries with different keys one alone has the key it has. -/
theorem ofKey_eq_nil_of_distinct (h : policy.Lawful) {e : Entry κ} {es : List (Entry κ)}
    (hes : ∀ d ∈ es, policy.same e.key d.key = false) {key : κ}
    (hkey : policy.same key e.key = true) : ofKey policy es key = [] :=
  List.filter_eq_nil_iff.2 fun d hd => by simp [h.same_congr hkey, hes d hd]

/-- Among entries of different keys each is the only one of its key. -/
theorem ofKey_of_pairwise (h : policy.Lawful) {es : List (Entry κ)}
    (hes : es.Pairwise fun d e => policy.same d.key e.key = false) {e : Entry κ} (he : e ∈ es) :
    ofKey policy es e.key = [e] := by
  induction es with
  | nil => cases he
  | cons c es ih =>
    obtain ⟨hc, hes⟩ := List.pairwise_cons.1 hes
    rw [ofKey, List.filter_cons]
    rcases List.mem_cons.1 he with rfl | he
    · have hnone := ofKey_eq_nil_of_distinct h hc (h.refl e.key)
      rw [if_pos (h.refl e.key)]
      exact congrArg (e :: ·) hnone
    · have hnot : ¬ policy.same e.key c.key = true := by
        rw [h.same_comm, hc e he]
        exact Bool.false_ne_true
      rw [if_neg hnot]
      exact ih hes he

/-- The combiner is given at least the weight of the first entry. -/
theorem weights_ne_nil (h : policy.Lawful) {es : List (Entry κ)} {e : Entry κ}
    (he : e ∈ firsts policy es) : weights policy es e ≠ [] := by
  simpa [weights] using ofKey_ne_nil h ((firsts_sublist es).subset he)

/-! ### One entry more -/

/-- A last entry of a new key is the first of its key. -/
theorem firsts_concat_of_new {es : List (Entry κ)} {e : Entry κ}
    (hnew : ∀ d ∈ es, policy.same d.key e.key = false) :
    firsts policy (es ++ [e]) = firsts policy es ++ [e] := by
  have hany : (es.any fun d => policy.same d.key e.key) = false := by simpa using hnew
  simp [firsts_append, firsts, hany]

/-- A last entry of a known key is not. -/
theorem firsts_concat_of_known {es : List (Entry κ)} {e : Entry κ}
    (hknown : ∃ d ∈ es, policy.same d.key e.key = true) :
    firsts policy (es ++ [e]) = firsts policy es := by
  have hany : (es.any fun d => policy.same d.key e.key) = true := by simpa using hknown
  simp [firsts_append, firsts, hany]

/-- Changing the one slot whose entry has a property is changing all entries with the property. -/
theorem modify_findIdx? {α β : Type} {p : α → Bool} {l : List α} {i : Nat}
    (hp : l.Pairwise fun a b => p a = true → p b = false) (hi : l.findIdx? p = some i)
    (f : α → β) (g : β → β) :
    (l.map f).modify i g = l.map fun a => if p a then g (f a) else f a := by
  induction l generalizing i with
  | nil => simp at hi
  | cons a l ih =>
    obtain ⟨ha, hl⟩ := List.pairwise_cons.1 hp
    rw [List.findIdx?_cons] at hi
    by_cases hpa : p a = true
    · obtain rfl : 0 = i := by simpa [hpa] using hi
      have hrest : (l.map fun b => if p b then g (f b) else f b) = l.map f :=
        List.map_congr_left fun b hb => by simp [ha b hb hpa]
      simp [hpa, hrest]
    · obtain ⟨j, hj, rfl⟩ : ∃ j, l.findIdx? p = some j ∧ j + 1 = i := by simpa [hpa] using hi
      simp [hpa, ih hl hj]

/-! ### The pass -/

/-- What has been put together of the entries `es`: each slot belongs to the first entry of a key,
which has the places of all entries of the key, with their weights beside it. -/
structure Merges (policy : KeyPolicy κ) (es : List (Entry κ)) (m : Merging κ) : Prop where
  slots : m.slots = (firsts policy es).zipIdx.map fun s => (s.1.key, s.2)
  entries : m.entries = (firsts policy es).map (located policy es)
  weights : m.weights = (firsts policy es).map (weights policy es)

/-- The slot of a key is the place of its first entry among those of all keys. -/
theorem Merges.slot?_eq {es : List (Entry κ)} {m : Merging κ} (hm : Merges policy es m) (key : κ) :
    m.slot? policy key = (firsts policy es).findIdx? fun d => policy.same key d.key := by
  rw [Merging.slot?, hm.slots, List.find?_map, List.findIdx?_eq_fst_find?_zipIdx]
  simp [Function.comp_def]

/-- A last entry adds its places to those of its key. -/
theorem located_concat (es : List (Entry κ)) (e d : Entry κ) :
    located policy (es ++ [e]) d =
      if policy.same d.key e.key then
        { located policy es d with locations := (located policy es d).locations ++ e.locations }
      else located policy es d := by
  by_cases h : policy.same d.key e.key = true <;> simp [located, ofKey, h]

/-- And its weight to the weights of its key. -/
theorem weights_concat (es : List (Entry κ)) (e d : Entry κ) :
    weights policy (es ++ [e]) d =
      if policy.same d.key e.key then weights policy es d ++ [e.weight]
      else weights policy es d := by
  by_cases h : policy.same d.key e.key = true <;> simp [weights, ofKey, h]

/-- An entry of a known key goes to the slot of the key. -/
theorem merges_add_of_known (h : policy.Lawful) {es : List (Entry κ)} {m : Merging κ}
    (hm : Merges policy es m) {e : Entry κ} {i : Nat}
    (hi : (firsts policy es).findIdx? (fun d => policy.same e.key d.key) = some i) :
    Merges policy (es ++ [e]) (m.add policy e) := by
  have hfirsts : firsts policy (es ++ [e]) = firsts policy es := by
    obtain ⟨hlt, hsame, -⟩ := List.findIdx?_eq_some_iff_getElem.1 hi
    exact firsts_concat_of_known ⟨_, (firsts_sublist es).subset (List.getElem_mem hlt),
      h.symm _ _ hsame⟩
  -- no other slot has the key, so changing the one is changing all that have it
  have hpair : (firsts policy es).Pairwise fun a b =>
      policy.same e.key a.key = true → policy.same e.key b.key = false :=
    (pairwise_firsts es).imp fun hab ha => by rwa [h.same_congr ha]
  rw [Merging.add, hm.slot?_eq, hi]
  refine ⟨?_, ?_, ?_⟩
  · -- no key is new, so the slots stay
    rw [hfirsts]
    exact hm.slots
  · dsimp only
    rw [hfirsts, hm.entries, modify_findIdx? hpair hi]
    refine List.map_congr_left fun d _ => ?_
    rw [located_concat, h.same_comm]
  · dsimp only
    rw [hfirsts, hm.weights, modify_findIdx? hpair hi]
    refine List.map_congr_left fun d _ => ?_
    rw [weights_concat, h.same_comm]

/-- An entry of a new key opens a slot behind all others. -/
theorem merges_add_of_new (h : policy.Lawful) {es : List (Entry κ)} {m : Merging κ}
    (hm : Merges policy es m) {e : Entry κ}
    (hi : (firsts policy es).findIdx? (fun d => policy.same e.key d.key) = none) :
    Merges policy (es ++ [e]) (m.add policy e) := by
  have hnew : ∀ d ∈ es, policy.same d.key e.key = false := by
    intro d hd
    obtain ⟨f, hf, hfd⟩ := exists_mem_firsts h hd
    rw [← h.same_congr hfd, h.same_comm]
    exact List.findIdx?_eq_none_iff.1 hi f hf
  have hfirsts : firsts policy (es ++ [e]) = firsts policy es ++ [e] := firsts_concat_of_new hnew
  -- the new slot holds the new entry alone, and the slots before it stay as they are
  have hnone : ofKey policy es e.key = [] := by
    refine List.filter_eq_nil_iff.2 fun d hd => ?_
    rw [h.same_comm, hnew d hd]
    exact Bool.false_ne_true
  have hself : ofKey policy (es ++ [e]) e.key = [e] := by
    rw [ofKey_append, hnone]
    simp [ofKey, h.refl]
  have hold : ∀ d ∈ firsts policy es, policy.same d.key e.key = false := fun d hd =>
    hnew d ((firsts_sublist es).subset hd)
  rw [Merging.add, hm.slot?_eq, hi]
  refine ⟨?_, ?_, ?_⟩
  · -- the new key has the next number, which is the number of the entries so far
    rw [hfirsts, List.zipIdx_append, List.map_append, hm.slots, hm.entries]
    simp
  · rw [hfirsts, List.map_append, hm.entries]
    refine congrArg₂ (· ++ ·) (List.map_congr_left fun d hd => ?_) ?_
    · rw [located_concat, hold d hd]
      rfl
    · simp [located, hself]
  · rw [hfirsts, List.map_append, hm.weights]
    refine congrArg₂ (· ++ ·) (List.map_congr_left fun d hd => ?_) ?_
    · rw [weights_concat, hold d hd]
      rfl
    · simp [weights, hself]

/-- One entry more keeps the invariant. -/
theorem merges_add (h : policy.Lawful) {es : List (Entry κ)} {m : Merging κ}
    (hm : Merges policy es m) (e : Entry κ) : Merges policy (es ++ [e]) (m.add policy e) := by
  cases hi : (firsts policy es).findIdx? fun d => policy.same e.key d.key with
  | some i => exact merges_add_of_known h hm hi
  | none => exact merges_add_of_new h hm hi

/-- So the pass keeps it from the first entry to the last. -/
theorem merges_ofEntries (h : policy.Lawful) (es : List (Entry κ)) :
    Merges policy es (Merging.ofEntries policy es) := by
  induction es using List.reverseRecOn with
  | nil => exact ⟨rfl, rfl, rfl⟩
  | append_singleton es e ih =>
    rw [Merging.ofEntries, List.foldl_append]
    exact merges_add h ih e

/-- The pass computes the group-by. -/
theorem weighted_ofEntries (h : policy.Lawful) (es : List (Entry κ)) :
    (Merging.ofEntries policy es).weighted =
      (firsts policy es).map fun e => (located policy es e, weights policy es e) := by
  have hm := merges_ofEntries h es
  rw [Merging.weighted, hm.entries, hm.weights, List.zip_map']

end Grouping

end WeightedSearch
