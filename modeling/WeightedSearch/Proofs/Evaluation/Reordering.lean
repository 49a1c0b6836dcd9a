/-
Evaluation and the order of siblings.

To put the members of a group in another order, a mark on them or not, changes nothing in what is
found, if each key gets the greatest of its weights: the same keys are found, each with the same
weight and the same places.  The order of the entries and of their places may be another, and a key
may be spelled as another of the same keys.  Two such evaluations are compared level by level and
key by key.  Main statements:

* `Query.Reordered.siblings` — the siblings at a level are reordered inside, then among each other;
* `matched_survivors`, `matched_groups` — lists that match key by key still do when a level has
  dropped keys and merged entries;
* `reorders_level`, `reorders_found` — so what a query finds matches what its reorderings find;
* `MatchedByKey.exists_perm` — merged entries that match key by key match one by one;
* `evaluate_reordered` — two whole evaluations.
-/
import Mathlib.Data.List.Perm.Basic
import WeightedSearch.Proofs.Evaluation.Greatest

namespace WeightedSearch

open Grouping

variable {κ : Type} {policy : KeyPolicy κ}

namespace Query

/-! ### Reordered queries -/

/-- Whether the second query is the first with the members of its groups in other orders. -/
inductive Reordered : Query → Query → Prop
  | nothing : Reordered .nothing .nothing
  | value (m : Matching) (text : String) : Reordered (.value m text) (.value m text)
  /-- The members are reordered inside, and then put in another order. -/
  | group {qs ms ps : List Query} :
    List.Forall₂ Reordered qs ms → ms.Perm ps → Reordered (.group qs) (.group ps)
  | required {q p : Query} : Reordered q p → Reordered (.required q) (.required p)
  | excluded {q p : Query} : Reordered q p → Reordered (.excluded q) (.excluded p)

namespace Reordered

variable {q p : Query}

theorem isRequired_eq (h : q.Reordered p) : q.isRequired = p.isRequired := by
  cases h <;> rfl

theorem isExcluded_eq (h : q.Reordered p) : q.isExcluded = p.isExcluded := by
  cases h <;> rfl

/-- The siblings are reordered one by one and then put in another order. -/
theorem siblings (h : q.Reordered p) :
    ∃ ms, List.Forall₂ Reordered q.siblings ms ∧ ms.Perm p.siblings := by
  cases h with
  | group hqs hps => exact ⟨_, hqs, hps⟩
  | nothing => exact ⟨_, .cons .nothing .nil, .refl _⟩
  | value m text => exact ⟨_, .cons (.value m text) .nil, .refl _⟩
  | required h => exact ⟨_, .cons (.required h) .nil, .refl _⟩
  | excluded h => exact ⟨_, .cons (.excluded h) .nil, .refl _⟩

/-- Reordering adds no values. -/
theorem leaves_subset (h : q.Reordered p) : p.leaves ⊆ q.leaves := by
  induction q using induct generalizing p with
  | nothing => cases h; exact List.Subset.refl _
  | value m text => cases h; exact List.Subset.refl _
  | required q ih => cases h with | @required _ p h => exact ih (p := p) h
  | excluded q ih => cases h with | @excluded _ p h => exact ih (p := p) h
  | group qs ih =>
    cases h with
    | @group _ ms ps hqs hperm =>
      -- the members are reordered inside, each by the hypothesis of the induction, and then moved
      have hms : leavesAll ms ⊆ leavesAll qs := by
        clear hperm
        induction hqs with
        | nil => exact List.Subset.refl _
        | @cons q m qs ms hqm _ ihms =>
          obtain ⟨ihq, ihqs⟩ := List.forall_mem_cons.1 ih
          exact List.append_subset.2 ⟨List.Subset.trans (ihq hqm) (List.subset_append_left _ _),
            List.Subset.trans (ihms ihqs) (List.subset_append_right _ _)⟩
      intro l hl
      obtain ⟨p, hp, hl⟩ := mem_leavesAll.1 hl
      exact hms (mem_leavesAll.2 ⟨p, hperm.mem_iff.2 hp, hl⟩)

end Reordered

end Query

/-! ### Entries in another order -/

/-- Whether some entries have weights with the same bounds as others, and the same places up to
their order. -/
structure SameUpToOrder (es fs : List (Entry κ)) : Prop where
  bounds : SameBounds es fs
  locations : (es.flatMap (·.locations)).Perm (fs.flatMap (·.locations))

namespace SameUpToOrder

variable {es fs gs es' fs' : List (Entry κ)}

theorem refl (es : List (Entry κ)) : SameUpToOrder es es := ⟨.refl es, .refl _⟩

theorem symm (h : SameUpToOrder es fs) : SameUpToOrder fs es := ⟨h.bounds.symm, h.locations.symm⟩

theorem trans (h : SameUpToOrder es fs) (h' : SameUpToOrder fs gs) : SameUpToOrder es gs :=
  ⟨h.bounds.trans h'.bounds, h.locations.trans h'.locations⟩

theorem append (h : SameUpToOrder es fs) (h' : SameUpToOrder es' fs') :
    SameUpToOrder (es ++ es') (fs ++ fs') where
  bounds := h.bounds.append h'.bounds
  locations := by
    rw [List.flatMap_append, List.flatMap_append]
    exact h.locations.append h'.locations

theorem of_perm (h : es.Perm fs) : SameUpToOrder es fs where
  bounds n := by simp only [h.mem_iff]
  locations := h.flatMap_right _

end SameUpToOrder

/-- Whether the entries of each key are the same up to order. -/
def MatchedByKey (policy : KeyPolicy κ) (es fs : List (Entry κ)) : Prop :=
  ∀ k, SameUpToOrder (ofKey policy es k) (ofKey policy fs k)

section

variable {es fs es' fs' : List (Entry κ)}

theorem MatchedByKey.append (h : MatchedByKey policy es fs) (h' : MatchedByKey policy es' fs') :
    MatchedByKey policy (es ++ es') (fs ++ fs') := by
  intro k
  rw [ofKey_append, ofKey_append]
  exact (h k).append (h' k)

theorem MatchedByKey.trans {gs : List (Entry κ)} (h : MatchedByKey policy es fs)
    (h' : MatchedByKey policy fs gs) : MatchedByKey policy es gs :=
  fun k => (h k).trans (h' k)

theorem MatchedByKey.of_perm (h : es.Perm fs) : MatchedByKey policy es fs :=
  fun _ => .of_perm (h.filter _)

theorem MatchedByKey.any_eq (h : MatchedByKey policy es fs) (k : κ) :
    (es.any fun e => policy.same k e.key) = fs.any fun e => policy.same k e.key := by
  rw [Bool.eq_iff_iff, any_iff_ofKey_ne_nil, any_iff_ofKey_ne_nil]
  exact (h k).bounds.nil_iff.not

theorem sameUpToOrder_groups (h : policy.Lawful) (siblings : List Query)
    (hes : WeightsIn (·.isValid = true) es) (k : κ) :
    SameUpToOrder (ofKey policy (groups policy WeightRule.max.combine siblings es) k)
      (ofKey policy es k) where
  bounds := sameBounds_groups h siblings hes k
  locations := by
    rw [ofKey_groups h]
    cases ofKey policy es k with
    | nil => exact .refl _
    | cons d ds => rw [List.flatMap_singleton]

/-- Merging keeps what matches matched, at whatever levels it is done. -/
theorem matched_groups (h : policy.Lawful) (siblings siblings' : List Query)
    (hes : WeightsIn (·.isValid = true) es) (hfs : WeightsIn (·.isValid = true) fs)
    (hmatch : MatchedByKey policy es fs) :
    MatchedByKey policy (groups policy WeightRule.max.combine siblings es)
      (groups policy WeightRule.max.combine siblings' fs) :=
  fun k => ((sameUpToOrder_groups h siblings hes k).trans (hmatch k)).trans
    (sameUpToOrder_groups h siblings' hfs k).symm

/-- Entries of one key that stand before entries of other keys go together, and so do the others. -/
theorem MatchedByKey.of_cons (h : policy.Lawful) {e f : Entry κ}
    (hes : (e :: es).Pairwise fun d e => policy.same d.key e.key = false)
    (hfs : (f :: fs).Pairwise fun d e => policy.same d.key e.key = false)
    (hef : policy.same e.key f.key = true) (hmatch : MatchedByKey policy (e :: es) (f :: fs)) :
    SameUpToOrder [e] [f] ∧ MatchedByKey policy es fs := by
  constructor
  · -- each of the entries in front is the only one of its key
    have hkey := hmatch e.key
    rwa [ofKey_of_pairwise h hes List.mem_cons_self, ofKey_congr h hef,
      ofKey_of_pairwise h hfs List.mem_cons_self] at hkey
  · intro k
    by_cases hk : policy.same k e.key = true
    · rw [ofKey_eq_nil_of_distinct h (List.pairwise_cons.1 hes).1 hk,
        ofKey_eq_nil_of_distinct h (List.pairwise_cons.1 hfs).1 (h.trans _ _ _ hk hef)]
      exact .refl []
    · -- the entries in front are of one key, so both are left out for any other
      have hkf : ¬ policy.same k f.key = true := fun hkf =>
        hk (h.trans _ _ _ hkf (h.symm _ _ hef))
      have hkey := hmatch k
      rw [ofKey, ofKey, List.filter_cons, List.filter_cons, if_neg hk, if_neg hkf] at hkey
      exact hkey

/-- Lists with one entry of each key that match key by key match entry by entry, once one of them is
put in the order of the other. -/
theorem MatchedByKey.exists_perm (h : policy.Lawful)
    (hes : es.Pairwise fun d e => policy.same d.key e.key = false)
    (hfs : fs.Pairwise fun d e => policy.same d.key e.key = false)
    (hesvalid : WeightsIn (·.isValid = true) es) (hfsvalid : WeightsIn (·.isValid = true) fs)
    (hmatch : MatchedByKey policy es fs) :
    ∃ ds, ds.Perm fs ∧ List.Forall₂ (fun e d => policy.same e.key d.key = true ∧
      e.weight = d.weight ∧ e.locations.Perm d.locations) es ds := by
  induction es generalizing fs with
  | nil =>
    have hnil : fs = [] := List.eq_nil_iff_forall_not_mem.2 fun f hf =>
      ofKey_ne_nil h hf (hmatch f.key).bounds.eq_nil
    exact ⟨[], hnil ▸ .refl _, .nil⟩
  | cons e es ih =>
    -- the entry of the same key is brought to the front
    obtain ⟨f, hf⟩ := List.exists_mem_of_ne_nil _
      (mt (hmatch e.key).bounds.nil_iff.2 (ofKey_ne_nil h List.mem_cons_self))
    obtain ⟨hf, hef⟩ := List.mem_filter.1 hf
    obtain ⟨s, t, rfl⟩ := List.append_of_mem hf
    have hperm : (s ++ f :: t).Perm (f :: (s ++ t)) := List.perm_middle
    rw [hperm.pairwise_iff fun {x y} hxy => by rwa [h.same_comm]] at hfs
    obtain ⟨hone, hrest⟩ := MatchedByKey.of_cons h hes hfs hef (hmatch.trans (.of_perm hperm))
    obtain ⟨hevalid, hesvalid⟩ := List.forall_mem_cons.1 hesvalid
    obtain ⟨hfvalid, hfsvalid⟩ := List.forall_mem_cons.1 fun d hd => hfsvalid d (hperm.mem_iff.2 hd)
    obtain ⟨ds, hds, hall⟩ :=
      ih (List.pairwise_cons.1 hes).2 (List.pairwise_cons.1 hfs).2 hesvalid hfsvalid hrest
    refine ⟨f :: ds, (hds.cons f).trans hperm.symm, .cons ⟨hef, ?_, ?_⟩ hall⟩
    · exact hone.bounds.weight_eq hevalid hfvalid
    · simpa using hone.locations

end

/-! ### One level -/

/-- Whether a sibling is reordered to another one, and both are resolved to matching entries. -/
def Resolved.Matched (policy : KeyPolicy κ) (r s : Resolved κ) : Prop :=
  r.1.Reordered s.1 ∧ MatchedByKey policy r.2 s.2

section

variable {rs ss : List (Resolved κ)}

theorem matched_accumulated (h : List.Forall₂ (Resolved.Matched policy) rs ss) :
    MatchedByKey policy (Resolved.accumulated rs) (Resolved.accumulated ss) := by
  induction h with
  | nil => exact fun k => .refl []
  | @cons r s rs ss hr _ ih =>
    rw [Resolved.accumulated, Resolved.accumulated, List.flatMap_cons, List.flatMap_cons,
      hr.1.isExcluded_eq]
    refine MatchedByKey.append ?_ ih
    split
    · exact fun k => .refl []
    · exact hr.2

theorem findsKey_matched (h : List.Forall₂ (Resolved.Matched policy) rs ss) {kind : Query → Bool}
    (hkind : ∀ {q p : Query}, q.Reordered p → kind q = kind p) (k : κ) :
    Resolved.findsKey policy kind rs k = Resolved.findsKey policy kind ss k := by
  induction h with
  | nil => rfl
  | cons hr _ ih =>
    rw [Resolved.findsKey, Resolved.findsKey, List.any_cons, List.any_cons, hkind hr.1,
      hr.2.any_eq k]
    exact congrArg _ ih

theorem any_isRequired_matched (h : List.Forall₂ (Resolved.Matched policy) rs ss) :
    (rs.any fun r => r.1.isRequired) = ss.any fun s => s.1.isRequired := by
  induction h with
  | nil => rfl
  | cons hr _ ih => rw [List.any_cons, List.any_cons, hr.1.isRequired_eq, ih]

/-- What gets past a level matches what gets past a level with matching siblings. -/
theorem matched_survivors (hlaw : policy.Lawful)
    (h : List.Forall₂ (Resolved.Matched policy) rs ss) :
    MatchedByKey policy (Resolved.survivors policy rs) (Resolved.survivors policy ss) := by
  intro k
  have hkeeps : Resolved.keeps policy rs k = Resolved.keeps policy ss k := by
    rw [Resolved.keeps, Resolved.keeps, findsKey_matched h Query.Reordered.isExcluded_eq,
      findsKey_matched h Query.Reordered.isRequired_eq, any_isRequired_matched h]
  rw [ofKey_survivors hlaw, ofKey_survivors hlaw, hkeeps]
  split
  · exact matched_accumulated h k
  · exact .refl []

theorem survivors_perm (h : rs.Perm ss) :
    (Resolved.survivors policy rs).Perm (Resolved.survivors policy ss) := by
  have hkeeps : ∀ key, Resolved.keeps policy rs key = Resolved.keeps policy ss key := by
    intro key
    simp only [Resolved.keeps, Resolved.findsKey, h.any_eq]
  simp only [Resolved.survivors, hkeeps]
  exact (h.flatMap_right _).filter _

end

/-! ### Whole evaluations -/

section

variable {answers : Answers κ}

theorem Answers.ValidFor.reordered {q p : Query} (hq : answers.ValidFor q) (h : q.Reordered p) :
    answers.ValidFor p :=
  fun l hl => hq l (h.leaves_subset hl)

/-- Whether a query is given entries that match those which its reorderings are given, if all
weights in the answers are valid. -/
def Answers.Reorders (answers : Answers κ) (policy : KeyPolicy κ)
    (entries : Query → Except EvaluationFailure (List (Entry κ))) (q : Query) : Prop :=
  answers.ValidFor q → ∀ {p es fs}, q.Reordered p → entries q = .ok es → entries p = .ok fs →
    MatchedByKey policy es fs

/-- Siblings that are reordered one by one resolve to matching entries if each of them does. -/
theorem matched_of_resolveAll {effects : Effects (Except EvaluationFailure) κ}
    {qs ms : List Query} {rs ss : List (Resolved κ)} (hqs : List.Forall₂ Query.Reordered qs ms)
    (hvalid : ∀ q ∈ qs, answers.ValidFor q)
    (ih : ∀ q ∈ qs, answers.Reorders policy effects.resolve q)
    (hrs : List.Forall₂ (fun q r => q = r.1 ∧ effects.resolve q = .ok r.2) qs rs)
    (hss : List.Forall₂ (fun q s => q = s.1 ∧ effects.resolve q = .ok s.2) ms ss) :
    List.Forall₂ (Resolved.Matched policy) rs ss := by
  -- both lists of siblings are resolved in step
  induction hqs generalizing rs ss with
  | nil =>
    cases hrs
    cases hss
    exact .nil
  | cons hqm _ ihqs =>
    obtain _ | ⟨⟨rfl, hr⟩, hrs⟩ := hrs
    obtain _ | ⟨⟨rfl, hs⟩, hss⟩ := hss
    obtain ⟨hq, hvalid⟩ := List.forall_mem_cons.1 hvalid
    obtain ⟨ihq, ih⟩ := List.forall_mem_cons.1 ih
    exact .cons ⟨hqm, ihq hq hqm hr hs⟩ (ihqs hvalid ih hrs hss)

/-- A level finds matching entries if its siblings resolve to such. -/
theorem reorders_level (h : policy.Lawful) {q : Query}
    (ih : ∀ s ∈ q.siblings, answers.Reorders policy (answers.greatest policy).resolve s) :
    answers.Reorders policy (answers.greatest policy).found q := by
  intro hq p es fs hqp hes hfs
  obtain ⟨rs, hrs, hvalid, hfound⟩ := level_greatest h hq
  obtain ⟨ss, hss, hvalid', hfound'⟩ := level_greatest h (hq.reordered hqp)
  obtain rfl := Except.ok.inj (hfound.symm.trans hes)
  obtain rfl := Except.ok.inj (hfound'.symm.trans hfs)
  -- the siblings of `p` are those of `q` reordered inside, up to their order
  obtain ⟨ms, hqs, hperm⟩ := hqp.siblings
  obtain ⟨ts, hts, hperm'⟩ := List.perm_comp_forall₂ hperm (resolveAll_eq_ok_iff.1 hss)
  have hmatched : List.Forall₂ (Resolved.Matched policy) rs ts :=
    matched_of_resolveAll hqs (fun s hs => hq.sibling hs) ih (resolveAll_eq_ok_iff.1 hrs) hts
  exact matched_groups h _ _ (weightsIn_survivors hvalid) (weightsIn_survivors hvalid')
    ((matched_survivors h hmatched).trans (.of_perm (survivors_perm hperm')))

/-- What a query finds matches what its reorderings find. -/
theorem reorders_found (answers : Answers κ) (h : policy.Lawful) (q : Query) :
    answers.Reorders policy (answers.greatest policy).found q := by
  have hsame : ∀ {x : Except EvaluationFailure (List (Entry κ))} {es fs},
      x = .ok es → x = .ok fs → MatchedByKey policy es fs := by
    rintro _ es _ rfl ⟨⟩
    exact fun k => .refl _
  -- only a query of the same kind is a reordering, so each case takes its own constructor apart
  refine (Query.induct_levels
    (R := answers.Reorders policy (answers.greatest policy).resolve)
    (L := answers.Reorders policy (answers.greatest policy).found)
    ?nothing ?value ?group ?required ?excluded (fun q => reorders_level h) q).2
  case nothing => intro _ _ _ _ hqp; cases hqp; exact hsame
  case value => intro _ _ _ _ _ _ hqp; cases hqp; exact hsame
  case required => intro _ ih hq _ _ _ hqp; cases hqp with | required hqp => exact ih hq hqp
  case excluded => intro _ ih hq _ _ _ hqp; cases hqp with | excluded hqp => exact ih hq hqp
  case group =>
    intro qs ih hq _ _ _ hqp
    cases hqp with
    | group hqs hps =>
      rw [Effects.resolve_group, Effects.resolve_group]
      exact ih hq (.group hqs hps)

/-- Evaluations of two queries that differ in the order of siblings succeed if all weights in the
answers are valid. They find one entry for each of the same keys; put in the same order, these have
the same weights, and the same places up to their order. -/
theorem evaluate_reordered {indexes : Indexes κ} (h : indexes.policy.Lawful) {q p : Query}
    (hqp : q.Reordered p) (hgives : ∀ l ∈ q.leaves, indexes.Gives answers (fun _ => False) l.1 l.2)
    (hvalid : answers.ValidFor q) {c₁ c₂ : Caches κ} (h₁ : c₁.Coherent answers)
    (h₂ : c₂.Coherent answers) :
    ∃ es fs, (evaluate indexes WeightRule.max.combine c₁ q).result = .ok es ∧
      (evaluate indexes WeightRule.max.combine c₂ p).result = .ok fs ∧
      es.Pairwise (fun d e => indexes.policy.same d.key e.key = false) ∧
      ∃ ds, ds.Perm fs ∧ List.Forall₂ (fun e d => indexes.policy.same e.key d.key = true ∧
        e.weight = d.weight ∧ e.locations.Perm d.locations) es ds := by
  obtain ⟨es, hes, hesvalid, hespairwise⟩ := found_greatest h hvalid
  obtain ⟨fs, hfs, hfsvalid, hfspairwise⟩ := found_greatest h (hvalid.reordered hqp)
  -- matching compares keys without regard to order; the order is put right at the end only
  have hmatch := reorders_found answers h q hvalid hqp hes hfs
  refine ⟨es, fs, ?_, ?_, hespairwise,
    hmatch.exists_perm h hespairwise hfspairwise hesvalid hfsvalid⟩
  · rw [evaluate_result _ h₁ hgives]
    exact hes
  · rw [evaluate_result _ h₂ fun l hl => hgives l (hqp.leaves_subset hl)]
    exact hfs

end

/-- Keys are the same if they have the same last digit. Members are moved in both groups, marked
ones before and behind the others: the entries change places and are spelled as `c` has them, and
the places of 1 come in another order. -/
theorem evaluate_reordered_lastDigit :
    let u : Weight := .finite false ⟨1, Format.binary32_has_one⟩
    let v : Weight := .finite false ⟨2, Format.binary32_has_two⟩
    let entry (k : Nat) (w : Weight) : Entry Nat := ⟨k, w, [⟨0, k, 0, 1⟩]⟩
    let answers : Answers Nat := fun _ term => match term with
      | "a" => [entry 1 u, entry 2 v]
      | "b" => [entry 11 v, entry 3 u]
      | "c" => [entry 12 u, entry 21 u]
      | _ => [entry 13 u]
    let policy : KeyPolicy Nat := ⟨fun k l => k % 10 == l % 10⟩
    let a : Query := .value .standard "a"
    let b : Query := .value .precise "b"
    let c : Query := .value .standard "c"
    let d : Query := .value .precise "d"
    let q : Query := .group [a, .required (.group [b, c]), .excluded d]
    let p : Query := .group [.excluded d, .required (.group [c, b]), a]
    let run (q : Query) :=
      (evaluate (answers.indexes policy) WeightRule.max.combine (.new true) q).result
    let es : List (Entry Nat) := [⟨1, v, [⟨0, 1, 0, 1⟩, ⟨0, 11, 0, 1⟩, ⟨0, 21, 0, 1⟩]⟩,
      ⟨2, v, [⟨0, 2, 0, 1⟩, ⟨0, 12, 0, 1⟩]⟩]
    let fs : List (Entry Nat) := [⟨12, v, [⟨0, 12, 0, 1⟩, ⟨0, 2, 0, 1⟩]⟩,
      ⟨21, v, [⟨0, 21, 0, 1⟩, ⟨0, 11, 0, 1⟩, ⟨0, 1, 0, 1⟩]⟩]
    policy.Lawful ∧ q.Reordered p ∧ answers.ValidFor q ∧
    (∀ l ∈ q.leaves, (answers.indexes policy).Gives answers (fun _ => False) l.1 l.2) ∧
    (Caches.new true).Coherent answers ∧ run q = .ok es ∧ run p = .ok fs ∧
    ∃ ds, ds.Perm fs ∧ List.Forall₂ (fun e d => policy.same e.key d.key = true ∧
      e.weight = d.weight ∧ e.locations.Perm d.locations) es ds := by
  intro u v entry answers policy a b c d q p run es fs
  have hlaw : (answers.indexes policy).policy.Lawful := KeyPolicy.lawful_beq fun k => k % 10
  have hinner : (Query.group [b, c]).Reordered (.group [c, b]) :=
    .group (.cons (.value _ _) (.cons (.value _ _) .nil)) (.swap _ _ [])
  have hqp : q.Reordered p :=
    .group (.cons (.value _ _) (.cons (.required hinner) (.cons (.excluded (.value _ _)) .nil)))
      (List.reverse_perm [a, .required (.group [c, b]), .excluded d]).symm
  have hvalid : answers.ValidFor q := by
    show ∀ l ∈ q.leaves, ∀ e ∈ answers l.1 l.2, e.weight.isValid = true
    decide +kernel
  have hgives : ∀ l ∈ q.leaves, (answers.indexes policy).Gives answers (fun _ => False) l.1 l.2 :=
    fun _ _ _ => rfl
  have hcaches := Caches.coherent_new answers true
  have hes : run q = .ok es := by decide +kernel
  have hfs : run p = .ok fs := by decide +kernel
  obtain ⟨es', fs', hes', hfs', -, hds⟩ :=
    evaluate_reordered hlaw hqp hgives hvalid hcaches hcaches
  obtain rfl : es = es' := Except.ok.inj (hes.symm.trans hes')
  obtain rfl : fs = fs' := Except.ok.inj (hfs.symm.trans hfs')
  exact ⟨hlaw, hqp, hvalid, hgives, hcaches, hes, hfs, hds⟩

end WeightedSearch
