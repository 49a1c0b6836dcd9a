/-
Evaluation and nesting.

In a query without marks it makes no difference how its values are nested in groups.  At each level
entries that have been merged are put among others and merged with them once more; but the first
entry of a key stays the first, its places stay in order, and a greatest weight made of greatest
weights is the greatest of all.  Main statements:

* `merged_of_found` — what a query without marks finds is merged, in several steps, from the entries
  of its values;
* `Merged.firsts_keys`, `Merged.samePlaces`, `Merged.sameBounds` — what such steps leave as it is;
* `evaluate_flat` — the evaluation of a query and of the single group of its values.
-/
import WeightedSearch.Proofs.Evaluation.Greatest
import WeightedSearch.Proofs.Evaluation.Meaning
import WeightedSearch.Proofs.Evaluation.Provenance

namespace WeightedSearch

open Grouping

variable {κ : Type} {policy : KeyPolicy κ} {combiner : Combiner}

namespace Query

/-! ### Queries without marks -/

mutual

/-- Whether nothing in the query is required or excluded. -/
def isPlain : Query → Bool
  | .nothing => true
  | .value _ _ => true
  | .group qs => allPlain qs
  | .required _ => false
  | .excluded _ => false

/-- Whether every query of a list is without marks. -/
def allPlain : List Query → Bool
  | [] => true
  | q :: qs => isPlain q && allPlain qs

end

theorem allPlain_iff {qs : List Query} : allPlain qs = true ↔ ∀ q ∈ qs, q.isPlain = true := by
  induction qs with
  | nil => simp [allPlain]
  | cons q qs ih => simp [allPlain, ih]

theorem isPlain_of_mem_siblings {q s : Query} (hq : q.isPlain = true) (hs : s ∈ q.siblings) :
    s.isPlain = true := by
  cases q with
  | group qs => exact allPlain_iff.1 hq s hs
  | _ => rwa [List.mem_singleton.1 hs]

theorem isRequired_of_isPlain {q : Query} (hq : q.isPlain = true) : q.isRequired = false := by
  cases q with
  | required q => cases hq
  | _ => rfl

theorem isExcluded_of_isPlain {q : Query} (hq : q.isPlain = true) : q.isExcluded = false := by
  cases q with
  | excluded q => cases hq
  | _ => rfl

/-- The single group of the values of a query. -/
def flat (q : Query) : Query :=
  .group (q.leaves.map fun l => .value l.1 l.2)

theorem leaves_flat (q : Query) : q.flat.leaves = q.leaves := by
  rw [flat, leaves]
  induction q.leaves with
  | nil => rfl
  | cons l ls ih => rw [List.map_cons, leavesAll, ih, leaves, List.singleton_append]

theorem isPlain_flat (q : Query) : q.flat.isPlain = true :=
  allPlain_iff.2 (List.forall_mem_map.2 fun _ _ => rfl)

end Query

/-! ### Merging in several steps -/

/-- Whether entries come from others by merging: parts of these are merged, among each other and
with parts that have been merged before, as often as one likes. -/
inductive Merged (policy : KeyPolicy κ) (combiner : Combiner) :
    List (Entry κ) → List (Entry κ) → Prop
  | refl (es : List (Entry κ)) : Merged policy combiner es es
  | append {es es' fs fs' : List (Entry κ)} : Merged policy combiner es fs →
    Merged policy combiner es' fs' → Merged policy combiner (es ++ es') (fs ++ fs')
  | merge (siblings : List Query) {es fs : List (Entry κ)} : Merged policy combiner es fs →
    Merged policy combiner (groups policy combiner siblings es) fs

section

variable {es fs : List (Entry κ)}

/-- Merging leaves the places of each key as they are. -/
theorem Merged.samePlaces (h : policy.Lawful) (hm : Merged policy combiner es fs) (k : κ) :
    SamePlaces (ofKey policy es k) (ofKey policy fs k) := by
  induction hm with
  | refl es => exact .refl _
  | append _ _ ih ih' =>
    rw [ofKey_append, ofKey_append]
    exact ih.append ih'
  | merge siblings _ ih => exact (samePlaces_groups h combiner siblings _ k).trans ih

/-- Merging keeps the first entries of the keys in order. -/
theorem Merged.firsts_keys (h : policy.Lawful) (hm : Merged policy combiner es fs) :
    (firsts policy es).map (·.key) = (firsts policy fs).map (·.key) := by
  induction hm with
  | refl es => rfl
  | @append es es' fs fs' hes _ ih ih' =>
    -- a further entry is of a new key among the merged ones if it is among all
    have hany : ∀ k, (es.any fun e => policy.same e.key k)
        = fs.any fun f => policy.same f.key k := by
      intro k
      simp only [h.same_comm _ k]
      rw [Bool.eq_iff_iff, any_iff_ofKey_ne_nil, any_iff_ofKey_ne_nil]
      exact (hes.samePlaces h k).nil.not
    have hnew : ∀ ds : List (Entry κ),
        (ds.filter fun d => !es.any fun e => policy.same e.key d.key).map (·.key)
          = (ds.map (·.key)).filter fun k => !fs.any fun f => policy.same f.key k := by
      intro ds
      simp only [hany, List.filter_map, Function.comp_def]
    rw [firsts_append, firsts_append, List.map_append, List.map_append, ih, hnew, ih']
    simp only [List.filter_map, Function.comp_def]
  | merge siblings _ ih =>
    rw [firsts_of_pairwise (pairwise_groups policy combiner siblings _), ← ih, groups, List.map_map]
    rfl

/-- Merging with the greatest weights keeps them valid, and keeps the bounds of the weights of each
key. -/
theorem Merged.sameBounds (h : policy.Lawful) (hm : Merged policy WeightRule.max.combine es fs)
    (hfs : WeightsIn (·.isValid = true) fs) :
    WeightsIn (·.isValid = true) es ∧ ∀ k, SameBounds (ofKey policy es k) (ofKey policy fs k) := by
  induction hm with
  | refl es => exact ⟨hfs, fun k => .refl _⟩
  | append _ _ ih ih' =>
    obtain ⟨hfs, hfs'⟩ := List.forall_mem_append.1 hfs
    obtain ⟨hvalid, hbounds⟩ := ih hfs
    obtain ⟨hvalid', hbounds'⟩ := ih' hfs'
    refine ⟨List.forall_mem_append.2 ⟨hvalid, hvalid'⟩, fun k => ?_⟩
    rw [ofKey_append, ofKey_append]
    exact (hbounds k).append (hbounds' k)
  | merge siblings _ ih =>
    obtain ⟨hvalid, hbounds⟩ := ih hfs
    exact ⟨weightsIn_groups h siblings hvalid, fun k =>
      (sameBounds_groups h siblings hvalid k).trans (hbounds k)⟩

end

/-! ### Levels without marks -/

section

variable {answers : Answers κ}

/-- The entries of all values of a query. -/
def Answers.entries (answers : Answers κ) (q : Query) : List (Entry κ) :=
  q.leaves.flatMap fun l => answers l.1 l.2

theorem survivors_of_isPlain {rs : List (Resolved κ)} (hrs : ∀ r ∈ rs, r.1.isPlain = true) :
    Resolved.survivors policy rs = Resolved.accumulated rs := by
  have hrequired : (rs.any fun r => r.1.isRequired) = false :=
    List.any_eq_false.2 fun r hr => by simp [Query.isRequired_of_isPlain (hrs r hr)]
  have hexcluded : ∀ k, Resolved.findsKey policy Query.isExcluded rs k = false := fun k =>
    List.any_eq_false.2 fun r hr => by simp [Query.isExcluded_of_isPlain (hrs r hr)]
  -- nothing is excluded and nothing is required, so every key is kept
  refine List.filter_eq_self.2 fun e _ => ?_
  rw [Resolved.keeps, hexcluded, hrequired]
  rfl

/-- What siblings without marks bring to their level is merged from the entries of their values. -/
theorem merged_accumulated {rs : List (Resolved κ)} (hplain : ∀ r ∈ rs, r.1.isPlain = true)
    (hrs : ∀ r ∈ rs, Merged policy combiner r.2 (answers.entries r.1)) :
    Merged policy combiner (Resolved.accumulated rs)
      ((Query.leavesAll (rs.map Prod.fst)).flatMap fun l => answers l.1 l.2) := by
  induction rs with
  | nil => exact .refl []
  | cons r rs ih =>
    obtain ⟨hr, hplain⟩ := List.forall_mem_cons.1 hplain
    obtain ⟨hmerged, hrs⟩ := List.forall_mem_cons.1 hrs
    rw [Resolved.accumulated, List.flatMap_cons, Query.isExcluded_of_isPlain hr,
      if_neg Bool.false_ne_true, List.map_cons, Query.leavesAll, List.flatMap_append]
    exact .append hmerged (ih hplain hrs)

/-- What a query without marks finds is merged from the entries of its values. -/
theorem merged_of_found (h : policy.Lawful) {q : Query} (hq : q.isPlain = true)
    {es : List (Entry κ)} (hes : (answers.replies.effects policy combiner).found q = .ok es) :
    Merged policy combiner es (answers.entries q) := by
  revert hq es
  refine (Query.induct_levels
    (R := fun q => q.isPlain = true → ∀ {es},
      (answers.replies.effects policy combiner).resolve q = .ok es →
        Merged policy combiner es (answers.entries q))
    (L := fun q => q.isPlain = true → ∀ {es},
      (answers.replies.effects policy combiner).found q = .ok es →
        Merged policy combiner es (answers.entries q))
    ?nothing ?value ?group (fun _ _ hq => nomatch hq) (fun _ _ hq => nomatch hq) ?level q).2
  case nothing =>
    rintro - _ ⟨⟩
    exact .refl []
  case value =>
    rintro m text - _ ⟨⟩
    rw [Answers.entries, Query.leaves, List.flatMap_singleton]
    exact .refl _
  case group =>
    intro qs ih hq es
    rw [Effects.resolve_group]
    exact ih hq
  case level =>
    intro q ih hq es hes
    rw [Effects.found_eq_reduce] at hes
    obtain ⟨rs, hrs, -, rfl⟩ := (reduce_eq_ok_iff h).1 hes
    obtain ⟨hfst, hresolve⟩ := resolve_of_resolveAll hrs
    have hmem : ∀ r ∈ rs, r.1 ∈ q.siblings := fun r hr => hfst ▸ List.mem_map_of_mem hr
    have hplain : ∀ r ∈ rs, r.1.isPlain = true := fun r hr =>
      Query.isPlain_of_mem_siblings hq (hmem r hr)
    -- the siblings merged their own values, and what they bring is merged once more
    have hmerged := merged_accumulated hplain fun r hr =>
      ih r.1 (hmem r hr) (hplain r hr) (hresolve r hr)
    rw [hfst, Query.leavesAll_siblings, ← survivors_of_isPlain hplain] at hmerged
    exact .merge _ hmerged

end

/-! ### Whole evaluations -/

section

variable {es fs : List (Entry κ)}

/-- Entries with the same keys in the same order agree in what those of equal keys agree in. -/
theorem map_eq_map_of_keys {α : Type} {f : Entry κ → α} (hkeys : es.map (·.key) = fs.map (·.key))
    (hf : ∀ d ∈ es, ∀ e ∈ fs, d.key = e.key → f d = f e) : es.map f = fs.map f := by
  induction es generalizing fs with
  | nil =>
    cases fs with
    | nil => rfl
    | cons e fs => cases hkeys
  | cons d es ih =>
    cases fs with
    | nil => cases hkeys
    | cons e fs =>
      obtain ⟨hkey, hkeys⟩ := List.cons.inj hkeys
      obtain ⟨hd, hes⟩ := List.forall_mem_cons.1 hf
      rw [List.map_cons, List.map_cons, hd e List.mem_cons_self hkey,
        ih hkeys fun d hd e he => hes d hd e (List.mem_cons_of_mem _ he)]

/-- Where each key has one entry, what holds of the entries of each key holds of the single ones. -/
theorem rel_of_ofKey (h : policy.Lawful) {P : List (Entry κ) → List (Entry κ) → Prop}
    (hes : es.Pairwise fun d e => policy.same d.key e.key = false)
    (hfs : fs.Pairwise fun d e => policy.same d.key e.key = false)
    (hP : ∀ k, P (ofKey policy es k) (ofKey policy fs k)) :
    ∀ d ∈ es, ∀ e ∈ fs, d.key = e.key → P [d] [e] := by
  intro d hd e he hkey
  have hboth := hP d.key
  rwa [ofKey_of_pairwise h hes hd, hkey, ofKey_of_pairwise h hfs he] at hboth

end

section

variable {answers : Answers κ} {q : Query} {es fs : List (Entry κ)}

theorem merged_of_found_flat (h : policy.Lawful)
    (hfs : (answers.replies.effects policy combiner).found q.flat = .ok fs) :
    Merged policy combiner fs (answers.entries q) := by
  have hmerged := merged_of_found h q.isPlain_flat hfs
  rwa [Answers.entries, Query.leaves_flat] at hmerged

theorem map_key_flat (h : policy.Lawful) (hq : q.isPlain = true)
    (hes : (answers.replies.effects policy combiner).found q = .ok es)
    (hfs : (answers.replies.effects policy combiner).found q.flat = .ok fs) :
    es.map (·.key) = fs.map (·.key) := by
  rw [← firsts_of_pairwise (pairwise_of_found h hes), (merged_of_found h hq hes).firsts_keys h,
    ← firsts_of_pairwise (pairwise_of_found h hfs), (merged_of_found_flat h hfs).firsts_keys h]

theorem locations_flat (h : policy.Lawful) (hq : q.isPlain = true)
    (hes : (answers.replies.effects policy combiner).found q = .ok es)
    (hfs : (answers.replies.effects policy combiner).found q.flat = .ok fs) :
    ∀ d ∈ es, ∀ e ∈ fs, d.key = e.key → d.locations = e.locations := by
  intro d hd e he hkey
  have hplaces : SamePlaces [d] [e] :=
    rel_of_ofKey h (pairwise_of_found h hes) (pairwise_of_found h hfs) (fun k =>
      ((merged_of_found h hq hes).samePlaces h k).trans
        ((merged_of_found_flat h hfs).samePlaces h k).symm) d hd e he hkey
  simpa using hplaces.locations

theorem weight_flat (h : policy.Lawful) (hq : q.isPlain = true) (hvalid : answers.ValidFor q)
    (hes : (answers.greatest policy).found q = .ok es)
    (hfs : (answers.greatest policy).found q.flat = .ok fs) :
    ∀ d ∈ es, ∀ e ∈ fs, d.key = e.key → d.weight = e.weight := by
  intro d hd e he hkey
  have hentries : WeightsIn (·.isValid = true) (answers.entries q) := by
    intro e he
    obtain ⟨l, hl, he⟩ := List.mem_flatMap.1 he
    exact hvalid l hl e he
  obtain ⟨hesvalid, hesbounds⟩ := (merged_of_found h hq hes).sameBounds h hentries
  obtain ⟨hfsvalid, hfsbounds⟩ := (merged_of_found_flat h hfs).sameBounds h hentries
  have hbounds : SameBounds [d] [e] :=
    rel_of_ofKey h (pairwise_of_found h hes) (pairwise_of_found h hfs)
      (fun k => (hesbounds k).trans (hfsbounds k).symm) d hd e he hkey
  exact hbounds.weight_eq (hesvalid d hd) (hfsvalid e he)

theorem eq_flat (h : policy.Lawful) (hq : q.isPlain = true) (hvalid : answers.ValidFor q)
    (hes : (answers.greatest policy).found q = .ok es)
    (hfs : (answers.greatest policy).found q.flat = .ok fs) : es = fs := by
  have hmap : es.map id = fs.map id := by
    refine map_eq_map_of_keys (map_key_flat h hq hes hfs) fun d hd e he hkey => ?_
    have hweight := weight_flat h hq hvalid hes hfs d hd e he hkey
    have hlocations := locations_flat h hq hes hfs d hd e he hkey
    exact (Entry.mk.injEq ..).mpr ⟨hkey, hweight, hlocations⟩
  rwa [List.map_id, List.map_id] at hmap

/-- Evaluations of a query without marks and of the single group of its values find the same keys,
spelled alike and in the same order, with the same places, whatever the weights are that the
combiner makes. If it makes the greatest ones of weights that are valid, they find the same entries.
-/
theorem evaluate_flat {indexes : Indexes κ} (h : indexes.policy.Lawful) (hq : q.isPlain = true)
    (hgives : ∀ l ∈ q.leaves, indexes.Gives answers (fun _ => False) l.1 l.2) {c₁ c₂ : Caches κ}
    (h₁ : c₁.Coherent answers) (h₂ : c₂.Coherent answers) :
    (∀ combiner : Combiner, combiner.Valid → ∃ es fs,
      (evaluate indexes combiner c₁ q).result = .ok es ∧
      (evaluate indexes combiner c₂ q.flat).result = .ok fs ∧
      es.map (·.key) = fs.map (·.key) ∧ es.map (·.locations) = fs.map (·.locations)) ∧
    (answers.ValidFor q → ∃ es,
      (evaluate indexes WeightRule.max.combine c₁ q).result = .ok es ∧
      (evaluate indexes WeightRule.max.combine c₂ q.flat).result = .ok es) := by
  have hflat : ∀ l ∈ q.flat.leaves, indexes.Gives answers (fun _ => False) l.1 l.2 := by
    rwa [Query.leaves_flat]
  -- keys and places do not depend on the combiner; weights do, unless it makes the greatest
  constructor
  · intro combiner hcombiner
    obtain ⟨es, hes, -⟩ := found_keys answers h hcombiner q
    obtain ⟨fs, hfs, -⟩ := found_keys answers h hcombiner q.flat
    refine ⟨es, fs, (evaluate_result _ h₁ hgives).trans hes,
      (evaluate_result _ h₂ hflat).trans hfs, map_key_flat h hq hes hfs, ?_⟩
    exact map_eq_map_of_keys (map_key_flat h hq hes hfs) (locations_flat h hq hes hfs)
  · intro hvalid
    have hvalid' : answers.ValidFor q.flat := by rwa [Answers.ValidFor, Query.leaves_flat]
    obtain ⟨es, hes, -⟩ := found_greatest h hvalid
    obtain ⟨fs, hfs, -⟩ := found_greatest h hvalid'
    obtain rfl : es = fs := eq_flat h hq hvalid hes hfs
    exact ⟨es, (evaluate_result _ h₁ hgives).trans hes, (evaluate_result _ h₂ hflat).trans hfs⟩

end

/-- Keys are the same if they have the same last digit. The innermost group spells its keys 2 and
21, but around it they are 1 and 12, as the first value has them. A combiner that looks at the
siblings makes other weights of them for each nesting, and finds the same places. -/
theorem evaluate_flat_lastDigit :
    let u : Weight := .finite false ⟨1, Format.binary32_has_one⟩
    let v : Weight := .finite false ⟨2, Format.binary32_has_two⟩
    let entry (k : Nat) (w : Weight) : Entry Nat := ⟨k, w, [⟨0, k, 0, 1⟩]⟩
    let answers : Answers Nat := fun _ term => match term with
      | "a" => [entry 1 u, entry 12 u]
      | "b" => [entry 2 v, entry 21 u]
      | _ => [entry 11 u, entry 3 v]
    let policy : KeyPolicy Nat := ⟨fun k l => k % 10 == l % 10⟩
    let a : Query := .value .standard "a"
    let b : Query := .value .precise "b"
    let c : Query := .value .standard "c"
    let q : Query := .group [.group [a, .nothing, .group [b, a]], c]
    let combiner : Combiner := fun _ siblings => if siblings.length = 2 then u else v
    let run (combiner : Combiner) (q : Query) :=
      (evaluate (answers.indexes policy) combiner (.new true) q).result
    let found (u v w : Weight) : List (Entry Nat) :=
      [⟨1, u, [⟨0, 1, 0, 1⟩, ⟨0, 21, 0, 1⟩, ⟨0, 1, 0, 1⟩, ⟨0, 11, 0, 1⟩]⟩,
        ⟨12, v, [⟨0, 12, 0, 1⟩, ⟨0, 2, 0, 1⟩, ⟨0, 12, 0, 1⟩]⟩, ⟨3, w, [⟨0, 3, 0, 1⟩]⟩]
    policy.Lawful ∧ q.isPlain = true ∧
    (∀ l ∈ q.leaves, (answers.indexes policy).Gives answers (fun _ => False) l.1 l.2) ∧
    (Caches.new true).Coherent answers ∧ combiner.Valid ∧ answers.ValidFor q ∧
    q.flat = .group [a, b, a, c] ∧
    run combiner q = .ok (found u u u) ∧ run combiner q.flat = .ok (found v v v) ∧
    (found u u u).map (·.key) = (found v v v).map (·.key) ∧
    (found u u u).map (·.locations) = (found v v v).map (·.locations) ∧
    run WeightRule.max.combine q = .ok (found u v v) ∧
    run WeightRule.max.combine q.flat = .ok (found u v v) := by
  intro u v entry answers policy a b c q combiner run found
  have hlaw : (answers.indexes policy).policy.Lawful := KeyPolicy.lawful_beq fun k => k % 10
  have hplain : q.isPlain = true := rfl
  have hgives : ∀ l ∈ q.leaves, (answers.indexes policy).Gives answers (fun _ => False) l.1 l.2 :=
    fun _ _ _ => rfl
  have hcaches := Caches.coherent_new answers true
  have hcombiner : combiner.Valid := by
    have hu : u.isValid = true := by decide +kernel
    have hv : v.isValid = true := by decide +kernel
    intro ws siblings _
    dsimp only [combiner]
    split <;> assumption
  have hvalid : answers.ValidFor q := by
    show ∀ l ∈ q.leaves, ∀ e ∈ answers l.1 l.2, e.weight.isValid = true
    decide +kernel
  obtain ⟨hany, hgreatest⟩ := evaluate_flat hlaw hplain hgives hcaches hcaches
  obtain ⟨es, fs, hes, hfs, hkeys, hlocations⟩ := hany combiner hcombiner
  obtain ⟨ds, hds, hds'⟩ := hgreatest hvalid
  have hrun : run combiner q = .ok (found u u u) := by decide +kernel
  have hrun' : run combiner q.flat = .ok (found v v v) := by decide +kernel
  have hrunGreatest : run WeightRule.max.combine q = .ok (found u v v) := by decide +kernel
  obtain rfl : found u u u = es := Except.ok.inj (hrun.symm.trans hes)
  obtain rfl : found v v v = fs := Except.ok.inj (hrun'.symm.trans hfs)
  obtain rfl : found u v v = ds := Except.ok.inj (hrunGreatest.symm.trans hds)
  exact ⟨hlaw, hplain, hgives, hcaches, hcombiner, hvalid, rfl, hrun, hrun', hkeys, hlocations,
    hrunGreatest, hds'⟩

end WeightedSearch
