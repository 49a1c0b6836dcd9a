/-
The meaning of a query.

A query stands for a set of keys, built up from the keys of its values: the keys of siblings are put
together, or only those of required siblings where there are some, and the keys of excluded siblings
are taken away.  Main statements:

* `Query.keys_eq_siblingKeys` — a query stands for what the siblings at its level stand for;
* `Query.keys_ofList` — so does a list, whatever is dropped and unwrapped in it;
* `Query.siblingKeys_filter_isMarked` — next to a required sibling those without a mark count for
  nothing;
* `keysOf_survivors` — dropping entries at a level is what the meaning of its siblings says;
* `evaluate_keys` — an evaluation finds the keys that the query stands for.
-/
import Mathlib
import WeightedSearch.Proofs.Evaluation.Fixed

namespace WeightedSearch

variable {κ : Type}

/-- The keys of the entries, and all keys that are the same as one of these. -/
def keysOf (policy : KeyPolicy κ) (es : List (Entry κ)) : Set κ :=
  {k | ∃ e ∈ es, policy.same e.key k = true}

theorem mem_keysOf {policy : KeyPolicy κ} {es : List (Entry κ)} {k : κ} :
    k ∈ keysOf policy es ↔ ∃ e ∈ es, policy.same e.key k = true :=
  Iff.rfl

namespace Query

/-! ### The keys that a query stands for -/

/-- Whether the query is marked as required or excluded. -/
def isMarked (q : Query) : Bool :=
  q.isRequired || q.isExcluded

section

variable (answers : Answers κ) (policy : KeyPolicy κ)

mutual

/-- The keys that a query stands for. -/
def keys : Query → Set κ
  | .nothing => ∅
  | .value m text => keysOf policy (answers m text)
  | .group qs =>
    (if qs.any isRequired then requiredKeys qs else plainKeys qs) \ excludedKeys qs
  | .required q => keys q
  | .excluded _ => ∅

/-- The keys that the siblings without a mark stand for. -/
def plainKeys : List Query → Set κ
  | [] => ∅
  | q :: qs => (if q.isMarked then ∅ else keys q) ∪ plainKeys qs

/-- The keys that the insides of the required siblings stand for. -/
def requiredKeys : List Query → Set κ
  | [] => ∅
  | .required q :: qs => keys q ∪ requiredKeys qs
  | _ :: qs => requiredKeys qs

/-- The keys that the insides of the excluded siblings stand for. -/
def excludedKeys : List Query → Set κ
  | [] => ∅
  | .excluded q :: qs => keys q ∪ excludedKeys qs
  | _ :: qs => excludedKeys qs

end

/-- The keys that siblings stand for together. -/
def siblingKeys (qs : List Query) : Set κ :=
  (if qs.any isRequired then requiredKeys answers policy qs else plainKeys answers policy qs) \
    excludedKeys answers policy qs

/-- The keys that a sibling stands for, its mark aside. -/
def ownKeys : Query → Set κ
  | .excluded q => q.keys answers policy
  | q => q.keys answers policy

end

variable {answers : Answers κ} {policy : KeyPolicy κ} {qs : List Query} {k : κ}

theorem mem_plainKeys : k ∈ plainKeys answers policy qs ↔
    ∃ q ∈ qs, q.isMarked = false ∧ k ∈ q.ownKeys answers policy := by
  induction qs with
  | nil => simp [plainKeys]
  | cons q qs ih =>
    cases q <;> simp [plainKeys, ih, ownKeys, isMarked, isRequired, isExcluded]

theorem mem_requiredKeys : k ∈ requiredKeys answers policy qs ↔
    ∃ q ∈ qs, q.isRequired = true ∧ k ∈ q.ownKeys answers policy := by
  induction qs with
  | nil => simp [requiredKeys]
  | cons q qs ih => cases q <;> simp [requiredKeys, ih, ownKeys, isRequired, keys]

theorem mem_excludedKeys : k ∈ excludedKeys answers policy qs ↔
    ∃ q ∈ qs, q.isExcluded = true ∧ k ∈ q.ownKeys answers policy := by
  induction qs with
  | nil => simp [excludedKeys]
  | cons q qs ih => cases q <;> simp [excludedKeys, ih, ownKeys, isExcluded]

/-- A group stands for what its members stand for together, and any other query for what it stands
for as the only sibling at its level. -/
theorem keys_eq_siblingKeys (q : Query) :
    q.keys answers policy = siblingKeys answers policy q.siblings := by
  cases q <;>
    simp [keys, siblings, siblingKeys, plainKeys, requiredKeys, excludedKeys, isMarked, isRequired,
      isExcluded]

/-- Next to a required sibling the siblings without a mark count for nothing. -/
theorem siblingKeys_filter_isMarked (h : qs.any isRequired = true) :
    siblingKeys answers policy (qs.filter isMarked) = siblingKeys answers policy qs := by
  have hany : (qs.filter isMarked).any isRequired = true := by
    obtain ⟨q, hq, hreq⟩ := List.any_eq_true.1 h
    exact List.any_eq_true.2 ⟨q, List.mem_filter.2 ⟨hq, by simp [isMarked, hreq]⟩, hreq⟩
  ext k
  simp only [siblingKeys, h, hany, if_true, Set.mem_sdiff, mem_requiredKeys, mem_excludedKeys,
    List.mem_filter, isMarked, Bool.or_eq_true]
  grind

/-- What an excluded sibling stands for is taken away, wherever the sibling stands. -/
theorem disjoint_siblingKeys_of_excluded {q : Query} (h : .excluded q ∈ qs) :
    Disjoint (siblingKeys answers policy qs) (siblingKeys answers policy q.siblings) := by
  refine Set.disjoint_left.2 fun k hk hq => hk.2 (mem_excludedKeys.2 ⟨_, h, rfl, ?_⟩)
  rwa [← keys_eq_siblingKeys] at hq

theorem isNothing_of_mem_ownKeys {q : Query} {k : κ} (h : k ∈ q.ownKeys answers policy) :
    q.isNothing = false := by
  cases q with
  | nothing => exact absurd h (by simp [ownKeys, keys])
  | _ => rfl

theorem siblingKeys_filter_isNothing (qs : List Query) :
    siblingKeys answers policy (qs.filter fun q => !q.isNothing)
      = siblingKeys answers policy qs := by
  have hany : (qs.filter fun q => !q.isNothing).any isRequired = qs.any isRequired := by
    rw [List.any_filter]
    congr 1
    funext q
    cases q <;> rfl
  -- what asks for nothing stands for no keys, so no witness is lost
  have hmem : ∀ (kind : Query → Prop) (k : κ),
      (∃ q ∈ qs.filter (fun q => !q.isNothing), kind q ∧ k ∈ q.ownKeys answers policy) ↔
        ∃ q ∈ qs, kind q ∧ k ∈ q.ownKeys answers policy := by
    intro kind k
    constructor
    · rintro ⟨q, hq, hk⟩
      exact ⟨q, (List.mem_filter.1 hq).1, hk⟩
    · rintro ⟨q, hq, hkind, hk⟩
      exact ⟨q, List.mem_filter.2 ⟨hq, by simp [isNothing_of_mem_ownKeys hk]⟩, hkind, hk⟩
  ext k
  rw [siblingKeys, siblingKeys, hany, Set.mem_sdiff, Set.mem_sdiff, mem_excludedKeys,
    mem_excludedKeys, hmem]
  cases qs.any isRequired with
  | true => rw [if_pos rfl, if_pos rfl, mem_requiredKeys, mem_requiredKeys, hmem]
  | false =>
    rw [if_neg Bool.false_ne_true, if_neg Bool.false_ne_true, mem_plainKeys, mem_plainKeys, hmem]

theorem siblingKeys_singleton (q : Query) :
    siblingKeys answers policy [q] = q.keys answers policy := by
  cases q <;>
    simp [keys, siblingKeys, plainKeys, requiredKeys, excludedKeys, isMarked, isRequired,
      isExcluded]

theorem keys_ofList (qs : List Query) :
    (ofList qs).keys answers policy = siblingKeys answers policy qs := by
  rw [← siblingKeys_filter_isNothing, ofList]
  split
  · next h =>
    rw [h]
    simp [keys, siblingKeys, plainKeys, excludedKeys]
  · next q h => rw [h, siblingKeys_singleton]
  · next h =>
    rw [h, keys_eq_siblingKeys]
    rfl

end Query

section

variable {answers : Answers κ} {policy : KeyPolicy κ}

/-! ### The keys left at a level -/

theorem keysOf_filter {p : κ → Bool}
    (hp : ∀ a b, policy.same a b = true → p a = p b) (es : List (Entry κ)) (k : κ) :
    k ∈ keysOf policy (es.filter fun e => p e.key) ↔ k ∈ keysOf policy es ∧ p k = true := by
  constructor
  · rintro ⟨e, he, hek⟩
    obtain ⟨he, hpe⟩ := List.mem_filter.1 he
    exact ⟨⟨e, he, hek⟩, (hp _ _ hek).symm.trans hpe⟩
  · rintro ⟨⟨e, he, hek⟩, hpk⟩
    exact ⟨e, List.mem_filter.2 ⟨he, (hp _ _ hek).trans hpk⟩, hek⟩

theorem findsKey_iff (h : policy.Lawful) {rs : List (Resolved κ)}
    (hrs : ∀ r ∈ rs, keysOf policy r.2 = r.1.ownKeys answers policy) (kind : Query → Bool) (k : κ) :
    Resolved.findsKey policy kind rs k = true ↔
      ∃ q ∈ rs.map Prod.fst, kind q = true ∧ k ∈ q.ownKeys answers policy := by
  have hkeys : ∀ r ∈ rs, (r.2.any fun e => policy.same k e.key) = true ↔
      k ∈ r.1.ownKeys answers policy := by
    intro r hr
    rw [← hrs r hr, List.any_eq_true]
    simp only [h.same_comm k]
    rfl
  simp only [Resolved.findsKey, List.any_eq_true, Bool.and_eq_true, List.mem_map]
  constructor
  · rintro ⟨r, hr, hkind, hk⟩
    exact ⟨r.1, ⟨r, hr, rfl⟩, hkind, (hkeys r hr).1 (List.any_eq_true.2 hk)⟩
  · rintro ⟨_, ⟨r, hr, rfl⟩, hkind, hk⟩
    exact ⟨r, hr, hkind, List.any_eq_true.1 ((hkeys r hr).2 hk)⟩

theorem mem_keysOf_accumulated {rs : List (Resolved κ)}
    (hrs : ∀ r ∈ rs, keysOf policy r.2 = r.1.ownKeys answers policy) (k : κ) :
    k ∈ keysOf policy (Resolved.accumulated rs) ↔
      ∃ q ∈ rs.map Prod.fst, q.isExcluded = false ∧ k ∈ q.ownKeys answers policy := by
  simp only [mem_keysOf, Resolved.accumulated, List.mem_flatMap, List.mem_map]
  constructor
  · rintro ⟨e, ⟨r, hr, he⟩, hek⟩
    cases hex : r.1.isExcluded with
    | true => simp [hex] at he
    | false =>
      rw [hex] at he
      exact ⟨r.1, ⟨r, hr, rfl⟩, hex, hrs r hr ▸ ⟨e, he, hek⟩⟩
  · rintro ⟨_, ⟨r, hr, rfl⟩, hex, hk⟩
    rw [← hrs r hr] at hk
    obtain ⟨e, he, hek⟩ := hk
    exact ⟨e, ⟨r, hr, by simpa [hex] using he⟩, hek⟩

/-- A key survives if a sibling brings it, none excludes it, and a required one finds it where there
is one. -/
theorem mem_keysOf_survivors (h : policy.Lawful) (rs : List (Resolved κ)) (k : κ) :
    k ∈ keysOf policy (Resolved.survivors policy rs) ↔
      k ∈ keysOf policy (Resolved.accumulated rs) ∧
      Resolved.findsKey policy Query.isExcluded rs k = false ∧
      ((rs.map Prod.fst).any Query.isRequired = true →
        Resolved.findsKey policy Query.isRequired rs k = true) := by
  rw [Resolved.survivors, keysOf_filter fun _ _ hab => keeps_congr h rs hab, List.any_map]
  refine and_congr_right fun _ => ?_
  cases hreq : rs.any fun r => r.1.isRequired <;>
    simp [Resolved.keeps, hreq, Function.comp_def]

/-- What is left of the entries at a level are those of the keys that its siblings stand for. -/
theorem keysOf_survivors (h : policy.Lawful) {rs : List (Resolved κ)}
    (hrs : ∀ r ∈ rs, keysOf policy r.2 = r.1.ownKeys answers policy) :
    keysOf policy (Resolved.survivors policy rs)
      = Query.siblingKeys answers policy (rs.map Prod.fst) := by
  ext k
  have hexcluded := findsKey_iff h hrs Query.isExcluded k
  have hrequired := findsKey_iff h hrs Query.isRequired k
  rw [← Query.mem_excludedKeys] at hexcluded
  rw [← Query.mem_requiredKeys] at hrequired
  rw [mem_keysOf_survivors h, mem_keysOf_accumulated hrs, ← Bool.not_eq_true, hexcluded, hrequired,
    Query.siblingKeys, Set.mem_sdiff]
  cases hreq : (rs.map Prod.fst).any Query.isRequired with
  | true =>
    -- what a required sibling finds is always among the entries of the level
    have hmem : k ∈ Query.requiredKeys answers policy (rs.map Prod.fst) →
        ∃ q ∈ rs.map Prod.fst, q.isExcluded = false ∧ k ∈ q.ownKeys answers policy := by
      intro hk
      obtain ⟨q, hq, hqreq, hk⟩ := Query.mem_requiredKeys.1 hk
      exact ⟨q, hq, by cases q <;> simp_all [Query.isRequired, Query.isExcluded], hk⟩
    rw [if_pos rfl]
    constructor
    · rintro ⟨-, hnot, hk⟩
      exact ⟨hk rfl, hnot⟩
    · rintro ⟨hk, hnot⟩
      exact ⟨hmem hk, hnot, fun _ => hk⟩
  | false =>
    -- without required siblings, those that are not excluded have no mark at all
    have hplain : ∀ q ∈ rs.map Prod.fst, q.isMarked = q.isExcluded := by
      intro q hq
      rw [Query.isMarked, Bool.eq_false_iff.2 (List.any_eq_false.1 hreq q hq), Bool.false_or]
    rw [if_neg Bool.false_ne_true, Query.mem_plainKeys]
    constructor
    · rintro ⟨⟨q, hq, hmark, hk⟩, hnot, -⟩
      exact ⟨⟨q, hq, (hplain q hq).trans hmark, hk⟩, hnot⟩
    · rintro ⟨⟨q, hq, hmark, hk⟩, hnot⟩
      exact ⟨⟨q, hq, (hplain q hq).symm.trans hmark, hk⟩, hnot, fun hfalse =>
        absurd hfalse Bool.false_ne_true⟩

/-- The first entries have all keys. -/
theorem keysOf_firsts (h : policy.Lawful) (es : List (Entry κ)) :
    keysOf policy (Grouping.firsts policy es) = keysOf policy es := by
  ext k
  constructor
  · rintro ⟨e, he, hek⟩
    exact ⟨e, (Grouping.firsts_sublist es).subset he, hek⟩
  · rintro ⟨e, he, hek⟩
    obtain ⟨d, hd, hde⟩ := Grouping.exists_mem_firsts h he
    exact ⟨d, hd, h.trans _ _ _ hde hek⟩

/-! ### Evaluations find these keys -/

/-- Whether a combiner makes a valid weight of any weights. -/
def Combiner.Valid (combiner : Combiner) : Prop :=
  ∀ ws siblings, ws ≠ [] → (combiner ws siblings).isValid = true

/-- Merging leaves the keys as they are: weights and places are new, but the keys are those of the
first entries. -/
theorem keysOf_groups (h : policy.Lawful) (combiner : Combiner) (siblings : List Query)
    (es : List (Entry κ)) :
    keysOf policy (Grouping.groups policy combiner siblings es) = keysOf policy es := by
  rw [← keysOf_firsts h es]
  ext k
  simp [mem_keysOf, Grouping.groups]

/-- What a query finds has the keys it stands for, if the weights that are made are valid. -/
theorem found_keys (answers : Answers κ) (h : policy.Lawful) {combiner : Combiner}
    (hvalid : combiner.Valid) (q : Query) :
    ∃ es, (answers.effects policy combiner).found q = .ok es ∧
      keysOf policy es = q.keys answers policy := by
  rw [show answers.effects policy combiner = answers.replies.effects policy combiner from rfl]
  -- a sibling is resolved to the keys of its inside, a query finds those it stands for; the two
  -- differ for an excluded query only
  refine (Query.induct_levels
    (R := fun q => ∃ es, (answers.replies.effects policy combiner).resolve q = .ok es ∧
      keysOf policy es = q.ownKeys answers policy)
    (L := fun q => ∃ es, (answers.replies.effects policy combiner).found q = .ok es ∧
      keysOf policy es = q.keys answers policy)
    ⟨[], rfl, by simp [keysOf, Query.ownKeys, Query.keys]⟩ (fun m text => ⟨_, rfl, rfl⟩) ?group
    (fun _ ih => ih) (fun _ ih => ih) ?level q).2
  case group =>
    intro qs ih
    rw [Effects.resolve_group]
    exact ih
  case level =>
    intro q ih
    obtain ⟨rs, -, hfst, hkeys, hfound⟩ := found_of_siblings h
      (P := fun s es => keysOf policy es = s.ownKeys answers policy) ih
      fun rs _ e he => hvalid _ _ (Grouping.weights_ne_nil h he)
    refine ⟨_, hfound, ?_⟩
    rw [keysOf_groups h, keysOf_survivors h hkeys, hfst, ← Query.keys_eq_siblingKeys]

end

/-- An evaluation whose lookups succeed and whose weights are valid finds the keys that the siblings
at the level of the query stand for. If one of these is required, those without a mark have no part
in it; what one of them excludes is not found. -/
theorem evaluate_keys {indexes : Indexes κ} (h : indexes.policy.Lawful) {combiner : Combiner}
    (hvalid : combiner.Valid) {answers : Answers κ}
    {caches : Caches κ} (hc : caches.Coherent answers) {q : Query}
    (hq : ∀ l ∈ q.leaves, indexes.Gives answers (fun _ => False) l.1 l.2) :
    ∃ es, (evaluate indexes combiner caches q).result = .ok es ∧
      keysOf indexes.policy es = Query.siblingKeys answers indexes.policy q.siblings ∧
      (q.siblings.any Query.isRequired = true → keysOf indexes.policy es
        = Query.siblingKeys answers indexes.policy (q.siblings.filter Query.isMarked)) ∧
      ∀ p, .excluded p ∈ q.siblings →
        Disjoint (keysOf indexes.policy es)
          (Query.siblingKeys answers indexes.policy p.siblings) := by
  obtain ⟨es, hes, hkeys⟩ := found_keys answers h hvalid q
  rw [Query.keys_eq_siblingKeys] at hkeys
  refine ⟨es, ?_, hkeys, fun hreq => ?_, fun p hp => ?_⟩
  · -- coherent caches make no difference to what is found
    rw [evaluate_result combiner hc hq, hes]
  · rw [hkeys, Query.siblingKeys_filter_isMarked hreq]
  · rw [hkeys]
    exact Query.disjoint_siblingKeys_of_excluded hp

/-- Keys are the same if they have the same last digit: of the keys that `a` and `b` find, the
required group lacks 2 and leaves out 3, and 24 excludes 4. -/
theorem evaluate_keys_lastDigit :
    let w : Weight := .finite false ⟨1, Format.binary32_has_one⟩
    let combiner : Combiner := fun _ _ => w
    let answers : Answers Nat := fun _ term => (match term with
      | "a" => [1, 2]
      | "b" => [3, 4, 11]
      | "c" => [13]
      | _ => [24]).map fun k => ⟨k, w, []⟩
    let policy : KeyPolicy Nat := ⟨fun k l => k % 10 == l % 10⟩
    let q : Query := .group [.value .standard "a", .excluded (.value .precise "d"),
      .required (.group [.value .standard "b", .excluded (.required (.value .precise "c"))])]
    policy.Lawful ∧ combiner.Valid ∧
    ∃ es, (evaluate (answers.indexes policy) combiner (.new true) q).result = .ok es ∧
      es.map (·.key) = [1] ∧ keysOf policy es = Query.siblingKeys answers policy q.siblings := by
  intro w combiner answers policy q
  have hlaw : (answers.indexes policy).policy.Lawful := KeyPolicy.lawful_beq fun k => k % 10
  have hvalid : combiner.Valid := fun _ _ _ => by decide +kernel
  have hq : ∀ l ∈ q.leaves, (answers.indexes policy).Gives answers (fun _ => False) l.1 l.2 :=
    fun _ _ _ => rfl
  have hrun : (evaluate (answers.indexes policy) combiner (.new true) q).result
      = .ok [⟨1, w, []⟩] := by decide +kernel
  obtain ⟨es, hes, hkeys, -⟩ := evaluate_keys hlaw hvalid (Caches.coherent_new answers true) hq
  obtain rfl : [⟨1, w, []⟩] = es := Except.ok.inj (hrun.symm.trans hes)
  exact ⟨hlaw, hvalid, _, hes, rfl, hkeys⟩

end WeightedSearch
