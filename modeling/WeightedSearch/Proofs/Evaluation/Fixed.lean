/-
Evaluation over indexes with fixed answers.

Suppose that an index answers a term always in the same way, be it with entries or with a failure.
Then an evaluation does not depend on what its caches hold: its result, or its failure, is the one
of an evaluation over answers that are just there.  Such an evaluation has no state, and one can say
exactly when a level of it succeeds.  Main statements:

* `fixed_lookup` — a lookup gives the fixed answer and keeps the caches faithful;
* `evaluate_fixed` — so does a whole evaluation;
* `settle_eq_ok_iff`, `resolveAll_eq_ok_iff`, `reduce_eq_ok_iff` — when a level succeeds, and with
  what;
* `found_of_siblings` — a query whose siblings are resolved finds what its level makes of them;
* `isValid_of_found`, `pairwise_of_found` — all weights that are found are valid, and all keys
  differ.
-/
import Mathlib.Data.List.Forall2
import WeightedSearch.Evaluation.Progress
import WeightedSearch.Proofs.Evaluation.Steady
import WeightedSearch.Proofs.Evaluation.Reduction

namespace WeightedSearch

variable {κ : Type}

/-- Whether every lookup of the term is answered so. -/
def Indexes.Repeats (indexes : Indexes κ) (replies : Replies κ) (m : Matching) (term : String) :
    Prop :=
  ∀ n, indexes.ask n m term = replies m term

/-- Whether each kept answer, of either cache, is the one that its index gives. -/
def Caches.Faithful (replies : Replies κ) (caches : Caches κ) : Prop :=
  ∀ m, ∀ p ∈ (caches.get m).answers.pairs, replies m p.1 = .ok p.2

/-- New caches hold no answers. -/
theorem Caches.faithful_new (replies : Replies κ) (enabled : Bool) :
    (Caches.new enabled).Faithful replies := by
  intro m p hp
  cases m <;> cases hp

/-- An answer of the index may be kept. -/
theorem Caches.Faithful.store {replies : Replies κ} {caches : Caches κ}
    (h : caches.Faithful replies) {m : Matching} {term : String} {es : List (Entry κ)}
    (hes : replies m term = .ok es) :
    (caches.set m ((caches.get m).store term es)).Faithful replies := by
  intro n p hp
  rcases Caches.mem_pairs_store hp with ⟨rfl, rfl⟩ | hp
  · exact hes
  · exact h n p hp

/-! ### The caches make no difference -/

/-- Whether a computation over indexes ends as the one over their answers does, and keeps faithful
caches faithful. -/
def Repeated {α : Type} (replies : Replies κ) (x : Evaluation κ α)
    (y : Except EvaluationFailure α) : Prop :=
  Ends (Caches.Faithful replies) (fun _ => False) x y

section

variable {replies : Replies κ}

/-- A lookup gives what its index gives, failures among it. -/
theorem fixed_lookup {indexes : Indexes κ} {m : Matching} {term : String}
    (h : indexes.Repeats replies m term) :
    Repeated replies (lookup indexes m term) ((replies m term).mapError .lookup) := by
  intro p hp
  cases hget : (p.caches.get m).get? term with
  | some es =>
    have hes : replies m term = .ok es := hp m _ (Cache.mem_pairs_of_get? hget)
    rw [lookup_hit hget, hes]
    exact ⟨rfl, hp⟩
  | none =>
    rw [lookup_miss hget, h p.lookups.length]
    cases hask : replies m term with
    | ok es => exact ⟨rfl, hp.store hask⟩
    -- a failure comes from the index, as only answers are kept
    | error e => exact ⟨.inl rfl, hp⟩

/-- Over indexes that repeat themselves the steps are those over their replies. -/
theorem parallel_repeated (indexes : Indexes κ) (combiner : Combiner) :
    Parallel (indexes.effects combiner) (replies.effects indexes.policy combiner)
      (Repeated replies) where
  policy := rfl
  pure := Ends.pure
  bind := Ends.bind
  combine := ends_useCombiner combiner

/-- Whatever its caches hold of the answers, an evaluation ends as it does over the answers alone,
and the caches that it leaves behind hold nothing else. -/
theorem evaluate_fixed {indexes : Indexes κ} (combiner : Combiner) {caches : Caches κ}
    (hc : caches.Faithful replies) {q : Query}
    (h : ∀ l ∈ q.leaves, indexes.Repeats replies l.1 l.2) :
    (evaluate indexes combiner caches q).result
        = (replies.effects indexes.policy combiner).found q ∧
      (evaluate indexes combiner caches q).progress.caches.Faithful replies := by
  have hfound : Repeated replies ((indexes.effects combiner).found q) _ :=
    (parallel_repeated indexes combiner).found fun l hl => fixed_lookup (h l hl)
  obtain ⟨hres | ⟨_, -, hfalse⟩, hp⟩ := evaluate_ends hc hfound
  · exact ⟨hres, hp⟩
  · exact hfalse.elim

end

/-! ### When a level succeeds -/

open Grouping

theorem bind_eq_ok_iff {ε α β : Type} {x : Except ε α} {f : α → Except ε β} {b : β} :
    (x >>= f) = .ok b ↔ ∃ a, x = .ok a ∧ f a = .ok b := by
  cases x with
  | ok a =>
    constructor
    · exact fun h => ⟨a, rfl, h⟩
    · rintro ⟨_, ⟨⟩, h⟩
      exact h
  | error e =>
    constructor
    · exact fun h => nomatch h
    · rintro ⟨_, h, -⟩
      cases h

/-- Siblings are resolved if each of them is. -/
theorem resolveAll_eq_ok_iff {ε : Type} {effects : Effects (Except ε) κ} {qs : List Query}
    {rs : List (Resolved κ)} : effects.resolveAll qs = .ok rs ↔
      List.Forall₂ (fun q r => q = r.1 ∧ effects.resolve q = .ok r.2) qs rs := by
  induction qs generalizing rs with
  | nil =>
    rw [List.forall₂_nil_left_iff]
    constructor
    · rintro ⟨⟩
      rfl
    · rintro rfl
      rfl
  | cons q qs ih =>
    rw [Effects.resolveAll, bind_eq_ok_iff]
    constructor
    · rintro ⟨es, hes, hrest⟩
      obtain ⟨ss, hss, ⟨⟩⟩ := bind_eq_ok_iff.1 hrest
      exact .cons ⟨rfl, hes⟩ (ih.1 hss)
    · rintro (_ | ⟨⟨rfl, hes⟩, hrs⟩)
      exact ⟨_, hes, bind_eq_ok_iff.2 ⟨_, ih.2 hrs, rfl⟩⟩

/-- Siblings that are resolved in order are each resolved to what is listed with them. -/
theorem resolve_of_resolveAll {ε : Type} {effects : Effects (Except ε) κ} {qs : List Query}
    {rs : List (Resolved κ)} (hrs : effects.resolveAll qs = .ok rs) :
    rs.map Prod.fst = qs ∧ ∀ r ∈ rs, effects.resolve r.1 = .ok r.2 := by
  rw [resolveAll_eq_ok_iff] at hrs
  induction hrs with
  | nil => exact ⟨rfl, nofun⟩
  | cons hr _ ih =>
    obtain ⟨rfl, hr⟩ := hr
    exact ⟨congrArg _ ih.1, List.forall_mem_cons.2 ⟨hr, ih.2⟩⟩

/-- Siblings that resolve each for itself resolve together. -/
theorem exists_resolveAll {ε : Type} {effects : Effects (Except ε) κ}
    {P : Query → List (Entry κ) → Prop} {qs : List Query}
    (h : ∀ q ∈ qs, ∃ es, effects.resolve q = .ok es ∧ P q es) :
    ∃ rs, effects.resolveAll qs = .ok rs ∧ rs.map Prod.fst = qs ∧ ∀ r ∈ rs, P r.1 r.2 := by
  induction qs with
  | nil => exact ⟨[], rfl, rfl, fun _ hr => nomatch hr⟩
  | cons q qs ih =>
    obtain ⟨es, hes, hP⟩ := h q (by simp)
    obtain ⟨rs, hrs, hfst, hall⟩ := ih fun p hp => h p (List.mem_cons_of_mem _ hp)
    refine ⟨(q, es) :: rs, ?_, congrArg (q :: ·) hfst, List.forall_mem_cons.2 ⟨hP, hall⟩⟩
    exact resolveAll_eq_ok_iff.2 (.cons ⟨rfl, hes⟩ (resolveAll_eq_ok_iff.1 hrs))

section

variable {replies : Replies κ} {policy : KeyPolicy κ} {combiner : Combiner}

/-- A weight is made if it is valid. -/
theorem combine_eq_ok_iff {siblings : List Query} {ws : List Weight} {w : Weight} :
    (replies.effects policy combiner).combine siblings ws = .ok w ↔
      (combiner ws siblings).isValid = true ∧ w = combiner ws siblings := by
  simp only [Replies.effects]
  split
  · next h => exact ⟨fun hw => ⟨h, (Except.ok.inj hw).symm⟩, fun hw => congrArg _ hw.2.symm⟩
  · next h => exact ⟨nofun, fun hw => absurd hw.1 h⟩

/-- Entries are weighed if all their weights are valid. -/
theorem weigh_eq_ok_iff {siblings : List Query} {l : List (Entry κ × List Weight)}
    {es : List (Entry κ)} : (replies.effects policy combiner).weigh siblings l = .ok es ↔
      (∀ x ∈ l, (combiner x.2 siblings).isValid = true) ∧
        es = l.map fun x => x.1.withWeight (combiner x.2 siblings) := by
  induction l generalizing es with
  | nil =>
    rw [Effects.weigh]
    exact ⟨fun h => ⟨List.forall_mem_nil _, (Except.ok.inj h).symm⟩, fun h => congrArg _ h.2.symm⟩
  | cons x l ih =>
    rw [Effects.weigh, bind_eq_ok_iff, List.forall_mem_cons]
    constructor
    · rintro ⟨w, hw, hrest⟩
      obtain ⟨ds, hds, ⟨⟩⟩ := bind_eq_ok_iff.1 hrest
      obtain ⟨hx, rfl⟩ := combine_eq_ok_iff.1 hw
      obtain ⟨hl, rfl⟩ := ih.1 hds
      exact ⟨⟨hx, hl⟩, rfl⟩
    · rintro ⟨⟨hx, hl⟩, rfl⟩
      exact ⟨_, combine_eq_ok_iff.2 ⟨hx, rfl⟩, bind_eq_ok_iff.2 ⟨_, ih.2 ⟨hl, rfl⟩, rfl⟩⟩

/-- A level succeeds if the weight of each of its keys is valid. -/
theorem settle_eq_ok_iff (h : policy.Lawful) {siblings : List Query} {g : Gathered κ}
    {es : List (Entry κ)} : (replies.effects policy combiner).settle siblings g = .ok es ↔
      (∀ e ∈ firsts policy (g.kept policy),
        (combiner (weights policy (g.kept policy) e) siblings).isValid = true) ∧
      es = groups policy combiner siblings (g.kept policy) := by
  rw [Effects.settle, show (replies.effects policy combiner).policy = policy from rfl,
    weighted_ofEntries h, weigh_eq_ok_iff, List.forall_mem_map, List.map_map]
  rfl

/-- The reduction of a level succeeds if its siblings resolve and the weight of each key that is
left is valid. -/
theorem reduce_eq_ok_iff (h : policy.Lawful) {qs : List Query} {es : List (Entry κ)} :
    (replies.effects policy combiner).reduce qs = .ok es ↔
      ∃ rs, (replies.effects policy combiner).resolveAll qs = .ok rs ∧
        (∀ e ∈ firsts policy (Resolved.survivors policy rs),
          (combiner (weights policy (Resolved.survivors policy rs) e) qs).isValid = true) ∧
        es = groups policy combiner qs (Resolved.survivors policy rs) := by
  simp only [Effects.reduce_eq_settle, bind_eq_ok_iff, settle_eq_ok_iff h,
    Gathered.kept_ofSiblings]

/-- If siblings resolve, each to entries with some property, and the weights made of such entries
are valid, then the query they stand for finds the entries of its level. -/
theorem found_of_siblings (h : policy.Lawful) {P : Query → List (Entry κ) → Prop} {q : Query}
    (hs : ∀ s ∈ q.siblings, ∃ es, (replies.effects policy combiner).resolve s = .ok es ∧ P s es)
    (hvalid : ∀ rs : List (Resolved κ), (∀ r ∈ rs, P r.1 r.2) →
      ∀ e ∈ firsts policy (Resolved.survivors policy rs),
        (combiner (weights policy (Resolved.survivors policy rs) e) q.siblings).isValid = true) :
    ∃ rs, (replies.effects policy combiner).resolveAll q.siblings = .ok rs ∧
      rs.map Prod.fst = q.siblings ∧ (∀ r ∈ rs, P r.1 r.2) ∧
      (replies.effects policy combiner).found q
        = .ok (groups policy combiner q.siblings (Resolved.survivors policy rs)) := by
  obtain ⟨rs, hrs, hfst, hP⟩ := exists_resolveAll hs
  rw [Effects.found_eq_reduce]
  exact ⟨rs, hrs, hfst, hP, (reduce_eq_ok_iff h).2 ⟨rs, hrs, hvalid rs hP, rfl⟩⟩

/-- Every weight that a query finds is valid. -/
theorem isValid_of_found {q : Query} {es : List (Entry κ)}
    (hes : (replies.effects policy combiner).found q = .ok es) :
    ∀ e ∈ es, e.weight.isValid = true := by
  rw [Effects.found_eq_reduce, Effects.reduce_eq_settle, bind_eq_ok_iff] at hes
  obtain ⟨rs, -, hsettle⟩ := hes
  obtain ⟨hvalid, rfl⟩ := weigh_eq_ok_iff.1 hsettle
  intro e he
  obtain ⟨x, hx, rfl⟩ := List.mem_map.1 he
  exact hvalid x hx

/-- No two entries that a query finds have the same key. -/
theorem pairwise_of_found (h : policy.Lawful) {q : Query} {es : List (Entry κ)}
    (hes : (replies.effects policy combiner).found q = .ok es) :
    es.Pairwise fun d e => policy.same d.key e.key = false := by
  rw [Effects.found_eq_reduce] at hes
  obtain ⟨rs, -, -, rfl⟩ := (reduce_eq_ok_iff h).1 hes
  exact pairwise_groups policy combiner _ _

end

end WeightedSearch
