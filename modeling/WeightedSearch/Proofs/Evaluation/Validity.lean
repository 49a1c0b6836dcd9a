/-
Validity of weights.

Every weight that is combined at a level is one of an index or was made by the combiner further
inside, and there it was checked.  So what holds of the weights in the indexes, and of what the
combiner makes of weights of which it holds, holds of all weights at every level.  If they are
valid, the greatest of them is, but their mean need not be.  Main statements:

* `Weighs.bind`, `weighs_settle` — steps of an evaluation keep what holds of the weights, and so
  does a level;
* `evaluate_weighs` — what holds of the weights of a whole evaluation;
* `evaluate_max`, `evaluate_mean` — from valid weights the greatest is always made, and the mean
  unless a sum is beyond all numbers;
* `evaluate_of_isValid` — both together, with a bound on the weights that keeps sums from that.
-/
import WeightedSearch.Proofs.Weight.Mean
import WeightedSearch.Proofs.Evaluation.Visits
import WeightedSearch.Proofs.Evaluation.Greatest

namespace WeightedSearch

-- powers are the core library's, whatever other instances are in scope; a literal exponent has its
-- type written out for that
attribute [local instance (2000)] instPowNat

variable {κ : Type} {P : Weight → Prop} {combiner : Combiner}

/-! ### What holds of weights -/

/-- Whether the indexes never fail, and answer with weights as `P` says. -/
def Indexes.WeightsIn (P : Weight → Prop) (indexes : Indexes κ) : Prop :=
  ∀ n m term, ∃ es, indexes.ask n m term = .ok es ∧ WeightedSearch.WeightsIn P es

theorem Indexes.WeightsIn.mono {indexes : Indexes κ} {Q : Weight → Prop} (h : indexes.WeightsIn P)
    (hPQ : ∀ w, P w → Q w) : indexes.WeightsIn Q := by
  intro n m term
  obtain ⟨es, hask, hes⟩ := h n m term
  exact ⟨es, hask, fun e he => hPQ _ (hes e he)⟩

/-- Whether all kept answers have weights as `P` says. -/
def Caches.WeightsIn (P : Weight → Prop) (caches : Caches κ) : Prop :=
  ∀ m, ∀ a ∈ (caches.get m).answers.pairs, WeightedSearch.WeightsIn P a.2

theorem Caches.weightsIn_new (P : Weight → Prop) (enabled : Bool) :
    (Caches.new enabled : Caches κ).WeightsIn P := by
  intro m a ha
  cases m <;> cases ha

theorem Caches.WeightsIn.store {caches : Caches κ} (h : caches.WeightsIn P) {m : Matching}
    {term : String} {es : List (Entry κ)} (hes : WeightedSearch.WeightsIn P es) :
    (caches.set m ((caches.get m).store term es)).WeightsIn P := by
  intro n a ha
  rcases Caches.mem_pairs_store ha with ⟨rfl, rfl⟩ | ha
  · exact hes
  · exact h n a ha

/-- Whether a valid weight that the combiner makes of weights as `P` says is again as `P` says. -/
def Keeps (combiner : Combiner) (P : Weight → Prop) : Prop :=
  ∀ ws siblings, ws ≠ [] → (∀ w ∈ ws, P w) → (combiner ws siblings).isValid = true →
    P (combiner ws siblings)

/-- Whether the combiner was used on weights as `P` says, and on at least one. -/
structure Combining.Regular (combiner : Combiner) (P : Weight → Prop) (c : Combining) : Prop where
  weight : c.weight = combiner c.weights c.siblings
  nonempty : c.weights ≠ []
  weights : ∀ w ∈ c.weights, P w

/-- Whether all weights so far are as `P` says, those that the caches keep and those that were
combined. -/
structure Progress.Regular (combiner : Combiner) (P : Weight → Prop) (p : Progress κ) : Prop where
  caches : p.caches.WeightsIn P
  combinings : ∀ c ∈ p.combinings, c.Regular combiner P

/-- Whether no use of the combiner has failed so far. -/
def Progress.Unfailed (p : Progress κ) : Prop :=
  ∀ c ∈ p.combinings, c.fails = false

/-! ### Steps of an evaluation -/

section

variable {α β : Type} {R : α → Prop} {S : β → Prop}

/-- Whether a computation among weights as `P` says combines no others, and either succeeds with a
result as `R` says or has made an invalid weight, which is its failure. -/
def Weighs (combiner : Combiner) (P : Weight → Prop) (R : α → Prop) (x : Evaluation κ α) : Prop :=
  ∀ p : Progress κ, p.Regular combiner P → p.Unfailed → match x p with
    | .ok a p' => p'.Regular combiner P ∧ p'.Unfailed ∧ R a
    | .error e p' => p'.Regular combiner P ∧
        ∃ c ∈ p'.combinings, c.fails = true ∧ e = .invalidWeight c.weight

theorem Weighs.pure {a : α} (ha : R a) :
    Weighs combiner P R (Pure.pure a : Evaluation κ α) :=
  fun _ hp hfails => ⟨hp, hfails, ha⟩

theorem Weighs.bind {x : Evaluation κ α} {f : α → Evaluation κ β} (hx : Weighs combiner P R x)
    (hf : ∀ a, R a → Weighs combiner P S (f a)) : Weighs combiner P S (x >>= f) := by
  intro p hp hfails
  have hxp := hx p hp hfails
  cases hr : x p with
  | ok a q =>
    rw [hr] at hxp
    obtain ⟨hq, hqfails, ha⟩ := hxp
    rw [Evaluation.bind_ok hr]
    exact hf a ha q hq hqfails
  | error e q =>
    rw [hr] at hxp
    rw [Evaluation.bind_error hr]
    exact hxp

end

variable {indexes : Indexes κ}

theorem weighs_lookup (h : indexes.WeightsIn P) (m : Matching) (term : String) :
    Weighs combiner P (WeightsIn P) (lookup indexes m term) := by
  intro p hp hfails
  cases hget : (p.caches.get m).get? term with
  -- a kept answer is covered by what is known of the caches, a new one by what is known of the
  -- indexes
  | some es =>
    rw [lookup_hit hget]
    exact ⟨hp, hfails, hp.caches m _ (Cache.mem_pairs_of_get? hget)⟩
  | none =>
    obtain ⟨es, hask, hes⟩ := h p.lookups.length m term
    rw [lookup_miss hget, hask]
    exact ⟨⟨hp.caches.store hes, hp.combinings⟩, hfails, hes⟩

/-- A use of the combiner fails exactly if it makes an invalid weight, and a valid one is as `P`
says. -/
theorem weighs_useCombiner (h : Keeps combiner P) {siblings : List Query} {ws : List Weight}
    (hne : ws ≠ []) (hws : ∀ w ∈ ws, P w) :
    Weighs combiner P P (useCombiner combiner siblings ws : Evaluation κ Weight) := by
  intro p hp hfails
  have hregular : (p.combined [.of combiner siblings ws]).Regular combiner P :=
    ⟨hp.caches, List.forall_mem_append.2
      ⟨hp.combinings, List.forall_mem_singleton.2 ⟨rfl, hne, hws⟩⟩⟩
  rw [useCombiner_run]
  cases hw : (Combining.of combiner siblings ws).fails with
  | true =>
    exact ⟨hregular, _, List.mem_append_right _ (List.mem_singleton_self _), hw, rfl⟩
  | false =>
    refine ⟨hregular, List.forall_mem_append.2 ⟨hfails, List.forall_mem_singleton.2 hw⟩, ?_⟩
    exact h ws siblings hne hws (by simpa [Combining.fails, Combining.of] using hw)

/-! ### The levels of a query -/

theorem weights_add {policy : KeyPolicy κ} {m : Merging κ} {e : Entry κ}
    (hm : ∀ ws ∈ m.weights, ws ≠ [] ∧ ∀ w ∈ ws, P w) (he : P e.weight) :
    ∀ ws ∈ (m.add policy e).weights, ws ≠ [] ∧ ∀ w ∈ ws, P w := by
  intro ws hws
  unfold Merging.add at hws
  split at hws
  · -- the key is known, and one of the lists gets another weight
    next i _ =>
    obtain ⟨j, hj, rfl⟩ := List.mem_iff_getElem.1 hws
    rw [List.length_modify] at hj
    have hold := hm m.weights[j] (List.getElem_mem hj)
    dsimp only
    rw [List.getElem_modify]
    split
    · exact ⟨by simp, List.forall_mem_append.2 ⟨hold.2, List.forall_mem_singleton.2 he⟩⟩
    · exact hold
  · rcases List.mem_append.1 hws with hws | hws
    · exact hm ws hws
    · rw [List.mem_singleton.1 hws]
      exact ⟨by simp, List.forall_mem_singleton.2 he⟩

/-- Every key has one weight at least, and no weights but those of entries. -/
theorem weights_ofEntries {policy : KeyPolicy κ} {es : List (Entry κ)} (h : WeightsIn P es) :
    ∀ ws ∈ (Merging.ofEntries policy es).weights, ws ≠ [] ∧ ∀ w ∈ ws, P w := by
  -- the merging grows behind, so the list of entries is taken apart from behind
  induction es using List.reverseRecOn with
  | nil => exact fun ws hws => nomatch hws
  | append_singleton es e ih =>
    obtain ⟨hes, he⟩ := List.forall_mem_append.1 h
    rw [Merging.ofEntries, List.foldl_append]
    exact weights_add (ih hes) (he e (List.mem_singleton_self e))

theorem weighs_weigh (h : Keeps combiner P) {siblings : List Query}
    {l : List (Entry κ × List Weight)} (hl : ∀ x ∈ l, x.2 ≠ [] ∧ ∀ w ∈ x.2, P w) :
    Weighs combiner P (WeightsIn P) ((indexes.effects combiner).weigh siblings l) := by
  induction l with
  | nil => exact Weighs.pure fun e he => nomatch he
  | cons x l ih =>
    obtain ⟨hx, hl⟩ := List.forall_mem_cons.1 hl
    exact (weighs_useCombiner h hx.1 hx.2).bind fun w hw => (ih hl).bind fun es hes =>
      Weighs.pure (List.forall_mem_cons.2 ⟨hw, hes⟩)

theorem weighs_settle (h : Keeps combiner P) {siblings : List Query} {g : Gathered κ}
    (hg : WeightsIn P g.found) :
    Weighs combiner P (WeightsIn P) ((indexes.effects combiner).settle siblings g) := by
  have hkept : WeightsIn P (g.kept indexes.policy) := fun e he => hg e (List.mem_filter.1 he).1
  exact weighs_weigh h fun x hx => weights_ofEntries hkept x.2 (List.of_mem_zip hx).2

theorem weighs_resolveAll {qs : List Query}
    (h : ∀ q ∈ qs, Weighs combiner P (WeightsIn P) ((indexes.effects combiner).resolve q)) :
    Weighs combiner P (fun rs => ∀ r ∈ rs, WeightsIn P r.2)
      ((indexes.effects combiner).resolveAll qs) := by
  induction qs with
  | nil => exact Weighs.pure fun r hr => nomatch hr
  | cons q qs ih =>
    obtain ⟨hq, hqs⟩ := List.forall_mem_cons.1 h
    exact hq.bind fun es hes => (ih hqs).bind fun rs hrs =>
      Weighs.pure (List.forall_mem_cons.2 ⟨hes, hrs⟩)

/-- What holds of the weights in the indexes holds at every level. -/
theorem weighs_found (h : Keeps combiner P) (hindexes : indexes.WeightsIn P) (q : Query) :
    Weighs combiner P (WeightsIn P) ((indexes.effects combiner).found q) := by
  refine (Query.induct_levels
    (R := fun q => Weighs combiner P (WeightsIn P) ((indexes.effects combiner).resolve q))
    (L := fun q => Weighs combiner P (WeightsIn P) ((indexes.effects combiner).found q))
    (Weighs.pure fun e he => nomatch he) (weighs_lookup hindexes) ?group (fun _ ih => ih)
    (fun _ ih => ih) ?level q).2
  case group =>
    intro qs ih
    rw [Effects.resolve_group]
    exact ih
  -- whatever a level gathers was found for one of its siblings
  case level =>
    intro q ih
    rw [Effects.found_eq_reduce, Effects.reduce_eq_settle]
    refine (weighs_resolveAll ih).bind fun rs hrs => weighs_settle h ?_
    intro e he
    rw [Gathered.found_ofSiblings] at he
    obtain ⟨r, hr, he⟩ := Resolved.exists_of_mem_accumulated he
    exact hrs r hr e he

/-! ### Whole evaluations -/

/-- What holds of the weights in the indexes and in the caches, and of what the combiner makes of
them, holds of all weights that an evaluation combines and of those that it finds. It fails only
where the combiner made an invalid weight. -/
theorem evaluate_weighs (h : Keeps combiner P) (hindexes : indexes.WeightsIn P)
    {caches : Caches κ} (hcaches : caches.WeightsIn P) (q : Query) :
    let o := evaluate indexes combiner caches q
    (∀ c ∈ o.progress.combinings, c.Regular combiner P) ∧
    ((∃ es, o.result = .ok es ∧ WeightsIn P es ∧ o.progress.Unfailed) ∨
      ∃ c ∈ o.progress.combinings, c.fails = true ∧ o.result = .error (.invalidWeight c.weight)) := by
  -- at the start nothing has been combined, so nothing has failed
  have hfound := weighs_found h hindexes q ⟨caches, [], []⟩ ⟨hcaches, fun c hc => nomatch hc⟩
    fun c hc => nomatch hc
  rw [found_eq_evaluate] at hfound
  intro o
  cases hresult : (evaluate indexes combiner caches q).result with
  | ok es =>
    rw [hresult] at hfound
    obtain ⟨hregular, hfails, hes⟩ := hfound
    exact ⟨hregular.combinings, Or.inl ⟨es, rfl, hes, hfails⟩⟩
  | error e =>
    rw [hresult] at hfound
    obtain ⟨hregular, c, hc, hfails, rfl⟩ := hfound
    exact ⟨hregular.combinings, Or.inr ⟨c, hc, hfails, rfl⟩⟩

/-! ### The built-in combiners -/

theorem keeps_isValid (combiner : Combiner) : Keeps combiner fun w => w.isValid = true :=
  fun _ _ _ _ h => h

theorem keeps_mean {n : Nat} (hn : n ≤ 252) : Keeps WeightRule.mean.combine (Weight.UpTo n) :=
  fun _ _ hne hws hvalid => ⟨hvalid, Weight.place_mean_le hn hne hws⟩

/-- A mean that fails was made of weights with an infinite sum, if there were not too many. -/
theorem fails_iff_of_regular {c : Combining}
    (h : c.Regular WeightRule.mean.combine fun w => w.isValid = true)
    (hlen : c.weights.length + 1 < 2 ^ (25 : Nat)) :
    c.fails = true ↔ Weight.sum c.weights = .infinite false := by
  have hiff := Weight.isValid_mean_iff h.nonempty h.weights hlen
  rw [Combining.fails, h.weight, Bool.not_eq_true', ← Bool.not_eq_true]
  exact hiff.not.trans not_not

theorem evaluate_max (hindexes : indexes.WeightsIn fun w => w.isValid = true)
    {caches : Caches κ} (hcaches : caches.WeightsIn fun w => w.isValid = true) (q : Query) :
    ∃ es, (evaluate indexes WeightRule.max.combine caches q).result = .ok es ∧
      WeightsIn (·.isValid = true) es := by
  obtain ⟨hregular, ⟨es, hes, hvalid, -⟩ | ⟨c, hc, hfails, -⟩⟩ :=
    evaluate_weighs (keeps_isValid WeightRule.max.combine) hindexes hcaches q
  · exact ⟨es, hes, hvalid⟩
  · obtain ⟨hweight, hne, hws⟩ := hregular c hc
    -- a failing use would have made an invalid weight, but it made one of the valid weights
    have hvalid : c.weight.isValid = true := by
      rw [hweight]
      exact Weight.isValid_greatest hne hws
    rw [Combining.fails, hvalid] at hfails
    cases hfails

/-- Weights of at most `2 ^ 103` do not add up to more than all numbers, and their mean is not
beyond them. So with the mean an evaluation of such weights succeeds, unless a key has too many. -/
theorem evaluate_mean_of_upTo {n : Nat} (hn : n ≤ 252) (hindexes : indexes.WeightsIn (Weight.UpTo n))
    {caches : Caches κ} (hcaches : caches.WeightsIn (Weight.UpTo n)) {q : Query}
    (hlen : ∀ c ∈ (evaluate indexes WeightRule.mean.combine caches q).progress.combinings,
      c.weights.length + 1 < 2 ^ (25 : Nat)) :
    ∃ es, (evaluate indexes WeightRule.mean.combine caches q).result = .ok es ∧
      WeightsIn (Weight.UpTo n) es := by
  obtain ⟨hregular, ⟨es, hes, hws, -⟩ | ⟨c, hc, hfails, -⟩⟩ :=
    evaluate_weighs (keeps_mean hn) hindexes hcaches q
  · exact ⟨es, hes, hws⟩
  · obtain ⟨hweight, hne, hws⟩ := hregular c hc
    -- a failing use would have added up to more than all numbers
    obtain ⟨m, hm, -⟩ := Weight.sum_of_upTo hn hne hws
    have hsum := (fails_iff_of_regular ⟨hweight, hne, fun w hw => (hws w hw).isValid⟩ (hlen c hc)).1
      hfails
    rw [hm] at hsum
    cases hsum

theorem evaluate_mean (hindexes : indexes.WeightsIn fun w => w.isValid = true)
    {caches : Caches κ} (hcaches : caches.WeightsIn fun w => w.isValid = true) {q : Query}
    (hlen : ∀ c ∈ (evaluate indexes WeightRule.mean.combine caches q).progress.combinings,
      c.weights.length + 1 < 2 ^ (25 : Nat)) :
    let o := evaluate indexes WeightRule.mean.combine caches q
    (∃ es, o.result = .ok es ∧ WeightsIn (·.isValid = true) es ∧
      ∀ c ∈ o.progress.combinings, Weight.sum c.weights ≠ .infinite false) ∨
    o.result = .error (.invalidWeight (.infinite false)) ∧
      ∃ c ∈ o.progress.combinings, Weight.sum c.weights = .infinite false := by
  obtain ⟨hregular, ⟨es, hes, hvalid, hunfailed⟩ | ⟨c, hc, hfails, herror⟩⟩ :=
    evaluate_weighs (keeps_isValid WeightRule.mean.combine) hindexes hcaches q
  · refine Or.inl ⟨es, hes, hvalid, fun c hc hsum => ?_⟩
    have hfails := (fails_iff_of_regular (hregular c hc) (hlen c hc)).2 hsum
    rw [hunfailed c hc] at hfails
    cases hfails
  · have hsum := (fails_iff_of_regular (hregular c hc) (hlen c hc)).1 hfails
    have hmean : c.weight = .infinite false := (hregular c hc).weight.trans
      (Weight.mean_of_sum_infinite (hregular c hc).nonempty (hlen c hc) hsum)
    rw [hmean] at herror
    exact Or.inr ⟨herror, c, hc, hsum⟩

/-- From valid weights the greatest is always made, so an evaluation over indexes that do not fail
succeeds. The mean is made of valid weights only, and an evaluation with it succeeds unless the
weights of some key at some level add up to more than all numbers; then the infinite weight is the
failure, which cannot be while no weight is beyond `2 ^ 103`. This is as long as no key has
`2 ^ 25 - 1` weights at a level: a mean of so many may be zero. -/
theorem evaluate_of_isValid (hindexes : indexes.WeightsIn fun w => w.isValid = true)
    {caches : Caches κ} (hcaches : caches.WeightsIn fun w => w.isValid = true) (q : Query) :
    (∃ es, (evaluate indexes WeightRule.max.combine caches q).result = .ok es ∧
      WeightsIn (·.isValid = true) es) ∧
    let o := evaluate indexes WeightRule.mean.combine caches q
    (∀ c ∈ o.progress.combinings, c.weight = Weight.mean c.weights ∧ c.weights ≠ [] ∧
      ∀ w ∈ c.weights, w.isValid = true) ∧
    ((∀ c ∈ o.progress.combinings, c.weights.length + 1 < 2 ^ (25 : Nat)) →
      ((∃ es, o.result = .ok es ∧ WeightsIn (·.isValid = true) es ∧
          ∀ c ∈ o.progress.combinings, Weight.sum c.weights ≠ .infinite false) ∨
        o.result = .error (.invalidWeight (.infinite false)) ∧
          ∃ c ∈ o.progress.combinings, Weight.sum c.weights = .infinite false) ∧
      ∀ n ≤ 252, indexes.WeightsIn (Weight.UpTo n) → caches.WeightsIn (Weight.UpTo n) →
        ∃ es, o.result = .ok es ∧ WeightsIn (Weight.UpTo n) es) := by
  refine ⟨evaluate_max hindexes hcaches q, fun c hc => ?_, fun hlen => ?_⟩
  · obtain ⟨hweight, hne, hws⟩ :=
      (evaluate_weighs (keeps_isValid WeightRule.mean.combine) hindexes hcaches q).1 c hc
    exact ⟨hweight, hne, hws⟩
  · exact ⟨evaluate_mean hindexes hcaches hlen,
      fun n hn hindexes hcaches => evaluate_mean_of_upTo hn hindexes hcaches hlen⟩

/-- The mean of 1 and 3 within the brackets is averaged with 4. No weight is beyond 4, which is
`2 ^ 151` units of the least positive number. -/
theorem evaluate_of_isValid_nested :
    let indexes : Indexes Nat :=
      { ask := fun _ _ term => .ok [⟨7, .ofNat (match term with
          | "a" => 1
          | "b" => 3
          | _ => 4), []⟩]
        policy := .equality }
    let q : Query :=
      .group [.group [.value .standard "a", .value .precise "b"], .value .standard "c"]
    indexes.WeightsIn (Weight.UpTo 151) ∧
    (Caches.new true : Caches Nat).WeightsIn (Weight.UpTo 151) ∧
    (∀ c ∈ (evaluate indexes WeightRule.mean.combine (.new true) q).progress.combinings,
      c.weights.length + 1 < 2 ^ (25 : Nat)) ∧
    (∃ es, (evaluate indexes WeightRule.max.combine (.new true) q).result = .ok es ∧
      WeightsIn (·.isValid = true) es) ∧
    (evaluate indexes WeightRule.mean.combine (.new true) q).result = .ok [⟨7, .ofNat 3, []⟩] ∧
    (∀ c ∈ (evaluate indexes WeightRule.mean.combine (.new true) q).progress.combinings,
      Weight.sum c.weights ≠ .infinite false) ∧
    (Weight.ofNat 3).UpTo 151 := by
  intro indexes q
  have hindexes : indexes.WeightsIn (Weight.UpTo 151) := by
    intro n m term
    refine ⟨_, rfl, fun e he => ?_⟩
    rw [List.mem_singleton.1 he]
    dsimp only
    split <;> exact ⟨by decide +kernel, by decide +kernel⟩
  have hcaches : (Caches.new true : Caches Nat).WeightsIn (Weight.UpTo 151) :=
    Caches.weightsIn_new _ true
  have hvalid : indexes.WeightsIn fun w => w.isValid = true := hindexes.mono fun w hw => hw.isValid
  have hresult : (evaluate indexes WeightRule.mean.combine (.new true) q).result
      = .ok [⟨7, .ofNat 3, []⟩] := by
    decide +kernel
  have hlen : ∀ c ∈ (evaluate indexes WeightRule.mean.combine (.new true) q).progress.combinings,
      c.weights.length + 1 < 2 ^ (25 : Nat) := by
    decide +kernel
  obtain ⟨hmax, -, hmean⟩ := evaluate_of_isValid hvalid (Caches.weightsIn_new _ true) q
  obtain ⟨⟨es, -, -, hsums⟩ | ⟨herror, -⟩, hupTo⟩ := hmean hlen
  · obtain ⟨es, hes, hws⟩ := hupTo 151 (by decide) hindexes hcaches
    rw [hresult] at hes
    cases hes
    exact ⟨hindexes, hcaches, hlen, hmax, hresult, hsums, hws _ (List.mem_singleton_self _)⟩
  · rw [hresult] at herror
    cases herror

/-- The mean of twice the largest weight is that weight, but the sum is more than all numbers. -/
theorem evaluate_mean_fails :
    let indexes : Indexes Nat :=
      { ask := fun _ _ term => .ok (match term with
          | "a" => [⟨7, .largest, [⟨0, 0, 0, 1⟩]⟩]
          | "b" => [⟨7, .largest, [⟨0, 1, 2, 1⟩]⟩]
          | _ => [])
        policy := .equality }
    (indexes.WeightsIn fun w => w.isValid = true) ∧
    (evaluate indexes WeightRule.mean.combine (.new true)
        (.group [.value .standard "a", .value .standard "b"])).result
      = .error (.invalidWeight (.infinite false)) := by
  intro indexes
  have hindexes : indexes.WeightsIn fun w => w.isValid = true := by
    intro n m term
    refine ⟨_, rfl, fun e he => ?_⟩
    have hweight : e.weight = .largest := by
      split at he <;> simp_all
    rw [hweight]
    decide +kernel
  refine ⟨hindexes, ?_⟩
  decide +kernel

end WeightedSearch
