/-
Evaluation with the greatest weights.

If each key gets the greatest of its weights, an evaluation of valid weights cannot fail: what it
makes at one level are weights that it was given, so they are valid at the next.  Nor does it matter
in how many steps weights are put together, since the bounds of the weights of a key stay the same.
Main statements:

* `level_greatest`, `found_greatest` — the evaluation of a query succeeds, and what it makes of its
  level;
* `sameBounds_groups` — the weight of a key has the bounds of the weights it is made of.
-/
import WeightedSearch.Proofs.Weight.Order
import WeightedSearch.Proofs.Evaluation.Fixed

namespace WeightedSearch

open Grouping

variable {κ : Type} {answers : Answers κ} {policy : KeyPolicy κ}

/-! ### Evaluations succeed -/

/-- The evaluation over the answers that gives each key the greatest of its weights. -/
abbrev Answers.greatest (answers : Answers κ) (policy : KeyPolicy κ) :
    Effects (Except EvaluationFailure) κ :=
  answers.replies.effects policy WeightRule.max.combine

/-- Whether the weights of all entries are as `P` says. -/
def WeightsIn (P : Weight → Prop) (es : List (Entry κ)) : Prop :=
  ∀ e ∈ es, P e.weight

/-- Whether the answers to all values of a query have valid weights. -/
def Answers.ValidFor (answers : Answers κ) (q : Query) : Prop :=
  ∀ l ∈ q.leaves, WeightsIn (·.isValid = true) (answers l.1 l.2)

theorem Answers.ValidFor.sibling {q s : Query} (h : answers.ValidFor q) (hs : s ∈ q.siblings) :
    answers.ValidFor s :=
  fun l hl => h l (Query.mem_leaves_of_mem_siblings hs hl)

/-- What survives at a level has the weights that the siblings found. -/
theorem weightsIn_survivors {rs : List (Resolved κ)}
    (h : ∀ r ∈ rs, WeightsIn (·.isValid = true) r.2) :
    WeightsIn (·.isValid = true) (Resolved.survivors policy rs) := by
  intro e he
  obtain ⟨r, hr, he⟩ := Resolved.exists_of_mem_accumulated (List.mem_filter.1 he).1
  exact h r hr e he

/-- The greatest of some valid weights is one of them. -/
theorem isValid_of_firsts (h : policy.Lawful) {es : List (Entry κ)}
    (hes : WeightsIn (·.isValid = true) es) (siblings : List Query) {e : Entry κ}
    (he : e ∈ firsts policy es) :
    (WeightRule.max.combine (weights policy es e) siblings).isValid = true := by
  refine Weight.isValid_greatest (weights_ne_nil h he) fun w hw => ?_
  obtain ⟨d, hd, rfl⟩ := List.mem_map.1 hw
  exact hes d (List.mem_filter.1 hd).1

theorem weightsIn_groups (h : policy.Lawful) (siblings : List Query) {es : List (Entry κ)}
    (hes : WeightsIn (·.isValid = true) es) :
    WeightsIn (·.isValid = true) (groups policy WeightRule.max.combine siblings es) :=
  List.forall_mem_map.2 fun _ => isValid_of_firsts h hes siblings

/-- A level over valid weights does not fail. -/
theorem level_of_resolve_greatest (h : policy.Lawful) {q : Query}
    (hs : ∀ s ∈ q.siblings, ∃ es, (answers.greatest policy).resolve s = .ok es ∧
      WeightsIn (·.isValid = true) es) :
    ∃ rs, (answers.greatest policy).resolveAll q.siblings = .ok rs ∧
      (∀ r ∈ rs, WeightsIn (·.isValid = true) r.2) ∧
      (answers.greatest policy).found q
        = .ok (groups policy WeightRule.max.combine q.siblings
          (Resolved.survivors policy rs)) := by
  obtain ⟨rs, hrs, -, hvalid, hfound⟩ :=
    found_of_siblings h (P := fun _ es => WeightsIn (·.isValid = true) es) hs
      fun rs hrs e he => isValid_of_firsts h (weightsIn_survivors hrs) q.siblings he
  exact ⟨rs, hrs, hvalid, hfound⟩

/-- Over answers with valid weights no sibling fails, however deep it is nested. -/
theorem resolve_greatest (h : policy.Lawful) {q : Query} (hq : answers.ValidFor q) :
    ∃ es, (answers.greatest policy).resolve q = .ok es ∧ WeightsIn (·.isValid = true) es := by
  revert hq
  -- the induction carries the validity of what is found, which the next level needs
  refine (Query.induct_levels
    (R := fun q => answers.ValidFor q →
      ∃ es, (answers.greatest policy).resolve q = .ok es ∧ WeightsIn (·.isValid = true) es)
    (L := fun q => answers.ValidFor q →
      ∃ es, (answers.greatest policy).found q = .ok es ∧ WeightsIn (·.isValid = true) es)
    (fun _ => ⟨[], rfl, fun _ he => nomatch he⟩) ?value ?group
    (fun _ ih => ih) (fun _ ih => ih) ?level q).1
  case value => exact fun m text hq => ⟨_, rfl, hq (m, text) (by simp [Query.leaves])⟩
  case group =>
    intro qs ih
    rw [Effects.resolve_group]
    exact ih
  case level =>
    intro q ih hq
    obtain ⟨rs, -, hvalid, hfound⟩ :=
      level_of_resolve_greatest h fun s hs => ih s hs (hq.sibling hs)
    exact ⟨_, hfound, weightsIn_groups h _ (weightsIn_survivors hvalid)⟩

/-- Where all weights in the answers are valid, a query finds what its level makes of entries with
valid weights. -/
theorem level_greatest (h : policy.Lawful) {q : Query} (hq : answers.ValidFor q) :
    ∃ rs, (answers.greatest policy).resolveAll q.siblings = .ok rs ∧
      (∀ r ∈ rs, WeightsIn (·.isValid = true) r.2) ∧
      (answers.greatest policy).found q
        = .ok (groups policy WeightRule.max.combine q.siblings
          (Resolved.survivors policy rs)) :=
  level_of_resolve_greatest h fun _ hs => resolve_greatest h (hq.sibling hs)

/-- Where all weights in the answers are valid, an evaluation succeeds, and what it finds has valid
weights and different keys. -/
theorem found_greatest (h : policy.Lawful) {q : Query} (hq : answers.ValidFor q) :
    ∃ es, (answers.greatest policy).found q = .ok es ∧ WeightsIn (·.isValid = true) es ∧
      es.Pairwise fun d e => policy.same d.key e.key = false := by
  obtain ⟨rs, -, hvalid, hfound⟩ := level_greatest h hq
  exact ⟨_, hfound, weightsIn_groups h _ (weightsIn_survivors hvalid),
    pairwise_groups policy _ _ _⟩

/-! ### Bounds of weights -/

/-- Whether the weights of some entries have the same bounds as those of others. -/
def SameBounds (es fs : List (Entry κ)) : Prop :=
  ∀ n, (∀ e ∈ es, e.weight.place ≤ n) ↔ ∀ f ∈ fs, f.weight.place ≤ n

namespace SameBounds

variable {es fs gs es' fs' : List (Entry κ)}

theorem refl (es : List (Entry κ)) : SameBounds es es := fun _ => Iff.rfl

theorem symm (h : SameBounds es fs) : SameBounds fs es := fun n => (h n).symm

theorem trans (h : SameBounds es fs) (h' : SameBounds fs gs) : SameBounds es gs :=
  fun n => (h n).trans (h' n)

theorem append (h : SameBounds es fs) (h' : SameBounds es' fs') :
    SameBounds (es ++ es') (fs ++ fs') := by
  intro n
  rw [List.forall_mem_append, List.forall_mem_append, h n, h' n]

/-- Only no weights at all have every number as a bound. -/
theorem eq_nil (h : SameBounds [] fs) : fs = [] := by
  cases fs with
  | nil => rfl
  | cons f fs =>
    have hle := (h (f.weight.place - 1)).1 nofun f (by simp)
    omega

theorem nil_iff (h : SameBounds es fs) : es = [] ↔ fs = [] := by
  constructor
  · rintro rfl
    exact h.eq_nil
  · rintro rfl
    exact h.symm.eq_nil

/-- A single weight is given by its bounds. -/
theorem weight_eq {e f : Entry κ} (h : SameBounds [e] [f]) (he : e.weight.isValid = true)
    (hf : f.weight.isValid = true) : e.weight = f.weight := by
  simp only [SameBounds, List.forall_mem_singleton] at h
  refine Weight.eq_of_place_eq he hf (Int.le_antisymm ?_ ?_)
  · exact (h _).2 (Int.le_refl _)
  · exact (h _).1 (Int.le_refl _)

end SameBounds

/-- The one weight that is made for a key has the bounds of all weights of the key. -/
theorem sameBounds_groups (h : policy.Lawful) (siblings : List Query) {es : List (Entry κ)}
    (hes : WeightsIn (·.isValid = true) es) (k : κ) :
    SameBounds (ofKey policy (groups policy WeightRule.max.combine siblings es) k)
      (ofKey policy es k) := by
  have hvalid : ∀ w ∈ (ofKey policy es k).map (·.weight), w.isValid = true :=
    List.forall_mem_map.2 fun e he => hes e (List.mem_filter.1 he).1
  rw [ofKey_groups h]
  cases hk : ofKey policy es k with
  | nil => exact .refl []
  | cons d ds =>
    rw [hk] at hvalid
    intro n
    -- the greatest weight is below a number exactly when all are
    have hbound : (Weight.greatest ((d :: ds).map (·.weight))).place ≤ n ↔
        ∀ w ∈ (d :: ds).map (·.weight), w.place ≤ n :=
      Weight.place_greatest_le_iff (List.cons_ne_nil _ _) hvalid
    rw [List.forall_mem_map] at hbound
    exact List.forall_mem_singleton.trans hbound

end WeightedSearch
