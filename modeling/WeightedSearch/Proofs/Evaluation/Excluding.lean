/-
Excluding as a filter.

At a level the excluded keys are dropped before the entries are merged.  They could as well be
dropped afterwards: to add an excluded sibling, wherever it is put, removes the entries of its keys
from what the level finds without it, and leaves the other entries as they are.  For this the
combiner must not look at the siblings.  Main statements:

* `groups_filter` — entries may be dropped before or after they are merged;
* `survivors_insert_excluded` — what one more excluded sibling takes from a level;
* `evaluate_insert_excluded` — the same for what an evaluation finds.
-/
import WeightedSearch.Proofs.Evaluation.Fixed

namespace WeightedSearch

variable {κ : Type} {policy : KeyPolicy κ}

/-- Whether a combiner makes the same weight whatever the siblings are. -/
def Combiner.IgnoresSiblings (combiner : Combiner) : Prop :=
  ∀ ws qs ps, combiner ws qs = combiner ws ps

/-- The built-in combiners do not look at the siblings. -/
theorem WeightRule.ignoresSiblings (rule : WeightRule) : rule.combine.IgnoresSiblings := by
  intro ws qs ps
  cases rule <;> rfl

/-! ### Dropping before and after merging -/

namespace Grouping

variable {p : κ → Bool}

theorem firsts_filter (hp : ∀ a b, policy.same a b = true → p a = p b) (es : List (Entry κ)) :
    firsts policy (es.filter fun e => p e.key) = (firsts policy es).filter fun e => p e.key := by
  induction es with
  | nil => rfl
  | cons e es ih =>
    rw [firsts, List.filter_cons, List.filter_cons, List.filter_filter]
    cases he : p e.key with
    | true =>
      rw [if_pos rfl, if_pos rfl, firsts, ih, List.filter_filter]
      simp only [Bool.and_comm]
    | false =>
      rw [if_neg Bool.false_ne_true, if_neg Bool.false_ne_true, ih]
      -- what is dropped with `e` as an entry of its key has gone already
      refine List.filter_congr fun d _ => ?_
      cases hd : policy.same e.key d.key with
      | true => rw [← hp _ _ hd, he, Bool.false_and]
      | false => rw [Bool.not_false, Bool.and_true]

/-- Whether keys are dropped before or after their entries are merged makes no difference. -/
theorem groups_filter (hp : ∀ a b, policy.same a b = true → p a = p b) (combiner : Combiner)
    (siblings : List Query) (es : List (Entry κ)) :
    groups policy combiner siblings (es.filter fun e => p e.key)
      = (groups policy combiner siblings es).filter fun e => p e.key := by
  rw [groups, groups, firsts_filter hp, List.filter_map]
  refine List.map_congr_left fun e he => ?_
  have hkey : ofKey policy (es.filter fun d => p d.key) e.key = ofKey policy es e.key := by
    rw [ofKey_filter p hp, if_pos (List.mem_filter.1 he).2]
  rw [weights, weights, hkey]

theorem weights_filter (hp : ∀ a b, policy.same a b = true → p a = p b) {es : List (Entry κ)}
    {e : Entry κ} (he : p e.key = true) :
    weights policy (es.filter fun d => p d.key) e = weights policy es e := by
  rw [weights, weights, ofKey_filter p hp, if_pos he]

end Grouping

open Grouping

/-- An excluded sibling only takes keys away, those that it finds. -/
theorem keeps_insert_excluded (rs ss : List (Resolved κ)) (q : Query) (es : List (Entry κ))
    (key : κ) : Resolved.keeps policy (rs ++ (.excluded q, es) :: ss) key
      = ((!es.any fun e => policy.same key e.key) && Resolved.keeps policy (rs ++ ss) key) := by
  have hfinds : ∀ kind key, Resolved.findsKey policy kind (rs ++ (.excluded q, es) :: ss) key
      = (kind (.excluded q) && (es.any fun e => policy.same key e.key)
        || Resolved.findsKey policy kind (rs ++ ss) key) := by
    intro kind key
    simp only [Resolved.findsKey, List.any_append, List.any_cons]
    rw [Bool.or_left_comm]
  have hrequired : ((rs ++ (.excluded q, es) :: ss).any fun r => r.1.isRequired)
      = (rs ++ ss).any fun r => r.1.isRequired := by
    simp [Query.isRequired]
  rw [Resolved.keeps, Resolved.keeps, hrequired, hfinds, hfinds]
  simp only [Query.isExcluded, Query.isRequired, Bool.true_and, Bool.false_and, Bool.false_or,
    Bool.not_or, Bool.and_assoc]

theorem survivors_insert_excluded (rs ss : List (Resolved κ)) (q : Query) (es : List (Entry κ)) :
    Resolved.survivors policy (rs ++ (.excluded q, es) :: ss)
      = (Resolved.survivors policy (rs ++ ss)).filter fun d =>
          !es.any fun e => policy.same d.key e.key := by
  have haccumulated : Resolved.accumulated (rs ++ (.excluded q, es) :: ss)
      = Resolved.accumulated (rs ++ ss) := by
    simp [Resolved.accumulated, Query.isExcluded]
  rw [Resolved.survivors, Resolved.survivors, haccumulated, List.filter_filter]
  simp only [keeps_insert_excluded]

theorem resolveAll_append {μ : Type → Type} [Monad μ] [LawfulMonad μ] (effects : Effects μ κ)
    (qs ps : List Query) : effects.resolveAll (qs ++ ps) = (do
      let rs ← effects.resolveAll qs
      let ss ← effects.resolveAll ps
      pure (rs ++ ss)) := by
  induction qs with
  | nil => simp [Effects.resolveAll]
  | cons q qs ih => simp [Effects.resolveAll, ih]

section

variable {replies : Replies κ} {combiner : Combiner}

/-- One more excluded query takes its keys from the level and leaves the rest as it is. -/
theorem reduce_insert_excluded (h : policy.Lawful) (hcombiner : combiner.IgnoresSiblings)
    {qs ps : List Query} {x : Query} {es ds : List (Entry κ)}
    (hes : (replies.effects policy combiner).reduce (qs ++ ps) = .ok es)
    (hds : (replies.effects policy combiner).found x = .ok ds) :
    (replies.effects policy combiner).reduce (qs ++ .excluded x :: ps)
      = .ok (es.filter fun e => !ds.any fun d => policy.same e.key d.key) := by
  obtain ⟨_, hresolve, hvalid, rfl⟩ := (reduce_eq_ok_iff h).1 hes
  rw [resolveAll_append, bind_eq_ok_iff] at hresolve
  obtain ⟨rs, hrs, hrest⟩ := hresolve
  obtain ⟨ss, hss, ⟨⟩⟩ := bind_eq_ok_iff.1 hrest
  -- whether a key is dropped does not depend on its spelling, so whole groups go or stay
  have hdrops : ∀ a b, policy.same a b = true →
      (!ds.any fun d => policy.same a d.key) = !ds.any fun d => policy.same b d.key := by
    intro a b hab
    simp only [h.same_congr hab]
  refine (reduce_eq_ok_iff h).2 ⟨rs ++ (.excluded x, ds) :: ss, ?_, ?_, ?_⟩
  · rw [resolveAll_append, hrs, Effects.resolveAll,
      show (replies.effects policy combiner).resolve (.excluded x) = _ from hds, hss]
    rfl
  · rw [survivors_insert_excluded, firsts_filter hdrops]
    intro e he
    -- the groups that stay have the weights they had, and those are known to be valid
    obtain ⟨he, hkey⟩ := List.mem_filter.1 he
    rw [weights_filter hdrops hkey, hcombiner _ _ (qs ++ ps)]
    exact hvalid e he
  · rw [survivors_insert_excluded, groups_filter hdrops]
    simp only [groups, hcombiner _ (qs ++ .excluded x :: ps) (qs ++ ps)]

/-- If siblings find some entries together and a query finds some keys, then the siblings with that
query among them as an excluded one, in whatever place, find the entries that are not of these keys:
the same entries in the same order, with the keys as they were spelled, and with the weights and the
places they had. -/
theorem evaluate_insert_excluded {indexes : Indexes κ} (h : indexes.policy.Lawful)
    (hcombiner : combiner.IgnoresSiblings) {qs ps : List Query} {x : Query}
    (hgives : ∀ l ∈ (Query.group (qs ++ .excluded x :: ps)).leaves,
      indexes.Repeats replies l.1 l.2)
    {c₁ c₂ c₃ : Caches κ} (h₁ : c₁.Faithful replies) (h₂ : c₂.Faithful replies)
    (h₃ : c₃.Faithful replies) {es ds : List (Entry κ)}
    (hes : (evaluate indexes combiner c₁ (.group (qs ++ ps))).result = .ok es)
    (hds : (evaluate indexes combiner c₂ x).result = .ok ds) :
    (evaluate indexes combiner c₃ (.group (qs ++ .excluded x :: ps))).result
      = .ok (es.filter fun e => !ds.any fun d => indexes.policy.same e.key d.key) := by
  have hgroup : ∀ l ∈ (Query.group (qs ++ ps)).leaves, indexes.Repeats replies l.1 l.2 := by
    intro l hl
    obtain ⟨q, hq, hl⟩ := Query.mem_leavesAll.1 hl
    refine hgives l (Query.mem_leavesAll.2 ⟨q, ?_, hl⟩)
    rcases List.mem_append.1 hq with hq | hq <;> simp [hq]
  have hinner : ∀ l ∈ x.leaves, indexes.Repeats replies l.1 l.2 := fun l hl =>
    hgives l (Query.mem_leavesAll.2 ⟨.excluded x, by simp, hl⟩)
  -- each of the three evaluations ends as over the replies alone, so it is enough to compare these
  rw [(evaluate_fixed combiner h₁ hgroup).1, Effects.found_eq_reduce] at hes
  rw [(evaluate_fixed combiner h₂ hinner).1] at hds
  rw [(evaluate_fixed combiner h₃ hgives).1, Effects.found_eq_reduce]
  exact reduce_insert_excluded h hcombiner hes hds

end

/-- Keys are the same if they have the same last digit. The group finds 1, 2 and 5 with the weights
of both values `a`; the excluded group between its members finds 12 and, less what `c` finds, 21,
and leaves of the three entries the one of 5. -/
theorem evaluate_insert_excluded_lastDigit :
    let u : Weight := .finite false ⟨1, Format.binary32_has_one⟩
    let v : Weight := .finite false ⟨2, Format.binary32_has_two⟩
    let entry (k : Nat) : Entry Nat := ⟨k, u, [⟨0, k, 0, 1⟩]⟩
    let replies : Replies Nat := fun _ term => match term with
      | "a" => .ok [entry 1, entry 2, entry 3, entry 5]
      | "b" => .ok [entry 12, entry 21, entry 13]
      | "c" => .ok [entry 3]
      | _ => .error (.failed term "down")
    let indexes : Indexes Nat := ⟨fun _ => replies, ⟨fun k l => k % 10 == l % 10⟩⟩
    let a : Query := .value .standard "a"
    let b : Query := .value .precise "b"
    let c : Query := .value .standard "c"
    let x : Query := .group [b, .excluded c]
    let found (k : Nat) : Entry Nat := ⟨k, v, [⟨0, k, 0, 1⟩, ⟨0, k, 0, 1⟩]⟩
    let run (q : Query) := (evaluate indexes WeightRule.sum.combine (.new true) q).result
    indexes.policy.Lawful ∧ WeightRule.sum.combine.IgnoresSiblings ∧
    (∀ l ∈ (Query.group ([a] ++ .excluded x :: [.required a, .excluded c])).leaves,
      indexes.Repeats replies l.1 l.2) ∧
    (Caches.new true).Faithful replies ∧
    run (.group ([a] ++ [.required a, .excluded c])) = .ok [found 1, found 2, found 5] ∧
    run x = .ok [entry 12, entry 21] ∧
    run (.group ([a] ++ .excluded x :: [.required a, .excluded c])) = .ok [found 5] := by
  intro u v entry replies indexes a b c x found run
  have hlaw : indexes.policy.Lawful := KeyPolicy.lawful_beq fun k => k % 10
  have hcombiner := WeightRule.sum.ignoresSiblings
  have hgives : ∀ l ∈ (Query.group ([a] ++ .excluded x :: [.required a, .excluded c])).leaves,
      indexes.Repeats replies l.1 l.2 := fun _ _ _ => rfl
  have hcaches := Caches.faithful_new replies true
  have hes : run (.group ([a] ++ [.required a, .excluded c]))
      = .ok [found 1, found 2, found 5] := by decide +kernel
  have hds : run x = .ok [entry 12, entry 21] := by decide +kernel
  have hboth := evaluate_insert_excluded hlaw hcombiner hgives hcaches hcaches hcaches hes hds
  refine ⟨hlaw, hcombiner, hgives, hcaches, hes, hds, hboth.trans ?_⟩
  decide +kernel

end WeightedSearch
