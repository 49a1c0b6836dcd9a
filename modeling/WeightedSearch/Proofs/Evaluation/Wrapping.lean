/-
Marks and brackets around a query.

What a query finds has one entry for each key, with a valid weight.  A level with that query alone
in it takes these entries as they come: a required sibling finds all the keys that it brings, no two
entries are merged, and the weight of each is made of that weight alone.  A combiner that keeps a
lone weight then reduces the level to the same entries, so it makes no difference how often a query
is marked as required or put in brackets.  Main statements:

* `WeightRule.keepsLone` — the built-in combiners keep a lone weight;
* `groups_of_settled` — entries of different keys are reduced to themselves;
* `reduce_lone` — a level of one sibling finds what the sibling is resolved to;
* `evaluate_within` — marks and brackets change nothing, failures included, and a query that is
  excluded finds nothing.
-/
import WeightedSearch.Proofs.Evaluation.Fixed
import WeightedSearch.Proofs.Weight.Order

namespace WeightedSearch

open Grouping

variable {κ : Type} {policy : KeyPolicy κ} {combiner : Combiner}

/-! ### Combiners that keep a lone weight -/

/-- Whether a combiner makes of one valid weight that weight, whatever the siblings are. -/
def Combiner.KeepsLone (combiner : Combiner) : Prop :=
  ∀ w siblings, w.isValid = true → combiner [w] siblings = w

namespace WeightRule

theorem keepsLone (rule : WeightRule) : rule.combine.KeepsLone := by
  intro w siblings hw
  have hsum : Weight.sum [w] = w := Weight.negZero_add w
  cases rule with
  | sum => exact hsum
  | max =>
    have hmem : Weight.greatest [w] ∈ [w] :=
      Weight.greatest_mem (List.cons_ne_nil w []) fun v hv => by rwa [List.mem_singleton.1 hv]
    exact List.mem_singleton.1 hmem
  | mean =>
    obtain ⟨n, rfl, -⟩ := Weight.isValid_iff.1 hw
    show Weight.sum [.finite false n] / Weight.ofNat 1 = .finite false n
    rw [hsum, Weight.finite_div_ofNat_one]

end WeightRule

/-! ### Levels of one sibling -/

/-- What a level is reduced to if it is left with entries of different keys and with valid
weights. -/
theorem groups_of_settled (h : policy.Lawful) (hcombiner : combiner.KeepsLone)
    {es : List (Entry κ)} (hes : es.Pairwise fun d e => policy.same d.key e.key = false)
    (hvalid : ∀ e ∈ es, e.weight.isValid = true) (siblings : List Query) :
    (∀ e ∈ es, combiner (weights policy es e) siblings = e.weight) ∧
      groups policy combiner siblings es = es := by
  have hweight : ∀ e ∈ es, combiner (weights policy es e) siblings = e.weight := by
    intro e he
    rw [weights, ofKey_of_pairwise h hes he]
    exact hcombiner _ siblings (hvalid e he)
  refine ⟨hweight, ?_⟩
  -- the entry of a key is made of one entry only, with its weight and its locations
  have hsame : ∀ e ∈ es, (⟨e.key, combiner (weights policy es e) siblings,
      (ofKey policy es e.key).flatMap (·.locations)⟩ : Entry κ) = e := by
    intro e he
    rw [hweight e he, ofKey_of_pairwise h hes he, List.flatMap_singleton]
  rw [groups, firsts_of_pairwise hes, List.map_congr_left hsame, List.map_id']

namespace Resolved

/-- A sibling that is alone at its level keeps all that it finds, unless it is excluded. -/
theorem survivors_lone (h : policy.Lawful) {s : Query} (hs : s.isExcluded = false)
    (es : List (Entry κ)) : survivors policy [(s, es)] = es := by
  have haccumulated : accumulated [(s, es)] = es := by simp [accumulated, hs]
  rw [survivors, haccumulated, List.filter_eq_self]
  intro e he
  -- every key is found by the sibling itself, so it does not matter whether that is required
  have hfound : (es.any fun d => policy.same e.key d.key) = true :=
    List.any_eq_true.2 ⟨e, he, h.refl e.key⟩
  cases hr : s.isRequired <;> simp [keeps, findsKey, hs, hr, hfound]

end Resolved

section

variable {replies : Replies κ} {s x : Query}

theorem reduce_singleton_of_error {e : EvaluationFailure}
    (hs : (replies.effects policy combiner).resolve s = .error e) :
    (replies.effects policy combiner).reduce [s] = .error e := by
  rw [Effects.reduce_eq_settle, Effects.resolveAll, hs]
  rfl

theorem reduce_singleton_of_ok (h : policy.Lawful) {es : List (Entry κ)}
    (hs : (replies.effects policy combiner).resolve s = .ok es)
    (hvalid : ∀ e ∈ firsts policy (Resolved.survivors policy [(s, es)]),
      (combiner (weights policy (Resolved.survivors policy [(s, es)]) e) [s]).isValid = true) :
    (replies.effects policy combiner).reduce [s]
      = .ok (groups policy combiner [s] (Resolved.survivors policy [(s, es)])) :=
  (reduce_eq_ok_iff h).2 ⟨_, resolveAll_eq_ok_iff.2 (.cons ⟨rfl, hs⟩ .nil), hvalid, rfl⟩

/-- A level of one sibling that is resolved to what some query finds. -/
theorem reduce_lone (h : policy.Lawful) (hcombiner : combiner.KeepsLone)
    (hs : s.isExcluded = false)
    (hresolve : (replies.effects policy combiner).resolve s
      = (replies.effects policy combiner).found x) :
    (replies.effects policy combiner).reduce [s] = (replies.effects policy combiner).found x := by
  cases hx : (replies.effects policy combiner).found x with
  | error e => exact reduce_singleton_of_error (hresolve.trans hx)
  | ok es =>
    have hdistinct := pairwise_of_found h hx
    have hvalid := isValid_of_found hx
    have hkept : Resolved.survivors policy [(s, es)] = es := Resolved.survivors_lone h hs es
    obtain ⟨hweight, hgroups⟩ := groups_of_settled h hcombiner hdistinct hvalid [s]
    rw [reduce_singleton_of_ok h (hresolve.trans hx), hkept, hgroups]
    rw [hkept, firsts_of_pairwise hdistinct]
    intro e he
    rw [hweight e he]
    exact hvalid e he

theorem found_required (h : policy.Lawful) (hcombiner : combiner.KeepsLone) (x : Query) :
    (replies.effects policy combiner).found (.required x)
      = (replies.effects policy combiner).found x := by
  rw [Effects.found_eq_reduce _ (.required x)]
  exact reduce_lone h hcombiner rfl rfl

theorem found_brackets (h : policy.Lawful) (hcombiner : combiner.KeepsLone) (x : Query) :
    (replies.effects policy combiner).found (.group [x])
      = (replies.effects policy combiner).found x := by
  rw [Effects.found_eq_reduce _ (.group [x])]
  -- a query that is no group stands for the same level without the brackets
  cases x with
  | group qs => exact reduce_lone h hcombiner rfl (Effects.resolve_group _ qs)
  | nothing => exact (Effects.found_eq_reduce _ .nothing).symm
  | value m t => exact (Effects.found_eq_reduce _ (.value m t)).symm
  | required q => exact (Effects.found_eq_reduce _ (.required q)).symm
  | excluded q => exact (Effects.found_eq_reduce _ (.excluded q)).symm

theorem found_excluded (h : policy.Lawful) (x : Query) :
    (replies.effects policy combiner).found (.excluded x)
      = ((replies.effects policy combiner).found x).map fun _ => [] := by
  rw [Effects.found_eq_reduce _ (.excluded x)]
  cases hx : (replies.effects policy combiner).found x with
  | error e => exact reduce_singleton_of_error hx
  | ok es => exact reduce_singleton_of_ok h hx nofun

end

/-! ### Any number of marks and brackets -/

/-- What can be put around a query. -/
inductive Layer
  | mark
  | brackets

/-- The query with a mark or with brackets around it. -/
def Layer.around : Layer → Query → Query
  | mark, q => .required q
  | brackets, q => .group [q]

/-- The query with marks and brackets around it, the first outermost. -/
def Query.within (layers : List Layer) (q : Query) : Query :=
  layers.foldr Layer.around q

theorem Query.leaves_within (layers : List Layer) (q : Query) :
    (q.within layers).leaves = q.leaves := by
  induction layers with
  | nil => rfl
  | cons l layers ih =>
    have haround : ∀ p : Query, (l.around p).leaves = p.leaves := by
      intro p
      cases l with
      | mark => rfl
      | brackets => exact List.append_nil _
    exact (haround _).trans ih

theorem found_within {replies : Replies κ} (h : policy.Lawful) (hcombiner : combiner.KeepsLone)
    (layers : List Layer) (x : Query) :
    (replies.effects policy combiner).found (x.within layers)
      = (replies.effects policy combiner).found x := by
  induction layers with
  | nil => rfl
  | cons l layers ih =>
    -- the layers are taken off from outside, and what is within is a query like any other
    rw [← ih]
    cases l with
    | mark => exact found_required h hcombiner _
    | brackets => exact found_brackets h hcombiner _

/-- Where a combiner keeps a lone weight, as the built-in ones do, a query finds the same entries or
fails in the same way with any number of marks and brackets around it: in the same order, with the
keys as they were spelled, and with the weights and the places they had. Marked as excluded it finds
nothing, or fails in the same way. -/
theorem evaluate_within :
    (∀ rule : WeightRule, rule.combine.KeepsLone) ∧
    ∀ (indexes : Indexes κ) (replies : Replies κ) (combiner : Combiner) (x : Query),
      indexes.policy.Lawful → combiner.KeepsLone →
      (∀ l ∈ x.leaves, indexes.Repeats replies l.1 l.2) →
      ∀ c₁ c₂ : Caches κ, c₁.Faithful replies → c₂.Faithful replies →
        (∀ layers, (evaluate indexes combiner c₁ (x.within layers)).result
          = (evaluate indexes combiner c₂ x).result) ∧
        (evaluate indexes combiner c₁ (.excluded x)).result
          = (evaluate indexes combiner c₂ x).result.map fun _ => [] := by
  refine ⟨WeightRule.keepsLone, fun indexes replies combiner x h hcombiner hgives c₁ c₂ h₁ h₂ => ?_⟩
  have hx := (evaluate_fixed combiner h₂ hgives).1
  refine ⟨fun layers => ?_, ?_⟩
  · have hleaves : ∀ l ∈ (x.within layers).leaves, indexes.Repeats replies l.1 l.2 := by
      rwa [Query.leaves_within]
    rw [(evaluate_fixed combiner h₁ hleaves).1, hx, found_within h hcombiner]
  · have hleaves : ∀ l ∈ (Query.excluded x).leaves, indexes.Repeats replies l.1 l.2 := hgives
    rw [(evaluate_fixed combiner h₁ hleaves).1, hx, found_excluded h]

/-- Keys are the same if they have the same last digit. The entries of 1 and 21 are one, found by
the required value too, and 2 is excluded; with two marks and two pairs of brackets around it the
group finds the same. Next to a value that cannot be looked up everything fails. -/
theorem evaluate_within_lastDigit :
    let u : Weight := .finite false ⟨1, Format.binary32_has_one⟩
    let entry (k : Nat) : Entry Nat := ⟨k, u, [⟨0, k, 0, 1⟩]⟩
    let replies : Replies Nat := fun _ term => match term with
      | "a" => .ok [entry 1, entry 2, entry 21, entry 3]
      | "b" => .ok [entry 31, entry 2]
      | "c" => .ok [entry 12]
      | _ => .error (.failed term "down")
    let indexes : Indexes Nat := ⟨fun _ => replies, ⟨fun k l => k % 10 == l % 10⟩⟩
    let a : Query := .value .standard "a"
    let b : Query := .value .precise "b"
    let c : Query := .value .standard "c"
    let x : Query := .group [a, .required b, .excluded c]
    let y : Query := .group [x, .value .precise "d"]
    let found : Entry Nat := ⟨1, u, [⟨0, 1, 0, 1⟩, ⟨0, 21, 0, 1⟩, ⟨0, 31, 0, 1⟩]⟩
    let layers : List Layer := [.brackets, .mark, .mark, .brackets]
    let run (q : Query) := (evaluate indexes WeightRule.mean.combine (.new true) q).result
    indexes.policy.Lawful ∧ WeightRule.mean.combine.KeepsLone ∧
    (∀ q l, l ∈ Query.leaves q → indexes.Repeats replies l.1 l.2) ∧
    (Caches.new true).Faithful replies ∧
    run (x.within layers) = .ok [found] ∧ run (.excluded x) = .ok [] ∧
    run (y.within layers) = .error (.lookup (.failed "d" "down")) ∧
    run (.excluded y) = .error (.lookup (.failed "d" "down")) := by
  intro u entry replies indexes a b c x y found layers run
  have hlaw : indexes.policy.Lawful := KeyPolicy.lawful_beq fun k => k % 10
  have hmean := WeightRule.mean.keepsLone
  have hgives : ∀ q l, l ∈ Query.leaves q → indexes.Repeats replies l.1 l.2 := fun _ _ _ _ => rfl
  have hcaches := Caches.faithful_new replies true
  have hwithin := fun q => evaluate_within.2 indexes replies _ q hlaw hmean (hgives q) _ _
    hcaches hcaches
  have hx : run x = .ok [found] := by decide +kernel
  have hy : run y = .error (.lookup (.failed "d" "down")) := by decide +kernel
  refine ⟨hlaw, hmean, hgives, hcaches, ((hwithin x).1 layers).trans hx, (hwithin x).2.trans ?_,
    ((hwithin y).1 layers).trans hy, (hwithin y).2.trans ?_⟩
  · rw [show (evaluate indexes WeightRule.mean.combine (.new true) x).result = _ from hx]
    rfl
  · rw [show (evaluate indexes WeightRule.mean.combine (.new true) y).result = _ from hy]
    rfl

end WeightedSearch
