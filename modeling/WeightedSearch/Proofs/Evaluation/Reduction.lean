/-
Reducing a level.

The reduction of a level is an ordered group-by: what its siblings bring is filtered, grouped by
key, and each group is weighed in turn until a weight is invalid.  Main statements:

* `weigh_run` — groups are weighed in order and up to the first invalid weight;
* `resolveAll_map_fst` — siblings are resolved in their order;
* `ofKey_survivors` — the entries of a key are left at a level together;
* `reduce_groups` — the whole reduction, with the uses of the combiner it makes.
-/
import WeightedSearch.Evaluation.Progress
import WeightedSearch.Proofs.Evaluation.Siblings
import WeightedSearch.Proofs.Evaluation.Grouping

namespace WeightedSearch

variable {κ : Type}

/-! ### Weighing groups -/

namespace Combining

/-- The use of the combiner for some weights. -/
def of (combiner : Combiner) (siblings : List Query) (weights : List Weight) : Combining :=
  ⟨weights, siblings, combiner weights siblings⟩

/-- Whether the weight made is invalid. -/
def fails (c : Combining) : Bool :=
  !c.weight.isValid

/-- The uses up to the first that fails, which is the last to be made. -/
def made (cs : List Combining) : List Combining :=
  cs.take (cs.findIdx fails + 1)

/-- A use that fails is the last. -/
theorem made_cons (c : Combining) (cs : List Combining) :
    made (c :: cs) = c :: if c.fails then [] else made cs := by
  cases h : c.fails <;> simp [made, List.findIdx_cons, h]

end Combining

open Combining (of fails made made_cons)

/-- The progress after some more uses of the combiner. -/
def Progress.combined (p : Progress κ) (cs : List Combining) : Progress κ :=
  { p with combinings := p.combinings ++ cs }

/-- The combiner is used, and an invalid weight is the failure. -/
theorem useCombiner_run (combiner : Combiner) (siblings : List Query) (ws : List Weight)
    (p : Progress κ) :
    useCombiner combiner siblings ws p =
      if (of combiner siblings ws).fails then
        .error (.invalidWeight (combiner ws siblings)) (p.combined [of combiner siblings ws])
      else .ok (combiner ws siblings) (p.combined [of combiner siblings ws]) := by
  cases h : (combiner ws siblings).isValid <;> simp [useCombiner, fails, of, h, Progress.combined]

theorem combined_combined (p : Progress κ) (cs ds : List Combining) :
    (p.combined cs).combined ds = p.combined (cs ++ ds) := by
  simp [Progress.combined]

/-- Groups are weighed in order, up to the first invalid weight. -/
theorem weigh_run (indexes : Indexes κ) (combiner : Combiner) (siblings : List Query)
    (l : List (Entry κ × List Weight)) (p : Progress κ) :
    (indexes.effects combiner).weigh siblings l p =
      let cs := l.map fun x => of combiner siblings x.2
      match cs.find? fails with
      | none => .ok (l.map fun x => x.1.withWeight (combiner x.2 siblings))
          (p.combined (made cs))
      | some c => .error (.invalidWeight c.weight) (p.combined (made cs)) := by
  induction l generalizing p with
  | nil => simp [Effects.weigh, made, Progress.combined, pure, EStateM.pure]
  | cons x l ih =>
    obtain ⟨e, ws⟩ := x
    have huse := useCombiner_run combiner siblings ws p
    dsimp only
    rw [Effects.weigh, List.map_cons, made_cons, List.find?_cons]
    -- the groups behind are weighed only if the weight of this one is valid
    cases hfail : (of combiner siblings ws).fails with
    | true =>
      rw [hfail, if_pos rfl] at huse
      exact Evaluation.bind_error huse
    | false =>
      rw [hfail, if_neg Bool.false_ne_true] at huse
      have hrest := ih (p.combined [of combiner siblings ws])
      simp only [combined_combined] at hrest
      refine (Evaluation.bind_ok huse).trans ?_
      cases hfind : (l.map fun x => of combiner siblings x.2).find? fails with
      | none =>
        rw [hfind] at hrest
        exact Evaluation.bind_ok hrest
      | some c =>
        rw [hfind] at hrest
        exact Evaluation.bind_error hrest

namespace Grouping

/-- The uses of the combiner for the entries left at a level, one for each key. -/
def combinings (policy : KeyPolicy κ) (combiner : Combiner) (siblings : List Query)
    (es : List (Entry κ)) : List Combining :=
  (firsts policy es).map fun e => of combiner siblings (weights policy es e)

/-- The entries of a level, one for each key: the key as it was found first, the weight that the
combiner makes of all weights of the key, and all places of the key. -/
def groups (policy : KeyPolicy κ) (combiner : Combiner) (siblings : List Query)
    (es : List (Entry κ)) : List (Entry κ) :=
  (firsts policy es).map fun e =>
    { key := e.key
      weight := combiner (weights policy es e) siblings
      locations := (ofKey policy es e.key).flatMap (·.locations) }

/-- Of the entries of a key one is left: the first, with the weight made of all their weights and
with all their places. -/
theorem ofKey_groups {policy : KeyPolicy κ} (h : policy.Lawful) (combiner : Combiner)
    (siblings : List Query) (es : List (Entry κ)) (key : κ) :
    ofKey policy (groups policy combiner siblings es) key = match ofKey policy es key with
      | [] => []
      | d :: ds => [⟨d.key, combiner ((d :: ds).map (·.weight)) siblings,
          (d :: ds).flatMap (·.locations)⟩] := by
  -- the groups stand for the first entries, of which the key has at most one
  have hgroups : ofKey policy (groups policy combiner siblings es) key =
      ((ofKey policy es key).take 1).map fun e => ⟨e.key, combiner (weights policy es e) siblings,
        (ofKey policy es e.key).flatMap (·.locations)⟩ := by
    rw [← ofKey_firsts h, ofKey, groups, List.filter_map]
    rfl
  rw [hgroups]
  cases hes : ofKey policy es key with
  | nil => rfl
  | cons d ds =>
    have hd : policy.same key d.key = true :=
      (List.mem_filter.1 (hes ▸ List.mem_cons_self : d ∈ ofKey policy es key)).2
    have hkey : ofKey policy es d.key = d :: ds := by rw [← hes, ofKey_congr h hd]
    simp [weights, hkey]

/-- No two groups have the same key. -/
theorem pairwise_groups (policy : KeyPolicy κ) (combiner : Combiner) (siblings : List Query)
    (es : List (Entry κ)) : (groups policy combiner siblings es).Pairwise fun d e =>
      policy.same d.key e.key = false :=
  List.pairwise_map.2 (pairwise_firsts es)

end Grouping

open Grouping

/-- To settle a level is to weigh the groups of what is left of it. -/
theorem settle_run {indexes : Indexes κ} (h : indexes.policy.Lawful) (combiner : Combiner)
    (siblings : List Query) (g : Gathered κ) (p : Progress κ) :
    (indexes.effects combiner).settle siblings g p =
      let es := g.kept indexes.policy
      let cs := combinings indexes.policy combiner siblings es
      match cs.find? fails with
      | none => .ok (groups indexes.policy combiner siblings es) (p.combined (made cs))
      | some c => .error (.invalidWeight c.weight) (p.combined (made cs)) := by
  rw [Effects.settle, Indexes.effects_policy, weighted_ofEntries h, weigh_run]
  simp only [List.map_map]
  rfl

/-- Siblings that are resolved are those that were given. -/
theorem resolveAll_map_fst {effects : Effects (Evaluation κ) κ} {qs : List Query}
    {rs : List (Resolved κ)} {p p' : Progress κ} (hrs : effects.resolveAll qs p = .ok rs p') :
    rs.map Prod.fst = qs := by
  induction qs generalizing rs p p' with
  | nil =>
    obtain ⟨rfl, -⟩ : [] = rs ∧ p = p' := by
      simpa [Effects.resolveAll, pure, EStateM.pure] using hrs
    rfl
  | cons q qs ih =>
    obtain ⟨es, s, -, hrs⟩ := Evaluation.exists_of_bind_ok hrs
    obtain ⟨ss, t, hss, hrs⟩ := Evaluation.exists_of_bind_ok hrs
    obtain ⟨rfl, -⟩ : (q, es) :: ss = rs ∧ t = p' := by simpa [pure, EStateM.pure] using hrs
    rw [List.map_cons, ih hss]

/-! ### The reduction of a level -/

/-- Whether a level keeps a key does not depend on how the key is spelled. -/
theorem keeps_congr {policy : KeyPolicy κ} (h : policy.Lawful) (rs : List (Resolved κ)) {a b : κ}
    (hab : policy.same a b = true) : Resolved.keeps policy rs a = Resolved.keeps policy rs b := by
  simp [Resolved.keeps, Resolved.findsKey, h.same_congr hab]

/-- A level leaves all entries of a key or none. -/
theorem ofKey_survivors {policy : KeyPolicy κ} (h : policy.Lawful) (rs : List (Resolved κ))
    (key : κ) : ofKey policy (Resolved.survivors policy rs) key =
      if Resolved.keeps policy rs key then ofKey policy (Resolved.accumulated rs) key else [] := by
  rw [Resolved.survivors, ofKey_filter _ fun _ _ hab => keeps_congr h rs hab]

/-- A level whose siblings all resolve is an ordered group-by of what survives of the entries they
bring. There is one group for each key, in the order in which the keys are first found and spelled
as they are first found. The combiner is used once for each group, in that order, up to the first
weight that is invalid, which is then the failure. -/
theorem reduce_groups {indexes : Indexes κ} (h : indexes.policy.Lawful) (combiner : Combiner)
    {qs : List Query} {rs : List (Resolved κ)} {p p' : Progress κ}
    (hrs : (indexes.effects combiner).resolveAll qs p = .ok rs p') :
    let es := Resolved.survivors indexes.policy rs
    let heads := firsts indexes.policy es
    let cs := combinings indexes.policy combiner qs es
    rs.map Prod.fst = qs ∧
    (indexes.effects combiner).reduce qs p = (match cs.find? fails with
      | none => .ok (groups indexes.policy combiner qs es) (p'.combined (made cs))
      | some c => .error (.invalidWeight c.weight) (p'.combined (made cs))) ∧
    heads.Sublist es ∧
    heads.Pairwise (fun d e => indexes.policy.same d.key e.key = false) ∧
    (∀ d ∈ heads, es.find? (fun e => indexes.policy.same d.key e.key) = some d) ∧
    (∀ e ∈ es, ∃ d ∈ heads, indexes.policy.same d.key e.key = true) ∧
    ∀ c ∈ cs, c.weights ≠ [] := by
  intro es heads cs
  refine ⟨resolveAll_map_fst hrs, ?_, firsts_sublist es, pairwise_firsts es,
    fun d hd => find?_of_mem_firsts h hd, fun e he => exists_mem_firsts h he, ?_⟩
  · -- the siblings are resolved, so what is left of the level is to settle it
    rw [Effects.reduce_eq_settle, Evaluation.bind_ok hrs, settle_run h,
      Gathered.kept_ofSiblings]
  · intro c hc
    obtain ⟨e, he, rfl⟩ := List.mem_map.1 hc
    exact weights_ne_nil h he

/-- Of the keys 1, 2 and 3 that `a` finds, the key 2 is missing from the required `b` and the key 3
is excluded by `c`; the two spellings of the key 1 are put together, with the weight that was found
last. -/
theorem reduce_groups_spellings :
    let v : Weight := .finite false ⟨1, by decide +kernel⟩
    let w : Weight := .finite false ⟨2, by decide +kernel⟩
    let a : List (Entry (Nat × Nat)) :=
      [⟨(1, 0), v, [⟨0, 0, 0, 1⟩]⟩, ⟨(2, 0), w, []⟩, ⟨(3, 0), v, []⟩]
    let b : List (Entry (Nat × Nat)) := [⟨(1, 1), w, [⟨0, 1, 2, 1⟩]⟩, ⟨(3, 1), v, []⟩]
    let c : List (Entry (Nat × Nat)) := [⟨(3, 2), w, []⟩]
    let indexes : Indexes (Nat × Nat) :=
      { ask := fun n _ _ => .ok (match n with | 0 => a | 1 => b | _ => c)
        policy := ⟨fun k l => k.1 == l.1⟩ }
    let effects := indexes.effects fun ws _ => ws.getLastD .zero
    let siblings : List Query := [.value .standard "a", .required (.value .precise "b"),
      .excluded (.value .precise "c")]
    let rs : List (Resolved (Nat × Nat)) := siblings.zip [a, b, c]
    v ≠ w ∧ indexes.policy.Lawful ∧
    ∃ p cs, effects.resolveAll siblings ⟨.new true, [], []⟩ = .ok rs p ∧
      effects.reduce siblings ⟨.new true, [], []⟩
        = .ok [⟨(1, 0), w, [⟨0, 0, 0, 1⟩, ⟨0, 1, 2, 1⟩]⟩] (p.combined cs) := by
  intro v w a b c indexes effects siblings rs
  have hlaw : indexes.policy.Lawful := KeyPolicy.lawful_beq Prod.fst
  obtain ⟨p, hrs⟩ : ∃ p, effects.resolveAll siblings ⟨.new true, [], []⟩ = .ok rs p := ⟨_, rfl⟩
  exact ⟨by decide +kernel, hlaw, p, _, hrs,
    (reduce_groups hlaw (fun ws _ => ws.getLastD .zero) hrs).2.1⟩

end WeightedSearch
