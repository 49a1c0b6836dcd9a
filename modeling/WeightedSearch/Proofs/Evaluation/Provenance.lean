/-
Where the places of an entry come from.

The places of an entry are put together at one level after the other, and at each level some keys
are dropped.  Whatever is dropped and put together, the places of a key are in the end those in the
answers to the values that bear on it, in the order of the values: none is lost, none occurs twice,
and none has come from another key or from an excluded value.  Main statements:

* `samePlaces_groups` — putting entries together leaves the places of each key as they are;
* `traces_accumulated`, `traces_survivors` — what siblings bring to a level, and what gets past it;
* `resolvingSteps_traces` — one level more keeps the places traced;
* `evaluate_locations` — the places of every entry that an evaluation finds.
-/
import WeightedSearch.Proofs.Evaluation.Visits
import WeightedSearch.Proofs.Evaluation.Answered

namespace WeightedSearch

open Grouping Answered

variable {κ : Type} {policy : KeyPolicy κ}

/-! ### The places of a key -/

/-- Whether two lists of entries have the same places in the same order, and entries at all only if
both have. -/
structure SamePlaces (es fs : List (Entry κ)) : Prop where
  nil : es = [] ↔ fs = []
  locations : es.flatMap (·.locations) = fs.flatMap (·.locations)

theorem SamePlaces.refl (es : List (Entry κ)) : SamePlaces es es := ⟨Iff.rfl, rfl⟩

theorem SamePlaces.symm {es fs : List (Entry κ)} (h : SamePlaces es fs) : SamePlaces fs es :=
  ⟨h.nil.symm, h.locations.symm⟩

theorem SamePlaces.trans {es fs gs : List (Entry κ)} (hes : SamePlaces es fs)
    (hfs : SamePlaces fs gs) : SamePlaces es gs :=
  ⟨hes.nil.trans hfs.nil, hes.locations.trans hfs.locations⟩

theorem SamePlaces.append {es fs es' fs' : List (Entry κ)} (h : SamePlaces es fs)
    (h' : SamePlaces es' fs') : SamePlaces (es ++ es') (fs ++ fs') where
  nil := by rw [List.append_eq_nil_iff, List.append_eq_nil_iff, h.nil, h'.nil]
  locations := by rw [List.flatMap_append, List.flatMap_append, h.locations, h'.locations]

/-- Whether the entries have the places of the values, key by key. -/
def Traces (policy : KeyPolicy κ) (es : List (Entry κ)) (vs : List (Placed κ)) : Prop :=
  ∀ k, SamePlaces (ofKey policy es k) (traced policy k vs)

/-- The one entry of a key has the places of all. -/
theorem samePlaces_groups (h : policy.Lawful) (combiner : Combiner) (siblings : List Query)
    (es : List (Entry κ)) (k : κ) :
    SamePlaces (ofKey policy (groups policy combiner siblings es) k) (ofKey policy es k) := by
  rw [ofKey_groups h]
  cases ofKey policy es k with
  | nil => exact .refl []
  | cons d ds => exact ⟨by simp, by simp⟩

/-! ### One level -/

/-- Whether a sibling is the query, and is resolved to entries with the places of its values. -/
def Resolved.TracedTo (policy : KeyPolicy κ) (r : Resolved κ) (a : Answered κ) : Prop :=
  a.query = r.1 ∧ Traces policy r.2 a.unmarked.values

section

variable {rs : List (Resolved κ)} {as : List (Answered κ)}

theorem queries_of_tracedTo (h : List.Forall₂ (Resolved.TracedTo policy) rs as) :
    queries as = rs.map Prod.fst := by
  induction h with
  | nil => rfl
  | cons hr _ ih => rw [queries, ih, hr.1, List.map_cons]

/-- What siblings bring to their level has the places of their values. -/
theorem traces_accumulated (h : List.Forall₂ (Resolved.TracedTo policy) rs as) :
    Traces policy (Resolved.accumulated rs) (placedAll as) := by
  intro k
  induction h with
  | nil => exact .refl []
  | @cons r a rs as hr _ ih =>
    obtain ⟨hquery, htraces⟩ := hr
    rw [Resolved.accumulated, List.flatMap_cons, ofKey_append, placedAll, traced_append]
    refine SamePlaces.append ?_ ih
    cases hex : r.1.isExcluded with
    | true =>
      -- an excluded sibling brings nothing, and has no values that bear on a key
      rw [placed_of_isExcluded (hquery ▸ hex)]
      exact .refl []
    | false =>
      rw [← traced_unmarked (hquery ▸ hex)]
      exact htraces k

theorem findsKey_eq_any (h : List.Forall₂ (Resolved.TracedTo policy) rs as) (kind : Query → Bool)
    (k : κ) : Resolved.findsKey policy kind rs k =
      as.any fun a => kind a.query && a.unmarked.finds policy k := by
  induction h with
  | nil => rfl
  | @cons r a rs as hr _ ih =>
    obtain ⟨hquery, htraces⟩ := hr
    have hfinds : (r.2.any fun e => policy.same k e.key) = a.unmarked.finds policy k := by
      rw [Bool.eq_iff_iff, finds_iff_traced, any_iff_ofKey_ne_nil]
      exact (htraces k).nil.not
    rw [Resolved.findsKey, List.any_cons, List.any_cons, hfinds, hquery]
    exact congrArg _ ih

/-- A key is left at a level if it gets past the level. -/
theorem keeps_eq_survives (h : List.Forall₂ (Resolved.TracedTo policy) rs as) (k : κ) :
    Resolved.keeps policy rs k = survives policy k as := by
  unfold Resolved.keeps survives
  simp only [findsKey_eq_any h, excludes_eq_any, requires_eq_any, queries_of_tracedTo h,
    List.any_map, Function.comp_def]

/-- What gets past a level has the places of the values, with one level more around them. -/
theorem traces_survivors (hlaw : policy.Lawful)
    (h : List.Forall₂ (Resolved.TracedTo policy) rs as) :
    Traces policy (Resolved.survivors policy rs) ((placedAll as).map (.within as)) := by
  intro k
  rw [ofKey_survivors hlaw, keeps_eq_survives h, traced_within]
  split
  · exact traces_accumulated h k
  · exact .refl []

end

/-! ### A whole evaluation -/

/-- Whether the entries are what the query finds at a level of its own when its values are answered
so: one entry for each key, with the places of the values that bear on the key. -/
def FoundBy (policy : KeyPolicy κ) (q : Query) (es : List (Entry κ)) (as : List (List (Entry κ))) :
    Prop :=
  ∃ a : Answered κ, a.query = q ∧ a.answers = as ∧ Traces policy es a.values ∧
    es.Pairwise fun d e => policy.same d.key e.key = false

/-- Whether the entries are what the query is resolved to among its siblings. -/
def ResolvedBy (policy : KeyPolicy κ) (q : Query) (es : List (Entry κ))
    (as : List (List (Entry κ))) : Prop :=
  ∃ a : Answered κ, a.query = q ∧ a.answers = as ∧ Traces policy es a.unmarked.values

/-- Queries that are each traced to their answers are traced together. -/
theorem exists_tracedTo {rs : List (Resolved κ)} {ass : List (List (List (Entry κ)))}
    (h : List.Forall₂ (fun r as => ResolvedBy policy r.1 r.2 as) rs ass) :
    ∃ as : List (Answered κ), List.Forall₂ (Resolved.TracedTo policy) rs as ∧
      answersAll as = ass.flatten := by
  induction h with
  | nil => exact ⟨[], .nil, rfl⟩
  | cons hr _ ih =>
    obtain ⟨a, hquery, hanswers, htraces⟩ := hr
    obtain ⟨as, hrs, hass⟩ := ih
    exact ⟨a :: as, .cons ⟨hquery, htraces⟩ hrs, by rw [answersAll, hanswers, hass]; rfl⟩

/-- Each level has the places of the values below it, if those inside it have. -/
theorem resolvingSteps_traces {indexes : Indexes κ} (h : indexes.policy.Lawful)
    (combiner : Combiner) :
    ResolvingSteps indexes combiner (ResolvedBy indexes.policy) (FoundBy indexes.policy) where
  nothing := ⟨.nothing, rfl, rfl, fun k => .refl []⟩
  value m text es := by
    refine ⟨.value m text es, rfl, rfl, fun k => ?_⟩
    rw [traced_unmarked rfl, placed, traced_value]
    exact .refl _
  group qs es as := by
    rintro ⟨a, hquery, rfl, htraces, -⟩
    cases a with
    | group as => exact ⟨.group as, hquery, rfl, htraces⟩
    | _ => cases hquery
  required q es as := by
    rintro ⟨a, rfl, rfl, htraces, -⟩
    exact ⟨.required a, rfl, rfl, htraces⟩
  excluded q es as := by
    rintro ⟨a, rfl, rfl, htraces, -⟩
    exact ⟨.excluded a, rfl, rfl, htraces⟩
  level q rs ass es p p' hfst hrs hsettle := by
    obtain ⟨as, htraced, hanswers⟩ := exists_tracedTo hrs
    obtain ⟨a, rfl, rfl⟩ := exists_of_siblings ((queries_of_tracedTo htraced).trans hfst)
    -- a level that is settled has put together what was left
    have hgroups : es = groups indexes.policy combiner a.query.siblings
        (Resolved.survivors indexes.policy rs) := by
      rw [settle_run h, Gathered.kept_ofSiblings] at hsettle
      dsimp only at hsettle
      split at hsettle
      · cases hsettle
        rfl
      · cases hsettle
    refine ⟨a, rfl, (answersAll_siblings a).symm.trans hanswers, fun k => ?_, ?_⟩
    · rw [hgroups, values_eq_map]
      exact (samePlaces_groups h combiner _ _ k).trans (traces_survivors h htraced k)
    · rw [hgroups]
      exact pairwise_groups indexes.policy combiner _ _

/-- An evaluation that succeeds finds one entry for each key that is left. Its places are those in
the answers to the values of the query, from left to right, of the entries of its key, less the
values that are excluded or have a level around them that the key does not get past. A key with such
an entry is found. -/
theorem evaluate_locations {indexes : Indexes κ} (h : indexes.policy.Lawful) (combiner : Combiner)
    (caches : Caches κ) {q : Query} {es : List (Entry κ)}
    (hes : (evaluate indexes combiner caches q).result = .ok es) :
    ∃ a : Answered κ, a.query = q ∧
      (∃ p, lookupAll indexes q.leaves ⟨caches, [], []⟩ = .ok a.answers p ∧
        (evaluate indexes combiner caches q).progress.Alike p) ∧
      es.Pairwise (fun d e => indexes.policy.same d.key e.key = false) ∧
      (∀ e ∈ es, e.locations
        = (traced indexes.policy e.key a.values).flatMap (·.locations)) ∧
      ∀ k, (∃ e ∈ es, indexes.policy.same k e.key = true) ↔
        traced indexes.policy k a.values ≠ [] := by
  have hvisited := (resolvingSteps_traces h combiner).visited caches q
  rw [hes] at hvisited
  obtain ⟨_, p, hls, halike, a, rfl, rfl, htraces, hpairwise⟩ := hvisited
  refine ⟨a, rfl, ⟨p, hls, halike⟩, hpairwise, fun e he => ?_, fun k => ?_⟩
  · -- each key has one entry, so the places of its entries are those of this one
    have hlocations := (htraces e.key).locations
    rw [ofKey_of_pairwise h hpairwise he, List.flatMap_singleton] at hlocations
    exact hlocations
  · rw [← List.any_eq_true, any_iff_ofKey_ne_nil]
    exact (htraces k).nil.not

/-- Keys are the same if they have the same last digit. The key 1 is found by both values `a`, which
are looked up each, and next to them it is required of the group, which leaves out 3; of the other
keys 2 is missing from the group, and 24 excludes 4. -/
theorem evaluate_locations_lastDigit :
    let w : Weight := .finite false ⟨1, Format.binary32_has_one⟩
    let answer (n : Nat) (keys : List Nat) : List (Entry Nat) :=
      keys.map fun k => ⟨k, w, [⟨n, k, 0, 1⟩]⟩
    let indexes : Indexes Nat :=
      { ask := fun n _ term => .ok (answer n (match term with
          | "a" => [1, 2, 11]
          | "b" => [3, 4, 21]
          | "c" => [13]
          | _ => [24]))
        policy := ⟨fun k l => k % 10 == l % 10⟩ }
    let a : Answered Nat := .group [.value .standard "a" (answer 0 [1, 2, 11]),
      .excluded (.value .precise "d" (answer 1 [24])),
      .required (.group [.value .standard "b" (answer 2 [3, 4, 21]),
        .excluded (.required (.value .precise "c" (answer 3 [13])))]),
      .value .standard "a" (answer 4 [1, 2, 11])]
    let es : List (Entry Nat) :=
      [⟨1, w, [⟨0, 1, 0, 1⟩, ⟨0, 11, 0, 1⟩, ⟨2, 21, 0, 1⟩, ⟨4, 1, 0, 1⟩, ⟨4, 11, 0, 1⟩]⟩]
    indexes.policy.Lawful ∧
    (evaluate indexes (fun _ _ => w) (.new false) a.query).result = .ok es ∧
    (∀ e ∈ es, e.locations = (traced indexes.policy e.key a.values).flatMap (·.locations)) ∧
    ∀ k, (∃ e ∈ es, indexes.policy.same k e.key = true) ↔ traced indexes.policy k a.values ≠ [] := by
  intro w answer indexes a es
  have hlaw : indexes.policy.Lawful := KeyPolicy.lawful_beq fun k => k % 10
  have hes : (evaluate indexes (fun _ _ => w) (.new false) a.query).result = .ok es := by
    decide +kernel
  obtain ⟨b, hquery, ⟨p, hls, -⟩, -, hlocations, hkeys⟩ :=
    evaluate_locations hlaw (fun _ _ => w) (.new false) hes
  obtain ⟨p', hrun⟩ : ∃ p', lookupAll indexes a.query.leaves ⟨.new false, [], []⟩
      = .ok a.answers p' := ⟨_, rfl⟩
  obtain rfl : b = a := by
    rw [hrun] at hls
    exact eq_of_query_of_answers hquery (EStateM.Result.ok.inj hls).1.symm
  exact ⟨hlaw, hes, hlocations, hkeys⟩

end WeightedSearch
