/-
What an evaluation asks for.

As far as the indexes and their caches are concerned, an evaluation does one thing: it looks up the
values of its query one after the other, from left to right.  It may end earlier, where a lookup
fails or where the weight of an inner level is invalid.  Main statements:

* `Visits.bind` — computations that look up values one after the other are followed step by step;
* `visits_resolveAll` — siblings are resolved by looking up the values of each in turn;
* `ResolvingSteps.visits` — the induction over a query: its evaluation looks up its leaves, and what
  every level of it makes of the answers holds of the whole.
-/
import Mathlib.Data.List.Forall2
import WeightedSearch.Evaluation.Progress
import WeightedSearch.Proofs.Evaluation.Reduction
import WeightedSearch.Proofs.Query.Leaves

namespace WeightedSearch

variable {κ : Type} {indexes : Indexes κ}

/-- The answers to some values, looked up one after the other. -/
def lookupAll (indexes : Indexes κ) (ls : List (Matching × String)) :
    Evaluation κ (List (List (Entry κ))) :=
  ls.mapM fun l => lookup indexes l.1 l.2

theorem lookupAll_cons (l : Matching × String) (ls : List (Matching × String)) :
    lookupAll indexes (l :: ls) = (do
      let es ← lookup indexes l.1 l.2
      let as ← lookupAll indexes ls
      pure (es :: as)) :=
  List.mapM_cons

theorem lookupAll_append (ls ms : List (Matching × String)) :
    lookupAll indexes (ls ++ ms) = (do
      let as ← lookupAll indexes ls
      let bs ← lookupAll indexes ms
      pure (as ++ bs)) :=
  List.mapM_append

/-- Lookups that go on where others ended make one row of lookups. -/
theorem lookupAll_append_ok {ls ms : List (Matching × String)} {as bs : List (List (Entry κ))}
    {p q r : Progress κ} (hls : lookupAll indexes ls p = .ok as q)
    (hms : lookupAll indexes ms q = .ok bs r) :
    lookupAll indexes (ls ++ ms) p = .ok (as ++ bs) r := by
  rw [lookupAll_append, Evaluation.bind_ok hls, Evaluation.bind_ok hms]
  rfl

/-! ### Computations that look up values -/

/-- Whether two points of evaluations differ at most in the uses of the combiner. -/
structure Progress.Alike (p q : Progress κ) : Prop where
  caches : p.caches = q.caches
  lookups : p.lookups = q.lookups

theorem Progress.Alike.refl (p : Progress κ) : p.Alike p := ⟨rfl, rfl⟩

section

variable {α β : Type}

/-- Whether a computation that started where nothing but lookups was done has looked up the values,
and if it succeeded, whether its result has to do with the answers as `R` says. One that ended in a
failed lookup would have gone on; one that ended in an invalid weight has looked up only the first
of the values. -/
def Visited (indexes : Indexes κ) (R : α → List (List (Entry κ)) → Prop)
    (ls : List (Matching × String)) (p₀ : Progress κ) :
    EStateM.Result EvaluationFailure (Progress κ) α → Prop
  | .ok a p => ∃ as q, lookupAll indexes ls p₀ = .ok as q ∧ p.Alike q ∧ R a as
  | .error (.lookup f) p => ∃ q, lookupAll indexes ls p₀ = .error (.lookup f) q ∧ p.Alike q
  | .error (.invalidWeight _) p =>
    ∃ ms as q, ms <+: ls ∧ lookupAll indexes ms p₀ = .ok as q ∧ p.Alike q

/-- Whether a computation looks up the values, in order and nothing else, and makes of the answers
what `R` says. -/
def Visits (indexes : Indexes κ) (R : α → List (List (Entry κ)) → Prop)
    (ls : List (Matching × String)) (x : Evaluation κ α) : Prop :=
  ∀ p p₀ : Progress κ, p.Alike p₀ → Visited indexes R ls p₀ (x p)

variable {R : α → List (List (Entry κ)) → Prop} {S : β → List (List (Entry κ)) → Prop}
  {ls ms : List (Matching × String)}

theorem Visits.mono {R' : α → List (List (Entry κ)) → Prop} {x : Evaluation κ α}
    (hx : Visits indexes R ls x) (hR : ∀ a as, R a as → R' a as) : Visits indexes R' ls x := by
  intro p p₀ hp
  have hxp := hx p p₀ hp
  cases hr : x p with
  | ok a q =>
    rw [hr] at hxp
    obtain ⟨as, q₀, hls, hq, ha⟩ := hxp
    exact ⟨as, q₀, hls, hq, hR a as ha⟩
  | error e q =>
    rw [hr] at hxp
    cases e with
    | lookup f => exact hxp
    | invalidWeight w => exact hxp

theorem Visits.pure {a : α} (ha : R a []) : Visits indexes R [] (Pure.pure a) :=
  fun _ p₀ hp => ⟨[], p₀, rfl, hp, ha⟩

/-- What is done with a result looks up its values behind those of the result. -/
theorem Visits.bind {x : Evaluation κ α} {f : α → Evaluation κ β} (hx : Visits indexes R ls x)
    (hf : ∀ a as, R a as → Visits indexes (fun b bs => S b (as ++ bs)) ms (f a)) :
    Visits indexes S (ls ++ ms) (x >>= f) := by
  intro p p₀ hp
  have hxp := hx p p₀ hp
  cases hr : x p with
  | ok a q =>
    rw [hr] at hxp
    obtain ⟨as, q₀, hls, hq, ha⟩ := hxp
    have hfq := hf a as ha q q₀ hq
    rw [Evaluation.bind_ok hr]
    -- the second computation starts where the first one ended, with the same lookups behind it
    cases hs : f a q with
    | ok b r =>
      rw [hs] at hfq
      obtain ⟨bs, r₀, hms, hr, hb⟩ := hfq
      exact ⟨as ++ bs, r₀, lookupAll_append_ok hls hms, hr, hb⟩
    | error e r =>
      rw [hs] at hfq
      cases e with
      | lookup f =>
        obtain ⟨r₀, hms, hr⟩ := hfq
        refine ⟨r₀, ?_, hr⟩
        rw [lookupAll_append, Evaluation.bind_ok hls, Evaluation.bind_error hms]
      | invalidWeight w =>
        -- an invalid weight in the second ends behind all lookups of the first
        obtain ⟨ns, bs, r₀, hns, hms, hr⟩ := hfq
        exact ⟨ls ++ ns, as ++ bs, r₀, List.prefix_append_right_inj ls |>.2 hns,
          lookupAll_append_ok hls hms, hr⟩
  | error e q =>
    rw [hr] at hxp
    -- a failure of the first is that of the whole, and nothing of the second is looked up
    rw [Evaluation.bind_error hr]
    cases e with
    | lookup f =>
      obtain ⟨q₀, hls, hq⟩ := hxp
      refine ⟨q₀, ?_, hq⟩
      rw [lookupAll_append, Evaluation.bind_error hls]
    | invalidWeight w =>
      obtain ⟨ns, as, q₀, hns, hlookup, hq⟩ := hxp
      exact ⟨ns, as, q₀, hns.trans (List.prefix_append ls ms), hlookup, hq⟩

/-- What is done with a result does not matter. -/
theorem Visits.map {x : Evaluation κ α} {f : α → β} (hx : Visits indexes R ls x)
    (hf : ∀ a as, R a as → S (f a) as) :
    Visits indexes S ls (x >>= fun a => Pure.pure (f a)) := by
  rw [← List.append_nil ls]
  exact hx.bind fun a as ha => Visits.pure (by rw [List.append_nil]; exact hf a as ha)

end

/-! ### One lookup -/

/-- A lookup that succeeds finds a kept answer, or an answer of the index that is kept from then
on. -/
theorem lookup_ok {m : Matching} {term : String} {p q : Progress κ} {es : List (Entry κ)}
    (h : lookup indexes m term p = .ok es q) :
    (p.caches.get m).get? term = some es ∧ q = p ∨
      (p.caches.get m).get? term = none ∧ q =
        { p with
          caches := p.caches.set m ((p.caches.get m).store term es)
          lookups := p.lookups ++ [⟨m, term, .ok es⟩] } := by
  cases hget : (p.caches.get m).get? term with
  | some ds =>
    rw [lookup_hit hget] at h
    cases h
    exact Or.inl ⟨rfl, rfl⟩
  | none =>
    rw [lookup_miss hget] at h
    cases hask : indexes.ask p.lookups.length m term with
    | ok ds =>
      rw [hask] at h
      cases h
      exact Or.inr ⟨rfl, rfl⟩
    | error f =>
      rw [hask] at h
      cases h

/-- A lookup that fails is a failure of the index, and nothing is kept of it. -/
theorem lookup_error {m : Matching} {term : String} {p q : Progress κ} {e : EvaluationFailure}
    (h : lookup indexes m term p = .error e q) :
    ∃ f, e = .lookup f ∧ (p.caches.get m).get? term = none ∧
      indexes.ask p.lookups.length m term = .error f ∧
      q = { p with lookups := p.lookups ++ [⟨m, term, .error f⟩] } := by
  cases hget : (p.caches.get m).get? term with
  | some ds =>
    rw [lookup_hit hget] at h
    cases h
  | none =>
    rw [lookup_miss hget] at h
    cases hask : indexes.ask p.lookups.length m term with
    | ok ds =>
      rw [hask] at h
      cases h
    | error f =>
      rw [hask] at h
      cases h
      exact ⟨f, rfl, rfl, rfl, rfl⟩

/-- A lookup neither depends on the uses of the combiner nor changes them. -/
theorem lookup_combinings (indexes : Indexes κ) (m : Matching) (text : String) (p : Progress κ)
    (cs : List Combining) :
    lookup indexes m text { p with combinings := cs } = match lookup indexes m text p with
      | .ok es q => .ok es { q with combinings := cs }
      | .error e q => .error e { q with combinings := cs } := by
  simp only [lookup]
  cases ((p.caches.get m).consult text (indexes.ask p.lookups.length m)).result with
  | ok es => rfl
  | error e => rfl

/-- One lookup looks up its value, and the uses of the combiner before it make no difference. -/
theorem visits_lookup (m : Matching) (text : String) :
    Visits indexes (fun es as => as = [es]) [(m, text)] (lookup indexes m text) := by
  -- the points differ in their combinings only, so the same lookup is made at both
  rintro p ⟨_, _, cs⟩ ⟨rfl, rfl⟩
  have hone : lookupAll indexes [(m, text)] = (do
      let es ← lookup indexes m text
      pure [es]) :=
    lookupAll_cons (m, text) []
  have hrun := lookup_combinings indexes m text p cs
  cases hr : lookup indexes m text p with
  | ok es q =>
    rw [hr] at hrun
    refine ⟨[es], { q with combinings := cs }, ?_, ⟨rfl, rfl⟩, rfl⟩
    rw [hone, Evaluation.bind_ok hrun]
    rfl
  | error e q =>
    obtain ⟨f, rfl, -⟩ := lookup_error hr
    rw [hr] at hrun
    refine ⟨{ q with combinings := cs }, ?_, ⟨rfl, rfl⟩⟩
    rw [hone, Evaluation.bind_error hrun]

/-! ### The levels of a query -/

section

variable {combiner : Combiner}

/-- To weigh what is left at a level nothing is looked up. -/
theorem visits_settle {R : List (Entry κ) → List (List (Entry κ)) → Prop} {siblings : List Query}
    {g : Gathered κ} (hR : ∀ es p p', (indexes.effects combiner).settle siblings g p = .ok es p' →
      R es []) : Visits indexes R [] ((indexes.effects combiner).settle siblings g) := by
  intro p p₀ hp
  have halike : ∀ cs, (p.combined cs).Alike p₀ := fun cs => ⟨hp.caches, hp.lookups⟩
  have hrun : (indexes.effects combiner).settle siblings g p = _ :=
    weigh_run indexes combiner siblings
      (Merging.ofEntries indexes.policy (g.kept indexes.policy)).weighted p
  dsimp only at hrun
  -- settling adds to the combinings and may end in an invalid weight, which no lookup precedes
  split at hrun
  · rw [hrun]
    exact ⟨[], p₀, rfl, halike _, hR _ _ _ hrun⟩
  · rw [hrun]
    exact ⟨[], [], p₀, List.nil_prefix, rfl, halike _⟩

/-- Siblings are resolved one after the other. -/
theorem visits_resolveAll {R : Query → List (Entry κ) → List (List (Entry κ)) → Prop}
    {qs : List Query}
    (hqs : ∀ q ∈ qs, Visits indexes (R q) q.leaves ((indexes.effects combiner).resolve q)) :
    Visits indexes (fun rs as => rs.map Prod.fst = qs ∧ ∃ ass,
        List.Forall₂ (fun r as => R r.1 r.2 as) rs ass ∧ as = ass.flatten)
      (Query.leavesAll qs) ((indexes.effects combiner).resolveAll qs) := by
  induction qs with
  | nil => exact Visits.pure ⟨rfl, [], .nil, rfl⟩
  | cons q qs ih =>
    have hrest := ih fun p hp => hqs p (List.mem_cons_of_mem _ hp)
    refine (hqs q (by simp)).bind fun es as hes => hrest.map ?_
    rintro rs bs ⟨rfl, ass, hrs, rfl⟩
    exact ⟨rfl, as :: ass, .cons hes hrs, rfl⟩

/-- An evaluation starts with no lookups and no uses of the combiner. -/
theorem found_eq_evaluate (indexes : Indexes κ) (combiner : Combiner) (caches : Caches κ)
    (q : Query) :
    (indexes.effects combiner).found q ⟨caches, [], []⟩ =
      match (evaluate indexes combiner caches q).result with
      | .ok es => .ok es (evaluate indexes combiner caches q).progress
      | .error e => .error e (evaluate indexes combiner caches q).progress := by
  rw [evaluate]
  cases (indexes.effects combiner).found q ⟨caches, [], []⟩ with
  | ok es p => rfl
  | error e p => rfl

/-- How what queries are resolved to comes about from the answers to their values: `R` holds of a
query among its siblings, and `L` of a query at a level of its own. -/
structure ResolvingSteps (indexes : Indexes κ) (combiner : Combiner)
    (R L : Query → List (Entry κ) → List (List (Entry κ)) → Prop) : Prop where
  nothing : R .nothing [] []
  value : ∀ m text es, R (.value m text) es [es]
  group : ∀ qs es as, L (.group qs) es as → R (.group qs) es as
  required : ∀ q es as, L q es as → R (.required q) es as
  excluded : ∀ q es as, L q es as → R (.excluded q) es as
  /-- what a level makes of what its siblings are resolved to -/
  level : ∀ q rs ass es p p', rs.map Prod.fst = q.siblings →
    List.Forall₂ (fun r as => R r.1 r.2 as) rs ass →
    (indexes.effects combiner).settle q.siblings (Gathered.ofSiblings rs) p = .ok es p' →
    L q es ass.flatten

namespace ResolvingSteps

variable {R L : Query → List (Entry κ) → List (List (Entry κ)) → Prop}

/-- A level looks up the values of its siblings one after the other, and nothing else. -/
theorem visits_level (h : ResolvingSteps indexes combiner R L) {q : Query}
    (hq : ∀ s ∈ q.siblings,
      Visits indexes (R s) s.leaves ((indexes.effects combiner).resolve s)) :
    Visits indexes (L q) q.leaves ((indexes.effects combiner).found q) := by
  rw [Effects.found_eq_reduce, Effects.reduce_eq_settle, ← Query.leavesAll_siblings,
    ← List.append_nil (Query.leavesAll _)]
  refine (visits_resolveAll hq).bind fun rs as hrs => visits_settle fun es p p' hes => ?_
  obtain ⟨hfst, ass, hrs, rfl⟩ := hrs
  rw [List.append_nil]
  exact h.level q rs ass es p p' hfst hrs hes

theorem visits_resolve_and_found (h : ResolvingSteps indexes combiner R L) (q : Query) :
    Visits indexes (R q) q.leaves ((indexes.effects combiner).resolve q) ∧
      Visits indexes (L q) q.leaves ((indexes.effects combiner).found q) := by
  -- both readings of a query at once: among siblings, and at a level of its own
  refine Query.induct_levels
    (R := fun q => Visits indexes (R q) q.leaves ((indexes.effects combiner).resolve q))
    (L := fun q => Visits indexes (L q) q.leaves ((indexes.effects combiner).found q))
    (Visits.pure h.nothing) ?value ?group (fun q ih => ih.mono (h.required q))
    (fun q ih => ih.mono (h.excluded q)) (fun q ih => h.visits_level ih) q
  case value =>
    refine fun m text => (visits_lookup m text).mono ?_
    rintro es _ rfl
    exact h.value m text es
  case group =>
    intro qs ih
    rw [Effects.resolve_group]
    exact ih.mono (h.group qs)

/-- An evaluation looks up the leaves of its query, and makes of the answers what each level makes
of them. -/
theorem visits (h : ResolvingSteps indexes combiner R L) (q : Query) :
    Visits indexes (L q) q.leaves ((indexes.effects combiner).found q) :=
  (h.visits_resolve_and_found q).2

/-- So from its start to its result, whatever the caches hold. -/
theorem visited (h : ResolvingSteps indexes combiner R L) (caches : Caches κ) (q : Query) :
    Visited indexes (L q) q.leaves ⟨caches, [], []⟩
      (match (evaluate indexes combiner caches q).result with
      | .ok es => .ok es (evaluate indexes combiner caches q).progress
      | .error e => .error e (evaluate indexes combiner caches q).progress) := by
  rw [← found_eq_evaluate]
  exact h.visits q _ _ (.refl _)

end ResolvingSteps

end

end WeightedSearch
