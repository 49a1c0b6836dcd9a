/-
Evaluation over steady indexes.

Suppose that an index gives one fixed answer to a term whenever it does not fail.  Then neither the
caches nor the failures of the past can be seen: an evaluation gives what it would give over answers
that are just there, unless it ends in a failure of an index.  Main statements:

* `Ends.bind`, `evaluate_ends` — how a computation over indexes and caches ends can be said step by
  step;
* `follows_lookup` — a lookup gives the fixed answer or fails, and keeps the caches coherent;
* `follows_found` — so does the evaluation of a tree, whatever the state it starts from;
* `evaluate_follows` — the same for a whole evaluation.
-/
import WeightedSearch.Evaluation.Progress
import WeightedSearch.Proofs.Evaluation.Parallel

namespace WeightedSearch

variable {κ : Type}

/-- What each of two indexes answers to a term: entries or a failure. -/
abbrev Replies (κ : Type) := Matching → String → Except LookupFailure (List (Entry κ))

/-- An evaluation over answers that are just there. Nothing is kept of it. -/
def Replies.effects (replies : Replies κ) (policy : KeyPolicy κ) (combiner : Combiner) :
    Effects (Except EvaluationFailure) κ where
  policy := policy
  lookup m term := (replies m term).mapError .lookup
  combine siblings ws :=
    if (combiner ws siblings).isValid then .ok (combiner ws siblings)
    else .error (.invalidWeight (combiner ws siblings))

/-- One answer to each term in each of two indexes. -/
abbrev Answers (κ : Type) := Matching → String → List (Entry κ)

namespace Answers

/-- The replies without failures. -/
def replies (answers : Answers κ) : Replies κ :=
  fun m term => .ok (answers m term)

/-- The indexes that always give these answers and never fail. -/
def indexes (answers : Answers κ) (policy : KeyPolicy κ) : Indexes κ :=
  ⟨fun _ m term => .ok (answers m term), policy⟩

/-- An evaluation over answers that are just there and never fail; only weights can fail. -/
def effects (answers : Answers κ) (policy : KeyPolicy κ) (combiner : Combiner) :
    Effects (Except EvaluationFailure) κ :=
  answers.replies.effects policy combiner

end Answers

/-! ### Coherent caches -/

/-- Whether each kept answer, of either cache, is the given one. -/
def Caches.Coherent (answers : Answers κ) (caches : Caches κ) : Prop :=
  ∀ m, ∀ p ∈ (caches.get m).answers.pairs, p.2 = answers m p.1

/-- Whether every lookup of the term gives the answer or one of the failures that may occur. -/
def Indexes.Gives (indexes : Indexes κ) (answers : Answers κ) (may : LookupFailure → Prop)
    (m : Matching) (term : String) : Prop :=
  ∀ n, match indexes.ask n m term with
    | .ok es => es = answers m term
    | .error e => may e

/-- New caches hold nothing that could be wrong. -/
theorem Caches.coherent_new (answers : Answers κ) (enabled : Bool) :
    (Caches.new enabled).Coherent answers := by
  intro m p hp
  cases m <;> cases hp

/-- One cache can be exchanged for another that is coherent. -/
theorem Caches.Coherent.set {answers : Answers κ} {caches : Caches κ} (h : caches.Coherent answers)
    {m : Matching} {cache : Cache κ} (hc : ∀ p ∈ cache.answers.pairs, p.2 = answers m p.1) :
    (caches.set m cache).Coherent answers := by
  intro n p hp
  rw [Caches.get_set] at hp
  by_cases hn : n = m
  · subst hn
    exact hc p (by rwa [if_pos rfl] at hp)
  · rw [if_neg hn] at hp
    exact h n p hp

theorem Caches.Coherent.clear {answers : Answers κ} {caches : Caches κ}
    (h : caches.Coherent answers) (m : Matching) : (caches.clear m).Coherent answers :=
  h.set fun _ hp => nomatch hp

/-- To keep an answer as it was given keeps the caches coherent. -/
theorem Caches.Coherent.store {answers : Answers κ} {caches : Caches κ}
    (h : caches.Coherent answers) (m : Matching) (term : String) :
    (caches.set m ((caches.get m).store term (answers m term))).Coherent answers := by
  intro n p hp
  rcases Caches.mem_pairs_store hp with ⟨rfl, rfl⟩ | hp
  · rfl
  · exact h n p hp

/-! ### Following a computation -/

/-- Whether a computation over indexes ends as another one does, or else in one of the failures that
may occur, and whether it keeps what holds of the caches. -/
def Ends {α : Type} (keeps : Caches κ → Prop) (may : EvaluationFailure → Prop)
    (x : Evaluation κ α) (y : Except EvaluationFailure α) : Prop :=
  ∀ p : Progress κ, keeps p.caches → match x p with
    | .ok a p' => y = .ok a ∧ keeps p'.caches
    | .error e p' => (y = .error e ∨ may e) ∧ keeps p'.caches

section

variable {keeps : Caches κ → Prop} {may : EvaluationFailure → Prop}

theorem Ends.pure {α : Type} (a : α) : Ends keeps may (Pure.pure a) (Pure.pure a) :=
  fun _ hp => ⟨rfl, hp⟩

/-- Computations that are followed step by step are followed as a whole. -/
theorem Ends.bind {α β : Type} {x : Evaluation κ α} {y : Except EvaluationFailure α}
    {f : α → Evaluation κ β} {g : α → Except EvaluationFailure β} (hx : Ends keeps may x y)
    (hf : ∀ a, Ends keeps may (f a) (g a)) : Ends keeps may (x >>= f) (y >>= g) := by
  intro p hp
  have hxp := hx p hp
  cases hr : x p with
  | ok a q =>
    rw [hr] at hxp
    obtain ⟨rfl, hq⟩ := hxp
    rw [Evaluation.bind_ok hr]
    exact hf a q hq
  | error e q =>
    rw [hr] at hxp
    rw [Evaluation.bind_error hr]
    -- a failure is the one of the other computation, or one of its own that may occur
    obtain ⟨rfl | hfail, hq⟩ := hxp
    · exact ⟨.inl rfl, hq⟩
    · exact ⟨.inr hfail, hq⟩

/-- The use of a combiner leaves the caches alone. -/
theorem ends_useCombiner (combiner : Combiner) (siblings : List Query) (ws : List Weight) :
    Ends keeps may (useCombiner combiner siblings ws)
      (if (combiner ws siblings).isValid then .ok (combiner ws siblings)
        else .error (.invalidWeight (combiner ws siblings))) := by
  intro p hp
  cases hw : (combiner ws siblings).isValid with
  | true =>
    simp only [useCombiner, hw]
    exact ⟨rfl, hp⟩
  | false =>
    simp only [useCombiner, hw]
    exact ⟨.inl rfl, hp⟩

/-- What holds of the computation of a query holds of the evaluation that begins with nothing done.
-/
theorem evaluate_ends {indexes : Indexes κ} {combiner : Combiner} {caches : Caches κ} {q : Query}
    {y : Except EvaluationFailure (List (Entry κ))} (hc : keeps caches)
    (h : Ends keeps may ((indexes.effects combiner).found q) y) :
    let o := evaluate indexes combiner caches q
    (o.result = y ∨ ∃ e, o.result = .error e ∧ may e) ∧ keeps o.progress.caches := by
  have hfound := h ⟨caches, [], []⟩ hc
  intro o
  rw [show o = evaluate indexes combiner caches q from rfl, evaluate]
  cases hr : (indexes.effects combiner).found q ⟨caches, [], []⟩ with
  | ok es p =>
    rw [hr] at hfound
    exact ⟨.inl hfound.1.symm, hfound.2⟩
  | error e p =>
    rw [hr] at hfound
    obtain ⟨hres | hmay, hp⟩ := hfound
    · exact ⟨.inl hres.symm, hp⟩
    · exact ⟨.inr ⟨e, rfl, hmay⟩, hp⟩

end

/-- Whether a computation over indexes gives what a computation over the answers gives, or else ends
in a failure of an index, and whether it keeps coherent caches coherent. -/
def Follows {α : Type} (answers : Answers κ) (may : LookupFailure → Prop) (x : Evaluation κ α)
    (y : Except EvaluationFailure α) : Prop :=
  Ends (Caches.Coherent answers) (fun e => ∃ f, e = .lookup f ∧ may f) x y

section

variable {answers : Answers κ} {may : LookupFailure → Prop}

/-- A lookup gives the answer, whether it is kept or asked for. -/
theorem follows_lookup {indexes : Indexes κ} {m : Matching} {term : String}
    (h : indexes.Gives answers may m term) :
    Follows answers may (lookup indexes m term) (.ok (answers m term)) := by
  intro p hp
  cases hget : (p.caches.get m).get? term with
  | some es =>
    -- what is kept is the fixed answer, however it came into the cache
    have hes : es = answers m term := hp m _ (Cache.mem_pairs_of_get? hget)
    rw [lookup_hit hget, hes]
    exact ⟨rfl, hp⟩
  | none =>
    have hgives := h p.lookups.length
    rw [lookup_miss hget]
    cases hask : indexes.ask p.lookups.length m term with
    | ok es =>
      obtain rfl : es = answers m term := by rwa [hask] at hgives
      exact ⟨rfl, hp.store m term⟩
    | error e =>
      -- a failure is not kept
      have hmay : may e := by rwa [hask] at hgives
      exact ⟨.inr ⟨e, rfl, hmay⟩, hp⟩

variable {indexes : Indexes κ} {combiner : Combiner}

/-- Over indexes and over answers the steps of an evaluation are the same. -/
theorem parallel_follows : Parallel (indexes.effects combiner)
    (answers.effects indexes.policy combiner) (Follows answers may) where
  policy := rfl
  pure := Ends.pure
  bind := Ends.bind
  combine := ends_useCombiner combiner

/-- So an evaluation follows the answers if its lookups do. -/
theorem follows_found {q : Query} (h : ∀ l ∈ q.leaves, indexes.Gives answers may l.1 l.2) :
    Follows answers may ((indexes.effects combiner).found q)
      ((answers.effects indexes.policy combiner).found q) :=
  parallel_follows.found fun l hl => follows_lookup (h l hl)

/-! ### Whole evaluations -/

/-- Whatever an evaluation ends in, the caches it leaves behind are coherent, and it gives what the
answers give or a failure that may occur. -/
theorem evaluate_follows (combiner : Combiner) {caches : Caches κ}
    (hc : caches.Coherent answers) {q : Query}
    (h : ∀ l ∈ q.leaves, indexes.Gives answers may l.1 l.2) :
    let o := evaluate indexes combiner caches q
    (o.result = (answers.effects indexes.policy combiner).found q ∨
      ∃ f, o.result = .error (.lookup f) ∧ may f) ∧ o.progress.caches.Coherent answers := by
  have hfollows : Follows answers may ((indexes.effects combiner).found q) _ := follows_found h
  obtain ⟨hres | ⟨_, hres, f, rfl, hf⟩, hp⟩ := evaluate_ends hc hfollows
  · exact ⟨.inl hres, hp⟩
  · exact ⟨.inr ⟨f, hres, hf⟩, hp⟩

/-- Over indexes that never fail an evaluation gives what the answers give. -/
theorem evaluate_result (combiner : Combiner) {caches : Caches κ}
    (hc : caches.Coherent answers) {q : Query}
    (h : ∀ l ∈ q.leaves, indexes.Gives answers (fun _ => False) l.1 l.2) :
    (evaluate indexes combiner caches q).result
      = (answers.effects indexes.policy combiner).found q := by
  rcases (evaluate_follows combiner hc h).1 with hres | ⟨f, -, hf⟩
  · exact hres
  · exact hf.elim

end

end WeightedSearch
