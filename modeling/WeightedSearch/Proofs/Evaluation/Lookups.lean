/-
The lookups of an evaluation.

An evaluation looks up the values of its query in the indexes, from left to right.  Where answers
are kept, it does so only for values that are not held already, and once for each of them; the
caches then hold the values looked up besides what they held before.  An evaluation that fails has
made the first of these lookups, and if it was an index that failed, the last one is the failure.
Main statements:

* `Caches.due_append` — what is due behind values that have been looked up;
* `Looked.trans`, `looked_lookupAll` — what looking up values does, one after the other;
* `lookupAll_error` — where looking up values fails;
* `evaluate_lookups` — the lookups of a whole evaluation.
-/
import WeightedSearch.Proofs.Evaluation.Visits

namespace WeightedSearch

variable {κ : Type}

/-- The value that was looked up. -/
def Lookup.leaf (l : Lookup κ) : Matching × String := (l.matching, l.term)

namespace Caches

/-- Whether both caches are switched on, or both off. -/
def Switched (on : Bool) (caches : Caches κ) : Prop :=
  ∀ m, (caches.get m).enabled = on

/-- Whether the cache of its index has an answer to the value. -/
def Holds (caches : Caches κ) (l : Matching × String) : Prop :=
  l.2 ∈ (caches.get l.1).answers.keys

instance (caches : Caches κ) : DecidablePred caches.Holds :=
  fun l => inferInstanceAs (Decidable (l.2 ∈ (caches.get l.1).answers.keys))

/-- The values of which the indexes are asked: all of them if answers are not kept, else those that
are not held, in the order in which they first occur. -/
def due (on : Bool) (caches : Caches κ) (ls : List (Matching × String)) :
    List (Matching × String) :=
  if on then (ls.filter fun l => !decide (caches.Holds l)).eraseDups else ls

theorem due_append {on : Bool} {caches caches' : Caches κ} {ls : List (Matching × String)}
    (h : ∀ l, caches'.Holds l ↔ caches.Holds l ∨ on = true ∧ l ∈ ls)
    (ms : List (Matching × String)) :
    caches.due on (ls ++ ms) = caches.due on ls ++ caches'.due on ms := by
  cases on with
  | false => rfl
  | true =>
    -- what is not held afterwards was not held before, and is not among the values looked up
    have hrest : (ms.filter fun l => !decide (caches.Holds l)).removeAll
        (ls.filter fun l => !decide (caches.Holds l))
          = ms.filter fun l => !decide (caches'.Holds l) := by
      rw [List.removeAll, List.filter_filter]
      refine List.filter_congr fun l _ => ?_
      by_cases hl : caches.Holds l <;> by_cases hls : l ∈ ls <;> simp [h, hl, hls]
    simp only [due, if_true, List.filter_append, List.eraseDups_append, hrest]

theorem due_singleton (on : Bool) (caches : Caches κ) (l : Matching × String) :
    caches.due on [l] = if on = true ∧ caches.Holds l then [] else [l] := by
  cases on with
  | false => rfl
  | true => by_cases hl : caches.Holds l <;> simp [due, hl, List.eraseDups_cons]

theorem due_prefix (on : Bool) (caches : Caches κ) {ls ms : List (Matching × String)}
    (h : ls <+: ms) : caches.due on ls <+: caches.due on ms := by
  obtain ⟨ns, rfl⟩ := h
  cases on with
  | false => exact List.prefix_append ls ns
  | true =>
    simp only [due, if_true, List.filter_append, List.eraseDups_append]
    exact List.prefix_append _ _

theorem mem_due_iff {on : Bool} {caches : Caches κ} {l : Matching × String}
    (hl : ¬ caches.Holds l) {ls : List (Matching × String)} : l ∈ caches.due on ls ↔ l ∈ ls := by
  cases on with
  | false => rfl
  | true => simp [due, List.mem_eraseDups, hl]

end Caches

/-! ### Looking up values one after the other -/

/-- What happened between two points of an evaluation when values were looked up in between and no
lookup failed. -/
structure Looked (on : Bool) (ls : List (Matching × String)) (p q : Progress κ) : Prop where
  switched : q.caches.Switched on
  made : ∃ made, q.lookups = p.lookups ++ made ∧ made.map Lookup.leaf = p.caches.due on ls ∧
    ∀ l ∈ made, ∃ es, l.answer = .ok es
  holds : ∀ l, q.caches.Holds l ↔ p.caches.Holds l ∨ on = true ∧ l ∈ ls

variable {on : Bool} {ls ms : List (Matching × String)} {p q r : Progress κ}

theorem Looked.refl (h : p.caches.Switched on) : Looked on [] p p where
  switched := h
  made := ⟨[], (List.append_nil _).symm, by cases on <;> rfl, fun _ hl => nomatch hl⟩
  holds l := by simp

theorem Looked.trans (hls : Looked on ls p q) (hms : Looked on ms q r) :
    Looked on (ls ++ ms) p r where
  switched := hms.switched
  made := by
    obtain ⟨made, hmade, hdue, hok⟩ := hls.made
    obtain ⟨more, hmore, hdue', hok'⟩ := hms.made
    refine ⟨made ++ more, ?_, ?_, fun l hl => ?_⟩
    · rw [hmore, hmade, List.append_assoc]
    · rw [List.map_append, hdue, hdue', Caches.due_append hls.holds]
    · rcases List.mem_append.1 hl with hl | hl
      · exact hok l hl
      · exact hok' l hl
  holds l := by
    rw [hms.holds, hls.holds, List.mem_append, and_or_left, or_assoc]

section

variable {indexes : Indexes κ}

theorem Caches.get?_eq_none_iff {caches : Caches κ} (h : caches.Switched on) (m : Matching)
    (term : String) :
    (caches.get m).get? term = none ↔ ¬ (on = true ∧ caches.Holds (m, term)) := by
  rw [Cache.get?_eq_none_iff, h m, not_and_or, Bool.not_eq_true]
  rfl

theorem Caches.holds_store {caches : Caches κ} (h : caches.Switched on) (m : Matching)
    (term : String) (es : List (Entry κ)) (l : Matching × String) :
    (caches.set m ((caches.get m).store term es)).Holds l ↔
      caches.Holds l ∨ on = true ∧ l = (m, term) := by
  obtain ⟨n, t⟩ := l
  rw [Holds, Caches.get_set]
  by_cases hn : n = m
  · subst hn
    rw [if_pos rfl, Cache.mem_keys_store, h n, Prod.mk.injEq]
    simp [Holds]
  · simp [Holds, hn]

/-- A lookup that succeeds is made if it is due, and its answer is kept if answers are kept. -/
theorem looked_lookup (h : p.caches.Switched on) {l : Matching × String} {es : List (Entry κ)}
    (hl : lookup indexes l.1 l.2 p = .ok es q) : Looked on [l] p q := by
  rcases lookup_ok hl with ⟨hget, rfl⟩ | ⟨hget, rfl⟩
  · -- a kept answer: no lookup is due, and what the caches hold stays
    have hheld : on = true ∧ q.caches.Holds l := by
      by_contra hnot
      rw [(Caches.get?_eq_none_iff h l.1 l.2).2 hnot] at hget
      cases hget
    refine ⟨h, ⟨[], (List.append_nil _).symm, ?_, fun _ hd => nomatch hd⟩, fun k => ?_⟩
    · rw [Caches.due_singleton, if_pos hheld]
      rfl
    · rw [List.mem_singleton]
      exact ⟨Or.inl, fun hk => hk.elim id fun hk => hk.2 ▸ hheld.2⟩
  · -- no kept answer: the lookup is due and made
    have hdue := (Caches.get?_eq_none_iff h l.1 l.2).1 hget
    refine ⟨fun m => ?_, ⟨[⟨l.1, l.2, .ok es⟩], rfl, ?_, ?_⟩, fun k => ?_⟩
    · rw [Caches.get_set]
      split
      · next hm => rw [Cache.enabled_store, h]
      · exact h m
    · rw [Caches.due_singleton, if_neg hdue]
      rfl
    · rintro d hd
      rw [List.mem_singleton.1 hd]
      exact ⟨es, rfl⟩
    · rw [List.mem_singleton]
      exact Caches.holds_store h l.1 l.2 es k

/-- Values that are looked up one after the other are those that are due, in this order. -/
theorem looked_lookupAll (h : p.caches.Switched on) {as : List (List (Entry κ))}
    (hls : lookupAll indexes ls p = .ok as q) : Looked on ls p q := by
  induction ls generalizing p as with
  | nil =>
    cases hls
    exact Looked.refl h
  | cons l ls ih =>
    rw [lookupAll_cons] at hls
    obtain ⟨es, r, hl, hls⟩ := Evaluation.exists_of_bind_ok hls
    obtain ⟨bs, t, hbs, hls⟩ := Evaluation.exists_of_bind_ok hls
    cases hls
    have hone := looked_lookup h hl
    exact hone.trans (ih hone.switched hbs)

/-- Looking up values fails where one of them is looked up in its index and the index fails. -/
theorem lookupAll_error {e : EvaluationFailure} (hls : lookupAll indexes ls p = .error e r) :
    ∃ ds l as q f, ds ++ [l] <+: ls ∧ lookupAll indexes ds p = .ok as q ∧
      (q.caches.get l.1).get? l.2 = none ∧ indexes.ask q.lookups.length l.1 l.2 = .error f ∧
      e = .lookup f ∧ r = { q with lookups := q.lookups ++ [⟨l.1, l.2, .error f⟩] } := by
  induction ls generalizing p with
  | nil => cases hls
  | cons l ls ih =>
    rw [lookupAll_cons] at hls
    cases hl : lookup indexes l.1 l.2 p with
    | error e' q =>
      rw [Evaluation.bind_error hl] at hls
      cases hls
      -- the first value already fails
      obtain ⟨f, rfl, hget, hask, rfl⟩ := lookup_error hl
      exact ⟨[], l, [], p, f, List.prefix_append [l] ls, rfl, hget, hask, rfl, rfl⟩
    | ok es q =>
      rw [Evaluation.bind_ok hl] at hls
      cases hrest : lookupAll indexes ls q with
      | error e' t =>
        rw [Evaluation.bind_error hrest] at hls
        cases hls
        -- a later one fails, and the first is looked up before it
        obtain ⟨ds, d, as, u, f, hds, hlookup, hfail⟩ := ih hrest
        refine ⟨l :: ds, d, es :: as, u, f, (List.prefix_cons_inj l).2 hds, ?_, hfail⟩
        rw [lookupAll_cons, Evaluation.bind_ok hl]
        exact Evaluation.bind_ok hlookup
      | ok as t =>
        rw [Evaluation.bind_ok hrest] at hls
        cases hls

/-- From the start of an evaluation all lookups made are those for the values looked up, and the
caches hold these values more. -/
theorem Looked.from_start {caches : Caches κ} (h : Looked on ls ⟨caches, [], []⟩ q) :
    q.lookups.map Lookup.leaf = caches.due on ls ∧
    (∀ l, q.caches.Holds l ↔
      caches.Holds l ∨ on = true ∧ ∃ es, ⟨l.1, l.2, .ok es⟩ ∈ q.lookups) ∧
    ∀ l ∈ q.lookups, ∃ es, l.answer = .ok es := by
  obtain ⟨made, hmade, hdue, hok⟩ := h.made
  obtain rfl : q.lookups = made := hmade
  refine ⟨hdue, fun l => ?_, hok⟩
  rw [h.holds]
  by_cases hl : caches.Holds l
  · simp [hl]
  · -- a value that was not held is held now if it was due, that is if it was looked up
    rw [← Caches.mem_due_iff hl, ← hdue, List.mem_map]
    refine or_congr_right (and_congr_right fun _ => ⟨?_, ?_⟩)
    · rintro ⟨d, hd, rfl⟩
      obtain ⟨es, hes⟩ := hok d hd
      exact ⟨es, by rwa [← hes]⟩
    · rintro ⟨es, hes⟩
      exact ⟨_, hes, rfl⟩

/-- No other values are looked up than those that are asked for. -/
theorem leaf_mem_of_lookupAll {as : List (List (Entry κ))}
    (hls : lookupAll indexes ls p = .ok as q) :
    ∀ l ∈ q.lookups, l ∈ p.lookups ∨ l.leaf ∈ ls := by
  induction ls generalizing p as with
  | nil =>
    cases hls
    exact fun l hl => Or.inl hl
  | cons d ls ih =>
    rw [lookupAll_cons] at hls
    obtain ⟨es, r, hd, hls⟩ := Evaluation.exists_of_bind_ok hls
    obtain ⟨bs, t, hbs, hls⟩ := Evaluation.exists_of_bind_ok hls
    cases hls
    intro l hl
    rcases ih hbs l hl with hl | hl
    · -- a kept answer takes no lookup, and a new one takes that of the first value
      rcases lookup_ok hd with ⟨-, rfl⟩ | ⟨-, rfl⟩
      · exact Or.inl hl
      · rcases List.mem_append.1 hl with hl | hl
        · exact Or.inl hl
        · rw [List.mem_singleton.1 hl]
          exact Or.inr List.mem_cons_self
    · exact Or.inr (List.mem_cons_of_mem _ hl)

/-- Not even by lookups that end in a failure. -/
theorem leaf_mem_of_lookupAll_error {e : EvaluationFailure}
    (hls : lookupAll indexes ls p = .error e q) :
    ∀ l ∈ q.lookups, l ∈ p.lookups ∨ l.leaf ∈ ls := by
  obtain ⟨ds, d, as, r, f, hds, hlookup, -, -, -, rfl⟩ := lookupAll_error hls
  intro l hl
  rcases List.mem_append.1 hl with hl | hl
  · refine (leaf_mem_of_lookupAll hlookup l hl).imp_right fun hl => ?_
    exact hds.subset (List.mem_append_left _ hl)
  · rw [List.mem_singleton.1 hl]
    exact Or.inr (hds.subset (List.mem_append_right _ (List.mem_singleton.2 rfl)))

/-- The uses of the combiner say nothing about lookups. -/
theorem Looked.of_alike (h : Looked on ls p q) (hr : r.Alike q) : Looked on ls p r where
  switched := by rw [hr.caches]; exact h.switched
  made := by rw [hr.lookups]; exact h.made
  holds := by rw [hr.caches]; exact h.holds

/-- Values that are looked up until an index fails: all before the last were looked up without a
failure, and of the last the index was asked. -/
theorem looked_lookupAll_error (h : p.caches.Switched on) {f : LookupFailure}
    (hls : lookupAll indexes ls p = .error (.lookup f) r) :
    ∃ ds l q, p.caches.due on ds ++ [l] <+: p.caches.due on ls ∧ Looked on ds p q ∧
      r.caches = q.caches ∧ r.lookups = q.lookups ++ [⟨l.1, l.2, .error f⟩] := by
  obtain ⟨ds, l, as, q, f', hds, hlookup, hget, -, hf, rfl⟩ := lookupAll_error hls
  cases hf
  have hlooked := looked_lookupAll h hlookup
  have hnot := (Caches.get?_eq_none_iff hlooked.switched l.1 l.2).1 hget
  have hdue := Caches.due_append hlooked.holds [l]
  rw [Caches.due_singleton, if_neg hnot] at hdue
  exact ⟨ds, l, q, hdue ▸ Caches.due_prefix on p.caches hds, hlooked, rfl, rfl⟩

/-! ### The lookups of an evaluation -/

/-- No level asks for more than its siblings do, whatever it makes of the answers. -/
theorem resolvingSteps_true (indexes : Indexes κ) (combiner : Combiner) :
    ResolvingSteps indexes combiner (fun _ _ _ => True) (fun _ _ _ => True) where
  nothing := trivial
  value _ _ _ := trivial
  group _ _ _ _ := trivial
  required _ _ _ _ := trivial
  excluded _ _ _ _ := trivial
  level _ _ _ _ _ _ _ _ _ := trivial

end

/-- Whatever the caches hold, the indexes are asked of no other values than those of the query. -/
theorem leaf_mem_leaves (indexes : Indexes κ) (combiner : Combiner) (caches : Caches κ) (q : Query) :
    ∀ l ∈ (evaluate indexes combiner caches q).progress.lookups, l.leaf ∈ q.leaves := by
  have hvisited := (resolvingSteps_true indexes combiner).visited caches q
  intro l hl
  -- however the evaluation ends, up to there it looked up values of the query and nothing else
  cases hresult : (evaluate indexes combiner caches q).result with
  | ok es =>
    rw [hresult] at hvisited
    obtain ⟨as, p, hls, halike, -⟩ := hvisited
    rw [halike.lookups] at hl
    exact (leaf_mem_of_lookupAll hls l hl).resolve_left List.not_mem_nil
  | error e =>
    rw [hresult] at hvisited
    cases e with
    | lookup f =>
      obtain ⟨p, hls, halike⟩ := hvisited
      rw [halike.lookups] at hl
      exact (leaf_mem_of_lookupAll_error hls l hl).resolve_left List.not_mem_nil
    | invalidWeight w =>
      obtain ⟨ds, as, p, hds, hls, halike⟩ := hvisited
      rw [halike.lookups] at hl
      exact hds.subset ((leaf_mem_of_lookupAll hls l hl).resolve_left List.not_mem_nil)

/-- A failure of an index is its answer to a value of the query. -/
theorem exists_ask_of_lookup {indexes : Indexes κ} {combiner : Combiner} {caches : Caches κ}
    {q : Query} {f : LookupFailure}
    (h : (evaluate indexes combiner caches q).result = .error (.lookup f)) :
    ∃ n, ∃ l ∈ q.leaves, indexes.ask n l.1 l.2 = .error f := by
  have hvisited := (resolvingSteps_true indexes combiner).visited caches q
  rw [h] at hvisited
  obtain ⟨p, hls, -⟩ := hvisited
  obtain ⟨ds, l, as, r, f', hds, -, -, hask, hf, -⟩ := lookupAll_error hls
  cases hf
  exact ⟨_, l, hds.subset (List.mem_append_right _ (List.mem_singleton.2 rfl)), hask⟩

/-- An evaluation asks the indexes of the values of its query, in order: of all if answers are not
kept, else of those that are not held, each once. If it succeeds it has made all these lookups and
none has failed, and the caches hold the values of the query more. If it fails it has made the first
of them, of which the last has failed if it was for an index, and the caches hold the values that
were looked up. -/
theorem evaluate_lookups (indexes : Indexes κ) (combiner : Combiner) {on : Bool}
    {caches : Caches κ} (h : caches.Switched on) (q : Query) :
    let o := evaluate indexes combiner caches q
    let made := o.progress.lookups
    made.map Lookup.leaf <+: caches.due on q.leaves ∧
    (∀ l, o.progress.caches.Holds l ↔
      caches.Holds l ∨ on = true ∧ ∃ es, ⟨l.1, l.2, .ok es⟩ ∈ made) ∧
    match o.result with
    | .ok _ =>
      made.map Lookup.leaf = caches.due on q.leaves ∧ (∀ l ∈ made, ∃ es, l.answer = .ok es) ∧
        ∀ l, o.progress.caches.Holds l ↔ caches.Holds l ∨ on = true ∧ l ∈ q.leaves
    | .error (.lookup f) =>
      ∃ done l, made = done ++ [l] ∧ l.answer = .error f ∧ ∀ d ∈ done, ∃ es, d.answer = .ok es
    | .error (.invalidWeight _) => ∀ l ∈ made, ∃ es, l.answer = .ok es := by
  intro o made
  have hvisited := (resolvingSteps_true indexes combiner).visited caches q
  -- `Visited` tells the three ways to end apart, and so does the statement
  cases hresult : o.result with
  | ok es =>
    rw [show (evaluate indexes combiner caches q).result = .ok es from hresult] at hvisited
    obtain ⟨as, p, hls, halike, -⟩ := hvisited
    have hlooked := (looked_lookupAll h hls).of_alike halike
    obtain ⟨hdue, hholds, hok⟩ := hlooked.from_start
    exact ⟨hdue ▸ List.prefix_refl _, hholds, hdue, hok, hlooked.holds⟩
  | error e =>
    rw [show (evaluate indexes combiner caches q).result = .error e from hresult] at hvisited
    cases e with
    | lookup f =>
      obtain ⟨p, hls, halike⟩ := hvisited
      obtain ⟨ds, l, r, hprefix, hlooked, hcaches, hlookups⟩ := looked_lookupAll_error h hls
      obtain ⟨hdue, hholds, hok⟩ := hlooked.from_start
      -- the failed lookup stands behind all others and adds nothing to what is held
      have hmade : made = r.lookups ++ [⟨l.1, l.2, .error f⟩] := halike.lookups.trans hlookups
      refine ⟨?_, fun k => ?_, r.lookups, _, hmade, rfl, hok⟩
      · rw [hmade, List.map_append, hdue]
        exact hprefix
      · rw [halike.caches.trans hcaches, hholds, hmade]
        simp
    | invalidWeight w =>
      obtain ⟨ds, as, p, hds, hls, halike⟩ := hvisited
      have hlooked := (looked_lookupAll h hls).of_alike halike
      obtain ⟨hdue, hholds, hok⟩ := hlooked.from_start
      exact ⟨hdue ▸ Caches.due_prefix on caches hds, hholds, hok⟩

/-- Of a query with the values `a`, `a` in quotes, again `a` in quotes, `b`, `d` and `e`, the first
is held, `a` in quotes is looked up once, and the index fails at `d`. -/
theorem evaluate_lookups_fails :
    let w : Weight := .finite false ⟨1, Format.binary32_has_one⟩
    let indexes : Indexes Nat :=
      { ask := fun _ _ term => if term = "d" then .error (.failed term "down") else .ok [⟨1, w, []⟩]
        policy := .equality }
    let caches : Caches Nat := (Caches.new true).set .standard ((Cache.new true).store "a" [])
    let q : Query := .group [.value .standard "a", .required (.value .precise "a"),
      .excluded (.group [.value .precise "a", .value .standard "b"]), .value .standard "d",
      .value .standard "e"]
    let o := evaluate indexes (fun _ _ => w) caches q
    caches.Switched true ∧ o.result = .error (.lookup (.failed "d" "down")) ∧
    caches.due true q.leaves
      = [(.precise, "a"), (.standard, "b"), (.standard, "d"), (.standard, "e")] ∧
    o.progress.lookups.map Lookup.leaf = [(.precise, "a"), (.standard, "b"), (.standard, "d")] ∧
    o.progress.lookups.map Lookup.leaf <+: caches.due true q.leaves ∧
    (∀ l, o.progress.caches.Holds l ↔
      caches.Holds l ∨ ∃ es, ⟨l.1, l.2, .ok es⟩ ∈ o.progress.lookups) ∧
    ∃ done l, o.progress.lookups = done ++ [l] ∧ l.answer = .error (.failed "d" "down") ∧
      ∀ d ∈ done, ∃ es, d.answer = .ok es := by
  intro w indexes caches q o
  have hcaches : caches.Switched true := fun m => by cases m <;> rfl
  have hresult : o.result = .error (.lookup (.failed "d" "down")) := by decide +kernel
  have hdue : caches.due true q.leaves
      = [(.precise, "a"), (.standard, "b"), (.standard, "d"), (.standard, "e")] := by decide +kernel
  have hmade : o.progress.lookups.map Lookup.leaf
      = [(.precise, "a"), (.standard, "b"), (.standard, "d")] := by decide +kernel
  have hall := evaluate_lookups indexes (fun _ _ => w) hcaches q
  simp only [show evaluate indexes (fun _ _ => w) caches q = o from rfl, hresult, true_and] at hall
  exact ⟨hcaches, hresult, hdue, hmade, hall⟩

end WeightedSearch
