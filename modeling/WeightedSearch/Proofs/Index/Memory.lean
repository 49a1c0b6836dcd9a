/-
What a cache remembers.

A cache is consulted again and again and cleared from time to time, and the index behind it may
answer differently each time or fail.  A log tells which of these uses went to the index, and with
what answer.  The answers since the cache was last cleared are all that it goes by: a term among
them is recalled, and the index is asked for any other term.  Main statements:

* `Remembers.consult` — what a cache does with a term goes by the answers that it holds;
* `remembers_perform` — one use keeps the cache and the log in step;
* `remembers_after` — so does a run of uses;
* `consult_after` — what a cache does with a term after any run of uses, and how many terms it then
  holds.
-/
import Mathlib.Data.Finset.Card
import Mathlib.Data.List.DropRight
import WeightedSearch.Index.Cache

namespace WeightedSearch

variable {κ : Type}

namespace Cache

/-! ### Runs of uses -/

/-- A use of a cache. The index may have changed since the last one, so what it answers at the time
belongs to the use. -/
inductive Use (κ : Type)
  | consult (term : String) (ask : String → Except LookupFailure (List (Entry κ)))
  | clear

/-- What a use comes to. -/
inductive Event (κ : Type)
  /-- the index was asked for the term -/
  | asked (term : String) (answer : Except LookupFailure (List (Entry κ)))
  /-- a kept answer was given, and the index was not asked -/
  | recalled
  | cleared

/-- The cache after a use. -/
def perform (cache : Cache κ) : Use κ → Cache κ
  | .consult term ask => (cache.consult term ask).cache
  | .clear => cache.clear

/-- What a use of the cache comes to. -/
def event (cache : Cache κ) : Use κ → Event κ
  | .consult term ask =>
    match (cache.consult term ask).asked with
    | some t => .asked t (cache.consult term ask).result
    | none => .recalled
  | .clear => .cleared

/-- The cache after some uses. -/
def after (cache : Cache κ) (uses : List (Use κ)) : Cache κ :=
  uses.foldl perform cache

/-- What some uses come to, one after the other. -/
def log (cache : Cache κ) : List (Use κ) → List (Event κ)
  | [] => []
  | u :: us => cache.event u :: (cache.perform u).log us

/-- The term that the index was asked for and its answer, if it did not fail. -/
def Event.answered? : Event κ → Option (String × List (Entry κ))
  | .asked term (.ok answer) => some (term, answer)
  | _ => none

/-- Whether the cache was cleared. -/
def Event.isCleared : Event κ → Bool
  | .cleared => true
  | _ => false

/-- The terms that the index has answered since the cache was last cleared, with the answers. -/
def answeredSinceClear (events : List (Event κ)) : List (String × List (Entry κ)) :=
  (events.rtakeWhile fun e => !e.isCleared).filterMap Event.answered?

theorem after_concat (cache : Cache κ) (us : List (Use κ)) (u : Use κ) :
    cache.after (us ++ [u]) = (cache.after us).perform u := by
  rw [after, List.foldl_append]
  rfl

theorem log_concat (cache : Cache κ) (us : List (Use κ)) (u : Use κ) :
    cache.log (us ++ [u]) = cache.log us ++ [(cache.after us).event u] := by
  -- what the last use comes to goes by the cache before it, which the induction has to follow
  induction us generalizing cache with
  | nil => rfl
  | cons v us ih => exact congrArg (cache.event v :: ·) (ih (cache.perform v))

theorem answeredSinceClear_concat (events : List (Event κ)) (e : Event κ) :
    answeredSinceClear (events ++ [e])
      = if e.isCleared then [] else answeredSinceClear events ++ e.answered?.toList := by
  unfold answeredSinceClear
  cases he : e.isCleared with
  | true =>
    rw [List.rtakeWhile_concat_neg _ _ _ (by simp [he])]
    rfl
  | false =>
    rw [List.rtakeWhile_concat_pos _ _ _ (by simp [he]), List.filterMap_append]
    cases ha : e.answered? <;> simp [ha]

/-! ### The cache and its log -/

/-- Whether a cache holds exactly these answers. -/
structure Remembers (cache : Cache κ) (answers : List (String × List (Entry κ))) : Prop where
  enabled : cache.enabled = true
  pairs : cache.answers.pairs = answers

section

variable {cache : Cache κ} {answers : List (String × List (Entry κ))}

theorem Remembers.keys (h : cache.Remembers answers) :
    cache.answers.keys = answers.map Prod.fst := by
  rw [Table.keys, h.pairs]

theorem Remembers.get?_eq_some_iff (h : cache.Remembers answers) {term : String}
    {answer : List (Entry κ)} : cache.get? term = some answer ↔ (term, answer) ∈ answers := by
  rw [get?, if_pos h.enabled, Table.get?_eq_some_iff, h.pairs]

theorem Remembers.get?_eq_none_iff (h : cache.Remembers answers) {term : String} :
    cache.get? term = none ↔ term ∉ answers.map Prod.fst := by
  rw [get?, if_pos h.enabled, Table.get?_eq_none_iff, h.keys]

/-- A term that is held is recalled. -/
theorem consult_of_hit {term : String} {answer : List (Entry κ)}
    (h : cache.get? term = some answer) (ask : String → Except LookupFailure (List (Entry κ))) :
    cache.consult term ask = ⟨.ok answer, none, cache⟩ := by
  rw [consult, h]

/-- For a term that is not held the index is asked, and its answer is kept unless it failed. -/
theorem consult_of_miss {term : String} (h : cache.get? term = none)
    (ask : String → Except LookupFailure (List (Entry κ))) :
    cache.consult term ask = ⟨ask term, some term, match ask term with
      | .ok answer => cache.store term answer
      | .error _ => cache⟩ := by
  rw [consult, h]
  cases ask term <;> rfl

theorem Remembers.store (h : cache.Remembers answers) {term : String}
    (hterm : term ∉ answers.map Prod.fst) (answer : List (Entry κ)) :
    (cache.store term answer).Remembers (answers ++ [(term, answer)]) := by
  have hkey : term ∉ cache.answers.keys := by rwa [h.keys]
  have hstore : cache.store term answer
      = { cache with answers := cache.answers.insert term answer } := by
    rw [Cache.store, if_pos h.enabled]
  refine ⟨(enabled_store cache term answer).trans h.enabled, ?_⟩
  rw [hstore, Table.pairs_insert_of_new hkey, h.pairs]

/-- What a cache does with a term goes by what it holds. -/
theorem Remembers.consult (h : cache.Remembers answers) (term : String)
    (ask : String → Except LookupFailure (List (Entry κ))) :
    let c := cache.consult term ask
    c.asked = (if term ∈ answers.map Prod.fst then none else some term) ∧
    (term ∉ answers.map Prod.fst → c.result = ask term) ∧
    (∀ answer, (term, answer) ∈ answers → c.result = .ok answer) ∧
    ∀ e, c.result = .error e → c.cache = cache ∧ term ∉ answers.map Prod.fst := by
  intro c
  cases hget : cache.get? term with
  | some answer =>
    have hmem : term ∈ answers.map Prod.fst :=
      List.mem_map_of_mem (h.get?_eq_some_iff.1 hget)
    have hc : c = ⟨.ok answer, none, cache⟩ := consult_of_hit hget ask
    rw [hc, if_pos hmem]
    refine ⟨rfl, fun hnew => absurd hmem hnew, fun other hother => ?_, nofun⟩
    -- the term is held once, so no other answer is held for it
    have hsame : some answer = some other := hget.symm.trans (h.get?_eq_some_iff.2 hother)
    exact congrArg _ (Option.some.inj hsame)
  | none =>
    have hnew : term ∉ answers.map Prod.fst := h.get?_eq_none_iff.1 hget
    have hc := consult_of_miss hget ask
    rw [if_neg hnew]
    refine ⟨congrArg Consultation.asked hc, fun _ => congrArg Consultation.result hc,
      fun answer hanswer => absurd (List.mem_map_of_mem hanswer) hnew, fun e he => ⟨?_, hnew⟩⟩
    exact cache_consult_of_error he

theorem Remembers.size_eq (h : cache.Remembers answers) :
    cache.size = (answers.map Prod.fst).toFinset.card := by
  rw [← h.keys, List.toFinset_card_of_nodup cache.answers.nodup_keys, Table.keys, List.length_map]
  rfl

/-- One use keeps the cache and the log in step. -/
theorem remembers_perform {events : List (Event κ)}
    (h : cache.Remembers (answeredSinceClear events)) (u : Use κ) :
    (cache.perform u).Remembers (answeredSinceClear (events ++ [cache.event u])) := by
  rw [answeredSinceClear_concat]
  cases u with
  | clear => exact ⟨h.enabled, rfl⟩
  | consult term ask =>
    cases hget : cache.get? term with
    | some answer =>
      have hconsult := consult_of_hit hget ask
      rw [perform, event, hconsult]
      show cache.Remembers (answeredSinceClear events ++ [])
      rwa [List.append_nil]
    | none =>
      have hconsult := consult_of_miss hget ask
      rw [perform, event, hconsult]
      cases hask : ask term with
      | ok answer => exact h.store (h.get?_eq_none_iff.1 hget) answer
      | error e =>
        show cache.Remembers (answeredSinceClear events ++ [])
        rwa [List.append_nil]

end

/-- After any run of uses a cache holds the answers that its log shows since it was cleared. -/
theorem remembers_after (us : List (Use κ)) :
    ((new true).after us).Remembers (answeredSinceClear ((new true : Cache κ).log us)) := by
  induction us using List.reverseRecOn with
  | nil => exact ⟨rfl, rfl⟩
  | append_singleton us u ih =>
    rw [after_concat, log_concat]
    exact remembers_perform ih u

/-- A cache that is switched off never holds anything. -/
theorem after_new_false (us : List (Use κ)) : (new false : Cache κ).after us = new false := by
  induction us using List.reverseRecOn with
  | nil => rfl
  | append_singleton us u ih =>
    rw [after_concat, ih]
    cases u with
    | clear => rfl
    | consult term ask =>
      -- nothing is stored while the cache is off, whatever is answered
      rw [perform, consult_of_miss rfl]
      cases ask term <;> rfl

theorem isEmpty_iff (cache : Cache κ) : cache.isEmpty = true ↔ cache.size = 0 := by
  rw [isEmpty, List.isEmpty_iff_length_eq_zero]
  rfl

/-- After any run of uses the index is asked for a term, and for no other, exactly if it has not
answered that term since the cache was last cleared; otherwise its answer of then is given. A
failure changes nothing, so that the index is asked again. The cache holds as many terms as the
index has answered. A cache that is switched off asks each time and holds nothing. -/
theorem consult_after (us : List (Use κ)) :
    (let cache : Cache κ := (new true).after us
      let answered := answeredSinceClear ((new true).log us)
      (∀ term ask, let c := cache.consult term ask
        c.asked = (if term ∈ answered.map Prod.fst then none else some term) ∧
        (term ∉ answered.map Prod.fst → c.result = ask term) ∧
        (∀ answer, (term, answer) ∈ answered → c.result = .ok answer) ∧
        ∀ e, c.result = .error e → c.cache = cache ∧
          ∀ ask', (c.cache.consult term ask').asked = some term) ∧
      cache.size = (answered.map Prod.fst).toFinset.card ∧
      (cache.isEmpty = true ↔ cache.size = 0)) ∧
    let cache : Cache κ := (new false).after us
    (∀ term ask, let c := cache.consult term ask
      c.asked = some term ∧ c.result = ask term) ∧
    cache.size = 0 ∧ cache.isEmpty = true := by
  constructor
  · intro cache answered
    have hcache : cache.Remembers answered := remembers_after us
    refine ⟨fun term ask => ?_, hcache.size_eq, isEmpty_iff cache⟩
    obtain ⟨hasked, hresult, hrecalled, hfailed⟩ := hcache.consult term ask
    refine ⟨hasked, hresult, hrecalled, fun e he => ?_⟩
    obtain ⟨hsame, hnew⟩ := hfailed e he
    -- the cache is as it was, so the same use of it asks again
    refine ⟨hsame, fun ask' => ?_⟩
    rw [hsame, (hcache.consult term ask').1, if_neg hnew]
  · intro cache
    have hcache : cache = new false := after_new_false us
    refine ⟨fun term ask => ?_, by rw [hcache]; rfl, by rw [hcache]; rfl⟩
    rw [hcache, consult_of_miss rfl]
    exact ⟨rfl, rfl⟩

/-- The index fails for `a` and then answers it, and answers `b` before the cache is cleared. Of the
three answers that it gives the cache holds that to `a`; it recalls this one while the index
is down, and asks for `b` again. -/
theorem consult_after_failures :
    let w : Weight := .finite false ⟨1, Format.binary32_has_one⟩
    let down : String → Except LookupFailure (List (Entry Nat)) := fun t => .error (.failed t "down")
    let up (k : Nat) : String → Except LookupFailure (List (Entry Nat)) := fun _ => .ok [⟨k, w, []⟩]
    let us : List (Use Nat) := [.consult "a" (up 1), .consult "b" (up 2), .clear,
      .consult "a" down, .consult "a" (up 3), .consult "a" (up 4), .consult "b" down]
    let cache : Cache Nat := (new true).after us
    answeredSinceClear ((new true).log us) = [("a", [⟨3, w, []⟩])] ∧
    (cache.consult "a" down).asked = none ∧
    (cache.consult "a" down).result = .ok [⟨3, w, []⟩] ∧
    (cache.consult "b" down).asked = some "b" ∧
    (cache.consult "b" down).result = .error (.failed "b" "down") ∧
    (cache.consult "b" down).cache = cache ∧
    cache.size = 1 := by
  intro w down up us cache
  have hanswered : answeredSinceClear ((new true).log us) = [("a", [⟨3, w, []⟩])] := rfl
  obtain ⟨⟨hconsult, hsize, -⟩, -⟩ := consult_after us
  rw [hanswered] at hconsult hsize
  obtain ⟨hasked, -, hrecalled, -⟩ := hconsult "a" down
  obtain ⟨haskedB, hresultB, -, hfailedB⟩ := hconsult "b" down
  have hb : "b" ∉ [("a", [(⟨3, w, []⟩ : Entry Nat)])].map Prod.fst := by simp
  refine ⟨hanswered, ?_, hrecalled _ (List.mem_singleton_self _), ?_, hresultB hb,
    (hfailedB _ (hresultB hb)).1, hsize⟩
  · exact hasked
  · exact haskedB

end Cache

end WeightedSearch
