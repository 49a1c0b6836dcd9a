/-
Runs of a searcher.

A searcher is called again and again, and its caches are cleared from time to time.  If the indexes
are steady, whatever failed before, then the caches hold nothing but the answers of the indexes, and
no call can tell that there are caches.  Main statements:

* `perform_steady` — one call;
* `run_steady` — a whole run.
-/
import Mathlib.Data.List.Forall2
import WeightedSearch.Search
import WeightedSearch.Proofs.Evaluation.Steady

namespace WeightedSearch

variable {κ : Type}

/-- A call of a searcher. The failures of the indexes come and go, so the indexes as they are during
the call belong to it. -/
inductive Call (κ : Type)
  | evaluate (indexes : Indexes κ) (q : Query)
  | search (indexes : Indexes κ) (input : String)
  | clear (m : Matching)

/-- What a call gives. -/
inductive Reply (κ : Type)
  | evaluated (result : Except EvaluationFailure (List (Entry κ)))
  | searched (result : Except SearchFailure (List (Entry κ)))
  | cleared

/-- Whether an index failed. -/
def Reply.isLookupFailure : Reply κ → Bool
  | .evaluated (.error (.lookup _)) => true
  | .searched (.error (.evaluation (.lookup _))) => true
  | _ => false

namespace Call

/-- Whether each index, when it does not fail, gives its one answer to a term. -/
def Steady (answers : Answers κ) (policy : KeyPolicy κ) : Call κ → Prop
  | .evaluate indexes _ =>
    indexes.policy = policy ∧ ∀ m term, indexes.Gives answers (fun _ => True) m term
  | .search indexes _ =>
    indexes.policy = policy ∧ ∀ m term, indexes.Gives answers (fun _ => True) m term
  | .clear _ => True

/-- The same call over indexes that never fail. -/
def unfailing (answers : Answers κ) (policy : KeyPolicy κ) : Call κ → Call κ
  | .evaluate _ q => .evaluate (answers.indexes policy) q
  | .search _ input => .search (answers.indexes policy) input
  | .clear m => .clear m

end Call

namespace Searcher

/-- What a call gives, and the searcher afterwards. -/
def perform (s : Searcher κ) : Call κ → Reply κ × Searcher κ
  | .evaluate indexes q =>
    let o := s.evaluate indexes q
    (.evaluated o.result, s.after o)
  | .search indexes input =>
    let o := s.search indexes input
    (.searched o.result, s.after o)
  | .clear m => (.cleared, s.clear m)

/-- What the calls of a run give, each with the searcher after it. -/
def run (s : Searcher κ) : List (Call κ) → List (Reply κ × Searcher κ)
  | [] => []
  | c :: cs => s.perform c :: (s.perform c).2.run cs

variable {answers : Answers κ} {policy : KeyPolicy κ}

theorem evaluate_plain (s : Searcher κ) (answers : Answers κ) (policy : KeyPolicy κ) (q : Query) :
    ((s.setCaching false).evaluate (answers.indexes policy) q).result
      = (answers.effects policy s.combiner).found q :=
  evaluate_result s.combiner (Caches.coherent_new answers false) fun _ _ _ => rfl

/-- An evaluation over steady indexes cannot tell that there are caches, unless an index fails. -/
theorem evaluate_steady {s : Searcher κ} (hs : s.caches.Coherent answers) {indexes : Indexes κ}
    (h : ∀ m term, indexes.Gives answers (fun _ => True) m term) (q : Query) :
    let o := s.evaluate indexes q
    (o.result = ((s.setCaching false).evaluate (answers.indexes indexes.policy) q).result ∨
      ∃ f, o.result = .error (.lookup f)) ∧ o.progress.caches.Coherent answers := by
  obtain ⟨hresult, hcaches⟩ := evaluate_follows s.combiner hs (q := q) fun l _ => h l.1 l.2
  refine ⟨?_, hcaches⟩
  rw [evaluate_plain]
  rcases hresult with hresult | ⟨f, hresult, -⟩
  · exact Or.inl hresult
  · exact Or.inr ⟨f, hresult⟩

/-- So with a search, which evaluates one query at most. -/
theorem search_steady {s : Searcher κ} (hs : s.caches.Coherent answers) {indexes : Indexes κ}
    (h : ∀ m term, indexes.Gives answers (fun _ => True) m term) (input : String) :
    let o := s.search indexes input
    (o.result = ((s.setCaching false).search (answers.indexes indexes.policy) input).result ∨
      ∃ f, o.result = .error (.evaluation (.lookup f))) ∧
    o.progress.caches.Coherent answers := by
  intro o
  have hresult := result_search s indexes input
  have hprogress := progress_search s indexes input
  have hplain := result_search (s.setCaching false) (answers.indexes indexes.policy) input
  by_cases hblank : isBlank input = true
  -- a blank search string is refused before anything is looked up
  · rw [if_pos hblank] at hresult hprogress hplain
    refine ⟨Or.inl (hresult.trans hplain.symm), ?_⟩
    rw [hprogress]
    exact hs
  · rw [if_neg hblank] at hresult hprogress hplain
    obtain ⟨hsame | ⟨f, hfail⟩, hcaches⟩ := evaluate_steady hs h (.parse input)
    · rw [hsame] at hresult
      exact ⟨Or.inl (hresult.trans hplain.symm), hprogress ▸ hcaches⟩
    · rw [hfail] at hresult
      exact ⟨Or.inr ⟨f, hresult⟩, hprogress ▸ hcaches⟩

theorem setCaching_perform (s : Searcher κ) (c : Call κ) (enabled : Bool) :
    (s.perform c).2.setCaching enabled = s.setCaching enabled := by
  cases c <;> rfl

/-- One call keeps the caches coherent and gives what it gives without caches and failures, unless
an index fails. -/
theorem perform_steady {s : Searcher κ} (hs : s.caches.Coherent answers) {c : Call κ}
    (hc : c.Steady answers policy) :
    (s.perform c).2.caches.Coherent answers ∧ ((s.perform c).1.isLookupFailure = false →
      (s.perform c).1 = ((s.setCaching false).perform (c.unfailing answers policy)).1) := by
  cases c with
  | evaluate indexes q =>
    obtain ⟨rfl, hgives⟩ := hc
    obtain ⟨hresult, hcaches⟩ := evaluate_steady hs hgives q
    refine ⟨hcaches, fun hok => ?_⟩
    rcases hresult with hresult | ⟨f, hresult⟩
    · exact congrArg Reply.evaluated hresult
    · simp [perform, hresult, Reply.isLookupFailure] at hok
  | search indexes input =>
    obtain ⟨rfl, hgives⟩ := hc
    obtain ⟨hresult, hcaches⟩ := search_steady hs hgives input
    refine ⟨hcaches, fun hok => ?_⟩
    rcases hresult with hresult | ⟨f, hresult⟩
    · exact congrArg Reply.searched hresult
    · simp [perform, hresult, Reply.isLookupFailure] at hok
  | clear m => exact ⟨hs.clear m, fun _ => rfl⟩

theorem run_of_coherent {s : Searcher κ} (hs : s.caches.Coherent answers) {calls : List (Call κ)}
    (h : ∀ c ∈ calls, c.Steady answers policy) :
    List.Forall₂ (fun c r => r.2.caches.Coherent answers ∧ (r.1.isLookupFailure = false →
        r.1 = ((s.setCaching false).perform (c.unfailing answers policy)).1))
      calls (s.run calls) := by
  induction calls generalizing s with
  | nil => exact List.Forall₂.nil
  | cons c cs ih =>
    have hstep := perform_steady hs (h c (by simp))
    have hrest := ih hstep.1 fun d hd => h d (List.mem_cons_of_mem _ hd)
    -- the calls change nothing but the caches, so all are compared with the same searcher
    rw [setCaching_perform] at hrest
    exact List.Forall₂.cons hstep hrest

/-- In every run over steady indexes the caches hold nothing but the answers of the indexes after
each call, whether it failed or not, and each call that does not end in a failure of an index gives
what it gives without caches over indexes that never fail. -/
theorem run_steady (s : Searcher κ) {calls : List (Call κ)}
    (h : ∀ c ∈ calls, c.Steady answers policy) :
    List.Forall₂ (fun c r => r.2.caches.Coherent answers ∧ (r.1.isLookupFailure = false →
        r.1 = ((s.setCaching false).perform (c.unfailing answers policy)).1))
      calls ((s.setCaching true).run calls) :=
  run_of_coherent (s := s.setCaching true) (Caches.coherent_new answers true) h

/-- The precise index fails once, after the standard index was asked; then all goes well, twice with
an answer that was kept. -/
theorem run_steady_recovers :
    let w : Weight := .finite false ⟨1, Format.binary32_has_one⟩
    let answers : Answers Nat := fun m _ => match m with
      | .standard => [⟨1, w, []⟩, ⟨2, w, []⟩]
      | .precise => [⟨2, w, [⟨0, 0, 0, 1⟩]⟩]
    let failing : Indexes Nat :=
      { ask := fun n m term => if n = 1 then .error (.failed term "down") else .ok (answers m term)
        policy := .equality }
    let q : Query := .group [.value .standard "a", .required (.value .precise "a")]
    let calls : List (Call Nat) := [.evaluate failing q, .clear .precise,
      .search (answers.indexes .equality) "a", .evaluate (answers.indexes .equality) q]
    let s : Searcher Nat := .new fun ws _ => ws.headD .zero
    (∀ c ∈ calls, c.Steady answers .equality) ∧
    ((s.setCaching true).run calls).map (·.1.isLookupFailure) = [true, false, false, false] ∧
    List.Forall₂ (fun c r => r.2.caches.Coherent answers ∧ (r.1.isLookupFailure = false →
        r.1 = ((s.setCaching false).perform (c.unfailing answers .equality)).1))
      calls ((s.setCaching true).run calls) := by
  intro w answers failing q calls s
  have hsteady : ∀ c ∈ calls, c.Steady answers .equality := by
    intro c hc
    simp only [calls, List.mem_cons, List.not_mem_nil, or_false] at hc
    rcases hc with rfl | rfl | rfl | rfl
    · refine ⟨rfl, fun m term n => ?_⟩
      by_cases hn : n = 1 <;> simp [failing, hn]
    · trivial
    · exact ⟨rfl, fun _ _ _ => rfl⟩
    · exact ⟨rfl, fun _ _ _ => rfl⟩
  exact ⟨hsteady, by decide +kernel, run_steady s hsteady⟩

end Searcher

end WeightedSearch
