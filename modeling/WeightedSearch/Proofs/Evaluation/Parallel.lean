/-
Evaluations side by side.

The lookups and the weights that an evaluation needs can be had in several ways: from indexes behind
caches, from answers that are just there.  What a query makes of them is the same, so a relation
between the computations of two ways holds of whole evaluations as soon as it holds of single
lookups and single uses of the combiner, and is kept when computations are put together.  Main
statements:

* `Parallel.reduce` — one level;
* `Parallel.found` — a whole query.
-/
import WeightedSearch.Proofs.Evaluation.Siblings

namespace WeightedSearch

variable {κ : Type} {μ ν : Type → Type} [Monad μ] [Monad ν]

/-- Whether a relation between computations is kept when they are put together, and holds of the
uses of the combiner. Both sides merge the keys by one policy. -/
structure Parallel (E : Effects μ κ) (F : Effects ν κ) (R : ∀ {α : Type}, μ α → ν α → Prop) :
    Prop where
  policy : E.policy = F.policy
  pure : ∀ {α : Type} (a : α), R (Pure.pure a) (Pure.pure a)
  bind : ∀ {α β : Type} {x : μ α} {y : ν α} {f : α → μ β} {g : α → ν β},
    R x y → (∀ a, R (f a) (g a)) → R (x >>= f) (y >>= g)
  combine : ∀ siblings ws, R (E.combine siblings ws) (F.combine siblings ws)

namespace Parallel

variable {E : Effects μ κ} {F : Effects ν κ} {R : ∀ {α : Type}, μ α → ν α → Prop}

/-- Groups are weighed in parallel, since nothing but the combiner is used. -/
theorem weigh (h : Parallel E F R) (siblings : List Query) (l : List (Entry κ × List Weight)) :
    R (E.weigh siblings l) (F.weigh siblings l) := by
  induction l with
  | nil => exact h.pure []
  | cons x l ih =>
    exact h.bind (h.combine siblings x.2) fun w => h.bind ih fun es => h.pure _

theorem settle (h : Parallel E F R) (siblings : List Query) (g : Gathered κ) :
    R (E.settle siblings g) (F.settle siblings g) := by
  rw [Effects.settle, Effects.settle, h.policy]
  exact h.weigh siblings _

/-- Siblings are resolved in parallel if each of them is. -/
theorem resolveAll (h : Parallel E F R) {qs : List Query}
    (hqs : ∀ q ∈ qs, R (E.resolve q) (F.resolve q)) : R (E.resolveAll qs) (F.resolveAll qs) := by
  induction qs with
  | nil => exact h.pure []
  | cons q qs ih =>
    have hrest := ih fun p hp => hqs p (List.mem_cons_of_mem _ hp)
    exact h.bind (hqs q (by simp)) fun es => h.bind hrest fun rs => h.pure _

variable [LawfulMonad μ] [LawfulMonad ν]

theorem reduce (h : Parallel E F R) {qs : List Query}
    (hqs : ∀ q ∈ qs, R (E.resolve q) (F.resolve q)) : R (E.reduce qs) (F.reduce qs) := by
  rw [Effects.reduce_eq_settle, Effects.reduce_eq_settle]
  exact h.bind (h.resolveAll hqs) fun rs => h.settle qs _

/-- Queries are evaluated in parallel if their values are looked up so. -/
theorem found (h : Parallel E F R) {q : Query}
    (hq : ∀ l ∈ q.leaves, R (E.lookup l.1 l.2) (F.lookup l.1 l.2)) :
    R (E.found q) (F.found q) := by
  revert hq
  -- only lookups could differ, and they are those of the leaves, whatever the level
  refine (Query.induct_levels
    (R := fun q => (∀ l ∈ q.leaves, R (E.lookup l.1 l.2) (F.lookup l.1 l.2)) →
      R (E.resolve q) (F.resolve q))
    (L := fun q => (∀ l ∈ q.leaves, R (E.lookup l.1 l.2) (F.lookup l.1 l.2)) →
      R (E.found q) (F.found q))
    (fun _ => h.pure []) (fun m text hq => hq (m, text) (by simp [Query.leaves])) ?group
    (fun _ ih => ih) (fun _ ih => ih) ?level q).2
  case group =>
    intro qs ih
    rw [Effects.resolve_group, Effects.resolve_group]
    exact ih
  case level =>
    intro q ih hq
    rw [Effects.found_eq_reduce, Effects.found_eq_reduce]
    exact h.reduce fun s hs => ih s hs fun l hl => hq l (Query.mem_leaves_of_mem_siblings hs hl)

end Parallel

end WeightedSearch
