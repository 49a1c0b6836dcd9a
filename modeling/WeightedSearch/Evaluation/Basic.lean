/-
Evaluating queries.

The siblings at a level are resolved in order; what they find is filtered and merged, and a combiner
gives each key its weight.  A level needs two things from outside, the entries of a term and the
weight of a key, and the evaluation is written for any monad in which they can be had: how a lookup
is made, whether it fails and what is kept of it is no concern of the tree.
-/
import WeightedSearch.Evaluation.Level
import WeightedSearch.Query.Basic

namespace WeightedSearch

variable {κ : Type} {μ : Type → Type}

/-- What an evaluation needs from outside. -/
structure Effects (μ : Type → Type) (κ : Type) where
  policy : KeyPolicy κ
  /-- the entries of a term in one of the indexes -/
  lookup : Matching → String → μ (List (Entry κ))
  /-- the weight made of the weights of one key, for the siblings at its level -/
  combine : List Query → List Weight → μ Weight

namespace Query

/-- The siblings of the level that a query stands for: the members of a group, else the query
alone. -/
def siblings : Query → List Query
  | .group qs => qs
  | q => [q]

end Query

namespace Effects

variable [Monad μ] (effects : Effects μ κ)

/-- Gives each merged entry the weight made of its weights. -/
def weigh (siblings : List Query) : List (Entry κ × List Weight) → μ (List (Entry κ))
  | [] => pure []
  | (e, ws) :: es => do
    let weight ← effects.combine siblings ws
    let es ← weigh siblings es
    pure (e.withWeight weight :: es)

/-- The entries of a level: what is left of what the siblings found, merged and weighed. -/
def settle (siblings : List Query) (g : Gathered κ) : μ (List (Entry κ)) :=
  effects.weigh siblings (Merging.ofEntries effects.policy (g.kept effects.policy)).weighted

mutual

/-- What is found at the level that a query stands for. -/
def level : Query → μ (Gathered κ)
  | .nothing => pure .nothing
  | .value m text => do
    let es ← effects.lookup m text
    pure (.ofFound es)
  | .group qs => gather qs
  | .required q => do
    let g ← level q
    let es ← effects.settle q.siblings g
    pure (.ofRequired es)
  | .excluded q => do
    let g ← level q
    let es ← effects.settle q.siblings g
    pure (.ofExcluded es)

/-- What siblings find, in order. A group among them is a level of its own. -/
def gather : List Query → μ (Gathered κ)
  | [] => pure .nothing
  | q :: qs => do
    let g ← level q
    let g ← match q with
      | .group ps => do
        let es ← effects.settle ps g
        pure (.ofFound es)
      | _ => pure g
    let h ← gather qs
    pure (g ++ h)

end

/-- The entries that siblings find together. -/
def reduce (qs : List Query) : μ (List (Entry κ)) := do
  let g ← effects.gather qs
  effects.settle qs g

/-- The entries that a query finds. -/
def found (q : Query) : μ (List (Entry κ)) := do
  let g ← effects.level q
  effects.settle q.siblings g

end Effects

end WeightedSearch
