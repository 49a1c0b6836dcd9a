/-
Combiners.

A combiner makes one weight of the weights that one key has at one level of a query.  It is shown
the siblings at that level, which the built-in combiners do not look at.
-/
import WeightedSearch.Weight.Basic
import WeightedSearch.Query.Basic

namespace WeightedSearch

-- powers are the core library's, whatever other instances are in scope; a literal exponent has its
-- type written out for that
attribute [local instance (2000)] instPowNat

/-- Makes one weight of the weights of a key, given the siblings that found it. -/
abbrev Combiner := List Weight → List Query → Weight

namespace Weight

/-- The sum, from the left. -/
def sum (ws : List Weight) : Weight :=
  ws.foldl (· + ·) negZero

/-- The least finite weight. -/
def least : Weight :=
  finite true ⟨(2 ^ (24 : Nat) - 1) * 2 ^ (253 : Nat), Format.has_mul_two_pow (by decide) (by
    rw [Format.limit_binary32]
    exact Nat.mul_lt_mul_of_pos_right (by decide) (Nat.two_pow_pos 253))⟩

/-- The greatest weight, not less than the least finite one. -/
def greatest (ws : List Weight) : Weight :=
  ws.foldl maximum least

/-- The sum divided by the count. -/
def mean (ws : List Weight) : Weight :=
  sum ws / ofNat ws.length

end Weight

/-- The rules of the built-in combiners. -/
inductive WeightRule
  | sum
  | max
  | mean
deriving DecidableEq, Repr

namespace WeightRule

/-- The rule used if none is chosen. -/
instance : Inhabited WeightRule := ⟨sum⟩

/-- The combiner that follows a rule. -/
def combine : WeightRule → Combiner
  | sum, ws, _ => Weight.sum ws
  | max, ws, _ => Weight.greatest ws
  | mean, ws, _ => Weight.mean ws

end WeightRule

end WeightedSearch
