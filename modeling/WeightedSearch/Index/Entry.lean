/-
Entries.

An index answers a term with entries, and so does a search: each has a key, a weight, and the places
where the key was found.
-/
import WeightedSearch.Weight.Basic

namespace WeightedSearch

/-- A place where a token occurs in what was indexed. -/
structure Location where
  source : Nat
  token : Nat
  /-- the number of bytes before the token -/
  offset : Nat
  /-- the number of bytes of the token -/
  length : Nat
deriving DecidableEq, Repr

/-- A key that was found, with its weight and where it was found. -/
structure Entry (κ : Type) where
  key : κ
  weight : Weight
  locations : List Location
deriving DecidableEq

/-- The entry with another weight. -/
def Entry.withWeight {κ : Type} (e : Entry κ) (weight : Weight) : Entry κ :=
  { e with weight }

end WeightedSearch
