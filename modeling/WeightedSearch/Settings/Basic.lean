/-
Settings.

The settings say how weights are combined, whether answers are kept, and how many entries a search
gives.  Their fields are in two sections.
-/
import WeightedSearch.Weight.Combiner
import WeightedSearch.Search
import WeightedSearch.Toml.Sections

namespace WeightedSearch

/-- What can be set. -/
structure Settings where
  combiner : WeightRule := .sum
  /-- whether the answers of the indexes are kept -/
  cache : Bool := true
  /-- the greatest number of entries, 0 for any number -/
  limit : UInt64 := 0
deriving DecidableEq, Repr

instance : Inhabited Settings := ⟨{}⟩

/-- The name of a combiner. -/
def WeightRule.name : WeightRule → String
  | sum => "sum"
  | max => "max"
  | mean => "mean"

/-- The combiner with a name. -/
def WeightRule.ofName? (name : String) : Option WeightRule :=
  if name = "sum" then some sum
  else if name = "max" then some max
  else if name = "mean" then some mean
  else none

theorem WeightRule.ofName?_name (k : WeightRule) : ofName? k.name = some k := by
  cases k <;> decide

namespace Settings

/-- The settings by section and field. -/
def sections (s : Settings) : Toml.Sections :=
  [("translator", [("combiner", .string s.combiner.name), ("cache", .boolean s.cache)]),
    ("search", [("limit", .integer s.limit.toNat)])]

/-- A searcher as the settings ask for. -/
def searcher {κ : Type} (s : Settings) : Searcher κ :=
  (Searcher.new s.combiner.combine).setCaching s.cache |>.setLimit s.limit.toNat

end Settings

end WeightedSearch
