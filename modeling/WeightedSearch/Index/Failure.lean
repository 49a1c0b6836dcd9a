/-
Failures of an index.

An index refuses a blank term, and a lookup may fail for reasons of its own, which come with a
message.
-/
import WeightedSearch.Text.Quoted

namespace WeightedSearch

/-- Why an index cannot answer a term. -/
inductive LookupFailure
  | blank
  | failed (term message : String)
deriving DecidableEq, Repr

/-- The text of the failure. -/
def LookupFailure.message : LookupFailure → String
  | .blank => "cannot look up a blank term"
  | .failed term message => "index lookup failed for " ++ quoted term ++ ": " ++ message

end WeightedSearch
