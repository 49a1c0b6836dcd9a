/-
Weights as text.

A weight in a message is the shortest decimal that reads back as the same weight, without an
exponent.
-/
import WeightedSearch.Weight.Basic
import WeightedSearch.Decimal.Shortest

namespace WeightedSearch

namespace Weight

/-- A minus sign if the number is negative. -/
def signText (negative : Bool) : List Char :=
  if negative then ['-'] else []

/-- The characters of a weight. -/
def chars : Weight → List Char
  | nan => "NaN".toList
  | infinite s => signText s ++ "inf".toList
  | finite s n =>
    signText s ++ if n.val = 0 then ['0'] else (Format.binary32.shortest n.val).plain

/-- The text of a weight. -/
def text (w : Weight) : String :=
  String.ofList w.chars

end Weight

end WeightedSearch
