/-
Documents that do not fit.

A valid TOML document may still hold something else than the settings that are looked for.  A misfit
says what was found and what was expected.  A number that cannot be read is no misfit, because a
document with such a number is not a valid one.  Main definitions:

* `Found.ofValue?` — what a value is found as;
* `refuse` — the misfit of a value of the wrong kind.
-/
import WeightedSearch.Decimal.Shortest
import WeightedSearch.Text.Quoted
import WeightedSearch.Toml.Value

namespace WeightedSearch

-- powers are the core library's, whatever other instances are in scope
attribute [local instance (2000)] instPowNat

/-- A value of the wrong kind. -/
inductive Found
  | integer (n : Int)
  /-- a floating-point number of 64 bits, by its text -/
  | float (text : String)
  | boolean (b : Bool)
  | string (text : String)
  /-- a table, or a date or time -/
  | map
  | sequence
deriving DecidableEq, Repr

/-- The text of what was found. -/
def Found.text : Found → String
  | integer n => "integer `" ++ toString n ++ "`"
  | float text => "floating point `" ++ text ++ "`"
  | boolean b => "boolean `" ++ (if b then "true" else "false") ++ "`"
  | string text => "string " ++ quoted text
  | map => "map"
  | sequence => "sequence"

/-- What a setting has to be. -/
inductive Expected
  | boolean
  | count
  | evaluation
  | search
deriving DecidableEq, Repr

/-- The text of what was expected. -/
def Expected.text : Expected → String
  | boolean => "a boolean"
  | count => "usize"
  | evaluation => "struct TranslatorSettings"
  | search => "struct SearchSettings"

/-- Why a document does not fit. -/
inductive Misfit
  | unknownCombiner (name : String)
  /-- the combiner is neither a text nor a table -/
  | combinerUnnamed
  /-- the table of the combiner is empty -/
  | combinerMissing
  /-- the table of the combiner has several keys -/
  | combinersSeveral
  /-- the name of the combiner has items in an array -/
  | combinerItems
  /-- the name of the combiner has entries in a table -/
  | combinerEntries
  /-- the name of the combiner has a value of this kind -/
  | combinerValue (kind : String)
  | unexpected (found : Found) (expected : Expected)
  | negative (n : Int)
deriving DecidableEq, Repr

/-- The text of the misfit. -/
def Misfit.message : Misfit → String
  | unknownCombiner name =>
    "unknown variant `" ++ name ++ "`, expected one of `sum`, `max`, `mean`"
  | combinerUnnamed => "wanted string or table"
  | combinerMissing => "wanted exactly 1 element, found 0 elements"
  | combinersSeveral => "wanted exactly 1 element, more than 1 element"
  | combinerItems => "expected empty array"
  | combinerEntries => "expected empty table"
  | combinerValue kind => "expected table, found " ++ kind
  | unexpected found expected => "invalid type: " ++ found.text ++ ", expected " ++ expected.text
  | negative n => "invalid value: integer `" ++ toString n ++ "`, expected usize"

/-- Why a document gives no settings. -/
inductive Obstacle
  /-- it has a number that cannot be read -/
  | number
  | misfit (cause : Misfit)
deriving DecidableEq, Repr

/-- The size of the 64-bit number nearest to `mantissa * 10 ^ exponent`; `none` if it is too large.
Decimals far beyond all such numbers are told by their number of digits. -/
def decimalSize? (mantissa : Nat) (exponent : Int) : Option Nat :=
  let places := (decimalDigits mantissa).length + exponent
  let one := 2 ^ Format.binary64.unit
  if mantissa = 0 ∨ places < -400 then some 0
  else if 400 < places then none
  else if 0 ≤ exponent then
    (Format.binary64.round? (mantissa * 10 ^ exponent.toNat * one) 1).map (·.val)
  else (Format.binary64.round? (mantissa * one) (10 ^ (-exponent).toNat)).map (·.val)

/-- The text of a size, with a fraction in any case. -/
def sizeText (n : Nat) : List Char :=
  let digits := if n = 0 then ['0'] else (Format.binary64.shortest n).plain
  digits ++ if digits.contains '.' then [] else ['.', '0']

/-- The text of the 64-bit number nearest to a literal; `none` if it is too large. -/
def floatText? : Toml.Real → Option String
  | .nan => some "NaN"
  | .infinite negative => some (if negative then "-inf" else "inf")
  | .decimal negative mantissa exponent =>
    (decimalSize? mantissa exponent).map fun n =>
      String.ofList ((if negative then ['-'] else []) ++ sizeText n)

/-- Whether a literal is not too large for a number of 64 bits. -/
def isFloat64 : Toml.Real → Bool
  | .nan => true
  | .infinite _ => true
  | .decimal _ mantissa exponent => (decimalSize? mantissa exponent).isSome

/-- What a value is found as. -/
def Found.ofValue? : Toml.Value → Option Found
  | .string text => some (.string text)
  | .integer n => some (.integer n)
  | .malformed => none
  | .float x => (floatText? x).map .float
  | .boolean b => some (.boolean b)
  | .datetime => some .map
  | .array _ _ => some .sequence
  | .table _ _ => some .map

/-- Refuses a value of the wrong kind. -/
def refuse {α : Type} (v : Toml.Value) (expected : Expected) : Except Obstacle α :=
  match Found.ofValue? v with
  | some found => .error (.misfit (.unexpected found expected))
  | none => .error .number

end WeightedSearch
