/-
Settings from TOML documents.

The settings are looked for in two sections, each a table or an array of its fields in order.  What
is missing has its default, and unknown keys are passed over, though their numbers are read.  Keys
are visited in order, and the first misfit is reported.  Items behind the fields of an array are not
even passed over.  Main statements:

* `passOver_eq_ok_iff` — what may be passed over.
-/
import WeightedSearch.Settings.Basic
import WeightedSearch.Settings.Misfit
import WeightedSearch.Toml.Document

namespace WeightedSearch

-- powers are the core library's, whatever other instances are in scope; a literal exponent has its
-- type written out for that
attribute [local instance (2000)] instPowNat

open Toml

mutual

/-- Whether each number in the value can be read: the whole ones are `fits`, and the others are not
too large. -/
def numbersFit (fits : Int → Bool) : Value → Bool
  | .string _ => true
  | .integer n => fits n
  | .malformed => false
  | .float x => isFloat64 x
  | .boolean _ => true
  | .datetime => true
  | .array _ items => itemsFit fits items
  | .table _ es => entriesFit fits es

/-- Whether each number in the items can be read. -/
def itemsFit (fits : Int → Bool) : List Value → Bool
  | [] => true
  | v :: vs => numbersFit fits v && itemsFit fits vs

/-- Whether each number in the entries can be read. -/
def entriesFit (fits : Int → Bool) : List (String × Value) → Bool
  | [] => true
  | (_, v) :: es => numbersFit fits v && entriesFit fits es

end

/-- Whether a whole number has at most 64 bits, one of them for the sign. -/
def isInt64 (n : Int) : Bool :=
  -(2 ^ (63 : Nat)) ≤ n && n < 2 ^ (63 : Nat)

/-- Whether a whole number has at most 128 bits, if it is negative one of them for the sign. -/
def isWide (n : Int) : Bool :=
  -(2 ^ (127 : Nat)) ≤ n && n < 2 ^ (128 : Nat)

/-- Reads a value that is not needed. -/
def passOver (v : Value) : Except Obstacle Unit :=
  if numbersFit isWide v then .ok () else .error .number

theorem passOver_eq_ok_iff {v : Value} : passOver v = .ok () ↔ numbersFit isWide v = true := by
  by_cases h : numbersFit isWide v = true <;> simp [passOver, h]

/-- The kind of a value in a message. -/
def Toml.Value.kind : Value → String
  | .string _ => "string"
  | .integer _ => "integer"
  | .malformed => "integer"
  | .float _ => "float"
  | .boolean _ => "boolean"
  | .datetime => "datetime"
  | .array _ _ => "array"
  | .table _ _ => "table"

/-- The combiner with a name. -/
def combinerNamed (name : String) : Except Obstacle WeightRule :=
  (WeightRule.ofName? name).elim (.error (.misfit (.unknownCombiner name))) .ok

/-- The combiner that a value names, by itself or as the only key of a table. -/
def decodeCombiner : Value → Except Obstacle WeightRule
  | .string name => combinerNamed name
  | .table _ [] => .error (.misfit .combinerMissing)
  | .table _ [(name, v)] => do
    let kind ← combinerNamed name
    match v with
    | .array _ [] => .ok kind
    | .array _ _ => .error (.misfit .combinerItems)
    | .table _ [] => .ok kind
    | .table _ _ => .error (.misfit .combinerEntries)
    | v => .error (.misfit (.combinerValue v.kind))
  | .table _ _ => .error (.misfit .combinersSeveral)
  | _ => .error (.misfit .combinerUnnamed)

/-- The truth value that is asked for. -/
def decodeFlag : Value → Except Obstacle Bool
  | .boolean b => .ok b
  | v => refuse v .boolean

/-- The number that is asked for. -/
def decodeCount : Value → Except Obstacle UInt64
  | .integer n =>
    if 0 ≤ n ∧ n < 2 ^ (64 : Nat) then .ok (UInt64.ofNat n.toNat)
    else if n < 0 then .error (.misfit (.negative n))
    else refuse (.integer n) .count
  | v => refuse v .count

namespace Settings

/-- The settings with the field of the evaluation section that has the key. -/
def setEvaluation (s : Settings) (key : String) (v : Value) : Except Obstacle Settings :=
  if key = "combiner" then do pure { s with combiner := ← decodeCombiner v }
  else if key = "cache" then do pure { s with cache := ← decodeFlag v }
  else do
    passOver v
    pure s

/-- The settings with the field of the search section that has the key. -/
def setSearch (s : Settings) (key : String) (v : Value) : Except Obstacle Settings :=
  if key = "limit" then do pure { s with limit := ← decodeCount v }
  else do
    passOver v
    pure s

/-- The settings with the fields of a section. An array gives the fields in their order, and a date
or time gives none. -/
def setSection (set : Settings → String → Value → Except Obstacle Settings) (fields : List String)
    (expected : Expected) (s : Settings) : Value → Except Obstacle Settings
  | .table _ es => es.foldlM (fun s e => set s e.1 e.2) s
  | .array _ items => (fields.zip items).foldlM (fun s e => set s e.1 e.2) s
  | .datetime => .ok s
  | v => refuse v expected

/-- The settings with what an entry of the document sets. -/
def setEntry (s : Settings) (key : String) (v : Value) : Except Obstacle Settings :=
  if key = "translator" then setSection setEvaluation ["combiner", "cache"] .evaluation s v
  else if key = "search" then setSection setSearch ["limit"] .search s v
  else do
    passOver v
    pure s

/-- The settings that a document holds. -/
def ofEntries (es : Entries) : Except Obstacle Settings :=
  es.foldlM (fun s e => setEntry s e.1 e.2) {}

end Settings

end WeightedSearch
