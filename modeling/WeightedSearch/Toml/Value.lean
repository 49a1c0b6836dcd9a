/-
TOML values.

A table remembers how it came about, because that decides what may be added to it later: the table
of a header line is complete, one that was only passed on the way to another may still get a header
or keys of its own.  Entries are kept in the order of their keys.  Main statements:

* `lookup_put` — giving a key a value changes the value of that key and of no other.
-/

namespace WeightedSearch.Toml

/-- The number that a floating-point literal denotes. -/
inductive Real
  | nan
  | infinite (negative : Bool)
  /-- the number `mantissa * 10 ^ exponent` with a sign -/
  | decimal (negative : Bool) (mantissa : Nat) (exponent : Int)
deriving DecidableEq, Repr

/-- How a table came about. -/
inductive Origin
  | header
  /-- a header line names a table in it -/
  | passed
  /-- a dotted key names an entry in it -/
  | dotted
  /-- it stands between braces -/
  | braces
deriving DecidableEq, Repr

/-- A TOML value. -/
inductive Value
  | string (text : String)
  | integer (n : Int)
  /-- a word that is taken for a whole number by its front but writes none -/
  | malformed
  | float (x : Real)
  | boolean (b : Bool)
  /-- a date, a time, or both -/
  | datetime
  /-- values in order, written between brackets or, for `headers`, as tables one after the other -/
  | array (headers : Bool) (items : List Value)
  /-- values by key -/
  | table (origin : Origin) (entries : List (String × Value))
deriving Repr, Inhabited

/-- The entries of a table, by rising key. -/
abbrev Entries := List (String × Value)

/-- Gives the key a value, in place of the one it may have. The keys stay in order. -/
def put {α : Type} (key : String) (value : α) : List (String × α) → List (String × α)
  | [] => [(key, value)]
  | (k, v) :: es =>
    if k = key then (key, value) :: es
    else if key < k then (key, value) :: (k, v) :: es
    else (k, v) :: put key value es

theorem lookup_put {α : Type} (key : String) (value : α) (es : List (String × α)) (k : String) :
    (put key value es).lookup k = if k = key then some value else es.lookup k := by
  induction es with
  | nil => grind [put]
  | cons e es ih => grind [put]

end WeightedSearch.Toml
