/-
Shortest decimals.

Of the decimals in an interval around a value, the shortest are those with the fewest digits, and of
these the one nearest to the value is taken.  Both neighbours of the value among the decimals with
`k` digits are looked at, for `k = 1, 2, …`, so the value is written with as few digits as tell it
from what lies outside the interval.  Main definitions:

* `shortestFrom` — the first decimal in the interval, by rising number of digits.
-/
import WeightedSearch.Binary.Format

namespace WeightedSearch

-- powers are the core library's, whatever other instances are in scope
attribute [local instance (2000)] instPowNat

/-- The number `0.d₁d₂… * 10 ^ point`. -/
structure Decimal where
  /-- the digits after the point, from the left -/
  digits : List Nat
  /-- the places by which the point moves to the right -/
  point : Int
deriving DecidableEq, Repr

/-- A value and the interval around it, each a multiple of `1 / unit`. -/
structure Neighbourhood where
  low : Nat
  mid : Nat
  high : Nat
  /-- the number of parts that make 1 -/
  unit : Nat
  /-- whether the ends belong to the interval -/
  closed : Bool
deriving DecidableEq, Repr

/-- Whether the decimal `c / scale` lies in the interval. -/
def Neighbourhood.contains (v : Neighbourhood) (c scale : Nat) : Bool :=
  if v.closed then v.low * scale ≤ c * v.unit && c * v.unit ≤ v.high * scale
  else v.low * scale < c * v.unit && c * v.unit < v.high * scale

/-- The neighbour of the value with scale `scale` that lies in the interval, the nearer if both do;
a half goes up. -/
def Neighbourhood.candidate? (v : Neighbourhood) (scale : Nat) : Option Nat :=
  let c := v.mid * scale / v.unit
  let down := v.contains c scale
  let up := v.contains (c + 1) scale
  if up && (!down || v.unit ≤ 2 * (v.mid * scale % v.unit)) then some (c + 1)
  else if down then some c
  else none

/-- The first candidate with scale `scale`, `10 * scale`, …, with the scale it has. -/
def shortestFrom (v : Neighbourhood) : Nat → Nat → Option (Nat × Nat)
  | 0, _ => none
  | fuel + 1, scale =>
    match v.candidate? scale with
    | some c => some (c, scale)
    | none => shortestFrom v fuel (10 * scale)

/-- The decimal digits of a number, from the left. -/
def decimalDigits (n : Nat) : List Nat :=
  if n < 10 then [n] else decimalDigits (n / 10) ++ [n % 10]

/-- How often a positive value below 1 can be multiplied by 10 and stay below 1. -/
def leadingZeros (den : Nat) : Nat → Nat → Nat
  | 0, _ => 0
  | fuel + 1, num => if num * 10 < den then leadingZeros den fuel (num * 10) + 1 else 0

/-- The place of the point for the value `num / den`: a decimal `0.d₁d₂…` with `d₁ ≠ 0` moved by
so many places. -/
def pointOf (num den : Nat) : Int :=
  if den ≤ num then (decimalDigits (num / den)).length
  else -(leadingZeros den den.log2 num : Int)

/-- The digits without the zeros at the end. -/
def dropZeros (ds : List Nat) : List Nat :=
  (ds.reverse.dropWhile (· == 0)).reverse

namespace Format

/-- The reals that round to `n`, scaled by `num / den`. The lower neighbour of a power of two is
half as far away as the upper one. -/
def neighbourhood (f : Format) (n num den : Nat) : Neighbourhood where
  low := (4 * n - if n = 2 ^ n.log2 ∧ 1 < f.step n then f.step n else 2 * f.step n) * num
  mid := 4 * n * num
  high := (4 * n + 2 * f.step n) * num
  unit := 4 * den
  closed := n / f.step n % 2 == 0

/-- The shortest decimal that reads back as the positive size `n`. -/
def shortest (f : Format) (n : Nat) : Decimal :=
  let one := 2 ^ f.unit
  let point := pointOf n one
  let v := if 0 ≤ point then f.neighbourhood n 1 (one * 10 ^ point.toNat)
    else f.neighbourhood n (10 ^ (-point).toNat) one
  match shortestFrom v (f.precision + 1) 10 with
  | some (c, scale) =>
    let ds := decimalDigits c
    ⟨dropZeros ds, if scale ≤ c then point + 1 else point⟩
  | none => ⟨[], point⟩

end Format

/-- A digit as a character. -/
def digitChar (d : Nat) : Char :=
  Nat.digitChar d

/-- The decimal without an exponent, and without a point if it is a whole number. -/
def Decimal.plain (d : Decimal) : List Char :=
  let ds := d.digits.map digitChar
  if d.point ≤ 0 then '0' :: '.' :: (List.replicate (-d.point).toNat '0' ++ ds)
  else
    let n := d.point.toNat
    if ds.length ≤ n then ds ++ List.replicate (n - ds.length) '0'
    else ds.take n ++ '.' :: ds.drop n

end WeightedSearch
