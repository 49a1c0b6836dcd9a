/-
TOML numbers, truth values, dates and times.

These stand without quotes.  A numeral may have an underscore between two digits; a whole number in
base ten has no leading zeros; dates and times are those of the calendar and the clock.  A word
whose front looks like a whole number is kept even if it writes none, since it does no harm where
nobody asks for its value.  Main definitions:

* `scalar?` — the value of a word without quotes;
* `isMalformed` — which words are kept without a value.
-/
import WeightedSearch.Toml.Value
import WeightedSearch.Toml.Quoted

namespace WeightedSearch.Toml

-- powers are the core library's, whatever other instances are in scope
attribute [local instance (2000)] instPowNat

/-- The number that digits write. An underscore may only stand between two digits; `behind` says
whether a digit stands before. -/
def digits? (base : Nat) (behind : Bool) (value : Nat) : List Char → Option Nat
  | [] => if behind then some value else none
  | c :: r =>
    if c = '_' then if behind then digits? base false value r else none
    else
      match digitValue? base c with
      | some d => digits? base true (base * value + d) r
      | none => none

/-- Whether there is a minus sign, and what follows the sign if there is one. -/
def splitSign : List Char → Bool × List Char
  | '-' :: r => (true, r)
  | '+' :: r => (false, r)
  | s => (false, s)

/-- A number in base ten without leading zeros. -/
def decimal? (s : List Char) : Option Nat :=
  if s.head? = some '0' ∧ s.length ≠ 1 then none else digits? 10 false 0 s

/-- The number with a sign. -/
def signed (negative : Bool) (n : Nat) : Int :=
  if negative then -(n : Int) else n

/-- The value of an integer. -/
def integer? : List Char → Option Int
  | '0' :: 'x' :: r => (digits? 16 false 0 r).map Int.ofNat
  | '0' :: 'o' :: r => (digits? 8 false 0 r).map Int.ofNat
  | '0' :: 'b' :: r => (digits? 2 false 0 r).map Int.ofNat
  | s =>
    let (negative, r) := splitSign s
    (decimal? r).map (signed negative)

/-- Whether each underscore stands between two digits of base 16; `behind` says whether such a digit
stands before. -/
def isSpaced (behind : Bool) : List Char → Bool
  | [] => true
  | c :: r =>
    if c = '_' then behind && r.head?.any (fun d => (digitValue? 16 d).isSome) && isSpaced false r
    else isSpaced (digitValue? 16 c).isSome r

/-- Whether a word that writes no number is taken for a whole number: it names a base and has no
digits, or it has digits and an underscore at its front, underscores only where they may be among
digits, and nothing of a fraction, an exponent or a space. -/
def isMalformed (s : List Char) : Bool :=
  let r := (splitSign s).2
  s == ['0', 'x'] || s == ['0', 'o'] || s == ['0', 'b'] ||
    ((r.dropWhile Char.isDigit).head? == some '_' && r.head? != some '0' &&
      !r.any (fun c => c == '.' || c == 'e' || c == 'E' || c == ' ') && isSpaced false r)

/-- The characters before the first that satisfies `p`, and those behind it if there is one. -/
def cutAt (p : Char → Bool) (s : List Char) : List Char × Option (List Char) :=
  match s.dropWhile (fun c => !p c) with
  | [] => (s, none)
  | _ :: r => (s.takeWhile (fun c => !p c), some r)

/-- The value of a floating-point number, which has a fraction or an exponent. -/
def float? (s : List Char) : Option Real :=
  let (negative, s) := splitSign s
  if s = "inf".toList then some (.infinite negative)
  else if s = "nan".toList then some .nan
  else do
    let (number, exponent) := cutAt (fun c => c == 'e' || c == 'E') s
    let (whole, fraction) := cutAt (· == '.') number
    if exponent.isNone && fraction.isNone then none
    let w ← decimal? whole
    let (f, places) ← match fraction with
      | none => some (0, 0)
      | some ds => (digits? 10 false 0 ds).map fun f => (f, (ds.filter (· != '_')).length)
    let e ← match exponent with
      | none => some 0
      | some es =>
        let (negative, es) := splitSign es
        (digits? 10 false 0 es).map (signed negative)
    pure (.decimal negative (w * 10 ^ places + f) (e - places))

/-- The number of `n` digits at the front, and what follows them. -/
def readDigits (n : Nat) (s : List Char) : Option (Nat × List Char) :=
  if (s.take n).length = n ∧ !(s.take n).contains '_' then
    (digits? 10 false 0 (s.take n)).map fun v => (v, s.drop n)
  else none

/-- What follows the character at the front. -/
def expect (c : Char) : List Char → Option (List Char)
  | d :: r => if d = c then some r else none
  | [] => none

/-- The number of days in a month. -/
def daysIn (year month : Nat) : Nat :=
  if month = 2 then
    if year % 4 = 0 ∧ (year % 100 ≠ 0 ∨ year % 400 = 0) then 29 else 28
  else if month = 4 ∨ month = 6 ∨ month = 9 ∨ month = 11 then 30
  else 31

/-- What follows the date at the front. -/
def skipDate (s : List Char) : Option (List Char) := do
  let (year, s) ← readDigits 4 s
  let (month, s) ← readDigits 2 (← expect '-' s)
  let (day, s) ← readDigits 2 (← expect '-' s)
  if 1 ≤ month ∧ month ≤ 12 ∧ 1 ≤ day ∧ day ≤ daysIn year month then some s else none

/-- What follows the fraction of a second at the front, if there is one. -/
def skipFraction : List Char → Option (List Char)
  | '.' :: r =>
    let rest := r.dropWhile Char.isDigit
    if rest.length < r.length then some rest else none
  | s => some s

/-- What follows the time at the front. The seconds may be left out. -/
def skipTime (s : List Char) : Option (List Char) := do
  let (hour, s) ← readDigits 2 s
  let (minute, s) ← readDigits 2 (← expect ':' s)
  if 23 < hour ∨ 59 < minute then none
  match s with
  | ':' :: r => do
    let (second, s) ← readDigits 2 r
    if 60 < second then none
    skipFraction s
  | s => some s

/-- What follows the distance from universal time at the front, if there is one. -/
def skipOffset : List Char → Option (List Char)
  | c :: r =>
    if c = 'Z' ∨ c = 'z' then some r
    else if c = '+' ∨ c = '-' then do
      let (hours, s) ← readDigits 2 r
      let (minutes, s) ← readDigits 2 (← expect ':' s)
      if 23 < hours ∨ 59 < minutes then none else some s
    else some (c :: r)
  | [] => some []

/-- What follows the time and the distance from universal time behind a date, if there are any. -/
def skipClock : List Char → Option (List Char)
  | [] => some []
  | c :: r =>
    if c = 'T' ∨ c = 't' ∨ c = ' ' then do skipOffset (← skipTime r) else some (c :: r)

/-- Whether the characters are a date, a time, or both. -/
def isDatetime (s : List Char) : Bool :=
  ((skipDate s).bind skipClock == some []) || skipTime s == some []

/-- The value of a word without quotes. -/
def scalar? (s : List Char) : Option Value :=
  if s = "true".toList then some (.boolean true)
  else if s = "false".toList then some (.boolean false)
  else if let some n := integer? s then some (.integer n)
  else if isMalformed s then some .malformed
  else if let some x := float? s then some (.float x)
  else if isDatetime s then some .datetime
  else none

end WeightedSearch.Toml
