/-
Weights.

A weight is a binary floating-point number of 32 bits, given by what it is and not by its bits: not
a number, an infinity, or a sign and a size.  Sums and quotients are exact and then rounded to the
nearest number, a half to the even one.  Main statements:

* `Weight.negZero_add` — adding to the negative zero changes nothing but the NaN, so a sum starts
  there;
* `Weight.finite_div_ofNat_one` — dividing by one changes nothing, so neither does the mean of one
  weight;
* `Weight.isValid_iff` — a valid weight is a positive size.
-/
import WeightedSearch.Binary.Format

namespace WeightedSearch

-- powers are the core library's, whatever other instances are in scope; a literal exponent has its
-- type written out for that
attribute [local instance (2000)] instPowNat

open Format

/-- A binary floating-point number of 32 bits. -/
inductive Weight
  | nan
  | infinite (negative : Bool)
  /-- a number with the given size, zeros of both signs included -/
  | finite (negative : Bool) (size : Magnitude binary32)
deriving DecidableEq

namespace Weight

/-- The size of zero. -/
def zeroSize : Magnitude binary32 := ⟨0, binary32.has_zero⟩

instance : Inhabited Weight := ⟨finite false zeroSize⟩

/-- The positive zero. -/
def zero : Weight := finite false zeroSize

/-- The negative zero. -/
def negZero : Weight := finite true zeroSize

/-- The quotient of two natural numbers in units of the least positive number, rounded. -/
def ofQuotient (negative : Bool) (num den : Nat) : Weight :=
  match binary32.round? num den with
  | some n => finite negative n
  | none => infinite negative

/-- A natural number, rounded. -/
def ofNat (n : Nat) : Weight :=
  ofQuotient false (n * 2 ^ binary32.unit) 1

/-- The sum, rounded. Opposite numbers add up to the positive zero. -/
def add : Weight → Weight → Weight
  | nan, _ => nan
  | _, nan => nan
  | infinite s, infinite t => if s = t then infinite s else nan
  | infinite s, finite _ _ => infinite s
  | finite _ _, infinite t => infinite t
  | finite s m, finite t n =>
    if s = t then ofQuotient s (m.val + n.val) 1
    else if m.val = n.val then zero
    else if n.val < m.val then ofQuotient s (m.val - n.val) 1
    else ofQuotient t (n.val - m.val) 1

instance : Add Weight := ⟨add⟩

/-- The quotient, rounded. -/
def div : Weight → Weight → Weight
  | nan, _ => nan
  | _, nan => nan
  | infinite _, infinite _ => nan
  | infinite s, finite t _ => infinite (s != t)
  | finite s _, infinite t => finite (s != t) zeroSize
  | finite s m, finite t n =>
    if n.val = 0 then if m.val = 0 then nan else infinite (s != t)
    else ofQuotient (s != t) (m.val * 2 ^ binary32.unit) n.val

instance : Div Weight := ⟨div⟩

/-- The place of a weight on the number line, in units of the least positive number. The infinities
are beyond all sizes; what is not a number has no place and is put at zero. -/
def place : Weight → Int
  | nan => 0
  | infinite s => if s then -(binary32.limit : Int) else binary32.limit
  | finite s n => if s then -(n.val : Int) else n.val

/-- Whether the weight is a number. -/
def isNumber : Weight → Bool
  | nan => false
  | _ => true

/-- Whether one weight is less than the other; what is not a number is neither. -/
def less (a b : Weight) : Bool :=
  a.isNumber && b.isNumber && a.place < b.place

/-- The greater of two weights, the second if they are equal, as zeros of both signs are. What is
not a number is passed over. -/
def maximum (a b : Weight) : Weight :=
  if !b.isNumber || b.less a then a else b

/-- Whether the weight is finite and greater than zero. -/
def isValid : Weight → Bool
  | finite false n => n.val != 0
  | _ => false

theorem isValid_iff {w : Weight} : w.isValid = true ↔ ∃ n, w = finite false n ∧ 0 < n.val := by
  cases w with
  | nan => simp [isValid]
  | infinite s => simp [isValid]
  | finite s n => cases s <;> simp [isValid, Nat.pos_iff_ne_zero]

theorem ofQuotient_self (s : Bool) (n : Magnitude binary32) :
    ofQuotient s n.val 1 = finite s n := by
  simp [ofQuotient, round?_eq_self]

theorem negZero_add (w : Weight) : negZero + w = w := by
  change add negZero w = w
  cases w with
  | nan => rfl
  | infinite s => rfl
  | finite s n =>
    by_cases hs : s = true
    · subst hs
      simp [negZero, add, zeroSize, ofQuotient_self]
    · have hs : s = false := by simpa using hs
      subst hs
      by_cases hn : n.val = 0
      · have : n = zeroSize := by
          cases n
          simpa [zeroSize] using hn
        simp [negZero, add, this, zeroSize, zero]
      · simp [negZero, add, zeroSize, Ne.symm hn, ofQuotient_self]

/-- The size of one. -/
def oneSize : Magnitude binary32 :=
  ⟨2 ^ binary32.unit, by
    have hlimit : 1 * 2 ^ binary32.unit < binary32.limit := by
      rw [Nat.one_mul, limit]
      exact Nat.pow_lt_pow_right (by decide) (by decide)
    simpa using has_mul_two_pow (Nat.two_pow_pos binary32.precision) hlimit⟩

theorem ofNat_one : ofNat 1 = finite false oneSize := by
  rw [ofNat, Nat.one_mul]
  exact ofQuotient_self false oneSize

/-- A number divided by one is the number. -/
theorem finite_div_ofNat_one (s : Bool) (n : Magnitude binary32) :
    finite s n / ofNat 1 = finite s n := by
  have hpos : 0 < oneSize.val := Nat.two_pow_pos _
  have hround : binary32.round? (n.val * 2 ^ binary32.unit) oneSize.val = some n := round?_mul n hpos
  rw [ofNat_one]
  change div (finite s n) (finite false oneSize) = finite s n
  rw [div, if_neg (Nat.ne_of_gt hpos), ofQuotient, hround, Bool.bne_false]

/-- The size with the given bits after the sign, read as an exponent and a fraction. -/
def sizeOfBits (n : Nat) (h : n < 255 * 2 ^ (23 : Nat)) : Magnitude binary32 :=
  if hs : n < 2 ^ (23 : Nat) then
    ⟨n, by
      have hl : n * 2 ^ (0 : Nat) < binary32.limit := by rw [limit_binary32]; omega
      simpa using has_mul_two_pow (f := binary32) (by simp only [binary32]; omega) hl⟩
  else
    ⟨(2 ^ (23 : Nat) + n % 2 ^ (23 : Nat)) * 2 ^ (n / 2 ^ (23 : Nat) - 1),
      has_mul_two_pow (by simp only [binary32]; omega) (by
        rw [limit_binary32]
        exact Nat.mul_lt_mul_of_lt_of_le (by omega)
          (Nat.pow_le_pow_right (by decide) (by omega)) (Nat.two_pow_pos 253))⟩

/-- The weight with the given bits: a sign, eight bits of exponent, and the fraction. -/
def ofBits (b : UInt32) : Weight :=
  let negative := 2 ^ (31 : Nat) ≤ b.toNat
  let n := b.toNat % 2 ^ (31 : Nat)
  if h : n < 255 * 2 ^ (23 : Nat) then finite negative (sizeOfBits n h)
  else if n = 255 * 2 ^ (23 : Nat) then infinite negative
  else nan

/-- The bits of a size. -/
def sizeBits (n : Nat) : Nat :=
  if n < 2 ^ (23 : Nat) then n
  else
    let e := n.log2 - 23
    (e + 1) * 2 ^ (23 : Nat) + (n / 2 ^ e - 2 ^ (23 : Nat))

/-- The bits of a weight; of all the bits that are no number those of one are chosen. -/
def toBits : Weight → Nat
  | nan => 0x7FC00000
  | infinite s => (if s then 2 ^ (31 : Nat) else 0) + 255 * 2 ^ (23 : Nat)
  | finite s n => (if s then 2 ^ (31 : Nat) else 0) + sizeBits n.val

end Weight

end WeightedSearch
