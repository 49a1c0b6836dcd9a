/-
Binary floating-point formats.

A format keeps a fixed number of significant bits and has a least positive number.  The size of a
number is counted in that unit, so it is a natural number, and `step n` is the distance between
neighbours near `n`: the sizes a format has are the multiples of their own step, up to a bound.
Main statements:

* `Format.has_mul_two_pow` — a few bits followed by zeros are a size;
* `Format.le_rounded`, `Format.rounded_le` — rounding does not cross a size;
* `Format.round?_mul`, `Format.round?_eq_self` — a size, or a quotient that is one, is rounded to
  itself.
-/

namespace WeightedSearch

-- powers are the core library's, whatever other instances are in scope; a literal exponent has its
-- type written out for that
attribute [local instance (2000)] instPowNat

/-- A binary floating-point format. -/
structure Format where
  /-- the number of significant bits -/
  precision : Nat
  /-- the least positive number is `2 ^ -unit` -/
  unit : Nat
  /-- all finite numbers are below `2 ^ bound` -/
  bound : Nat
  precision_pos : 0 < precision

namespace Format

/-- The format with 24 significant bits, 32 bits in all. -/
def binary32 : Format := ⟨24, 149, 128, by decide⟩

/-- The format with 53 significant bits, 64 bits in all. -/
def binary64 : Format := ⟨53, 1074, 1024, by decide⟩

/-- The first size that is too large. -/
def limit (f : Format) : Nat := 2 ^ (f.unit + f.bound)

theorem limit_eq_mul {f : Format} {k m : Nat} (h : f.unit + f.bound = k + m) :
    f.limit = 2 ^ k * 2 ^ m := by
  rw [limit, h, Nat.pow_add]

theorem limit_binary32 : binary32.limit = 2 ^ (24 : Nat) * 2 ^ (253 : Nat) :=
  limit_eq_mul (by decide)

/-- The exponent of the distance between neighbours near `n`. -/
def shift (f : Format) (n : Nat) : Nat := n.log2 + 1 - f.precision

/-- The distance between neighbours near `n`. -/
def step (f : Format) (n : Nat) : Nat := 2 ^ f.shift n

/-- Whether `n` is a size of the format. -/
def Has (f : Format) (n : Nat) : Prop := f.step n ∣ n ∧ n < f.limit

instance (f : Format) (n : Nat) : Decidable (f.Has n) := by
  unfold Has
  infer_instance

theorem step_pos (f : Format) (n : Nat) : 0 < f.step n := Nat.two_pow_pos _

theorem has_zero (f : Format) : f.Has 0 :=
  ⟨Nat.dvd_zero _, Nat.two_pow_pos _⟩

theorem binary32_has_one : binary32.Has 1 := by
  decide +kernel

theorem binary32_has_two : binary32.Has 2 := by
  decide +kernel

theorem step_dvd_mul_two_pow {f : Format} {m k : Nat} (h : m ≤ 2 ^ f.precision) :
    f.step (m * 2 ^ k) ∣ m * 2 ^ k := by
  have hp := f.precision_pos
  rcases Nat.eq_zero_or_pos m with rfl | hm
  · simp
  have hne : m * 2 ^ k ≠ 0 := by
    have := Nat.two_pow_pos k
    exact Nat.mul_ne_zero (by omega) (by omega)
  -- a number that takes one bit more than the precision is a power of two
  rcases Nat.lt_or_eq_of_le h with hlt | rfl
  · have : (m * 2 ^ k).log2 < f.precision + k := by
      rw [Nat.log2_lt hne, Nat.pow_add]
      exact Nat.mul_lt_mul_of_pos_right hlt (Nat.two_pow_pos k)
    exact Nat.dvd_trans (Nat.pow_dvd_pow 2 (by unfold shift; omega)) (Nat.dvd_mul_left _ _)
  · rw [← Nat.pow_add]
    refine Nat.pow_dvd_pow 2 ?_
    unfold shift
    rw [Nat.log2_two_pow]
    omega

/-- At most `precision` bits followed by zeros are a size, if they are below the bound. -/
theorem has_mul_two_pow {f : Format} {m k : Nat} (h : m ≤ 2 ^ f.precision)
    (hl : m * 2 ^ k < f.limit) : f.Has (m * 2 ^ k) :=
  ⟨step_dvd_mul_two_pow h, hl⟩

/-- The multiple of `d` nearest to `n`, counted in `d`; a half goes to the even neighbour. -/
def nearest (n d : Nat) : Nat :=
  let q := n / d
  if d < 2 * (n % d) ∨ (d = 2 * (n % d) ∧ q % 2 = 1) then q + 1 else q

theorem nearest_mul {d : Nat} (hd : 0 < d) (q : Nat) : nearest (q * d) d = q := by
  have h : d ≠ 0 := by omega
  simp [nearest, Nat.mul_div_cancel _ hd, h]

theorem le_nearest {n d q : Nat} (hd : 0 < d) (h : q * d ≤ n) : q ≤ nearest n d := by
  have : q ≤ n / d := (Nat.le_div_iff_mul_le hd).2 h
  unfold nearest
  dsimp only
  split <;> omega

theorem nearest_le {n d q : Nat} (hd : 0 < d) (h : n ≤ q * d) : nearest n d ≤ q := by
  rcases Nat.lt_or_eq_of_le h with hlt | rfl
  · have : n / d < q := (Nat.div_lt_iff_lt_mul hd).2 hlt
    unfold nearest
    dsimp only
    split <;> omega
  · exact Nat.le_of_eq (nearest_mul hd q)

/-- The quotient `num / den` rounded to the nearest size if there were no bound. -/
def rounded (f : Format) (num den : Nat) : Nat :=
  let s := f.step (num / den)
  nearest num (den * s) * s

theorem step_dvd_rounded (f : Format) (num : Nat) {den : Nat} (hd : 0 < den) :
    f.step (f.rounded num den) ∣ f.rounded num den := by
  refine step_dvd_mul_two_pow (f := f) (k := f.shift (num / den)) ?_
  -- the quotient has few enough bits above the step, and rounding up adds none but the next power
  have hq : num / den < 2 ^ f.precision * 2 ^ f.shift (num / den) := by
    rw [← Nat.pow_add]
    refine Nat.lt_of_lt_of_le Nat.lt_log2_self (Nat.pow_le_pow_right (by decide) ?_)
    unfold shift
    omega
  have hn : num < 2 ^ f.precision * (den * f.step (num / den)) := by
    rw [Nat.mul_left_comm, Nat.mul_comm]
    exact (Nat.div_lt_iff_lt_mul hd).1 hq
  exact nearest_le (Nat.mul_pos hd (f.step_pos _)) (Nat.le_of_lt hn)

theorem le_rounded_of_dvd {f : Format} {n num den : Nat} (hd : 0 < den)
    (hn : f.step (num / den) ∣ n) (h : n * den ≤ num) : n ≤ f.rounded num den := by
  obtain ⟨k, rfl⟩ := hn
  have hk : k * (den * f.step (num / den)) ≤ num := by
    rw [Nat.mul_comm den, ← Nat.mul_assoc, Nat.mul_comm k]
    exact h
  rw [rounded, Nat.mul_comm _ k]
  exact Nat.mul_le_mul_right _ (le_nearest (Nat.mul_pos hd (f.step_pos _)) hk)

/-- A quotient that is not below a size is not rounded to one below it. -/
theorem le_rounded {f : Format} {n num den : Nat} (hd : 0 < den) (hn : f.step n ∣ n)
    (h : n * den ≤ num) : n ≤ f.rounded num den := by
  have hp := f.precision_pos
  by_cases hshift : f.shift (num / den) ≤ f.shift n
  · exact le_rounded_of_dvd hd (Nat.dvd_trans (Nat.pow_dvd_pow 2 hshift) hn) h
  · -- the quotient has more bits than the size, and so there is a power of two between them
    have hlog : n.log2 + 1 ≤ (num / den).log2 := by
      unfold shift at hshift
      omega
    have hne : num / den ≠ 0 := fun h0 => by simp [h0] at hlog
    have hlt : n < 2 ^ (num / den).log2 :=
      Nat.lt_of_lt_of_le Nat.lt_log2_self (Nat.pow_le_pow_right (by decide) hlog)
    have hdvd : f.step (num / den) ∣ 2 ^ (num / den).log2 :=
      Nat.pow_dvd_pow 2 (by unfold shift; omega)
    have hle : 2 ^ (num / den).log2 * den ≤ num :=
      (Nat.le_div_iff_mul_le hd).1 (Nat.log2_self_le hne)
    exact Nat.le_trans (Nat.le_of_lt hlt) (le_rounded_of_dvd hd hdvd hle)

/-- A quotient that is not beyond a size is not rounded to one beyond it. -/
theorem rounded_le {f : Format} {n num den : Nat} (hd : 0 < den) (hn : f.step n ∣ n)
    (h : num ≤ n * den) : f.rounded num den ≤ n := by
  have hlog : (num / den).log2 ≤ n.log2 := by
    by_cases h0 : num / den = 0
    · simp [h0]
    · have hle : num / den ≤ n := Nat.div_le_of_le_mul (by rwa [Nat.mul_comm])
      have hpos : 0 < n := Nat.lt_of_lt_of_le (Nat.pos_of_ne_zero h0) hle
      exact (Nat.le_log2 (Nat.ne_of_gt hpos)).2 (Nat.le_trans (Nat.log2_self_le h0) hle)
  -- the quotient has no more bits than the size, so its step is not longer and the size lies on it
  have hstep : f.step (num / den) ∣ n :=
    Nat.dvd_trans (Nat.pow_dvd_pow 2 (by unfold shift; omega)) hn
  obtain ⟨k, rfl⟩ := hstep
  have hk : num ≤ k * (den * f.step (num / den)) := by
    rw [Nat.mul_comm den, ← Nat.mul_assoc, Nat.mul_comm k]
    exact h
  rw [rounded, Nat.mul_comm _ k]
  exact Nat.mul_le_mul_right _ (nearest_le (Nat.mul_pos hd (f.step_pos _)) hk)

theorem step_zero (f : Format) : f.step 0 = 1 := by
  have hp := f.precision_pos
  have hshift : f.shift 0 = 0 := by
    unfold shift
    rw [Nat.log2_zero]
    omega
  rw [step, hshift, Nat.pow_zero]

/-- More than half of the least positive number is not rounded to zero, and no less is. -/
theorem rounded_pos_iff {f : Format} {num den : Nat} (hd : 0 < den) :
    0 < f.rounded num den ↔ den < 2 * num := by
  rcases Nat.lt_or_ge num den with hlt | hge
  · rw [rounded, Nat.div_eq_of_lt hlt, f.step_zero, Nat.mul_one, Nat.mul_one, nearest,
      Nat.div_eq_of_lt hlt, Nat.mod_eq_of_lt hlt]
    split <;> omega
  · have hone : f.step 1 ∣ 1 := by
      simpa using step_dvd_mul_two_pow (f := f) (k := 0) (Nat.two_pow_pos f.precision)
    have hle : 1 ≤ f.rounded num den := le_rounded hd hone (by rwa [Nat.one_mul])
    omega

/-- Half a step beyond a power of two is rounded to the power, which is the even neighbour. -/
theorem rounded_two_pow_add {f : Format} (hp : 2 ≤ f.precision) {e r : Nat} (h : r ≤ 2 ^ e) :
    f.rounded (2 ^ (f.precision + e) + r) 1 = 2 ^ (f.precision + e) := by
  obtain ⟨p, hp⟩ : ∃ p, f.precision = p + 2 := ⟨f.precision - 2, by omega⟩
  rw [hp]
  have hpos := Nat.two_pow_pos e
  have hpow : 2 ^ (p + 2 + e) = 2 ^ p * 2 * 2 ^ (e + 1) := by
    rw [← Nat.pow_succ, ← Nat.pow_add]
    congr 1
    omega
  -- half a step adds no bit, so the step is that of the power
  have hstep : f.step (2 ^ (p + 2 + e) + r) = 2 ^ (e + 1) := by
    have hlt : 2 ^ e < 2 ^ (p + 2 + e) := Nat.pow_lt_pow_right (by decide) (by omega)
    have hlog : (2 ^ (p + 2 + e) + r).log2 = p + 2 + e := by
      rw [Nat.log2_eq_iff (by omega), Nat.pow_succ]
      omega
    rw [step, shift, hlog, hp]
    congr 1
    omega
  have hr : r < 2 ^ (e + 1) := by
    rw [Nat.pow_succ]
    omega
  have hdiv : (2 ^ (p + 2 + e) + r) / 2 ^ (e + 1) = 2 ^ p * 2 := by
    rw [hpow, Nat.mul_comm _ (2 ^ (e + 1)), Nat.mul_add_div (Nat.two_pow_pos _),
      Nat.div_eq_of_lt hr, Nat.add_zero]
  have hmod : (2 ^ (p + 2 + e) + r) % 2 ^ (e + 1) = r := by
    rw [hpow, Nat.mul_add_mod_self_right, Nat.mod_eq_of_lt hr]
  -- the power is an even number of steps, so a half is rounded down to it
  have heven : 2 ^ p * 2 % 2 = 0 := Nat.mul_mod_left _ _
  have hnearest : nearest (2 ^ (p + 2 + e) + r) (2 ^ (e + 1)) = 2 ^ p * 2 := by
    rw [nearest, hdiv, hmod, if_neg]
    have : 2 * r ≤ 2 ^ (e + 1) := by rw [Nat.pow_succ]; omega
    omega
  rw [rounded, Nat.div_one, hstep, Nat.one_mul, hnearest, hpow]

/-- A quotient that is a size is rounded to itself. -/
theorem rounded_mul {f : Format} {n d : Nat} (hd : 0 < d) (h : f.Has n) :
    f.rounded (n * d) d = n :=
  Nat.le_antisymm (rounded_le hd h.1 (Nat.le_refl _)) (le_rounded hd h.1 (Nat.le_refl _))

end Format

/-- The size of a number of the format, counted in its least positive number. -/
structure Magnitude (f : Format) where
  val : Nat
  has : f.Has val
deriving DecidableEq

namespace Format

/-- The quotient `num / den` rounded to the nearest size, or `none` if that is too large. -/
def round? (f : Format) (num den : Nat) : Option (Magnitude f) :=
  if h : 0 < den ∧ f.rounded num den < f.limit then
    some ⟨f.rounded num den, f.step_dvd_rounded num h.1, h.2⟩
  else none

theorem round?_mul {f : Format} (n : Magnitude f) {d : Nat} (hd : 0 < d) :
    f.round? (n.val * d) d = some n := by
  have h := rounded_mul hd n.has
  simp [round?, h, hd, n.has.2]

theorem round?_eq_self {f : Format} (n : Magnitude f) : f.round? n.val 1 = some n := by
  simpa using round?_mul n Nat.one_pos

end Format

end WeightedSearch
