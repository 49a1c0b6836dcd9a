/-
The mean of valid weights.

A mean is a sum divided by a count, and both are rounded.  Rounding does not cross a number of the
format, so a sum of valid weights is not less than their count in units of the least positive
number, as far as counts are numbers of the format.  The quotient is then not zero, nor is it beyond
the sum.  Only the sum may be beyond all numbers, and the mean with it, although it lies between the
weights.  Main statements:

* `le_place_sum` — how great a sum of valid weights is at least;
* `isValid_mean_iff` — the mean is valid unless the sum is infinite;
* `sum_of_upTo`, `place_mean_le` — weights that are not too great have a finite sum, and a bound
  of theirs is one of their mean;
* `mean_replicate` — with too many weights the mean may be zero.
-/
import Mathlib.Data.List.Induction
import WeightedSearch.Proofs.Weight.Order

namespace WeightedSearch

-- powers are the core library's, whatever other instances are in scope; a literal exponent has its
-- type written out for that
attribute [local instance (2000)] instPowNat

namespace Weight

open Format

/-! ### Quotients -/

theorem exists_of_place_pos {w : Weight} (h : 0 < w.place) :
    w = infinite false ∨ ∃ n, w = finite false n ∧ 0 < n.val := by
  cases w with
  | nan => simp [place] at h
  | infinite s =>
    cases s with
    | false => exact Or.inl rfl
    | true => simp [place] at h; omega
  | finite s n =>
    cases s with
    | false => exact Or.inr ⟨n, rfl, by simpa [place] using h⟩
    | true => simp [place] at h; omega

/-- A rounded quotient is a number unless it reaches the limit. -/
theorem ofQuotient_cases {num den : Nat} (hd : 0 < den) :
    (∃ n, ofQuotient false num den = finite false n ∧ n.val = binary32.rounded num den) ∨
      ofQuotient false num den = infinite false ∧ binary32.limit ≤ binary32.rounded num den := by
  rcases Nat.lt_or_ge (binary32.rounded num den) binary32.limit with hlt | hge
  · exact Or.inl ⟨⟨_, step_dvd_rounded _ _ hd, hlt⟩, by simp [ofQuotient, round?, hd, hlt], rfl⟩
  · exact Or.inr ⟨by simp [ofQuotient, round?, Nat.not_lt.2 hge], hge⟩

theorem le_place_ofQuotient {num den k : Nat} (hd : 0 < den) (hk : binary32.Has k)
    (h : k * den ≤ num) : (k : Int) ≤ (ofQuotient false num den).place := by
  rcases ofQuotient_cases hd with ⟨n, hn, hval⟩ | ⟨hinf, -⟩
  · rw [hn]
    exact Int.ofNat_le.2 (hval ▸ le_rounded hd hk.1 h)
  · rw [hinf]
    exact Int.ofNat_le.2 (Nat.le_of_lt hk.2)

theorem ofQuotient_le {num den k : Nat} (hd : 0 < den) (hk : binary32.Has k)
    (h : binary32.rounded num den ≤ k) : ∃ n, ofQuotient false num den = finite false n ∧
      n.val = binary32.rounded num den ∧ n.val ≤ k := by
  rcases ofQuotient_cases hd with ⟨n, hn, hval⟩ | ⟨-, hge⟩
  · exact ⟨n, hn, hval, hval ▸ h⟩
  · exact absurd (Nat.lt_of_le_of_lt (Nat.le_trans hge h) hk.2) (Nat.lt_irrefl _)

/-! ### Sums -/

theorem finite_add_finite (m n : Magnitude binary32) :
    finite false m + finite false n = ofQuotient false (m.val + n.val) 1 := by
  change add (finite false m) (finite false n) = _
  rw [add, if_pos rfl]

theorem le_place_add {a b : Weight} (ha : 0 < a.place) (hb : 0 < b.place) {k : Nat}
    (hk : binary32.Has k) (h : (k : Int) ≤ a.place + b.place) : (k : Int) ≤ (a + b).place := by
  have hinf : (k : Int) ≤ (infinite false).place := Int.ofNat_le.2 (Nat.le_of_lt hk.2)
  rcases exists_of_place_pos ha with rfl | ⟨m, rfl, -⟩
  · rcases exists_of_place_pos hb with rfl | ⟨n, rfl, -⟩
    · exact hinf
    · exact hinf
  · rcases exists_of_place_pos hb with rfl | ⟨n, rfl, -⟩
    · exact hinf
    · rw [finite_add_finite]
      refine le_place_ofQuotient Nat.one_pos hk ?_
      rw [Nat.mul_one]
      exact Int.ofNat_le.1 h

theorem sum_singleton (w : Weight) : sum [w] = w :=
  negZero_add w

theorem sum_concat (ws : List Weight) (w : Weight) : sum (ws ++ [w]) = sum ws + w :=
  List.foldl_append

/-- What holds of every single weight of some, and still holds with one more of them, holds of their
sum. -/
theorem sum_induction {ws : List Weight} {P : Nat → Weight → Prop} (hne : ws ≠ [])
    (single : ∀ w ∈ ws, P 1 w) (step : ∀ n, ∀ w ∈ ws, ∀ a, 0 < n → P n a → P (n + 1) (a + w)) :
    P ws.length (sum ws) := by
  -- the sum is made from the left, so the last weight is added last
  induction ws using List.reverseRecOn with
  | nil => exact absurd rfl hne
  | append_singleton ws w ih =>
    have hw : w ∈ ws ++ [w] := by simp
    rcases List.eq_nil_or_concat ws with rfl | ⟨_, _, hws⟩
    · rw [List.nil_append, sum_singleton]
      exact single w hw
    · have hpos : ws ≠ [] := by simp [hws]
      rw [sum_concat, List.length_append]
      refine step _ w hw _ (List.length_pos_iff.2 hpos) (ih hpos ?_ ?_)
      · exact fun v hv => single v (List.mem_append_left _ hv)
      · exact fun n v hv => step n v (List.mem_append_left _ hv)

/-- How far a sum gets by adding so many ones: up to here every natural number is a number of the
format, and one more is rounded away. -/
def capped (n : Nat) : Nat :=
  min n (2 ^ (24 : Nat))

theorem capped_pos {n : Nat} (h : 0 < n) : 0 < capped n := by
  unfold capped
  omega

theorem capped_succ (n : Nat) :
    capped (n + 1) = capped n + 1 ∨ capped n = 2 ^ (24 : Nat) ∧ capped (n + 1) = 2 ^ (24 : Nat) := by
  unfold capped
  omega

theorem has_capped_mul (n : Nat) {e : Nat} (he : e ≤ 252) : binary32.Has (capped n * 2 ^ e) := by
  refine has_mul_two_pow (Nat.min_le_right _ _) ?_
  rw [limit_binary32]
  exact Nat.mul_lt_mul_of_le_of_lt (Nat.min_le_right _ _)
    (Nat.pow_lt_pow_right (by decide) (by omega)) (by decide)

theorem le_place_sum {ws : List Weight} (hne : ws ≠ []) (hws : ∀ w ∈ ws, w.isValid = true) :
    (capped ws.length : Int) ≤ (sum ws).place := by
  refine sum_induction (P := fun n w => (capped n : Int) ≤ w.place) hne ?_ ?_
  · intro w hw
    have := place_pos (hws w hw)
    unfold capped
    omega
  · intro n w hw a hn ha
    have hpos := place_pos (hws w hw)
    have hcapped := capped_pos hn
    have hk : binary32.Has (capped (n + 1)) := by simpa using has_capped_mul (n + 1) (Nat.zero_le _)
    refine le_place_add (by omega) hpos hk ?_
    unfold capped at ha ⊢
    omega

theorem rounded_add_le {n m d e : Nat} (he : e ≤ 252) (hm : m ≤ capped n * 2 ^ e)
    (hd : d ≤ 2 ^ e) : binary32.rounded (m + d) 1 ≤ capped (n + 1) * 2 ^ e := by
  have hk := has_capped_mul (n + 1) he
  rcases Nat.lt_or_ge (capped (n + 1) * 2 ^ e) (m + d) with hlt | hge
  · -- the sum is past the last number that so many weights reach, but not by more than half a step
    rcases capped_succ n with hsucc | ⟨hn, hsucc⟩
    · rw [hsucc, Nat.add_mul] at hlt
      omega
    · rw [hn, ← Nat.pow_add] at hm
      rw [hsucc, ← Nat.pow_add] at hlt ⊢
      obtain ⟨r, hr⟩ := Nat.exists_eq_add_of_le (Nat.le_of_lt hlt)
      rw [hr]
      exact Nat.le_of_eq (rounded_two_pow_add (f := binary32) (by decide) (by omega))
  · exact rounded_le Nat.one_pos hk.1 (by rwa [Nat.mul_one])

/-- Whether the weight is valid and at most `2 ^ e`, in units of the least positive number. -/
structure UpTo (e : Nat) (w : Weight) : Prop where
  isValid : w.isValid = true
  place_le : w.place ≤ (2 ^ e : Nat)

/-- Weights with a common bound have a finite sum, if the bound is not too great. -/
theorem sum_of_upTo {ws : List Weight} {e : Nat} (he : e ≤ 252) (hne : ws ≠ [])
    (hws : ∀ w ∈ ws, w.UpTo e) :
    ∃ m, sum ws = finite false m ∧ m.val ≤ capped ws.length * 2 ^ e := by
  have hfinite : ∀ w ∈ ws, ∃ m, w = finite false m ∧ m.val ≤ 2 ^ e := by
    intro w hw
    obtain ⟨hvalid, hle⟩ := hws w hw
    obtain ⟨m, rfl, -⟩ := isValid_iff.1 hvalid
    exact ⟨m, rfl, Int.ofNat_le.1 hle⟩
  refine sum_induction (P := fun n w => ∃ m, w = finite false m ∧ m.val ≤ capped n * 2 ^ e)
    hne ?_ ?_
  · intro w hw
    rw [show capped 1 = 1 from rfl, Nat.one_mul]
    exact hfinite w hw
  · rintro n w hw a hn ⟨m, rfl, hm⟩
    obtain ⟨d, rfl, hd⟩ := hfinite w hw
    -- every addition is rounded, but not beyond the bound of the next count
    obtain ⟨s, hs, -, hle⟩ :=
      ofQuotient_le Nat.one_pos (has_capped_mul (n + 1) he) (rounded_add_le he hm hd)
    rw [finite_add_finite]
    exact ⟨s, hs, hle⟩

/-! ### Means -/

theorem finite_div_finite (m n : Magnitude binary32) (hn : 0 < n.val) :
    finite false m / finite false n =
      ofQuotient false (m.val * 2 ^ binary32.unit) n.val := by
  change div (finite false m) (finite false n) = _
  rw [div, if_neg (Nat.ne_of_gt hn), Bool.bne_false]

theorem le_place_ofNat (n : Nat) :
    ((capped n * 2 ^ binary32.unit : Nat) : Int) ≤ (ofNat n).place := by
  refine le_place_ofQuotient Nat.one_pos (has_capped_mul n (by decide)) ?_
  rw [Nat.mul_one]
  exact Nat.mul_le_mul_right _ (Nat.min_le_left _ _)

/-- A count below the greatest that is rounded to a number of 26 bits is less than twice what a sum
of so many weights reaches. -/
theorem ofNat_lt {n : Nat} (hn : 0 < n) (h : n + 1 < 2 ^ (25 : Nat)) :
    ∃ m, ofNat n = finite false m ∧ m.val < 2 * (capped n * 2 ^ binary32.unit) := by
  have hpos := Nat.two_pow_pos binary32.unit
  obtain ⟨k, hk, hle, hlt⟩ : ∃ k, binary32.Has k ∧ n * 2 ^ binary32.unit ≤ k ∧
      k < 2 * (capped n * 2 ^ binary32.unit) := by
    rcases Nat.lt_or_ge (2 ^ (24 : Nat)) n with hlt | hge
    · -- a count of 25 bits has an even number next to it
      have hcapped : capped n = 2 ^ (24 : Nat) := Nat.min_eq_right (Nat.le_of_lt hlt)
      have heven : (2 ^ (24 : Nat) - 1) * 2 ^ (binary32.unit + 1) =
          (2 ^ (25 : Nat) - 2) * 2 ^ binary32.unit := by
        rw [Nat.pow_add, Nat.pow_one]
        omega
      refine ⟨_, has_mul_two_pow (m := 2 ^ (24 : Nat) - 1) (k := binary32.unit + 1) (by decide) ?_,
        ?_, ?_⟩
      · rw [limit_binary32]
        exact Nat.mul_lt_mul_of_le_of_lt (by decide)
          (Nat.pow_lt_pow_right (by decide) (by decide)) (by decide)
      · rw [heven]
        exact Nat.mul_le_mul_right _ (by omega)
      · rw [heven, hcapped, ← Nat.mul_assoc]
        exact Nat.mul_lt_mul_of_pos_right (by decide) hpos
    · have hcapped : capped n = n := Nat.min_eq_left hge
      have hk := has_capped_mul n (e := binary32.unit) (by decide)
      rw [hcapped] at hk ⊢
      have := Nat.mul_pos hn hpos
      exact ⟨_, hk, Nat.le_refl _, by omega⟩
  have hrounded : binary32.rounded (n * 2 ^ binary32.unit) 1 ≤ k :=
    rounded_le Nat.one_pos hk.1 (by rwa [Nat.mul_one])
  obtain ⟨m, hm, -, hmk⟩ := ofQuotient_le Nat.one_pos hk hrounded
  exact ⟨m, hm, Nat.lt_of_le_of_lt hmk hlt⟩

variable {ws : List Weight}

theorem mean_of_sum_infinite (hne : ws ≠ []) (hlen : ws.length + 1 < 2 ^ (25 : Nat))
    (hsum : sum ws = infinite false) : mean ws = infinite false := by
  obtain ⟨n, hn, -⟩ := ofNat_lt (List.length_pos_iff.2 hne) hlen
  rw [mean, hsum, hn]
  rfl

theorem mean_of_sum_finite (hne : ws ≠ []) {m : Magnitude binary32}
    (hsum : sum ws = finite false m) :
    ofNat ws.length = infinite false ∧ mean ws = zero ∨
      ∃ n, ofNat ws.length = finite false n ∧ 0 < n.val ∧
        capped ws.length * 2 ^ binary32.unit ≤ n.val ∧
        mean ws = ofQuotient false (m.val * 2 ^ binary32.unit) n.val := by
  have hcount := le_place_ofNat ws.length
  have hcapped : 0 < capped ws.length * 2 ^ binary32.unit :=
    Nat.mul_pos (capped_pos (List.length_pos_iff.2 hne)) (Nat.two_pow_pos _)
  rcases exists_of_place_pos (Int.lt_of_lt_of_le (Int.ofNat_lt.2 hcapped) hcount) with
    hinf | ⟨n, hn, hn0⟩
  · refine Or.inl ⟨hinf, ?_⟩
    rw [mean, hsum, hinf]
    rfl
  · rw [hn] at hcount
    refine Or.inr ⟨n, hn, hn0, Int.ofNat_le.1 hcount, ?_⟩
    rw [mean, hsum, hn, finite_div_finite _ _ hn0]

theorem isValid_mean_of_sum_finite (hne : ws ≠ []) (hws : ∀ w ∈ ws, w.isValid = true)
    (hlen : ws.length + 1 < 2 ^ (25 : Nat)) {m : Magnitude binary32}
    (hsum : sum ws = finite false m) : (mean ws).isValid = true := by
  have hpos : 0 < ws.length := List.length_pos_iff.2 hne
  have hm := le_place_sum hne hws
  rw [hsum] at hm
  have hm : capped ws.length ≤ m.val := Int.ofNat_le.1 hm
  obtain ⟨n, hn, hlt⟩ := ofNat_lt hpos hlen
  rcases mean_of_sum_finite hne hsum with ⟨hinf, -⟩ | ⟨d, hd, hd0, hle, hmean⟩
  · rw [hn] at hinf
    cases hinf
  · obtain rfl : n = d := (finite.inj (hn.symm.trans hd)).2
    have hunit : 2 ^ binary32.unit ≤ n.val :=
      Nat.le_trans (Nat.le_mul_of_pos_left _ (capped_pos hpos)) hle
    have hnm : n.val < 2 * (m.val * 2 ^ binary32.unit) :=
      Nat.lt_of_lt_of_le hlt (Nat.mul_le_mul_left 2 (Nat.mul_le_mul_right _ hm))
    -- the count is one or more, so the quotient is not beyond the sum
    obtain ⟨w, hw, hval, -⟩ :=
      ofQuotient_le hd0 m.has (rounded_le hd0 m.has.1 (Nat.mul_le_mul_left m.val hunit))
    rw [hmean, hw]
    exact isValid_iff.2 ⟨w, rfl, hval ▸ (rounded_pos_iff hd0).2 hnm⟩

/-- The mean of valid weights is valid unless their sum is infinite, if there are not too many. -/
theorem isValid_mean_iff (hne : ws ≠ []) (hws : ∀ w ∈ ws, w.isValid = true)
    (hlen : ws.length + 1 < 2 ^ (25 : Nat)) :
    (mean ws).isValid = true ↔ sum ws ≠ infinite false := by
  constructor
  · intro hmean hsum
    rw [mean_of_sum_infinite hne hlen hsum] at hmean
    cases hmean
  · intro hsum
    have hle := le_place_sum hne hws
    have hcapped := capped_pos (List.length_pos_iff.2 hne)
    rcases exists_of_place_pos (w := sum ws) (by omega) with hinf | ⟨m, hm, -⟩
    · exact absurd hinf hsum
    · exact isValid_mean_of_sum_finite hne hws hlen hm

theorem has_largest : binary32.Has ((2 ^ (24 : Nat) - 1) * 2 ^ (253 : Nat)) := by
  decide +kernel

/-- The greatest finite weight. -/
def largest : Weight :=
  finite false ⟨(2 ^ (24 : Nat) - 1) * 2 ^ (253 : Nat), has_largest⟩

example : mean [largest] = largest ∧ mean [largest, largest] = infinite false := by
  decide +kernel

/-- A bound of the weights is one of their mean, if it is not too great. -/
theorem place_mean_le {e : Nat} (he : e ≤ 252) (hne : ws ≠ []) (hws : ∀ w ∈ ws, w.UpTo e) :
    (mean ws).place ≤ (2 ^ e : Nat) := by
  obtain ⟨m, hm, hle⟩ := sum_of_upTo he hne hws
  rcases mean_of_sum_finite hne hm with ⟨-, hmean⟩ | ⟨n, -, hn0, hcount, hmean⟩
  · rw [hmean]
    exact Int.ofNat_le.2 (Nat.zero_le _)
  · have hk : binary32.Has (2 ^ e) := by simpa [capped] using has_capped_mul 1 he
    have hquotient : m.val * 2 ^ binary32.unit ≤ 2 ^ e * n.val := calc
      m.val * 2 ^ binary32.unit ≤ capped ws.length * 2 ^ e * 2 ^ binary32.unit :=
        Nat.mul_le_mul_right _ hle
      _ = 2 ^ e * (capped ws.length * 2 ^ binary32.unit) := by
        rw [Nat.mul_comm _ (2 ^ e), Nat.mul_assoc]
      _ ≤ 2 ^ e * n.val := Nat.mul_le_mul_left _ hcount
    obtain ⟨w, hw, -, hwle⟩ := ofQuotient_le hn0 hk (rounded_le hn0 hk.1 hquotient)
    rw [hmean, hw]
    exact Int.ofNat_le.2 hwle

/-- With too many weights the mean may come out as zero: the sum of the least valid weights does not
get to more than half of the rounded count. -/
theorem mean_replicate {n : Nat} (hn : 2 ^ (25 : Nat) ≤ n + 1) :
    mean (List.replicate n (finite false ⟨1, binary32_has_one⟩)) = zero := by
  have hne : List.replicate n (finite false ⟨1, binary32_has_one⟩) ≠ [] :=
    List.ne_nil_of_length_pos (by rw [List.length_replicate]; omega)
  obtain ⟨m, hm, hle⟩ := sum_of_upTo (e := 0) (by decide) hne fun w hw => by
    rw [List.eq_of_mem_replicate hw]
    exact ⟨rfl, Int.le_refl _⟩
  rcases mean_of_sum_finite hne hm with ⟨-, hmean⟩ | ⟨d, hd, hd0, -, hmean⟩
  · exact hmean
  have hm24 : m.val ≤ 2 ^ (24 : Nat) := by
    unfold capped at hle
    omega
  have hcount : ((2 ^ (25 : Nat) * 2 ^ binary32.unit : Nat) : Int) ≤ (ofNat n).place := by
    rcases Nat.lt_or_eq_of_le hn with hlt | heq
    · refine le_place_ofQuotient Nat.one_pos (k := 2 ^ (25 : Nat) * 2 ^ binary32.unit) ?_ ?_
      · rw [← Nat.pow_add]
        decide +kernel
      · rw [Nat.mul_one]
        exact Nat.mul_le_mul_right _ (by omega)
    · -- a count of 25 binary ones is rounded up
      obtain rfl : n = 2 ^ (25 : Nat) - 1 := by omega
      decide +kernel
  rw [List.length_replicate] at hd
  rw [hd] at hcount
  have hhalf : 2 * (m.val * 2 ^ binary32.unit) ≤ d.val := by
    refine Nat.le_trans ?_ (Int.ofNat_le.1 hcount)
    rw [← Nat.mul_assoc]
    exact Nat.mul_le_mul_right _ (by omega)
  have hzero : binary32.rounded (m.val * 2 ^ binary32.unit) d.val ≤ 0 :=
    Nat.not_lt.1 fun h => Nat.not_lt.2 hhalf ((rounded_pos_iff hd0).1 h)
  obtain ⟨⟨w, hwhas⟩, hw, -, hle⟩ := ofQuotient_le hd0 binary32.has_zero hzero
  obtain rfl : w = 0 := Nat.le_zero.1 hle
  rw [hmean, hw]
  rfl

end Weight

end WeightedSearch
