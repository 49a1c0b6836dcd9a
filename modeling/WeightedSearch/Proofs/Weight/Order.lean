/-
The order of weights.

A weight has a place on the number line and a pattern of bits, and both put weights in an order.
For valid weights the two orders are one, and no two of them have the same place, so a greatest one
among several does not depend on how they are compared or in which order they come.  Main
statements:

* `eq_of_place_eq` — valid weights with the same place are the same;
* `bitPlace_le_iff` — the bits of valid weights are in the order of their places;
* `greatest_mem`, `place_greatest_le_iff` — the greatest of some weights is one of them, and none is
  beyond it.
-/
import WeightedSearch.Weight.Combiner

namespace WeightedSearch

-- powers are the core library's, whatever other instances are in scope; a literal exponent has its
-- type written out for that
attribute [local instance (2000)] instPowNat

namespace Weight

open Format

/-! ### Places -/

theorem place_pos {w : Weight} (h : w.isValid = true) : 0 < w.place := by
  obtain ⟨n, rfl, hn⟩ := isValid_iff.1 h
  simp only [place, Bool.false_eq_true, if_false]
  omega

theorem isNumber_of_isValid {w : Weight} (h : w.isValid = true) : w.isNumber = true := by
  obtain ⟨n, rfl, -⟩ := isValid_iff.1 h
  rfl

theorem eq_of_place_eq {a b : Weight} (ha : a.isValid = true) (hb : b.isValid = true)
    (h : a.place = b.place) : a = b := by
  obtain ⟨m, rfl, -⟩ := isValid_iff.1 ha
  obtain ⟨n, rfl, -⟩ := isValid_iff.1 hb
  have hval : m.val = n.val := by
    simp only [place, Bool.false_eq_true, if_false] at h
    omega
  obtain ⟨m, hm⟩ := m
  obtain ⟨n, hn⟩ := n
  obtain rfl : m = n := hval
  rfl

/-- Numbers are compared by their places. -/
theorem less_eq_false_iff {a b : Weight} (ha : a.isNumber = true) (hb : b.isNumber = true) :
    a.less b = false ↔ b.place ≤ a.place := by
  simp [less, ha, hb]

/-! ### Bits -/

/-- The place of a weight in the order of all patterns of bits: below zero the patterns count
downwards. -/
def bitPlace (w : Weight) : Int :=
  if w.toBits < 2 ^ (31 : Nat) then w.toBits else 2 ^ (31 : Nat) - 1 - w.toBits

/-- A size of 24 bits or more has an exponent `e` and 24 bits `c`, and these make up its pattern. -/
theorem exists_sizeBits_eq (n : Magnitude binary32) (h : 2 ^ (23 : Nat) ≤ n.val) :
    ∃ e c, n.val = c * 2 ^ e ∧ 2 ^ (23 : Nat) ≤ c ∧ c < 2 ^ (24 : Nat) ∧
      sizeBits n.val = e * 2 ^ (23 : Nat) + c := by
  have hne : n.val ≠ 0 := by omega
  have hlog : 23 ≤ n.val.log2 := (Nat.le_log2 hne).2 h
  -- the exponent counts the bits below the first 24, and they are zeros since the step divides the
  -- size
  obtain ⟨e, he⟩ : ∃ e, n.val.log2 = e + 23 := ⟨n.val.log2 - 23, by omega⟩
  have hstep : binary32.step n.val = 2 ^ e := by
    rw [step, shift, he]
    congr 1
  obtain ⟨c, hc⟩ := n.has.1
  rw [hstep, Nat.mul_comm] at hc
  have hlow : 2 ^ (23 : Nat) * 2 ^ e ≤ c * 2 ^ e := by
    rw [← hc, ← Nat.pow_add, Nat.add_comm, ← he]
    exact Nat.log2_self_le hne
  have hhigh : c * 2 ^ e < 2 ^ (24 : Nat) * 2 ^ e := by
    rw [← hc, ← Nat.pow_add]
    exact (Nat.log2_lt hne).1 (by omega)
  have hpos := Nat.two_pow_pos e
  have hc23 : 2 ^ (23 : Nat) ≤ c := Nat.le_of_mul_le_mul_right hlow hpos
  refine ⟨e, c, hc, hc23, Nat.lt_of_mul_lt_mul_right hhigh, ?_⟩
  rw [sizeBits, if_neg (by omega), he, hc]
  dsimp only
  rw [Nat.add_sub_cancel, Nat.mul_div_cancel _ hpos]
  omega

theorem sizeBits_lt (n : Magnitude binary32) : sizeBits n.val < 2 ^ (31 : Nat) := by
  by_cases h : n.val < 2 ^ (23 : Nat)
  · rw [sizeBits, if_pos h]
    omega
  · obtain ⟨e, c, hn, hc, hc', hbits⟩ := exists_sizeBits_eq n (by omega)
    have he : 2 ^ (23 + e) < 2 ^ (24 + 253 : Nat) := by
      have hlimit := n.has.2
      rw [limit_binary32, hn, ← Nat.pow_add] at hlimit
      rw [Nat.pow_add]
      exact Nat.lt_of_le_of_lt (Nat.mul_le_mul_right _ hc) hlimit
    have := (Nat.pow_lt_pow_iff_right (by decide)).1 he
    omega

theorem sizeBits_strictMono {m n : Magnitude binary32} (h : m.val < n.val) :
    sizeBits m.val < sizeBits n.val := by
  by_cases hm : m.val < 2 ^ (23 : Nat)
  · by_cases hn : n.val < 2 ^ (23 : Nat)
    · rw [sizeBits, sizeBits, if_pos hm, if_pos hn]
      exact h
    · obtain ⟨e, c, -, hc, -, hbits⟩ := exists_sizeBits_eq n (by omega)
      rw [hbits, sizeBits, if_pos hm]
      omega
  · obtain ⟨e, c, hme, hc, hc', hmbits⟩ := exists_sizeBits_eq m (by omega)
    obtain ⟨f, d, hnf, hd, hd', hnbits⟩ := exists_sizeBits_eq n (by omega)
    -- a greater exponent would make the greater size
    have hef : e ≤ f := by
      refine Nat.le_of_not_lt fun hfe => ?_
      have hpow : 2 ^ (f + 1) ≤ 2 ^ e := Nat.pow_le_pow_right (by decide) hfe
      have hle : d * 2 ^ f ≤ c * 2 ^ e := calc
        d * 2 ^ f ≤ 2 ^ (24 : Nat) * 2 ^ f := Nat.mul_le_mul_right _ (by omega)
        _ = 2 ^ (23 : Nat) * 2 ^ (f + 1) := by rw [← Nat.pow_add, ← Nat.pow_add]; congr 1; omega
        _ ≤ c * 2 ^ e := Nat.mul_le_mul hc hpow
      omega
    rcases Nat.lt_or_eq_of_le hef with hlt | rfl
    · omega
    · have hcd : c < d := by
        rw [hme, hnf] at h
        exact Nat.lt_of_mul_lt_mul_right h
      omega

theorem bitPlace_finite (n : Magnitude binary32) : (finite false n).bitPlace = sizeBits n.val := by
  have hn := sizeBits_lt n
  simp only [bitPlace, toBits, Bool.false_eq_true, if_false, Nat.zero_add, if_pos hn]

/-- Valid weights are in the order of their bits. -/
theorem bitPlace_le_iff {a b : Weight} (ha : a.isValid = true) (hb : b.isValid = true) :
    a.bitPlace ≤ b.bitPlace ↔ a.place ≤ b.place := by
  obtain ⟨m, rfl, -⟩ := isValid_iff.1 ha
  obtain ⟨n, rfl, -⟩ := isValid_iff.1 hb
  rw [bitPlace_finite, bitPlace_finite, Int.ofNat_le]
  simp only [place, Bool.false_eq_true, if_false, Int.ofNat_le]
  constructor
  · intro h
    exact Nat.le_of_not_lt fun hlt => by have := sizeBits_strictMono hlt; omega
  · intro h
    rcases Nat.lt_or_eq_of_le h with hlt | heq
    · exact Nat.le_of_lt (sizeBits_strictMono hlt)
    · exact Nat.le_of_eq (congrArg sizeBits heq)

/-! ### The greatest of several weights -/

theorem maximum_mem (a b : Weight) : maximum a b = a ∨ maximum a b = b := by
  unfold maximum
  split
  · exact Or.inl rfl
  · exact Or.inr rfl

theorem place_maximum_le_iff {a b : Weight} (ha : a.isNumber = true) (hb : b.isNumber = true)
    {n : Int} : (maximum a b).place ≤ n ↔ a.place ≤ n ∧ b.place ≤ n := by
  simp only [maximum, less, ha, hb, Bool.not_true, Bool.false_or, Bool.true_and, decide_eq_true_eq]
  split <;> omega

theorem foldl_maximum_mem (a : Weight) (ws : List Weight) : ws.foldl maximum a ∈ a :: ws := by
  induction ws generalizing a with
  | nil => exact List.mem_singleton_self a
  | cons w ws ih =>
    rw [List.foldl_cons]
    rcases List.mem_cons.1 (ih (maximum a w)) with heq | hmem
    · rw [heq]
      rcases maximum_mem a w with heq | heq <;> simp [heq]
    · exact List.mem_cons_of_mem _ (List.mem_cons_of_mem _ hmem)

theorem place_foldl_maximum_le_iff {a : Weight} (ha : a.isNumber = true) {ws : List Weight}
    (hws : ∀ w ∈ ws, w.isNumber = true) {n : Int} :
    (ws.foldl maximum a).place ≤ n ↔ a.place ≤ n ∧ ∀ w ∈ ws, w.place ≤ n := by
  induction ws generalizing a with
  | nil => simp
  | cons w ws ih =>
    obtain ⟨hw, hws⟩ := List.forall_mem_cons.1 hws
    have hmax : (maximum a w).isNumber = true := by
      rcases maximum_mem a w with heq | heq <;> rw [heq] <;> assumption
    rw [List.foldl_cons, ih hmax hws, place_maximum_le_iff ha hw, List.forall_mem_cons, and_assoc]

variable {ws : List Weight}

/-- No weight is beyond the greatest. -/
theorem place_greatest_le_iff (hne : ws ≠ []) (hws : ∀ w ∈ ws, w.isValid = true) {n : Int} :
    (greatest ws).place ≤ n ↔ ∀ w ∈ ws, w.place ≤ n := by
  rw [greatest, place_foldl_maximum_le_iff rfl fun w hw => isNumber_of_isValid (hws w hw)]
  refine and_iff_right_of_imp fun h => ?_
  obtain ⟨w, hw⟩ := List.exists_mem_of_ne_nil ws hne
  have hleast : least.place ≤ 0 := by decide +kernel
  have hpos := place_pos (hws w hw)
  have hle := h w hw
  omega

theorem greatest_mem (hne : ws ≠ []) (hws : ∀ w ∈ ws, w.isValid = true) : greatest ws ∈ ws := by
  rcases List.mem_cons.1 (foldl_maximum_mem least ws) with heq | hmem
  · -- the least weight is not valid, so some weight is beyond it
    obtain ⟨w, hw⟩ := List.exists_mem_of_ne_nil ws hne
    have hle := (place_greatest_le_iff hne hws).1 (Int.le_refl _) w hw
    rw [show greatest ws = least from heq] at hle
    have hleast : least.place ≤ 0 := by decide +kernel
    have hpos := place_pos (hws w hw)
    omega
  · exact hmem

theorem isValid_greatest (hne : ws ≠ []) (hws : ∀ w ∈ ws, w.isValid = true) :
    (greatest ws).isValid = true :=
  hws _ (greatest_mem hne hws)

end Weight

end WeightedSearch
