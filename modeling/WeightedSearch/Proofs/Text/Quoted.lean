/-
Reading quoted text.

What stands between quotes is read back character by character: a backslash tells that an escape
follows, and an escape says by itself where it ends.  So a quoted text ends at the first quote that
is no escape, and two texts are never quoted alike, whichever characters are shown as they are.
Main statements:

* `unquoteChar_quoteChar` — a quoted character is read back, whatever follows it;
* `quote_append_inj` — so is a quoted text.
-/
import WeightedSearch.Text.Quoted

namespace WeightedSearch

/-- The number that digits in base 16 stand for. -/
def hexValue (ds : List Char) : Nat :=
  ds.foldl (fun n d => 16 * n + "0123456789abcdef".toList.idxOf d) 0

theorem hexValue_hexDigits (n : Nat) : hexValue (hexDigits n) = n := by
  have hdigit : ∀ d < 16, "0123456789abcdef".toList.idxOf (Nat.digitChar d) = d := by decide
  fun_induction hexDigits n with
  | case1 n hn =>
    rw [hexValue, List.foldl_cons, List.foldl_nil, hdigit n hn, Nat.mul_zero, Nat.zero_add]
  | case2 n hn ih =>
    rw [hexValue, List.foldl_append, ← hexValue, ih, List.foldl_cons, List.foldl_nil,
      hdigit _ (Nat.mod_lt n (by decide)), Nat.div_add_mod]

/-- The character that a letter stands for behind a backslash. -/
def unescape (c : Char) : Char :=
  if c = '0' then Char.ofNat 0
  else if c = 't' then '\t'
  else if c = 'r' then '\r'
  else if c = 'n' then '\n'
  else c

/-- Reads a quoted character: the character, and what follows it. -/
def unquoteChar : List Char → Option (Char × List Char)
  | '\\' :: 'u' :: r =>
    let digits := r.tail.takeWhile (· != '}')
    some (Char.ofNat (hexValue digits), (r.tail.dropWhile (· != '}')).tail)
  | '\\' :: c :: r => some (unescape c, r)
  | c :: r => some (c, r)
  | [] => none

theorem unquoteChar_quoteChar (shown : Char → Bool) (c : Char) (r : List Char) :
    unquoteChar (quoteChar shown c ++ r) = some (c, r) := by
  unfold quoteChar
  split
  · next h => rw [h]; rfl
  split
  · next h => rw [h]; rfl
  split
  · next h => rw [h]; rfl
  split
  · next h => rw [h]; rfl
  split
  · next h =>
    rw [Bool.or_eq_true, decide_eq_true_eq, decide_eq_true_eq] at h
    rcases h with rfl | rfl
    · rfl
    · rfl
  · next h =>
    split
    · have hb : c ≠ '\\' := by
        rintro rfl
        exact h rfl
      simp [unquoteChar, hb]
    · -- the digits end at the brace, which is no digit
      have hdigits : ∀ d ∈ hexDigits c.toNat, (d != '}') = true := by
        intro d hd
        rw [bne_iff_ne]
        rintro rfl
        exact not_mem_hexDigits (by decide) _ hd
      have hread : unquoteChar ('\\' :: 'u' :: '{' :: (hexDigits c.toNat ++ '}' :: r))
          = some (c, r) := by
        simp only [unquoteChar, List.tail_cons]
        rw [List.takeWhile_append_of_pos hdigits, List.dropWhile_append_of_pos hdigits,
          List.takeWhile_cons_of_neg (by decide), List.dropWhile_cons_of_neg (by decide),
          List.append_nil, hexValue_hexDigits, Char.ofNat_toNat, List.tail_cons]
      simpa using hread

/-- No quoted character starts with a quote. -/
theorem head?_quoteChar_ne (shown : Char → Bool) (c : Char) (r : List Char) :
    (quoteChar shown c ++ r).head? ≠ some '"' := by
  intro h
  obtain ⟨s, hs⟩ : ∃ s, quoteChar shown c ++ r = '"' :: s := List.head?_eq_some_iff.1 h
  have hread := unquoteChar_quoteChar shown c r
  rw [hs] at hread
  obtain ⟨rfl, -⟩ := Prod.mk.inj (Option.some.inj hread)
  exact absurd (List.cons.inj hs).1 (by decide)

/-- A quoted text is read back, whatever follows it. -/
theorem quote_append_inj {shown : Char → Bool} {s t r r' : List Char}
    (h : quote shown s ++ r = quote shown t ++ r') : s = t ∧ r = r' := by
  simp only [quote, List.cons_append, List.append_assoc, List.cons.injEq, true_and] at h
  -- one text cannot end before the other, since a quote begins no quoted character
  induction s generalizing t with
  | nil =>
    cases t with
    | nil => exact ⟨rfl, (List.cons.inj h).2⟩
    | cons d t =>
      rw [List.flatMap_cons, List.append_assoc] at h
      exact absurd (congrArg List.head? h.symm) (head?_quoteChar_ne shown d _)
  | cons c s ih =>
    rw [List.flatMap_cons, List.append_assoc] at h
    cases t with
    | nil => exact absurd (congrArg List.head? h) (head?_quoteChar_ne shown c _)
    | cons d t =>
      rw [List.flatMap_cons, List.append_assoc] at h
      have hread := congrArg unquoteChar h
      rw [unquoteChar_quoteChar, unquoteChar_quoteChar] at hread
      obtain ⟨rfl, hrest⟩ := Prod.mk.inj (Option.some.inj hread)
      obtain ⟨rfl, hr⟩ := ih hrest
      exact ⟨rfl, hr⟩

end WeightedSearch
