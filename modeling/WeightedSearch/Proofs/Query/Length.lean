/-
The shortest search strings of a value.

A scan reads at least one character for each character of its text, and two where the text has a
delimiter or a backslash, since nothing but a backslash keeps these in a run.  So a search string
has room for all its terms, each as it is escaped, and what else it has only makes it longer.  Main
statements:

* `Delimiters.length_escaped_le` — a scan reads no less than its text escaped;
* `sum_extent_terms_le` — a search string is no shorter than its terms together;
* `length_toSearchString_isLeast` — no string that asks for a value is shorter than the one written
  for it, but for the closing quote.
-/
import Mathlib.Order.Bounds.Basic
import WeightedSearch.Proofs.Query.Terms

namespace WeightedSearch

-- sums start from the core library's zero, whatever other instances are in scope
attribute [local instance (2000)] Zero.ofOfNat0

/-! ### The length of a scan -/

/-- A scan reads at least as many characters as its text has escaped. -/
theorem Delimiters.length_escaped_le (t : Delimiters) (s : List Char) :
    (t.escaped (t.scan s).text).length + (t.scan s).rest.length ≤ s.length := by
  fun_induction scan t s with
  | case1 => exact Nat.le_refl 0
  | case2 => exact Nat.zero_le 1
  | case3 d r ih =>
    have hd : (t.escaped (d :: (t.scan r).text)).length
        ≤ (t.escaped (t.scan r).text).length + 2 := by
      rw [escaped_cons]
      split
      · exact Nat.le_refl _
      · exact Nat.le_succ _
    simp only [Run.push, List.length_cons]
    omega
  | case4 c r => exact Nat.le_of_eq (Nat.zero_add _)
  | case5 c r hc ht ih =>
    -- what is scanned without a backslash is written without one
    have hspecial : ¬t.isSpecial c = true := by
      rw [isSpecial, Bool.or_eq_true, beq_iff_eq, not_or]
      exact ⟨hc, ht⟩
    simp only [Run.push, escaped_cons, if_neg hspecial, List.length_cons]
    omega

/-- A bare value is scanned from no less than it is written with: what it starts with is no sign, or
it starts behind a backslash. -/
theorem length_escapeStandard_le {c : Char} (h : startsValue c = true) (r : List Char) :
    (escapeStandard (Delimiters.value.scan (c :: r)).text).length
        + (Delimiters.value.scan (c :: r)).rest.length ≤ (c :: r).length := by
  by_cases hb : c = escape
  · subst hb
    cases r with
    | nil => decide
    | cons d r =>
      have hscan := Delimiters.value.length_escaped_le r
      -- the backslash that was read makes room for the one that may be written
      have hd : (escapeStandard (d :: (Delimiters.value.scan r).text)).length
          ≤ (Delimiters.value.escaped (Delimiters.value.scan r).text).length + 2 := by
        rw [escapeStandard, escapeInner_eq, escapeInner_eq, Delimiters.escaped_cons]
        split
        · exact Nat.le_refl _
        · split
          · exact Nat.le_refl _
          · exact Nat.le_succ _
      rw [Delimiters.scan_escape_cons]
      simp only [Run.push, List.length_cons]
      omega
  · have hscan := Delimiters.value.length_escaped_le (c :: r)
    obtain ⟨hs, hm⟩ : isStructural c = false ∧ isMark c = false := by
      simpa [startsValue, show c ≠ '\\' from hb] using h
    simp only [isStructural, Bool.or_eq_false_iff, beq_eq_false_iff_ne] at hs
    obtain ⟨⟨⟨⟨-, hq⟩, ho⟩, hc⟩, hs⟩ := hs
    rw [Delimiters.scan_cons hb (value_contains_eq_false hq ho hc hs)] at hscan ⊢
    rwa [Run.push, escapeStandard, if_neg (by simp [hm]), escapeInner_eq]

/-! ### The length of a search string -/

/-- How many characters a term takes at least; the quote that closes a precise one may be missing. -/
def extent : Matching × String → Nat
  | (.standard, text) => (escapeStandard text.toList).length
  | (.precise, text) => (escapePrecise text.toList).length + 1

theorem sum_extent_termOf_le (m : Matching) (text : List Char) :
    ((termOf m text).map extent).sum ≤ extent (m, String.ofList text) := by
  rw [termOf]
  split
  · exact Nat.zero_le _
  · exact Nat.le_of_eq (Nat.add_zero _)

theorem startsValue_of_not_betweenTerms {c : Char} (h : ¬betweenTerms c = true) (hq : c ≠ '"') :
    startsValue c = true := by
  simp only [betweenTerms, Bool.or_eq_true, beq_iff_eq, not_or, Bool.not_eq_true] at h
  by_cases hb : c = '\\'
  · simp [startsValue, hb]
  · simp [startsValue, isStructural, h, hq, hb]

/-- A search string is no shorter than its terms together, each as short as it can be. -/
theorem sum_extent_terms_le (s : List Char) : ((terms s).map extent).sum ≤ s.length := by
  fun_induction terms s with
  | case1 => exact Nat.le_refl 0
  | case2 c r _ ih => exact Nat.le_succ_of_le ih
  -- the quote in front counts for the term, and the closing one for nothing
  | case3 r n _ ih =>
    have hterm := sum_extent_termOf_le .precise (dropEscapes (r.take n))
    have hscan : (Delimiters.quote.escaped (dropEscapes (r.take n))).length + (r.length - n)
        ≤ r.length := by
      have hlength := Delimiters.quote.length_escaped_le r
      rwa [Delimiters.scan_eq_firstStop, List.length_drop] at hlength
    rw [extent, String.toList_ofList, escapePrecise_eq] at hterm
    rw [List.length_drop] at ih
    rw [List.map_append, List.sum_append, List.length_cons]
    omega
  | case4 c r h hq n ih =>
    have hterm := sum_extent_termOf_le .standard (dropEscapes ((c :: r).take n))
    have hscan : (escapeStandard (dropEscapes ((c :: r).take n))).length
        + ((c :: r).drop n).length ≤ (c :: r).length := by
      have hlength := length_escapeStandard_le (startsValue_of_not_betweenTerms h hq) r
      rwa [Delimiters.scan_eq_firstStop] at hlength
    rw [extent, String.toList_ofList] at hterm
    rw [List.map_append, List.sum_append]
    omega

namespace Query

/-- A string that asks for one value has the value as its only term. -/
theorem extent_le_of_parse {m : Matching} {text s : String} (h : parse s = .value m text) :
    extent (m, text) ≤ s.length := by
  have hterms : terms s.toList = [(m, text)] := by
    rw [← leavesAll_parts, ← leaves_ofList, ← parse, h, leaves]
  have hsum := sum_extent_terms_le s.toList
  rwa [hterms, List.map_singleton, List.sum_singleton, String.length_toList] at hsum

/-- At the end of the input a value in quotes need not be closed. -/
theorem parse_unclosed {text : String} (h : isBlank text = false) :
    parse (String.ofList ('"' :: escapePrecise text.toList)) = .value .precise text := by
  -- the scan runs to the end of the input, where there is no quote to skip
  have hscan : Delimiters.quote.scan (escapePrecise text.toList) = ⟨text.toList, []⟩ := by
    rw [escapePrecise_eq, ← List.append_nil (Delimiters.escaped _ _)]
    exact Delimiters.scan_escaped _ _ (Delimiters.scan_nil _)
  rw [parse, String.toList_ofList, parts_part false rfl, part_quote, hscan]
  dsimp only [skipChar]
  rw [parts_nil, ofList_singleton, String.ofList_toList, term, if_neg (by simp [h])]

/-- Of all strings that ask for a standard value none is shorter than the one written for it, and of
those that ask for a precise value none is shorter than the one written for it without its closing
quote, which may be missing at the end of the input. -/
theorem length_toSearchString_isLeast {text : String} (h : isBlank text = false) :
    IsLeast {n | ∃ s, parse s = .value .standard text ∧ s.length = n}
        (value .standard text).toSearchString.length ∧
      IsLeast {n | ∃ s, parse s = .value .precise text ∧ s.length = n}
        ((value .precise text).toSearchString.length - 1) := by
  have hstandard : (value .standard text).toSearchString.length = extent (.standard, text) := by
    rw [toSearchString, String.length_ofList]
    rfl
  have hprecise : (value .precise text).toSearchString.length - 1 = extent (.precise, text) := by
    rw [toSearchString, String.length_ofList, render, List.length_cons, List.length_append]
    rfl
  -- a string that asks for a value has the extent of the value at least, and these have no more
  rw [hstandard, hprecise]
  refine ⟨⟨⟨_, ?_, hstandard⟩, ?_⟩, ⟨⟨_, parse_unclosed h, ?_⟩, ?_⟩⟩
  · rw [parse_of_toSearchString, normalize, term, if_neg (by simp [h])]
  · rintro _ ⟨s, hs, rfl⟩
    exact extent_le_of_parse hs
  · rw [String.length_ofList]
    rfl
  · rintro _ ⟨s, hs, rfl⟩
    exact extent_le_of_parse hs

/-- The text `+a "b` is written `\+a\ \"b` as a standard value and `"+a \"b"` as a precise one. -/
theorem length_toSearchString_isLeast_sign :
    isBlank "+a \"b" = false ∧
      IsLeast {n | ∃ s, parse s = .value .standard "+a \"b" ∧ s.length = n} 8 ∧
      IsLeast {n | ∃ s, parse s = .value .precise "+a \"b" ∧ s.length = n} 7 := by
  have h : isBlank "+a \"b" = false := by decide
  have hstandard : (value .standard "+a \"b").toSearchString.length = 8 := by decide
  have hprecise : (value .precise "+a \"b").toSearchString.length - 1 = 7 := by decide
  have hleast := length_toSearchString_isLeast h
  rw [hstandard, hprecise] at hleast
  exact ⟨h, hleast⟩

end Query

end WeightedSearch
