/-
The terms of a search string.

Brackets and signs arrange the terms of a search string and say nothing about the terms themselves.
A reader that passes over brackets and signs as it passes over spaces, and that keeps no record of
what is open, finds the same terms in the same order.  Main statements:

* `terms_skip`, `terms_quote`, `terms_bare` — how the terms are read, by the first character;
* `readingSteps_terms` — each step of reading a query takes the terms that it passes;
* `leaves_parse` — the values of a query are the terms of its search string.
-/
import WeightedSearch.Proofs.Query.Leaves
import WeightedSearch.Proofs.Query.Reading
import WeightedSearch.Proofs.Query.Scanning

namespace WeightedSearch

/-- Whether the character stands between terms: a space, a bracket or a sign. -/
def betweenTerms (c : Char) : Bool :=
  isSpace c || c == '(' || c == ')' || isMark c

/-- The term that a run of content is, if it is not blank. -/
def termOf (m : Matching) (text : List Char) : List (Matching × String) :=
  if text.all isSpace then [] else [(m, String.ofList text)]

theorem value_contains_of_startsTerm {c : Char} (h : betweenTerms c = false) (hq : c ≠ '"') :
    Delimiters.value.contains c = false := by
  simp only [betweenTerms, Bool.or_eq_false_iff, beq_eq_false_iff_ne] at h
  obtain ⟨⟨⟨hs, ho⟩, hc⟩, -⟩ := h
  exact value_contains_eq_false hq ho hc hs

/-- The terms of a search string from left to right. What stands in quotes is a precise term up to
the first quote that is not escaped, and anything else a standard term up to the first space, quote
or bracket that is not. -/
def terms : List Char → List (Matching × String)
  | [] => []
  | c :: r =>
    if betweenTerms c then terms r
    else if c = '"' then
      let n := Delimiters.quote.firstStop r
      termOf .precise (dropEscapes (r.take n)) ++ terms (r.drop (n + 1))
    else
      let n := Delimiters.value.firstStop (c :: r)
      termOf .standard (dropEscapes ((c :: r).take n)) ++ terms ((c :: r).drop n)
termination_by s => s.length
decreasing_by
  · exact Nat.lt_succ_self _
  · rw [List.length_drop, List.length_cons]
    omega
  · next h hq =>
    have hpos := Delimiters.firstStop_pos
      (value_contains_of_startsTerm (Bool.eq_false_iff.2 h) hq) r
    rw [List.length_drop, List.length_cons]
    omega

theorem terms_nil : terms [] = [] := by
  rw [terms.eq_def]

theorem terms_skip {c : Char} (h : betweenTerms c = true) (r : List Char) :
    terms (c :: r) = terms r := by
  rw [terms.eq_def]
  exact if_pos h

/-- The parser looks whether a quote follows the run, and if none does the run has no end. -/
theorem skipChar_quote_scan_rest (r : List Char) :
    skipChar '"' (Delimiters.quote.scan r).rest = r.drop (Delimiters.quote.firstStop r + 1) := by
  have htail : r.drop (Delimiters.quote.firstStop r + 1) = (Delimiters.quote.scan r).rest.tail := by
    rw [Delimiters.scan_eq_firstStop, List.tail_drop]
  rw [htail]
  cases hrest : (Delimiters.quote.scan r).rest with
  | nil => rfl
  | cons c s =>
    rw [Delimiters.quote_scan_rest_head hrest]
    rw [skipChar, if_pos rfl, List.tail_cons]

/-- The terms behind a quote, as the parser reads them. -/
theorem terms_quote (r : List Char) :
    terms ('"' :: r) = termOf .precise (Delimiters.quote.scan r).text
      ++ terms (skipChar '"' (Delimiters.quote.scan r).rest) := by
  rw [skipChar_quote_scan_rest, Delimiters.scan_eq_firstStop, terms.eq_def]
  exact (if_neg (by decide)).trans (if_pos rfl)

/-- The terms from the first character of a bare value on, as the parser reads them. -/
theorem terms_bare {c : Char} (h : startsValue c = true) (r : List Char) :
    terms (c :: r) = termOf .standard (Delimiters.value.scan (c :: r)).text
      ++ terms (Delimiters.value.scan (c :: r)).rest := by
  have hc : ¬ betweenTerms c = true ∧ c ≠ '"' := by
    by_cases hb : c = '\\'
    · subst hb
      decide
    · simp_all [startsValue, isStructural, betweenTerms]
  rw [Delimiters.scan_eq_firstStop, terms.eq_def]
  exact (if_neg hc.1).trans (if_neg hc.2)

/-- A closing bracket is no term. -/
theorem terms_skipChar_close (s : List Char) : terms (skipChar ')' s) = terms s := by
  cases s with
  | nil => rfl
  | cons c r =>
    rw [skipChar]
    split
    · next hc => rw [hc, terms_skip (by decide)]
    · rfl

namespace Query

/-- A sign does not change which values are asked for. -/
theorem leaves_markedBy (q : Query) (c : Char) : (q.markedBy c).leaves = q.leaves := by
  rw [markedBy]
  split
  · exact leaves_require q
  · exact leaves_exclude q

theorem leaves_term_ofList (m : Matching) (text : List Char) :
    (term m (String.ofList text)).leaves = termOf m text := by
  rw [leaves_term, termOf, isBlank, String.toList_ofList]

/-- What is read takes its leaves from the terms, and the other terms are those of what is left
over. -/
theorem readingSteps_terms :
    ReadingSteps (fun s => (part s).1.leaves ++ terms (part s).2 = terms s)
      fun nested s => leavesAll (parts nested s).1 ++ terms (parts nested s).2 = terms s := by
  have hmark : ∀ c, isMark c = true → betweenTerms c = true := by
    intro c hc
    simp [betweenTerms, hc]
  constructor
  case mark =>
    intro c r hc hs hr
    rw [part_mark hc, operand_of_starts hs, leaves_markedBy, hr, terms_skip (hmark c hc)]
  case loneMark =>
    intro c r hc hs
    rw [part_mark hc, operand_of_not_starts hs, leaves_markedBy, terms_skip (hmark c hc)]
    rfl
  case quote =>
    intro r
    rw [part_quote, terms_quote, leaves_term_ofList]
  case group =>
    intro r hr
    -- the bracket that closes the group is no term, whether it is there or not
    rw [part_open, leaves_ofList, terms_skipChar_close, hr, terms_skip (by decide)]
  case value =>
    intro c r hc
    rw [part_of_startsValue hc, terms_bare hc, leaves_term_ofList]
  case finish =>
    intro nested
    rw [parts_nil]
    rfl
  case space =>
    intro nested c r hc hr
    rw [parts_space nested hc, hr, terms_skip (by simp [betweenTerms, hc])]
  case closeNested =>
    intro r
    rw [parts_close_nested]
    rfl
  case closeOuter =>
    intro r hr
    rw [parts_close_outer, hr, terms_skip (by decide)]
  case next =>
    intro nested s hs hpart hrest
    rw [parts_part nested hs, leavesAll, List.append_assoc, hrest, hpart]

/-- Outside of groups nothing is left over, so all terms are taken. -/
theorem leavesAll_parts (s : List Char) : leavesAll (parts false s).1 = terms s := by
  have hread := readingSteps_terms.parts false s
  rwa [rest_parts_outer, terms_nil, List.append_nil] at hread

/-- The values of the query that a search string asks are the terms of the string, in order. -/
theorem leaves_parse (input : String) : (parse input).leaves = terms input.toList := by
  rw [parse, leaves_ofList, leavesAll_parts]

end Query

/-- Brackets that are never closed or were never opened, signs in front of nothing, empty quotes. -/
example : terms "a)(+ (b-\"c d\" -\"\"e\\(f\"g".toList =
    [(.standard, "a"), (.standard, "b-"), (.precise, "c d"), (.standard, "e(f"), (.precise, "g")] := by
  decide +kernel

end WeightedSearch
