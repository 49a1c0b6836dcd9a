/-
Escapes and quotes.

Whether a character is escaped, and whether the characters so far end inside a quote, can be told by
counting: the backslashes right before the character, the quotes that are not escaped.  It can also
be told by reading from the left with two bits of memory, which is what the readers do.  Main
statements:

* `filterBefore_cons`, `filterBefore_concat` — choosing characters by what stands before them, from
  the left and from the right;
* `Mode.after_start` — the two bits are the parities of the two counts;
* `Delimiters.after_scan_rest`, `Delimiters.quoted_after_scan` — a run of content that a quote ends
  contains no quote that counts;
* `Delimiters.scan_append_of_rest`, `Delimiters.scan_append_of_end` — a run that ended before the
  end of the input ends there whatever follows, and any other run goes on.
-/
import Mathlib.Data.List.Induction
import WeightedSearch.Query.Content

namespace WeightedSearch

/-- The number of backslashes that the characters end in. -/
def escapesAtEnd (s : List Char) : Nat :=
  (s.reverse.takeWhile (· == escape)).length

/-- Whether the characters end in an odd number of backslashes. -/
def endsEscaping (s : List Char) : Bool :=
  escapesAtEnd s % 2 == 1

/-- The number of quotes that are not escaped, which have an even number of backslashes right before
them. -/
def unescapedQuotes (s : List Char) : Nat :=
  (List.range s.length).countP fun i => s[i]? == some '"' && !endsEscaping (s.take i)

/-- Whether the characters end inside a quote. -/
def endsInQuote (s : List Char) : Bool :=
  unescapedQuotes s % 2 == 1

/-- The characters that the rule accepts, which is also given what stands before each of them. -/
def filterBefore (rule : List Char → Char → Bool) (s : List Char) : List Char :=
  (s.zipIdx.filter fun x => rule (s.take x.2) x.1).map Prod.fst

theorem filterBefore_cons (rule : List Char → Char → Bool) (c : Char) (s : List Char) :
    filterBefore rule (c :: s)
      = (if rule [] c then [c] else []) ++ filterBefore (fun before => rule (c :: before)) s := by
  rw [filterBefore, List.zipIdx_cons, List.zipIdx_succ, List.filter_cons, List.filter_map,
    filterBefore]
  cases h : rule [] c <;> simp [h, Function.comp_def]

theorem filterBefore_concat (rule : List Char → Char → Bool) (s : List Char) (c : Char) :
    filterBefore rule (s ++ [c]) = filterBefore rule s ++ if rule s c then [c] else [] := by
  induction s generalizing rule with
  | nil => exact (filterBefore_cons rule c []).trans (List.append_nil _)
  | cons d s ih => rw [List.cons_append, filterBefore_cons, filterBefore_cons, ih, List.append_assoc]

/-- A backslash adds one to the row at the end, and any other character breaks it. -/
theorem escapesAtEnd_concat (s : List Char) (c : Char) :
    escapesAtEnd (s ++ [c]) = if c = escape then escapesAtEnd s + 1 else 0 := by
  rw [escapesAtEnd, List.reverse_append, List.reverse_singleton, List.singleton_append,
    List.takeWhile_cons]
  by_cases hc : c = escape
  · rw [if_pos hc, if_pos (beq_iff_eq.2 hc), List.length_cons, escapesAtEnd]
  · rw [if_neg hc, if_neg (by simpa using hc), List.length_nil]

/-- A last character is a quote that counts if the characters before it do not escape it. -/
theorem unescapedQuotes_concat (s : List Char) (c : Char) :
    unescapedQuotes (s ++ [c])
      = unescapedQuotes s + if c = '"' ∧ endsEscaping s = false then 1 else 0 := by
  -- what stands before a character is the same with and without the last one
  have hinit : ∀ i ∈ List.range s.length,
      ((s ++ [c])[i]? == some '"' && !endsEscaping ((s ++ [c]).take i)) = true ↔
        (s[i]? == some '"' && !endsEscaping (s.take i)) = true := by
    intro i hi
    have hlt : i < s.length := List.mem_range.1 hi
    rw [List.getElem?_append_left hlt, List.take_append_of_le_length (Nat.le_of_lt hlt)]
  have hlast : (s ++ [c])[s.length]? = some c ∧ (s ++ [c]).take s.length = s := by simp
  rw [unescapedQuotes, List.length_append, List.length_singleton, List.range_succ,
    List.countP_append, List.countP_congr hinit, List.countP_singleton, hlast.1, hlast.2,
    unescapedQuotes]
  by_cases hc : c = '"' <;> cases endsEscaping s <;> simp [hc]

theorem odd_succ (n : Nat) : ((n + 1) % 2 == 1) = !(n % 2 == 1) := by
  rcases Nat.mod_two_eq_zero_or_one n with h | h
  · have hsucc : (n + 1) % 2 = 1 := by omega
    rw [h, hsucc]
    rfl
  · have hsucc : (n + 1) % 2 = 0 := by omega
    rw [h, hsucc]
    rfl

/-- A backslash escapes unless it is escaped itself. -/
theorem endsEscaping_concat (s : List Char) (c : Char) :
    endsEscaping (s ++ [c]) = (c == escape && !endsEscaping s) := by
  rw [endsEscaping, escapesAtEnd_concat]
  by_cases hc : c = escape
  · rw [if_pos hc, odd_succ, beq_iff_eq.2 hc, Bool.true_and, endsEscaping]
  · rw [if_neg hc, beq_eq_false_iff_ne.2 hc]
    rfl

/-- A character in front, other than a backslash, makes no difference to what is escaped. -/
theorem endsEscaping_cons {c : Char} (hc : c ≠ escape) (s : List Char) :
    endsEscaping (c :: s) = endsEscaping s := by
  induction s using List.reverseRecOn with
  | nil =>
    show endsEscaping ([] ++ [c]) = endsEscaping []
    rw [endsEscaping_concat, beq_eq_false_iff_ne.2 hc]
    rfl
  | append_singleton s d ih =>
    rw [← List.cons_append, endsEscaping_concat, endsEscaping_concat, ih]

/-- Nor does a backslash with the character that it escapes. -/
theorem endsEscaping_escape_cons (c : Char) (s : List Char) :
    endsEscaping (escape :: c :: s) = endsEscaping s := by
  induction s using List.reverseRecOn with
  | nil =>
    show endsEscaping ([escape] ++ [c]) = endsEscaping []
    rw [endsEscaping_concat, show endsEscaping [escape] = true from rfl, Bool.not_true,
      Bool.and_false]
    rfl
  | append_singleton s d ih =>
    rw [← List.cons_append, ← List.cons_append, endsEscaping_concat, endsEscaping_concat, ih]

/-- A quote that is not escaped changes whether one is open. -/
theorem endsInQuote_concat (s : List Char) (c : Char) :
    endsInQuote (s ++ [c])
      = if c = '"' ∧ endsEscaping s = false then !endsInQuote s else endsInQuote s := by
  rw [endsInQuote, unescapedQuotes_concat]
  split
  · rw [odd_succ, endsInQuote]
  · rfl

/-! ### Reading with two bits of memory -/

/-- What the characters so far mean for the next one. -/
structure Mode where
  /-- whether it stands inside a quote -/
  quoted : Bool
  /-- whether it is escaped -/
  escaped : Bool
deriving DecidableEq

namespace Mode

def start : Mode := ⟨false, false⟩

def step (m : Mode) (c : Char) : Mode :=
  if m.escaped then ⟨m.quoted, false⟩
  else if c = escape then ⟨m.quoted, true⟩
  else if c = '"' then ⟨!m.quoted, false⟩
  else ⟨m.quoted, false⟩

def after (m : Mode) (s : List Char) : Mode :=
  s.foldl step m

theorem after_concat (m : Mode) (s : List Char) (c : Char) :
    m.after (s ++ [c]) = (m.after s).step c := by
  rw [after, after, List.foldl_append, List.foldl_cons, List.foldl_nil]

/-- Reading with two bits tells what counting tells. -/
theorem after_start (s : List Char) : start.after s = ⟨endsInQuote s, endsEscaping s⟩ := by
  induction s using List.reverseRecOn with
  | nil => rfl
  | append_singleton s c ih =>
    rw [after_concat, ih, step, endsInQuote_concat, endsEscaping_concat]
    -- an escaped character changes nothing but this
    cases endsEscaping s with
    | true => simp
    | false =>
      have hne : ('"' : Char) ≠ escape := by decide
      by_cases hc : c = escape
      · simp [hc, hne.symm]
      · by_cases hq : c = '"' <;> simp [hc, hq, hne]

theorem after_cons_plain (q : Bool) {c : Char} (he : c ≠ escape) (hq : c ≠ '"') (s : List Char) :
    after ⟨q, false⟩ (c :: s) = after ⟨q, false⟩ s := by
  rw [after, List.foldl_cons, step, if_neg Bool.false_ne_true, if_neg he, if_neg hq, after]

theorem after_cons_escape (q : Bool) (c : Char) (s : List Char) :
    after ⟨q, false⟩ (escape :: c :: s) = after ⟨q, false⟩ s := by
  rfl

end Mode

namespace Delimiters

variable {t : Delimiters}

/-- A run that left over something ended there, so what is added is left over too. -/
theorem scan_append_of_rest {s : List Char} (h : (t.scan s).rest ≠ []) (u : List Char) :
    t.scan (s ++ u) = ⟨(t.scan s).text, (t.scan s).rest ++ u⟩ := by
  fun_induction scan t s with
  | case1 => exact absurd rfl h
  | case2 => exact absurd rfl h
  | case3 d r ih =>
    rw [List.cons_append, List.cons_append, scan_escape_cons, ih h]
    rfl
  | case4 c r _ hc => exact scan_of_contains hc (r ++ u)
  | case5 c r he hc ih =>
    rw [List.cons_append, scan_cons he (Bool.eq_false_iff.2 hc), ih h]
    rfl

/-! ### Runs of content that a quote ends -/

variable (ht : t.contains '"' = true)
include ht

theorem ne_quote_of_contains {c : Char} (hc : ¬t.contains c = true) : c ≠ '"' := by
  rintro rfl
  exact hc ht

/-- A run that came to the end goes on in what is added, if no backslash waits there. -/
theorem scan_append_of_end {q : Bool} {s : List Char} (h : (t.scan s).rest = [])
    (hs : (Mode.after ⟨q, false⟩ s).escaped = false) (u : List Char) :
    t.scan (s ++ u) = ⟨(t.scan s).text ++ (t.scan u).text, (t.scan u).rest⟩ := by
  fun_induction scan t s with
  | case1 => rfl
  -- the lone backslash, which the hypothesis excludes
  | case2 => cases hs
  | case3 d r ih =>
    rw [Mode.after_cons_escape] at hs
    rw [List.cons_append, List.cons_append, scan_escape_cons, ih h hs]
    rfl
  | case4 => cases h
  | case5 c r he hc ih =>
    rw [Mode.after_cons_plain q he (ne_quote_of_contains ht hc)] at hs
    rw [List.cons_append, scan_cons he (Bool.eq_false_iff.2 hc), ih h hs]
    rfl

/-- A run to the end has no quote that counts. -/
theorem quoted_after_scan (q : Bool) {s : List Char} (h : (t.scan s).rest = []) :
    (Mode.after ⟨q, false⟩ s).quoted = q := by
  fun_induction scan t s with
  | case1 => rfl
  | case2 => rfl
  | case3 d r ih =>
    rw [Mode.after_cons_escape]
    exact ih h
  | case4 => cases h
  | case5 c r he hc ih =>
    rw [Mode.after_cons_plain q he (ne_quote_of_contains ht hc)]
    exact ih h

/-- Up to the end of a run the mode is the one at its start. -/
theorem after_scan_rest (q : Bool) {s : List Char} (h : (t.scan s).rest ≠ []) :
    Mode.after ⟨q, false⟩ (t.scan s).rest = Mode.after ⟨q, false⟩ s := by
  fun_induction scan t s with
  | case1 => exact absurd rfl h
  | case2 => exact absurd rfl h
  | case3 d r ih =>
    rw [Mode.after_cons_escape]
    exact ih h
  | case4 => rfl
  | case5 c r he hc ih =>
    rw [Mode.after_cons_plain q he (ne_quote_of_contains ht hc)]
    exact ih h

end Delimiters

end WeightedSearch
