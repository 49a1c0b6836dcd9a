/-
Runs of plain content.

A run of content ends in front of the first delimiter.  A backslash is dropped and the character
after it belongs to the run whatever it is, so the backslash itself can be no delimiter.
Main statements:

* `Delimiters.scan_rest_length_le` — a scan leaves over no more than it was given;
* `Delimiters.scan_rest_length_lt` — in front of a character that is no delimiter it leaves less;
* `Delimiters.scan_rest_head` — what is left over starts with a delimiter, if anything is.
-/
import WeightedSearch.Text.Blank

namespace WeightedSearch

/-- The character that takes the meaning from the next one. -/
def escape : Char := '\\'

/-- A set of characters that end a run of content. -/
structure Delimiters where
  /-- the characters of the set, spaces apart -/
  chars : List Char
  /-- whether every space is in the set -/
  spaces : Bool
  /-- a backslash always escapes -/
  escape_not_mem : escape ∉ chars

/-- Why characters cannot be delimiters. -/
inductive DelimiterFailure
  | escapeGiven
deriving DecidableEq, Repr

/-- The text of the failure. -/
def DelimiterFailure.message : DelimiterFailure → String
  | .escapeGiven => "the escape character '\\' cannot be a terminator"

/-- What a scan reads: the text without its escapes, and the characters it leaves over. -/
structure Run where
  text : List Char
  rest : List Char
deriving DecidableEq, Repr

/-- The run with one more character in front. -/
def Run.push (c : Char) (run : Run) : Run :=
  { run with text := c :: run.text }

namespace Delimiters

/-- The set with the given characters, refused if the backslash is one of them. -/
def ofChars (chars : List Char) (spaces : Bool) : Except DelimiterFailure Delimiters :=
  if h : escape ∈ chars then .error .escapeGiven else .ok ⟨chars, spaces, h⟩

/-- What ends a bare value: spaces, quotes and brackets. -/
def value : Delimiters := ⟨['"', '(', ')'], true, by decide⟩

/-- What ends a quoted value: the closing quote. -/
def quote : Delimiters := ⟨['"'], false, by decide⟩

/-- Whether an unescaped character ends a run. -/
def contains (t : Delimiters) (c : Char) : Bool :=
  (t.spaces && isSpace c) || t.chars.contains c

/-- Reads the run at the front of the characters. A backslash with nothing after it is dropped. -/
def scan (t : Delimiters) : List Char → Run
  | [] => ⟨[], []⟩
  | c :: r =>
    if c = escape then
      match r with
      | [] => ⟨[], []⟩
      | d :: r => (scan t r).push d
    else if t.contains c then ⟨[], c :: r⟩
    else (scan t r).push c

theorem contains_escape (t : Delimiters) : t.contains escape = false := by
  have h : isSpace escape = false := by decide
  simp [contains, h, t.escape_not_mem]

theorem scan_nil (t : Delimiters) : t.scan [] = ⟨[], []⟩ := by
  simp [scan]

theorem scan_escape_nil (t : Delimiters) : t.scan [escape] = ⟨[], []⟩ := by
  simp [scan]

theorem scan_escape_cons (t : Delimiters) (d : Char) (r : List Char) :
    t.scan (escape :: d :: r) = (t.scan r).push d := by
  simp [scan]

theorem scan_of_contains {t : Delimiters} {c : Char} (h : t.contains c = true) (r : List Char) :
    t.scan (c :: r) = ⟨[], c :: r⟩ := by
  have hc : c ≠ escape := by
    rintro rfl
    simp [contains_escape] at h
  rw [scan.eq_def]
  simp [hc, h]

theorem scan_cons {t : Delimiters} {c : Char} (hc : c ≠ escape) (h : t.contains c = false)
    (r : List Char) : t.scan (c :: r) = (t.scan r).push c := by
  rw [scan.eq_def]
  simp [hc, h]

theorem scan_rest_length_le (t : Delimiters) (s : List Char) :
    (t.scan s).rest.length ≤ s.length := by
  fun_induction scan t s with
  | case1 => simp
  | case2 => simp
  | case3 _ _ ih => simp only [Run.push, List.length_cons]; omega
  | case4 => simp
  | case5 _ _ _ _ ih => simp only [Run.push, List.length_cons]; omega

theorem scan_rest_length_lt {t : Delimiters} {c : Char} (h : t.contains c = false)
    (r : List Char) : (t.scan (c :: r)).rest.length < (c :: r).length := by
  by_cases hc : c = escape
  · subst hc
    cases r with
    | nil => simp [scan_escape_nil]
    | cons d r =>
      have := scan_rest_length_le t r
      rw [scan_escape_cons]
      simp only [Run.push, List.length_cons]
      omega
  · have := scan_rest_length_le t r
    rw [scan_cons hc h]
    simp only [Run.push, List.length_cons]
    omega

theorem scan_rest_head {t : Delimiters} {s : List Char} {c : Char} {r : List Char}
    (h : (t.scan s).rest = c :: r) : t.contains c = true := by
  fun_induction scan t s with
  | case1 => simp at h
  | case2 => simp at h
  | case3 _ _ ih => exact ih h
  | case4 c r _ hc => simp_all
  | case5 _ _ _ _ ih => exact ih h

theorem quote_scan_rest_head {s : List Char} {c : Char} {r : List Char}
    (h : (quote.scan s).rest = c :: r) : c = '"' := by
  have hcontains := scan_rest_head h
  simpa [contains, quote] using hcontains

end Delimiters

end WeightedSearch
