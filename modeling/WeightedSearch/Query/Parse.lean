/-
Reading search strings.

A search string is a sequence of parts with spaces between them.  A part is a bare value, a value in
quotes, a sequence in brackets, or one of these after a plus or minus sign.  Every string can be
read: an open quote or bracket is closed by the end of the input, a closing bracket that was never
opened is skipped, and a sign with nothing after it asks for nothing.

The readers carry the proof that they leave over no more than they are given, so that they end;
`part`, `operand` and `parts` are the same readers without it.  Main statements:

* `part_plus`, `part_minus`, `part_quote`, `part_open`, `part_value` — how a part is read, by its
  first character;
* `operand_of_starts`, `operand_of_not_starts` — what a sign applies to;
* `parts_of_end`, `parts_of_close_nested`, `parts_of_close_outer`, `parts_of_starts` — how a
  sequence is read, by the first character that is no space;
* `length_part_lt` — where a part can start, something is read.
-/
import WeightedSearch.Query.Basic
import WeightedSearch.Query.Content

namespace WeightedSearch

/-- Whether a part can start in front of these characters. -/
def startsPart : List Char → Bool
  | [] => false
  | c :: _ => !isSpace c && c != ')'

/-- The characters without the first, if it is the given one. -/
def skipChar (c : Char) : List Char → List Char
  | [] => []
  | d :: r => if d = c then r else d :: r

theorem length_skipChar_le (c : Char) (s : List Char) : (skipChar c s).length ≤ s.length := by
  cases s with
  | nil => simp [skipChar]
  | cons d r =>
    rw [skipChar]
    split
    · simp
    · exact Nat.le_refl _

theorem isSpace_of_dropWhile {s : List Char} {c : Char} {r : List Char}
    (h : s.dropWhile isSpace = c :: r) : isSpace c = false := by
  induction s with
  | nil => simp at h
  | cons d s ih =>
    by_cases hd : isSpace d = true
    · rw [List.dropWhile_cons_of_pos hd] at h
      exact ih h
    · rw [List.dropWhile_cons_of_neg hd] at h
      obtain ⟨rfl, -⟩ := List.cons.inj h
      simpa using hd

theorem length_dropWhile_isSpace_le (s : List Char) :
    (s.dropWhile isSpace).length ≤ s.length :=
  (List.dropWhile_sublist isSpace).length_le

theorem value_contains_eq_false {c : Char} (hq : c ≠ '"') (ho : c ≠ '(') (hc : c ≠ ')')
    (hs : isSpace c = false) : Delimiters.value.contains c = false := by
  simp [Delimiters.contains, Delimiters.value, hq, ho, hc, hs]

/-- What is left over when a part at the front of `s` has been read. -/
abbrev PartRest (s : List Char) :=
  { r : List Char // r.length ≤ s.length ∧ (startsPart s = true → r.length < s.length) }

mutual

/-- Reads the part at the front of the characters. -/
def readPart (s : List Char) : Query × PartRest s :=
  match s with
  | [] => (.nothing, ⟨[], by simp [startsPart]⟩)
  | c :: r =>
    if c = '+' then
      let p := readOperand r
      (.require p.1, ⟨p.2.1, by have := p.2.2; simp only [List.length_cons]; omega⟩)
    else if c = '-' then
      let p := readOperand r
      (.exclude p.1, ⟨p.2.1, by have := p.2.2; simp only [List.length_cons]; omega⟩)
    else if hq : c = '"' then
      let run := Delimiters.quote.scan r
      (.term .precise (String.ofList run.text), ⟨skipChar '"' run.rest, by
        have := length_skipChar_le '"' run.rest
        have : run.rest.length ≤ r.length := Delimiters.scan_rest_length_le .quote r
        simp only [List.length_cons]; omega⟩)
    else if ho : c = '(' then
      let p := readParts true r
      (.ofList p.1, ⟨skipChar ')' p.2.1, by
        have := length_skipChar_le ')' p.2.1
        have := p.2.2
        simp only [List.length_cons]; omega⟩)
    else
      let run := Delimiters.value.scan (c :: r)
      (.term .standard (String.ofList run.text), ⟨run.rest,
        Delimiters.scan_rest_length_le .value (c :: r), fun h => by
          simp only [startsPart, Bool.and_eq_true, Bool.not_eq_true', bne_iff_ne] at h
          exact Delimiters.scan_rest_length_lt (value_contains_eq_false hq ho h.2 h.1) r⟩)
termination_by 3 * s.length

/-- Reads what a sign applies to: nothing, if no part starts right after the sign. -/
def readOperand (s : List Char) : Query × { r : List Char // r.length ≤ s.length } :=
  if startsPart s then
    let p := readPart s
    (p.1, ⟨p.2.1, p.2.2.1⟩)
  else (.nothing, ⟨s, Nat.le_refl _⟩)
termination_by 3 * s.length + 1

/-- Reads the parts up to the end of the input. Inside a group (`nested`) a closing bracket ends
them too and is left over; outside it is skipped. -/
def readParts (nested : Bool) (s : List Char) :
    List Query × { r : List Char // r.length ≤ s.length } :=
  have hle := length_dropWhile_isSpace_le s
  match h : s.dropWhile isSpace with
  | [] => ([], ⟨[], Nat.zero_le _⟩)
  | c :: r =>
    have hr : r.length + 1 ≤ s.length := by rw [h] at hle; exact hle
    if hc : c = ')' then
      if nested then ([], ⟨c :: r, hr⟩)
      else
        let p := readParts nested r
        (p.1, ⟨p.2.1, by have := p.2.2; omega⟩)
    else
      have hstart : startsPart (c :: r) = true := by
        simp [startsPart, isSpace_of_dropWhile h, hc]
      match readPart (c :: r) with
      | (q, ⟨t, ht⟩) =>
        have htr : t.length < r.length + 1 := ht.2 hstart
        let p := readParts nested t
        (q :: p.1, ⟨p.2.1, by have := p.2.2; omega⟩)
termination_by 3 * s.length + 2
decreasing_by all_goals (try simp only [List.length_cons]); omega

end

/-- The part at the front of the characters, and what follows it. -/
def part (s : List Char) : Query × List Char :=
  ((readPart s).1, (readPart s).2.1)

/-- What a sign in front of the characters applies to, and what follows it. -/
def operand (s : List Char) : Query × List Char :=
  ((readOperand s).1, (readOperand s).2.1)

/-- The parts up to the end, or inside a group up to a closing bracket, and what follows them. -/
def parts (nested : Bool) (s : List Char) : List Query × List Char :=
  ((readParts nested s).1, (readParts nested s).2.1)

/-- The query that a search string asks. -/
def Query.parse (input : String) : Query :=
  .ofList (parts false input.toList).1

theorem part_nil : part [] = (.nothing, []) := by
  simp [part, readPart]

theorem part_plus (r : List Char) :
    part ('+' :: r) = (.require (operand r).1, (operand r).2) := by
  simp [part, readPart, operand]

theorem part_minus (r : List Char) :
    part ('-' :: r) = (.exclude (operand r).1, (operand r).2) := by
  simp [part, readPart, operand]

theorem part_quote (r : List Char) :
    part ('"' :: r) = (.term .precise (String.ofList (Delimiters.quote.scan r).text),
      skipChar '"' (Delimiters.quote.scan r).rest) := by
  simp [part, readPart]

theorem part_open (r : List Char) :
    part ('(' :: r) = (.ofList (parts true r).1, skipChar ')' (parts true r).2) := by
  simp [part, readPart, parts]

theorem part_value {c : Char} (hp : c ≠ '+') (hm : c ≠ '-') (hq : c ≠ '"') (ho : c ≠ '(')
    (r : List Char) :
    part (c :: r) = (.term .standard (String.ofList (Delimiters.value.scan (c :: r)).text),
      (Delimiters.value.scan (c :: r)).rest) := by
  simp [part, readPart, hp, hm, hq, ho]

theorem operand_of_starts {s : List Char} (h : startsPart s = true) : operand s = part s := by
  simp [operand, readOperand, part, h]

theorem operand_of_not_starts {s : List Char} (h : startsPart s = false) :
    operand s = (.nothing, s) := by
  simp [operand, readOperand, h]

theorem parts_of_end (nested : Bool) {s : List Char} (h : s.dropWhile isSpace = []) :
    parts nested s = ([], []) := by
  unfold parts
  rw [readParts]
  split
  · rfl
  · next hs => rw [h] at hs; cases hs

theorem parts_of_close_nested {s r : List Char} (h : s.dropWhile isSpace = ')' :: r) :
    parts true s = ([], ')' :: r) := by
  unfold parts
  rw [readParts]
  split
  · next hs => rw [h] at hs; cases hs
  · next hs =>
    rw [h] at hs
    obtain ⟨rfl, rfl⟩ := List.cons.inj hs
    simp

theorem parts_of_close_outer {s r : List Char} (h : s.dropWhile isSpace = ')' :: r) :
    parts false s = parts false r := by
  unfold parts
  rw [readParts]
  split
  · next hs => rw [h] at hs; cases hs
  · next hs =>
    rw [h] at hs
    obtain ⟨rfl, rfl⟩ := List.cons.inj hs
    simp

theorem parts_of_starts (nested : Bool) {s t : List Char} (h : s.dropWhile isSpace = t)
    (ht : startsPart t = true) :
    parts nested s = ((part t).1 :: (parts nested (part t).2).1, (parts nested (part t).2).2) := by
  unfold parts
  rw [readParts]
  split
  · next hs =>
    rw [hs] at h
    subst h
    cases ht
  · next c r hs =>
    obtain rfl : c :: r = t := hs.symm.trans h
    have hc : c ≠ ')' := by
      intro hc
      simp [startsPart, hc] at ht
    simp [hc, part]

theorem length_part_lt {s : List Char} (h : startsPart s = true) :
    (part s).2.length < s.length :=
  (readPart s).2.2.2 h

end WeightedSearch
