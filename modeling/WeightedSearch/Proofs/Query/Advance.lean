/-
Reading goes on to the end.

A reader may stop in front of the first character and take nothing, and the readers call each other
and themselves.  Still each reading is finite: where a part starts, some of the input is taken, and
a sequence goes on with its next part behind it.  `ReadsPart` and `ReadsParts` say what a reading
does step by step, the rounds of a sequence included; being inductive, they hold of readings that
end and of no others.  Main statements:

* `readingSteps_suffix` — what is left over is the end of what was given;
* `readsPart_iff`, `readsParts_iff` — every reading ends, and gives what `part` and `parts` give;
* `reading_ends` — from every place in an input a reading ends at a place further on, and that of a
  sequence ends at the end of the input or in front of the bracket that closes its group.
-/
import WeightedSearch.Query.Position
import WeightedSearch.Proofs.Query.Reading

namespace WeightedSearch

/-! ### Readings step by step -/

mutual

/-- A reading of the part at the front of the characters: what it asks for, and what it leaves
over. -/
inductive ReadsPart : List Char → Query → List Char → Prop
  /-- a sign in front of a part -/
  | mark {c : Char} {s r : List Char} {q : Query} (hc : isMark c = true)
      (hs : startsPart s = true) (hq : ReadsPart s q r) : ReadsPart (c :: s) (q.markedBy c) r
  /-- a sign that applies to nothing -/
  | loneMark {c : Char} {s : List Char} (hc : isMark c = true) (hs : startsPart s = false) :
      ReadsPart (c :: s) .nothing s
  | quote (s : List Char) :
      ReadsPart ('"' :: s) (.term .precise (String.ofList (Delimiters.quote.scan s).text))
        (skipChar '"' (Delimiters.quote.scan s).rest)
  | group {s r : List Char} {qs : List Query} (hqs : ReadsParts true s qs r) :
      ReadsPart ('(' :: s) (.ofList qs) (skipChar ')' r)
  | value {c : Char} {s : List Char} (hc : startsValue c = true) :
      ReadsPart (c :: s) (.term .standard (String.ofList (Delimiters.value.scan (c :: s)).text))
        (Delimiters.value.scan (c :: s)).rest

/-- A reading of the sequence at the front of the characters, nested in a group or not. -/
inductive ReadsParts : Bool → List Char → List Query → List Char → Prop
  | finish (nested : Bool) {s : List Char} (hs : s.dropWhile isSpace = []) :
      ReadsParts nested s [] []
  /-- inside a group a closing bracket ends the sequence and is left over -/
  | close {s t : List Char} (hs : s.dropWhile isSpace = ')' :: t) : ReadsParts true s [] (')' :: t)
  /-- outside a closing bracket is skipped -/
  | skip {s t r : List Char} {qs : List Query} (hs : s.dropWhile isSpace = ')' :: t)
      (hqs : ReadsParts false t qs r) : ReadsParts false s qs r
  | next (nested : Bool) {s t u r : List Char} {q : Query} {qs : List Query}
      (hs : s.dropWhile isSpace = t) (ht : startsPart t = true) (hq : ReadsPart t q u)
      (hqs : ReadsParts nested u qs r) : ReadsParts nested s (q :: qs) r

end

theorem ReadsParts.space {nested : Bool} {c : Char} {s r : List Char} {qs : List Query}
    (hc : isSpace c = true) (h : ReadsParts nested s qs r) : ReadsParts nested (c :: s) qs r := by
  have hdrop : (c :: s).dropWhile isSpace = s.dropWhile isSpace := List.dropWhile_cons_of_pos hc
  cases h with
  | finish _ hs => exact .finish _ (hdrop.trans hs)
  | close hs => exact .close (hdrop.trans hs)
  | skip hs hqs => exact .skip (hdrop.trans hs) hqs
  | next _ hs ht hq hqs => exact .next _ (hdrop.trans hs) ht hq hqs

theorem Query.markedBy_nothing (c : Char) : Query.nothing.markedBy c = .nothing := by
  rw [markedBy]
  split
  · rfl
  · rfl

/-- Every reading ends. -/
theorem readingSteps_reads :
    ReadingSteps (fun s => ReadsPart s (part s).1 (part s).2)
      fun nested s => ReadsParts nested s (parts nested s).1 (parts nested s).2 := by
  constructor
  case mark =>
    intro c r hc hs hr
    rw [part_mark hc, operand_of_starts hs]
    exact .mark hc hs hr
  case loneMark =>
    intro c r hc hs
    rw [part_mark hc, operand_of_not_starts hs, Query.markedBy_nothing]
    exact .loneMark hc hs
  case quote =>
    intro r
    rw [part_quote]
    exact .quote r
  case group =>
    intro r hr
    rw [part_open]
    exact .group hr
  case value =>
    intro c r hc
    rw [part_of_startsValue hc]
    exact .value hc
  case finish =>
    intro nested
    rw [parts_nil]
    exact .finish nested rfl
  case space =>
    intro nested c r hc hr
    rw [parts_space nested hc]
    exact hr.space hc
  case closeNested =>
    intro r
    rw [parts_close_nested]
    exact .close rfl
  case closeOuter =>
    intro r hr
    rw [parts_close_outer]
    exact .skip rfl hr
  case next =>
    intro nested s hs hpart hrest
    rw [parts_part nested hs]
    exact .next nested (dropWhile_of_startsPart hs) hs hpart hrest

mutual

/-- A reading of a part, however it came about, is the one that is computed. -/
theorem ReadsPart.eq_part {s r : List Char} {q : Query} :
    ReadsPart s q r → part s = (q, r)
  | .mark hc hs hq => by rw [part_mark hc, operand_of_starts hs, hq.eq_part]
  | .loneMark hc hs => by rw [part_mark hc, operand_of_not_starts hs, Query.markedBy_nothing]
  | .quote t => part_quote t
  | .group hqs => by rw [part_open, hqs.eq_parts]
  | .value hc => part_of_startsValue hc _

/-- And so is a reading of a sequence. -/
theorem ReadsParts.eq_parts {nested : Bool} {s r : List Char} {qs : List Query} :
    ReadsParts nested s qs r → parts nested s = (qs, r)
  | .finish _ hs => parts_of_end nested hs
  | .close hs => parts_of_close_nested hs
  | .skip hs hqs => by rw [parts_of_close_outer hs, hqs.eq_parts]
  | .next _ hs ht hq hqs => by rw [parts_of_starts nested hs ht, hq.eq_part, hqs.eq_parts]

end

/-- Where a part starts there is one reading of it. -/
theorem readsPart_iff {s r : List Char} {q : Query} (hs : startsPart s = true) :
    ReadsPart s q r ↔ part s = (q, r) := by
  refine ⟨ReadsPart.eq_part, fun h => ?_⟩
  -- the reading that always exists is the one that is computed
  have hreads := readingSteps_reads.part hs
  rwa [h] at hreads

/-- There is one reading of a sequence. -/
theorem readsParts_iff {nested : Bool} {s r : List Char} {qs : List Query} :
    ReadsParts nested s qs r ↔ parts nested s = (qs, r) := by
  refine ⟨ReadsParts.eq_parts, fun h => ?_⟩
  have hreads := readingSteps_reads.parts nested s
  rwa [h] at hreads

/-! ### What is left over -/

theorem Delimiters.scan_rest_suffix (t : Delimiters) (s : List Char) : (t.scan s).rest <:+ s := by
  fun_induction scan t s with
  | case1 => exact List.suffix_refl _
  | case2 => exact List.nil_suffix
  | case3 _ _ ih => exact ih.trans ((List.suffix_cons _ _).trans (List.suffix_cons _ _))
  | case4 => exact List.suffix_refl _
  | case5 _ _ _ _ ih => exact ih.trans (List.suffix_cons _ _)

theorem skipChar_suffix (c : Char) (s : List Char) : skipChar c s <:+ s := by
  cases s with
  | nil => exact List.suffix_refl _
  | cons d r =>
    rw [skipChar]
    split
    · exact List.suffix_cons d r
    · exact List.suffix_refl _

/-- What a reading leaves over is the end of what it was given. -/
theorem readingSteps_suffix :
    ReadingSteps (fun s => (part s).2 <:+ s) fun nested s => (parts nested s).2 <:+ s := by
  constructor
  case mark =>
    intro c r hc hs hr
    rw [part_mark hc, operand_of_starts hs]
    exact hr.trans (List.suffix_cons c r)
  case loneMark =>
    intro c r hc hs
    rw [part_mark hc, operand_of_not_starts hs]
    exact List.suffix_cons c r
  case quote =>
    intro r
    rw [part_quote]
    -- the opening quote, the text, and the closing quote if there is one
    exact (skipChar_suffix _ _).trans
      ((Delimiters.scan_rest_suffix _ r).trans (List.suffix_cons _ r))
  case group =>
    intro r hr
    rw [part_open]
    exact (skipChar_suffix _ _).trans (hr.trans (List.suffix_cons _ r))
  case value =>
    intro c r hc
    rw [part_of_startsValue hc]
    exact Delimiters.scan_rest_suffix _ _
  case finish =>
    intro nested
    simp only [parts_nil, List.nil_suffix]
  case space =>
    intro nested c r hc hr
    rw [parts_space nested hc]
    exact hr.trans (List.suffix_cons c r)
  case closeNested =>
    intro r
    simp only [parts_close_nested, List.suffix_rfl]
  case closeOuter =>
    intro r hr
    rw [parts_close_outer]
    exact hr.trans (List.suffix_cons _ r)
  case next =>
    intro nested s hs hpart hrest
    rw [parts_part nested hs]
    exact hrest.trans hpart

namespace Position

/-- The place in front of an end of what follows a place. -/
theorem exists_of_suffix {p : Position} {s t : List Char} (hs : p.rest? = some s) (ht : t <:+ s) :
    ∃ p' : Position, p'.input = p.input ∧ p'.rest? = some t ∧ p.offset ≤ p'.offset ∧
      (t.length < s.length → p.offset < p'.offset) := by
  obtain ⟨read, rfl⟩ := ht
  refine ⟨p.moveOver read, rfl, rest?_moveOver hs, Nat.le_add_right _ _, fun hlt => ?_⟩
  -- a character that is passed has a byte at least
  have hread : byteLength read ≠ 0 := by
    rw [Ne, byteLength_eq_zero_iff]
    rintro rfl
    exact Nat.lt_irrefl _ hlt
  exact Nat.lt_add_of_pos_right (Nat.pos_of_ne_zero hread)

/-! ### Readings from a place in an input -/

/-- From every place in an input a reading is finite. Where a part starts it ends further on. A
sequence outside of groups ends at the end of the input, and one inside a group there or in front of
a closing bracket. -/
theorem reading_ends {p : Position} {s : List Char} (hs : p.rest? = some s) :
    (∀ c t, s = c :: t → isSpace c = false → c ≠ ')' →
      (∀ q r, ReadsPart s q r ↔ part s = (q, r)) ∧
      ∃ p' : Position, p'.input = p.input ∧ p'.rest? = some (part s).2 ∧ p.offset < p'.offset) ∧
    ∀ nested, (∀ qs r, ReadsParts nested s qs r ↔ parts nested s = (qs, r)) ∧
      ∃ p' : Position, p'.input = p.input ∧ p'.rest? = some (parts nested s).2 ∧
        p.offset ≤ p'.offset ∧ (p'.atEnd = true ∨ nested = true ∧ p'.next? = some ')') := by
  constructor
  · -- a part takes its first character, so the place moves on
    rintro c t rfl hspace hclose
    have hstart : startsPart (c :: t) = true := by simp [startsPart, hspace, hclose]
    obtain ⟨p', hinput, hrest, -, hlt⟩ := exists_of_suffix hs (readingSteps_suffix.part hstart)
    exact ⟨fun q r => readsPart_iff hstart, p', hinput, hrest, hlt (length_part_lt hstart)⟩
  · intro nested
    obtain ⟨p', hinput, hrest, hle, -⟩ := exists_of_suffix hs (readingSteps_suffix.parts nested s)
    refine ⟨fun qs r => readsParts_iff, p', hinput, hrest, hle, ?_⟩
    -- what a sequence leaves over decides where it ended
    rcases rest_parts nested s with hend | ⟨hnested, r, hclose⟩
    · exact Or.inl ((atEnd_iff hrest).2 hend)
    · refine Or.inr ⟨hnested, ?_⟩
      rw [next?, rest, hrest, hclose]
      rfl

/-- The group behind two bytes of text and a space is read up to its closing bracket, and so is a
sequence inside it; another closing bracket behind it is skipped. -/
theorem reading_ends_group :
    let p : Position := ⟨"é (-b c))", 3⟩
    let s := ['(', '-', 'b', ' ', 'c', ')', ')']
    let b : Query := .excluded (.value .standard "b")
    let c : Query := .value .standard "c"
    p.rest? = some s ∧
    (ReadsPart s (.group [b, c]) [')'] ∧
      ∃ p' : Position, p'.input = p.input ∧ p'.rest? = some [')'] ∧ 3 < p'.offset) ∧
    (ReadsParts false s [.group [b, c]] [] ∧
      ∃ p' : Position, p'.input = p.input ∧ p'.rest? = some [] ∧ p'.atEnd = true) ∧
    ReadsParts true s [.group [b, c]] [')'] ∧
      ∃ p' : Position, p'.input = p.input ∧ p'.rest? = some [')'] ∧ p'.next? = some ')' := by
  intro p s b c
  have hs : p.rest? = some s := by decide +kernel
  have hpart : part s = (.group [b, c], [')']) := by decide +kernel
  have houter : parts false s = ([.group [b, c]], []) := by decide +kernel
  have hnested : parts true s = ([.group [b, c]], [')']) := by decide +kernel
  obtain ⟨hreads, hsequence⟩ := reading_ends hs
  obtain ⟨hp, hadvance⟩ := hreads _ _ rfl (by decide) (by decide)
  obtain ⟨ho, p₁, hinput₁, hrest₁, -, hend₁⟩ := hsequence false
  obtain ⟨hn, p₂, hinput₂, hrest₂, -, hend₂⟩ := hsequence true
  rw [hpart] at hadvance
  rw [houter] at hrest₁
  rw [hnested] at hrest₂
  refine ⟨hs, ⟨(hp _ _).2 hpart, hadvance⟩, ⟨(ho _ _).2 houter, p₁, hinput₁, hrest₁, ?_⟩,
    (hn _ _).2 hnested, p₂, hinput₂, hrest₂, ?_⟩
  · exact hend₁.resolve_right (fun h => Bool.false_ne_true h.1)
  · rcases hend₂ with hend | ⟨-, hnext⟩
    · cases (atEnd_iff hrest₂).1 hend
    · exact hnext

end Position

end WeightedSearch
