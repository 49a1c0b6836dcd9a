/-
The end of a search string.

The end of the input closes what is open: a group, a value in quotes, an escape that waits for its
character.  To write the closing characters down changes nothing.  The string and the longer string
are read side by side.  As long as a reader stops before the end of the shorter one, it does not
notice what follows; the reader that comes to the end notices, and what it leaves over then says
nothing.  Main statements:

* `parts_idle`, `operand_idle` — closing brackets and a last backslash ask for nothing;
* `readingSteps_closes` — how a part and a sequence are read in front of what closes them;
* `parse_append_of_closes` — what closes a search string does not change the query;
* `parse_closed` — the same for the three ways in which a string can end.
-/
import WeightedSearch.Proofs.Query.Escapes
import WeightedSearch.Proofs.Query.Reading

namespace WeightedSearch

/-! ### What says nothing at the end -/

/-- Closing brackets, and after them perhaps a backslash that escapes nothing. -/
inductive Idle : List Char → Prop
  | finish : Idle []
  | escape : Idle [escape]
  | close (t : List Char) : Idle t → Idle (')' :: t)

theorem idle_replicate (m : Nat) : Idle (List.replicate m ')') := by
  induction m with
  | zero => exact Idle.finish
  | succ m ih => exact Idle.close _ ih

theorem idle_skipChar {t : List Char} (h : Idle t) : Idle (skipChar ')' t) := by
  cases h with
  | finish => exact Idle.finish
  | escape => exact Idle.escape
  | close t ht => exact ht

/-- A bare value that has ended gets nothing of what says nothing. -/
theorem scan_value_idle {t : List Char} (h : Idle t) :
    (Delimiters.value.scan t).text = [] ∧ Idle (Delimiters.value.scan t).rest := by
  cases h with
  | finish => exact ⟨rfl, Idle.finish⟩
  | escape => exact ⟨rfl, Idle.finish⟩
  | close t ht =>
    rw [Delimiters.scan_of_contains (by decide)]
    exact ⟨rfl, Idle.close t ht⟩

theorem part_escape : part [escape] = (.nothing, []) := by
  rw [part_of_startsValue (by decide)]
  rfl

theorem operand_idle {t : List Char} (h : Idle t) :
    (operand t).1 = .nothing ∧ Idle (operand t).2 := by
  cases h with
  | finish =>
    rw [operand_of_not_starts rfl]
    exact ⟨rfl, Idle.finish⟩
  | escape =>
    rw [operand_of_starts (by decide), part_escape]
    exact ⟨rfl, Idle.finish⟩
  | close t ht =>
    rw [operand_of_not_starts rfl]
    exact ⟨rfl, Idle.close t ht⟩

/-- No sequence finds a part in what says nothing. -/
theorem parts_idle (nested : Bool) {t : List Char} (h : Idle t) :
    Query.asking (parts nested t).1 = [] ∧ Idle (parts nested t).2 := by
  induction h with
  | finish =>
    rw [parts_nil]
    exact ⟨rfl, Idle.finish⟩
  | escape =>
    rw [parts_part nested (by decide), part_escape, parts_nil]
    exact ⟨rfl, Idle.finish⟩
  | close t ht ih =>
    cases nested with
    | false =>
      rw [parts_close_outer]
      exact ih
    -- a bracket that closes a group is left over for the group
    | true =>
      rw [parts_close_nested]
      exact ⟨rfl, Idle.close t ht⟩

/-! ### What closes a search string -/

/-- What may stand behind characters that end inside a quote, or outside of quotes, without a
change to their meaning. -/
inductive Closes : Bool → List Char → Prop
  | outside (t : List Char) : Idle t → Closes false t
  | quote (t : List Char) : Idle t → Closes true ('"' :: t)
  | escape : Closes true [escape]

theorem Closes.idle {u : List Char} (h : Closes false u) : Idle u := by
  cases h with
  | outside t ht => exact ht

/-- What closes a quote adds nothing to its text. -/
theorem scan_quote_closes {u : List Char} (h : Closes true u) :
    (Delimiters.quote.scan u).text = [] ∧ Idle (skipChar '"' (Delimiters.quote.scan u).rest) := by
  cases h with
  | quote t ht =>
    rw [Delimiters.scan_of_contains (by decide)]
    exact ⟨rfl, ht⟩
  | escape => exact ⟨rfl, Idle.finish⟩

/-- A backslash without its character closes inside a quote and outside. -/
theorem closes_escape (q : Bool) : Closes q [escape] := by
  cases q with
  | false => exact Closes.outside _ Idle.escape
  | true => exact Closes.escape

/-- Whether `r'`, left over of `s ++ u`, is what `r`, left over of `s`, becomes: either the reader
stopped before the end of `s`, or it came to the end and left over nothing of `s`. -/
def Carries (q : Bool) (u r r' : List Char) : Prop :=
  r' = r ++ u ∧ Mode.start.after r = ⟨q, false⟩ ∨ r = [] ∧ Idle r'

section

variable {q : Bool} {u : List Char}

theorem Closes.idle_of_end (hu : Closes q u) (h : Mode.start.after [] = ⟨q, false⟩) : Idle u := by
  have hq : (⟨false, false⟩ : Mode) = ⟨q, false⟩ := h
  cases hq
  exact hu.idle

/-- A bracket behind a group is passed over in both, or stands in what closes. -/
theorem Carries.skip_close (hu : Closes q u) {r r' : List Char} (h : Carries q u r r')
    (hr : r = [] ∨ ∃ t, r = ')' :: t) : Carries q u (skipChar ')' r) (skipChar ')' r') := by
  rcases h with ⟨rfl, hmode⟩ | ⟨rfl, hidle⟩
  · rcases hr with rfl | ⟨t, rfl⟩
    · exact Or.inr ⟨rfl, idle_skipChar (hu.idle_of_end hmode)⟩
    · exact Or.inl ⟨rfl, hmode⟩
  · exact Or.inr ⟨rfl, idle_skipChar hidle⟩

theorem startsPart_append {s : List Char} (hs : startsPart s = true) (u : List Char) :
    startsPart (s ++ u) = true := by
  cases s with
  | nil => cases hs
  | cons c r => exact hs

theorem after_start_mark {c : Char} (hc : isMark c = true) (s : List Char) :
    Mode.start.after (c :: s) = Mode.start.after s := by
  refine Mode.after_cons_plain false ?_ ?_ s <;>
  · rintro rfl
    exact absurd hc (by decide)

theorem after_start_space {c : Char} (hc : isSpace c = true) (s : List Char) :
    Mode.start.after (c :: s) = Mode.start.after s := by
  refine Mode.after_cons_plain false ?_ ?_ s <;>
  · rintro rfl
    exact absurd hc (by decide)

/-- A sign with nothing behind it asks for nothing, whatever closes the characters. -/
theorem operand_closes (hu : Closes q u) {s : List Char} (hs : startsPart s = false)
    (hmode : Mode.start.after s = ⟨q, false⟩) :
    (operand (s ++ u)).1 = .nothing ∧ Carries q u s (operand (s ++ u)).2 := by
  cases s with
  | nil =>
    obtain ⟨hnothing, hidle⟩ := operand_idle (hu.idle_of_end hmode)
    exact ⟨hnothing, Or.inr ⟨rfl, hidle⟩⟩
  | cons c r =>
    have hsu : startsPart (c :: r ++ u) = false := hs
    rw [operand_of_not_starts hsu]
    exact ⟨rfl, Or.inl ⟨rfl, hmode⟩⟩

/-- A value in quotes is the same, whether its quote is closed before the end or behind it. -/
theorem part_quote_closes (hu : Closes q u) {r : List Char}
    (hmode : Mode.after ⟨true, false⟩ r = ⟨q, false⟩) :
    (part ('"' :: (r ++ u))).1 = (part ('"' :: r)).1 ∧
      Carries q u (part ('"' :: r)).2 (part ('"' :: (r ++ u))).2 := by
  have ht : Delimiters.quote.contains '"' = true := by decide
  rw [part_quote, part_quote]
  cases hrest : (Delimiters.quote.scan r).rest with
  | cons c t =>
    -- the quote is closed before the end
    have hne : (Delimiters.quote.scan r).rest ≠ [] := by simp [hrest]
    have hc : c = '"' := Delimiters.quote_scan_rest_head hrest
    have hafter := Delimiters.after_scan_rest ht true hne
    rw [hrest, hc] at hafter
    rw [Delimiters.scan_append_of_rest hne, hrest, hc]
    exact ⟨rfl, Or.inl ⟨rfl, hafter.trans hmode⟩⟩
  | nil =>
    -- the end of the characters is inside the quote, so what closes them closes it
    have hquoted := Delimiters.quoted_after_scan ht true hrest
    have hescaped : (Mode.after ⟨true, false⟩ r).escaped = false := by rw [hmode]
    rw [hmode] at hquoted
    cases hquoted
    obtain ⟨htext, hidle⟩ := scan_quote_closes hu
    rw [Delimiters.scan_append_of_end ht hrest hescaped, htext, List.append_nil]
    exact ⟨rfl, Or.inr ⟨rfl, hidle⟩⟩

/-- A bare value is the same, whether it ends before the end or behind it. -/
theorem part_value_closes (hu : Closes q u) {c : Char} {r : List Char} (hc : startsValue c = true)
    (hmode : Mode.start.after (c :: r) = ⟨q, false⟩) :
    (part (c :: r ++ u)).1 = (part (c :: r)).1 ∧
      Carries q u (part (c :: r)).2 (part (c :: r ++ u)).2 := by
  have ht : Delimiters.value.contains '"' = true := by decide
  rw [List.cons_append, part_of_startsValue hc, part_of_startsValue hc, ← List.cons_append]
  by_cases hrest : (Delimiters.value.scan (c :: r)).rest = []
  · -- the value goes to the end, and no quote is open there
    have hquoted := Delimiters.quoted_after_scan ht false hrest
    have hescaped : (Mode.after ⟨false, false⟩ (c :: r)).escaped = false := by
      rw [show Mode.after ⟨false, false⟩ (c :: r) = ⟨q, false⟩ from hmode]
    rw [show Mode.after ⟨false, false⟩ (c :: r) = ⟨q, false⟩ from hmode] at hquoted
    cases hquoted
    obtain ⟨htext, hidle⟩ := scan_value_idle hu.idle
    rw [Delimiters.scan_append_of_end ht hrest hescaped, htext, List.append_nil]
    exact ⟨rfl, Or.inr ⟨hrest, hidle⟩⟩
  · -- the value ends before, where the mode is the one at the start
    have hafter := Delimiters.after_scan_rest ht false hrest
    rw [Delimiters.scan_append_of_rest hrest]
    exact ⟨rfl, Or.inl ⟨rfl, hafter.trans hmode⟩⟩

/-- In front of what closes the characters, the readers find the same as at the end of the input. -/
theorem readingSteps_closes (hu : Closes q u) :
    ReadingSteps
      (fun s => Mode.start.after s = ⟨q, false⟩ →
        (part (s ++ u)).1 = (part s).1 ∧ Carries q u (part s).2 (part (s ++ u)).2)
      fun nested s => Mode.start.after s = ⟨q, false⟩ →
        Query.asking (parts nested (s ++ u)).1 = Query.asking (parts nested s).1 ∧
          Carries q u (parts nested s).2 (parts nested (s ++ u)).2 := by
  -- the readers stop at the same place, or both have come to what closes the characters; `Carries`
  -- says which, and the steps pass it on
  constructor
  case mark =>
    intro c r hc hs hr hmode
    have hsu : startsPart (r ++ u) = true := startsPart_append hs u
    rw [after_start_mark hc] at hmode
    obtain ⟨hquery, hcarries⟩ := hr hmode
    rw [List.cons_append, part_mark hc, part_mark hc, operand_of_starts hs, operand_of_starts hsu,
      hquery]
    exact ⟨rfl, hcarries⟩
  case loneMark =>
    intro c r hc hs hmode
    rw [after_start_mark hc] at hmode
    obtain ⟨hquery, hcarries⟩ := operand_closes hu hs hmode
    rw [List.cons_append, part_mark hc, part_mark hc, operand_of_not_starts hs, hquery]
    exact ⟨rfl, hcarries⟩
  case quote =>
    intro r hmode
    exact part_quote_closes hu hmode
  case group =>
    intro r hr hmode
    obtain ⟨hasking, hcarries⟩ := hr hmode
    rw [List.cons_append, part_open, part_open, Query.ofList_congr hasking]
    -- a group that was open to the end is closed by what follows
    exact ⟨rfl, hcarries.skip_close hu (rest_parts_nested r)⟩
  case value =>
    intro c r hc hmode
    exact part_value_closes hu hc hmode
  case finish =>
    intro nested hmode
    obtain ⟨hasking, hidle⟩ := parts_idle nested (hu.idle_of_end hmode)
    rw [parts_nil]
    exact ⟨hasking, Or.inr ⟨rfl, hidle⟩⟩
  case space =>
    intro nested c r hc hr hmode
    rw [after_start_space hc] at hmode
    rw [List.cons_append, parts_space nested hc, parts_space nested hc]
    exact hr hmode
  case closeNested =>
    intro r hmode
    rw [List.cons_append, parts_close_nested, parts_close_nested]
    exact ⟨rfl, Or.inl ⟨rfl, hmode⟩⟩
  case closeOuter =>
    intro r hr hmode
    rw [List.cons_append, parts_close_outer, parts_close_outer]
    exact hr hmode
  case next =>
    intro nested s hs hpart hrest hmode
    obtain ⟨hquery, hcarries⟩ := hpart hmode
    have hsu : startsPart (s ++ u) = true := startsPart_append hs u
    rw [parts_part nested hs, parts_part nested hsu, hquery]
    -- the rest is read by hypothesis if the part left some of it, and else says nothing
    rcases hcarries with ⟨hleft, hmode'⟩ | ⟨hleft, hidle⟩
    · obtain ⟨hasking, hcarries⟩ := hrest hmode'
      rw [hleft]
      exact ⟨Query.asking_cons_congr _ hasking, hcarries⟩
    · obtain ⟨hasking, hidle⟩ := parts_idle nested hidle
      rw [hleft, parts_nil]
      exact ⟨Query.asking_cons_congr _ hasking, Or.inr ⟨rfl, hidle⟩⟩

namespace Query

/-- What closes a search string does not change the query that it asks. -/
theorem parse_append_of_closes (hu : Closes q u) {s : List Char}
    (hmode : Mode.start.after s = ⟨q, false⟩) :
    parse (String.ofList (s ++ u)) = parse (String.ofList s) := by
  have hread := ((readingSteps_closes hu).parts false s hmode).1
  rw [parse, parse, String.toList_ofList, String.toList_ofList]
  exact ofList_congr hread

end Query

end

namespace Query

/-- A backslash at the end that escapes nothing may be left out. Where no backslash waits for its
character, any number of closing brackets may be added, with a quote before them if one is open. -/
theorem parse_closed (s : String) :
    (endsEscaping s.toList = true → parse s = parse (String.ofList s.toList.dropLast)) ∧
    (endsEscaping s.toList = false → endsInQuote s.toList = false →
      ∀ m, parse (s ++ String.ofList (List.replicate m ')')) = parse s) ∧
    (endsEscaping s.toList = false → endsInQuote s.toList = true →
      ∀ m, parse (s ++ "\"" ++ String.ofList (List.replicate m ')')) = parse s) := by
  have hmode := Mode.after_start s.toList
  refine ⟨fun he => ?_, fun he hq m => ?_, fun he hq m => ?_⟩
  · rcases List.eq_nil_or_concat s.toList with hl | ⟨l, c, hl⟩
    · rw [hl] at he
      cases he
    · rw [List.concat_eq_append] at hl
      rw [hl, endsEscaping_concat, Bool.and_eq_true, beq_iff_eq, Bool.not_eq_true'] at he
      obtain ⟨rfl, he⟩ := he
      -- without its last backslash the string may end inside a quote or outside
      have hinit := Mode.after_start l
      rw [he] at hinit
      have hclosed := parse_append_of_closes (closes_escape _) hinit
      rw [hl, List.dropLast_concat, ← hclosed, ← hl, String.ofList_toList]
  · rw [he, hq] at hmode
    have hclosed := parse_append_of_closes (Closes.outside _ (idle_replicate m)) hmode
    rwa [String.ofList_append, String.ofList_toList] at hclosed
  · rw [he, hq] at hmode
    have hclosed := parse_append_of_closes (Closes.quote _ (idle_replicate m)) hmode
    rw [List.append_cons, String.ofList_append, String.ofList_append, String.ofList_toList] at hclosed
    exact hclosed

/-- The strings `a (b\\\` with its three backslashes, `+(a -(\"b` with a quote that is escaped, and
`(a "b) c` with a bracket that stands in quotes. -/
theorem parse_closed_three_ends :
    (endsEscaping "a (b\\\\\\".toList = true ∧ parse "a (b\\\\\\" = parse "a (b\\\\") ∧
    (endsEscaping "+(a -(\\\"b".toList = false ∧ endsInQuote "+(a -(\\\"b".toList = false ∧
      parse ("+(a -(\\\"b" ++ String.ofList (List.replicate 2 ')')) = parse "+(a -(\\\"b") ∧
    (endsEscaping "(a \"b) c".toList = false ∧ endsInQuote "(a \"b) c".toList = true ∧
      parse ("(a \"b) c" ++ "\"" ++ String.ofList (List.replicate 3 ')')) = parse "(a \"b) c") := by
  have hescape := parse_closed "a (b\\\\\\"
  have hgroups := parse_closed "+(a -(\\\"b"
  have hquote := parse_closed "(a \"b) c"
  refine ⟨⟨by decide, ?_⟩, ⟨by decide, by decide, ?_⟩, by decide, by decide, ?_⟩
  · exact hescape.1 (by decide)
  · exact hgroups.2.1 (by decide) (by decide) 2
  · exact hquote.2.2 (by decide) (by decide) 3

end Query

end WeightedSearch
