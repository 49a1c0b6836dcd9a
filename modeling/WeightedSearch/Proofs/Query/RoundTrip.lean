/-
Reading what was written.

A query written as a search string is read back as the same query, rebuilt without blank values and
degenerate groups.  A rendering is read correctly in front of any characters that no part starts
with: the end of the input, a space or a closing bracket, one of which follows each rendering.
Main statements:

* `Delimiters.scan_escaped` — scanning undoes escaping;
* `operand_render` — a rendering is read up to its end, whatever tree it stands for;
* `parts_renderAll` — so are the members of a group, up to the closing bracket or the end;
* `parse_toSearchString` — reading undoes writing.
-/
import WeightedSearch.Query.Parse
import WeightedSearch.Query.Render
import WeightedSearch.Proofs.Query.WellFormed

namespace WeightedSearch

/-! ### Scanning undoes escaping -/

theorem scan_value_of_not_startsPart {r : List Char} (h : startsPart r = false) :
    Delimiters.value.scan r = ⟨[], r⟩ := by
  cases r with
  | nil => exact Delimiters.scan_nil _
  | cons c r =>
    refine Delimiters.scan_of_contains ?_ r
    by_cases hc : c = ')'
    · subst hc
      decide
    · have hs : isSpace c = true := by simpa [startsPart, hc] using h
      simp [Delimiters.contains, Delimiters.value, hs]

/-- Whether the character is scanned as it is only behind a backslash. -/
def Delimiters.isSpecial (t : Delimiters) (c : Char) : Bool :=
  c == escape || t.contains c

/-- The text with a backslash in front of each delimiter and each backslash. -/
def Delimiters.escaped (t : Delimiters) (text : List Char) : List Char :=
  text.flatMap fun c => if t.isSpecial c then [escape, c] else [c]

theorem Delimiters.escaped_cons (t : Delimiters) (c : Char) (s : List Char) :
    t.escaped (c :: s)
      = if t.isSpecial c then escape :: c :: t.escaped s else c :: t.escaped s := by
  rw [escaped, List.flatMap_cons]
  split
  · rfl
  · rfl

/-- Scanning undoes escaping in front of all characters where a run ends. -/
theorem Delimiters.scan_escaped (t : Delimiters) (s : List Char) {r : List Char}
    (h : t.scan r = ⟨[], r⟩) : t.scan (t.escaped s ++ r) = ⟨s, r⟩ := by
  induction s with
  | nil => exact h
  | cons c s ih =>
    rw [escaped_cons]
    split
    · rw [List.cons_append, List.cons_append, scan_escape_cons, ih]
      rfl
    · next hc =>
      rw [isSpecial, Bool.or_eq_true, beq_iff_eq, not_or, Bool.not_eq_true] at hc
      rw [List.cons_append, scan_cons hc.1 hc.2, ih]
      rfl

/-- The rest of a standard value is escaped for the run that a bare value is. -/
theorem escapeInner_eq (s : List Char) : escapeInner s = Delimiters.value.escaped s := by
  have hspecial : ∀ c, isStructural c = Delimiters.value.isSpecial c := by
    simp only [isStructural, Delimiters.isSpecial, Delimiters.contains, Delimiters.value, escape]
    grind
  simp only [escapeInner, Delimiters.escaped, hspecial, escape]

/-- A precise value is escaped for the run up to its closing quote. -/
theorem escapePrecise_eq (s : List Char) : escapePrecise s = Delimiters.quote.escaped s := by
  have hspecial : ∀ c, (c == '\\' || c == '"') = Delimiters.quote.isSpecial c := by
    simp only [Delimiters.isSpecial, Delimiters.contains, Delimiters.quote, escape]
    grind
  simp only [escapePrecise, Delimiters.escaped, hspecial, escape]

theorem scan_value_escapeInner (s : List Char) {r : List Char} (h : startsPart r = false) :
    Delimiters.value.scan (escapeInner s ++ r) = ⟨s, r⟩ := by
  rw [escapeInner_eq]
  exact Delimiters.scan_escaped _ s (scan_value_of_not_startsPart h)

theorem scan_value_escapeStandard (s : List Char) {r : List Char} (h : startsPart r = false) :
    Delimiters.value.scan (escapeStandard s ++ r) = ⟨s, r⟩ := by
  cases s with
  | nil => exact scan_value_of_not_startsPart h
  | cons c s =>
    rw [escapeStandard]
    split
    -- a mark in front of a value is escaped, and one behind it is not
    · show Delimiters.value.scan (escape :: c :: (escapeInner s ++ r)) = _
      rw [Delimiters.scan_escape_cons, scan_value_escapeInner s h]
      rfl
    · exact scan_value_escapeInner (c :: s) h

theorem scan_quote_escapePrecise (s r : List Char) :
    Delimiters.quote.scan (escapePrecise s ++ '"' :: r) = ⟨s, '"' :: r⟩ := by
  rw [escapePrecise_eq]
  exact Delimiters.scan_escaped _ s (Delimiters.scan_of_contains (by decide) r)

/-! ### The first character decides -/

/-- Whether a bare value starts with the character: it has no meaning of its own there, or it is the
backslash. -/
def startsValue (c : Char) : Bool :=
  c == '\\' || !(isStructural c || isMark c)

/-- An escaped value starts with a character that a bare value starts with. -/
theorem escapeStandard_cons (c : Char) (s : List Char) :
    ∃ d t, escapeStandard (c :: s) = d :: t ∧ startsValue d = true := by
  rw [escapeStandard]
  by_cases hm : isMark c = true
  · exact ⟨'\\', c :: escapeInner s, by rw [if_pos hm], by decide⟩
  · rw [if_neg hm]
    by_cases hc : isStructural c = true
    · exact ⟨'\\', c :: escapeInner s, by simp [escapeInner, hc], by decide⟩
    · exact ⟨c, escapeInner s, by simp [escapeInner, hc], by simp [startsValue, hm, hc]⟩

theorem startsPart_of_startsValue {c : Char} (h : startsValue c = true) (r : List Char) :
    startsPart (c :: r) = true := by
  by_cases hb : c = '\\'
  · subst hb
    rfl
  · have hc : isStructural c = false ∧ isMark c = false := by simpa [startsValue, hb] using h
    simp only [isStructural, Bool.or_eq_false_iff, beq_eq_false_iff_ne] at hc
    simp [startsPart, hc]

/-- Where a bare value starts the part is the run of the value. -/
theorem part_of_startsValue {c : Char} (h : startsValue c = true) (r : List Char) :
    part (c :: r) = (.term .standard (String.ofList (Delimiters.value.scan (c :: r)).text),
      (Delimiters.value.scan (c :: r)).rest) := by
  by_cases hb : c = '\\'
  · subst hb
    exact part_value (by decide) (by decide) (by decide) (by decide) r
  · have hc : isStructural c = false ∧ isMark c = false := by simpa [startsValue, hb] using h
    simp only [isStructural, isMark, Bool.or_eq_false_iff, beq_eq_false_iff_ne] at hc
    obtain ⟨⟨⟨⟨⟨-, hq⟩, ho⟩, -⟩, -⟩, hp, hm⟩ := hc
    exact part_value hp hm hq ho r

theorem dropWhile_of_startsPart {s : List Char} (h : startsPart s = true) :
    s.dropWhile isSpace = s := by
  cases s with
  | nil => rfl
  | cons c s =>
    rw [startsPart, Bool.and_eq_true, Bool.not_eq_true'] at h
    exact List.dropWhile_cons_of_neg (by simp [h.1])

/-- Spaces in front of a sequence do not matter. -/
theorem parts_congr (nested : Bool) {s t : List Char}
    (h : s.dropWhile isSpace = t.dropWhile isSpace) : parts nested s = parts nested t := by
  -- a sequence depends on the first character behind the spaces and on what follows it
  cases ht : t.dropWhile isSpace with
  | nil => rw [parts_of_end nested (h.trans ht), parts_of_end nested ht]
  | cons c r =>
    by_cases hc : c = ')'
    · subst hc
      cases nested with
      | false => rw [parts_of_close_outer (h.trans ht), parts_of_close_outer ht]
      | true => rw [parts_of_close_nested (h.trans ht), parts_of_close_nested ht]
    · have hstart : startsPart (c :: r) = true := by
        simp [startsPart, isSpace_of_dropWhile ht, hc]
      rw [parts_of_starts nested (h.trans ht) hstart, parts_of_starts nested ht hstart]

/-- A space in front of a sequence is passed over. -/
theorem parts_space (nested : Bool) {c : Char} (hc : isSpace c = true) (s : List Char) :
    parts nested (c :: s) = parts nested s :=
  parts_congr nested (List.dropWhile_cons_of_pos hc)

namespace Query

/-! ### Renderings are read back -/

/-- Inside a query the rendering of `q` is read as `q`, rebuilt, and up to its end, in front of all
characters that no part starts with. What is rendered without any character asks for nothing. -/
def ReadsBack (q : Query) : Prop :=
  ∀ r, startsPart r = false → operand (render true q ++ r) = (q.normalize, r)

/-- A rendering in front of a sequence adds its query to it. -/
theorem parts_render {q : Query} (hq : q.ReadsBack) (nested : Bool) {r : List Char}
    (hr : startsPart r = false) :
    asking (parts nested (render true q ++ r)).1 = asking (q.normalize :: (parts nested r).1) ∧
      (parts nested (render true q ++ r)).2 = (parts nested r).2 := by
  have hop := hq r hr
  by_cases hs : startsPart (render true q ++ r) = true
  · rw [operand_of_starts hs] at hop
    rw [parts_of_starts nested (dropWhile_of_startsPart hs) hs, hop]
    exact ⟨rfl, rfl⟩
  -- the rendering has no characters, and the sequence goes on with what is behind it
  · rw [Bool.not_eq_true] at hs
    rw [operand_of_not_starts hs] at hop
    obtain ⟨hn, hrest⟩ := Prod.mk.inj hop
    rw [hrest, ← hn, asking_cons_nothing]
    exact ⟨rfl, rfl⟩

theorem startsPart_renderMore (qs : List Query) {r : List Char} (hr : startsPart r = false) :
    startsPart (renderMore qs ++ r) = false := by
  cases qs with
  | nil => rwa [renderMore]
  | cons q qs =>
    rw [renderMore]
    rfl

/-- The members of a group after the first are read one after the other. -/
theorem parts_renderMore {qs : List Query} (nested : Bool) (hqs : ∀ q ∈ qs, q.ReadsBack)
    {r : List Char} (hr : startsPart r = false) (hend : parts nested r = ([], r)) :
    asking (parts nested (renderMore qs ++ r)).1 = asking (normalizeAll qs) ∧
      (parts nested (renderMore qs ++ r)).2 = r := by
  induction qs with
  | nil =>
    rw [renderMore, normalizeAll, List.nil_append, hend]
    exact ⟨rfl, rfl⟩
  | cons q qs ih =>
    -- the space in front of `q` ends the rendering before it and is then passed over
    obtain ⟨ihl, ihr⟩ := ih fun p hp => hqs p (List.mem_cons_of_mem _ hp)
    obtain ⟨hl, hrest⟩ := parts_render (hqs q (by simp)) nested (startsPart_renderMore qs hr)
    rw [renderMore, normalizeAll, List.cons_append, List.append_assoc,
      parts_space nested (by decide), hl, hrest]
    exact ⟨asking_cons_congr _ ihl, ihr⟩

theorem parts_renderAll {qs : List Query} (nested : Bool) (hqs : ∀ q ∈ qs, q.ReadsBack)
    {r : List Char} (hr : startsPart r = false) (hend : parts nested r = ([], r)) :
    asking (parts nested (renderAll qs ++ r)).1 = asking (normalizeAll qs) ∧
      (parts nested (renderAll qs ++ r)).2 = r := by
  cases qs with
  | nil =>
    rw [renderAll, normalizeAll, List.nil_append, hend]
    exact ⟨rfl, rfl⟩
  | cons q qs =>
    obtain ⟨hl, hrest⟩ := parts_render (hqs q (by simp)) nested (startsPart_renderMore qs hr)
    obtain ⟨hml, hmrest⟩ :=
      parts_renderMore nested (fun p hp => hqs p (List.mem_cons_of_mem _ hp)) hr hend
    rw [renderAll, normalizeAll, List.append_assoc, hl, hrest]
    exact ⟨asking_cons_congr _ hml, hmrest⟩

theorem part_mark_render {q : Query} (hq : q.ReadsBack) {r : List Char}
    (hr : startsPart r = false) :
    part ('+' :: (render true q ++ r)) = (require q.normalize, r) ∧
      part ('-' :: (render true q ++ r)) = (exclude q.normalize, r) := by
  rw [part_plus, part_minus, hq r hr]
  exact ⟨rfl, rfl⟩

/-- A group is read back from between its brackets. -/
theorem part_open_renderAll {qs : List Query} (hqs : ∀ q ∈ qs, q.ReadsBack) (r : List Char) :
    part ('(' :: (renderAll qs ++ ')' :: r)) = (ofList (normalizeAll qs), r) := by
  have hend : parts true (')' :: r) = ([], ')' :: r) := parts_of_close_nested rfl
  obtain ⟨hl, hrest⟩ := parts_renderAll true hqs rfl hend
  rw [part_open, ofList_congr hl, hrest]
  rfl

theorem readsBack_standard (text : String) : (value .standard text).ReadsBack := by
  intro r hr
  have hscan := scan_value_escapeStandard text.toList hr
  rw [render, normalize]
  cases htext : text.toList with
  | nil =>
    -- a value without characters is rendered as none, and none are read as nothing
    have hb : isBlank text = true := by rw [isBlank, htext]; rfl
    rw [escapeStandard, List.nil_append, operand_of_not_starts hr, term, if_pos hb]
  | cons c s =>
    obtain ⟨d, t, hd, hstart⟩ := escapeStandard_cons c s
    rw [htext, hd, List.cons_append] at hscan
    rw [hd, List.cons_append, operand_of_starts (startsPart_of_startsValue hstart _),
      part_of_startsValue hstart, hscan, ← htext, String.ofList_toList]

theorem readsBack_precise (text : String) : (value .precise text).ReadsBack := by
  intro r _
  rw [render, normalize, List.cons_append, List.append_assoc, operand_of_starts rfl, part_quote]
  rw [show [('"' : Char)] ++ r = '"' :: r from rfl, scan_quote_escapePrecise, String.ofList_toList]
  rfl

/-- Every query is read back from its rendering inside another. -/
theorem operand_render (q : Query) : q.ReadsBack := by
  -- each constructor is rendered around the rendering of what is below it
  induction q using induct with
  | nothing =>
    intro r hr
    rw [render, normalize, List.nil_append, operand_of_not_starts hr]
  | value m text =>
    cases m with
    | standard => exact readsBack_standard text
    | precise => exact readsBack_precise text
  | group qs ih =>
    intro r _
    rw [render, if_pos rfl, normalize, List.cons_append, List.append_assoc, operand_of_starts rfl]
    exact part_open_renderAll ih r
  | required q ih =>
    intro r hr
    rw [render, normalize, List.cons_append, operand_of_starts rfl]
    exact (part_mark_render ih hr).1
  | excluded q ih =>
    intro r hr
    rw [render, normalize, List.cons_append, operand_of_starts rfl]
    exact (part_mark_render ih hr).2

/-- A whole query is read back, also in front of the bracket that closes it. Only as a whole query
is a group written without brackets. -/
theorem parts_render_whole (q : Query) (nested : Bool) {r : List Char}
    (hr : startsPart r = false) (hend : parts nested r = ([], r)) :
    ofList (parts nested (render false q ++ r)).1 = q.normalize ∧
      (parts nested (render false q ++ r)).2 = r := by
  have hnested := render_nested_eq q
  cases q with
  | group qs =>
    obtain ⟨hl, hrest⟩ := parts_renderAll nested (fun q _ => operand_render q) hr hend
    exact ⟨ofList_congr hl, hrest⟩
  -- every other query is rendered as it is inside another
  | _ =>
    dsimp only at hnested
    rw [← hnested]
    obtain ⟨hl, hrest⟩ := parts_render (operand_render _) nested hr
    rw [hend] at hl hrest
    exact ⟨(ofList_congr hl).trans (ofList_singleton _), hrest⟩

theorem parse_of_toSearchString (q : Query) : parse q.toSearchString = q.normalize := by
  have hend : parts false [] = ([], []) := parts_of_end false rfl
  have hread := (parts_render_whole q false rfl hend).1
  rw [List.append_nil] at hread
  rw [parse, toSearchString, String.toList_ofList, hread]

/-- Reading undoes writing: any tree comes back rebuilt, and a well-formed tree comes back as it
is. -/
theorem parse_toSearchString (q : Query) :
    parse q.toSearchString = q.normalize ∧
      (q.isWellFormed = true → parse q.toSearchString = q) := by
  have hread := parse_of_toSearchString q
  exact ⟨hread, fun h => hread.trans (normalize_of_isWellFormed h)⟩

/-- The tree of `a +(b "c d") --\+`, whose last value is a sign. -/
theorem parse_toSearchString_nested :
    let q : Query := .group [.value .standard "a",
      .required (.group [.value .standard "b", .value .precise "c d"]),
      .excluded (.excluded (.value .standard "+"))]
    q.isWellFormed = true ∧ parse q.toSearchString = q := by
  intro q
  have h : q.isWellFormed = true := by decide
  exact ⟨h, (parse_toSearchString q).2 h⟩

end Query

end WeightedSearch
