/-
Induction over what is read.

The readers of parts and of sequences call each other, and what they read next depends on what they
left over.  `ReadingSteps` lists the ways in which a part or a sequence can start; a pair of
properties that every one of these steps carries on holds of all strings.  Main statements:

* `part_mark` — one equation for both signs;
* `ReadingSteps.part`, `ReadingSteps.parts` — the induction;
* `rest_parts_outer`, `rest_parts_nested` — where a sequence ends;
* `parse_isWellFormed` — what is read is well-formed, so that writing and reading it changes
  nothing.
-/
import WeightedSearch.Proofs.Query.RoundTrip

namespace WeightedSearch

/-! ### One equation for each first character -/

/-- Marks a query by the sign in front of it. -/
def Query.markedBy (sign : Char) (q : Query) : Query :=
  if sign = '+' then q.require else q.exclude

/-- A sign marks what follows it. -/
theorem part_mark {c : Char} (h : isMark c = true) (r : List Char) :
    part (c :: r) = ((operand r).1.markedBy c, (operand r).2) := by
  rw [isMark, Bool.or_eq_true, beq_iff_eq, beq_iff_eq] at h
  rcases h with rfl | rfl
  · rw [part_plus, Query.markedBy, if_pos rfl]
  · rw [part_minus, Query.markedBy, if_neg (by decide)]

theorem parts_nil (nested : Bool) : parts nested [] = ([], []) :=
  parts_of_end nested rfl

theorem parts_close_nested (r : List Char) : parts true (')' :: r) = ([], ')' :: r) :=
  parts_of_close_nested rfl

theorem parts_close_outer (r : List Char) : parts false (')' :: r) = parts false r :=
  parts_of_close_outer rfl

theorem parts_part (nested : Bool) {s : List Char} (h : startsPart s = true) :
    parts nested s = ((part s).1 :: (parts nested (part s).2).1, (parts nested (part s).2).2) :=
  parts_of_starts nested (dropWhile_of_startsPart h) h

/-- Spaces have no parts. -/
theorem parts_of_spaces (nested : Bool) {s : List Char} (h : ∀ c ∈ s, isSpace c = true) :
    parts nested s = ([], []) := by
  induction s with
  | nil => exact parts_nil nested
  | cons c r ih =>
    rw [parts_space nested (h c (by simp))]
    exact ih fun d hd => h d (List.mem_cons_of_mem _ hd)

theorem Query.parse_of_isBlank {input : String} (h : isBlank input = true) :
    parse input = .nothing := by
  rw [parse, parts_of_spaces false (isBlank_iff.1 h)]
  rfl

/-- A character that starts a part is a sign, opens a value in quotes or a group, or starts a bare
value. -/
theorem startsPart_cases {c : Char} {r : List Char} (h : startsPart (c :: r) = true) :
    isMark c = true ∨ c = '"' ∨ c = '(' ∨ startsValue c = true := by
  rw [startsPart, Bool.and_eq_true, Bool.not_eq_true', bne_iff_ne] at h
  by_cases hm : isMark c = true
  · exact Or.inl hm
  by_cases hq : c = '"'
  · exact Or.inr (Or.inl hq)
  by_cases ho : c = '('
  · exact Or.inr (Or.inr (Or.inl ho))
  -- what is left has no meaning at the front, or is a backslash
  refine Or.inr (Or.inr (Or.inr ?_))
  by_cases hb : c = '\\'
  · simp [startsValue, hb]
  · simp [startsValue, isStructural, hm, hq, ho, hb, h.1, h.2]

/-! ### Induction over the readers -/

/-- The steps of reading, each with what it may assume: `P` of the part at the front of the
characters, `Q` of the sequence there, which is nested in a group or not. -/
structure ReadingSteps (P : List Char → Prop) (Q : Bool → List Char → Prop) : Prop where
  mark : ∀ c r, isMark c = true → startsPart r = true → P r → P (c :: r)
  loneMark : ∀ c r, isMark c = true → startsPart r = false → P (c :: r)
  quote : ∀ r, P ('"' :: r)
  group : ∀ r, Q true r → P ('(' :: r)
  value : ∀ c r, startsValue c = true → P (c :: r)
  finish : ∀ nested, Q nested []
  space : ∀ nested c r, isSpace c = true → Q nested r → Q nested (c :: r)
  closeNested : ∀ r, Q true (')' :: r)
  closeOuter : ∀ r, Q false r → Q false (')' :: r)
  next : ∀ nested s, startsPart s = true → P s → Q nested (WeightedSearch.part s).2 → Q nested s

namespace ReadingSteps

variable {P : List Char → Prop} {Q : Bool → List Char → Prop}

theorem part_and_parts (h : ReadingSteps P Q) (s : List Char) :
    (startsPart s = true → P s) ∧ ∀ nested, Q nested s := by
  -- each reader leaves over no more than it is given, and a part leaves over less
  induction hn : s.length using Nat.strongRecOn generalizing s with
  | ind n ih =>
    subst hn
    cases s with
    | nil => exact ⟨fun hs => (nomatch hs), h.finish⟩
    | cons c r =>
      have ihr := ih r.length (Nat.lt_succ_self _) r rfl
      have hpart : startsPart (c :: r) = true → P (c :: r) := by
        intro hs
        rcases startsPart_cases hs with hm | rfl | rfl | hv
        · by_cases hr : startsPart r = true
          · exact h.mark c r hm hr (ihr.1 hr)
          · exact h.loneMark c r hm (Bool.eq_false_iff.2 hr)
        · exact h.quote r
        · exact h.group r (ihr.2 true)
        · exact h.value c r hv
      refine ⟨hpart, fun nested => ?_⟩
      by_cases hsp : isSpace c = true
      · exact h.space nested c r hsp (ihr.2 nested)
      by_cases hc : c = ')'
      · subst hc
        cases nested with
        | false => exact h.closeOuter r (ihr.2 false)
        | true => exact h.closeNested r
      · have hs : startsPart (c :: r) = true := by simp [startsPart, hsp, hc]
        -- the sequence goes on behind the part, which took a character at least
        have hlt := length_part_lt hs
        exact h.next nested _ hs (hpart hs) ((ih _ hlt _ rfl).2 nested)

/-- So the property holds of a part wherever one starts. -/
theorem part (h : ReadingSteps P Q) {s : List Char} (hs : startsPart s = true) : P s :=
  (h.part_and_parts s).1 hs

/-- And of a sequence anywhere. -/
theorem parts (h : ReadingSteps P Q) (nested : Bool) (s : List Char) : Q nested s :=
  (h.part_and_parts s).2 nested

end ReadingSteps

/-! ### Where a sequence ends -/

/-- A sequence ends at the end of the input, or in a group at its closing bracket. -/
theorem rest_parts (nested : Bool) (s : List Char) :
    (parts nested s).2 = [] ∨ nested = true ∧ ∃ r, (parts nested s).2 = ')' :: r := by
  -- where a part ends does not matter, so nothing is said of parts
  have hsteps : ReadingSteps (fun _ => True) fun nested s =>
      (parts nested s).2 = [] ∨ nested = true ∧ ∃ r, (parts nested s).2 = ')' :: r := by
    constructor
    case mark | loneMark | quote | group | value => intros; trivial
    case finish =>
      intro nested
      rw [parts_nil]
      exact Or.inl rfl
    case space =>
      intro nested c r hc hr
      rwa [parts_space nested hc]
    case closeNested =>
      intro r
      rw [parts_close_nested]
      exact Or.inr ⟨rfl, r, rfl⟩
    case closeOuter =>
      intro r hr
      rwa [parts_close_outer]
    case next =>
      intro nested s hs _ hr
      rwa [parts_part nested hs]
  exact hsteps.parts nested s

theorem rest_parts_outer (s : List Char) : (parts false s).2 = [] := by
  rcases rest_parts false s with h | ⟨h, -⟩
  · exact h
  · cases h

theorem rest_parts_nested (s : List Char) :
    (parts true s).2 = [] ∨ ∃ r, (parts true s).2 = ')' :: r := by
  rcases rest_parts true s with h | ⟨-, h⟩
  · exact Or.inl h
  · exact Or.inr h

namespace Query

/-! ### What is read is well-formed -/

theorem isWellFormed_markedBy {q : Query} (h : q.isWellFormed = true) (c : Char) :
    (q.markedBy c).isWellFormed = true := by
  rw [markedBy]
  split
  · exact isWellFormed_require h
  · exact isWellFormed_exclude h

/-- What is read is made with the smart constructors, which build well-formed queries only. -/
theorem readingSteps_isWellFormed :
    ReadingSteps (fun s => (part s).1.isWellFormed = true)
      fun nested s => ∀ q ∈ (parts nested s).1, q.isWellFormed = true := by
  constructor
  case mark =>
    intro c r hc hs hr
    rw [part_mark hc, operand_of_starts hs]
    exact isWellFormed_markedBy hr c
  case loneMark =>
    intro c r hc hs
    rw [part_mark hc, operand_of_not_starts hs]
    -- a mark in front of no part marks `nothing`
    exact isWellFormed_markedBy rfl c
  case quote =>
    intro r
    rw [part_quote]
    exact isWellFormed_term _ _
  case group =>
    intro r hr
    rw [part_open]
    exact isWellFormed_ofList hr
  case value =>
    intro c r hc
    rw [part_of_startsValue hc]
    exact isWellFormed_term _ _
  case finish =>
    intro nested q hq
    rw [parts_nil] at hq
    cases hq
  case space =>
    intro nested c r hc hr
    rwa [parts_space nested hc]
  case closeNested =>
    intro r q hq
    rw [parts_close_nested] at hq
    cases hq
  case closeOuter =>
    intro r hr
    rwa [parts_close_outer]
  case next =>
    intro nested s hs hpart hrest q hq
    rw [parts_part nested hs] at hq
    rcases List.mem_cons.1 hq with rfl | hq
    · exact hpart
    · exact hrest q hq

/-- Whatever the search string, the query it asks is well-formed, and the string written for this
query asks it again. -/
theorem parse_isWellFormed (input : String) :
    (parse input).isWellFormed = true ∧ parse (parse input).toSearchString = parse input := by
  have h : (parse input).isWellFormed = true :=
    isWellFormed_ofList (readingSteps_isWellFormed.parts false input.toList)
  refine ⟨h, ?_⟩
  rw [parse_of_toSearchString, normalize_of_isWellFormed h]

end Query

end WeightedSearch
