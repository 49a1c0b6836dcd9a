/-
Brackets around a search string.

The reader of a sequence behaves differently inside a group and outside in one point: inside a
closing bracket ends it, outside the bracket is skipped.  Where each closing bracket closes a group
that was opened before, no sequence outside of groups ever comes to one, and the two readers do the
same.  An opening bracket in front then makes a group of all that the string asks for, alone, and a
group of one is its member.  Main statements:

* `closesWithin_of_counts` — brackets that are counted from the start, and the number of open groups
  that is kept while reading;
* `readingSteps_closesWithin` — a part leaves as many groups open as it found;
* `readingSteps_nested` — where every group is closed by its own bracket, nothing tells the two
  readers apart;
* `parse_openBrackets` — opening brackets in front of such a string change nothing.
-/
import WeightedSearch.Proofs.Query.Escapes
import WeightedSearch.Proofs.Query.Reading

namespace WeightedSearch

/-! ### Brackets that count -/

/-- How often a bracket stands in the characters outside of quotes without being escaped. -/
def brackets (b : Char) (s : List Char) : Nat :=
  (filterBefore (fun before c => c == b && !endsEscaping before && !endsInQuote before) s).length

/-- Whether every closing bracket that is neither escaped nor inside a quote closes a group: there
are more opening than closing brackets before it. -/
def ClosesOnlyOpen (s : List Char) : Prop :=
  ∀ i < s.length, s[i]? = some ')' → endsEscaping (s.take i) = false →
    endsInQuote (s.take i) = false → brackets ')' (s.take i) < brackets '(' (s.take i)

instance (s : List Char) : Decidable (ClosesOnlyOpen s) :=
  inferInstanceAs (Decidable (∀ i < s.length, s[i]? = some ')' → endsEscaping (s.take i) = false →
    endsInQuote (s.take i) = false → brackets ')' (s.take i) < brackets '(' (s.take i)))

/-- A last character counts where nothing is quoted or escaped, and the mode says so. -/
theorem brackets_concat (b : Char) (s : List Char) (c : Char) :
    brackets b (s ++ [c])
      = brackets b s + if Mode.start.after s = .start ∧ c = b then 1 else 0 := by
  rw [brackets, filterBefore_concat, List.length_append, brackets, Mode.after_start]
  congr 1
  cases endsInQuote s <;> cases endsEscaping s <;> by_cases hc : c = b <;> simp [hc, Mode.start]

/-! ### Reading with the number of open groups -/

/-- Whether every closing bracket that counts closes a group that is opened before it in the
characters, or one of `depth` groups that are open from the start. -/
def ClosesWithin : Nat → Mode → List Char → Prop
  | _, _, [] => True
  | depth, m, c :: s =>
    if m = .start ∧ c = '(' then ClosesWithin (depth + 1) m s
    else if m = .start ∧ c = ')' then 0 < depth ∧ ClosesWithin (depth - 1) m s
    else ClosesWithin depth (m.step c) s

section

variable {depth : Nat} {s : List Char}

theorem closesWithin_open :
    ClosesWithin depth .start ('(' :: s) ↔ ClosesWithin (depth + 1) .start s :=
  Iff.rfl

theorem closesWithin_close :
    ClosesWithin depth .start (')' :: s) ↔ 0 < depth ∧ ClosesWithin (depth - 1) .start s :=
  Iff.rfl

theorem closesWithin_quote (q : Bool) :
    ClosesWithin depth ⟨q, false⟩ ('"' :: s) ↔ ClosesWithin depth ⟨!q, false⟩ s := by
  simp [ClosesWithin, Mode.step, show ('"' : Char) ≠ escape by decide]

theorem closesWithin_escape (q : Bool) (c : Char) :
    ClosesWithin depth ⟨q, false⟩ (escape :: c :: s) ↔ ClosesWithin depth ⟨q, false⟩ s := by
  simp [ClosesWithin, Mode.step, Mode.start, show escape ≠ '(' by decide,
    show escape ≠ ')' by decide]

/-- A character that is no bracket here makes no difference to the groups. -/
theorem closesWithin_plain {q : Bool} {c : Char} (he : c ≠ escape) (hq : c ≠ '"')
    (hb : q = false → c ≠ '(' ∧ c ≠ ')') :
    ClosesWithin depth ⟨q, false⟩ (c :: s) ↔ ClosesWithin depth ⟨q, false⟩ s := by
  cases q with
  | true => simp [ClosesWithin, Mode.step, Mode.start, he, hq]
  | false => simp [ClosesWithin, Mode.step, he, hq, hb rfl]

/-- A group more that is open from the start does no harm. -/
theorem ClosesWithin.succ {m : Mode} (h : ClosesWithin depth m s) :
    ClosesWithin (depth + 1) m s := by
  induction s generalizing depth m with
  | nil => trivial
  | cons c s ih =>
    rw [ClosesWithin] at h ⊢
    split at h
    · next ho => rw [if_pos ho]; exact ih h
    split at h
    · next ho hc =>
      rw [if_neg ho, if_pos hc]
      -- the closing bracket closes a group of the characters, and one more is left
      refine ⟨Nat.succ_pos depth, ?_⟩
      have hdepth : depth - 1 + 1 = depth := Nat.sub_add_cancel h.1
      have hs := ih h.2
      rwa [hdepth] at hs
    · next ho hc => rw [if_neg ho, if_neg hc]; exact ih h

end

/-- Behind some characters the number of open groups is by how much the opening brackets outnumber
the closing ones. -/
theorem closesWithin_of_counts (before : List Char) {depth : Nat} {s : List Char}
    (hdepth : brackets '(' before = brackets ')' before + depth)
    (h : ∀ i, before.length ≤ i → (before ++ s)[i]? = some ')' →
      Mode.start.after ((before ++ s).take i) = .start →
      brackets ')' ((before ++ s).take i) < brackets '(' ((before ++ s).take i)) :
    ClosesWithin depth (Mode.start.after before) s := by
  -- the induction moves one character at a time from what follows to what stands before, and the
  -- counts of the latter say how many groups are open
  induction s generalizing before depth with
  | nil => trivial
  | cons c s ih =>
    have hrest : ∀ k, brackets '(' (before ++ [c]) = brackets ')' (before ++ [c]) + k →
        ClosesWithin k ((Mode.start.after before).step c) s := by
      intro k hk
      rw [← Mode.after_concat]
      refine ih (before ++ [c]) hk fun i hi => ?_
      rw [List.length_append] at hi
      rw [← List.append_cons]
      exact h i (Nat.le_of_add_right_le hi)
    rw [brackets_concat, brackets_concat] at hrest
    rw [ClosesWithin]
    split
    · next ho =>
      obtain ⟨hm, rfl⟩ := ho
      rw [hm] at hrest ⊢
      exact hrest (depth + 1) (by simp [hdepth, Nat.add_assoc])
    split
    · next hc =>
      obtain ⟨hm, rfl⟩ := hc
      -- only here the hypothesis is used: the bracket must find an open group
      have hlt : brackets ')' before < brackets '(' before := by
        have hat := h before.length (Nat.le_refl _) (by simp)
        rw [List.take_left] at hat
        exact hat hm
      rw [hm] at hrest ⊢
      exact ⟨by omega, hrest (depth - 1) (by simp; omega)⟩
    · next ho hc =>
      rw [if_neg ho, if_neg hc] at hrest
      exact hrest depth hdepth

/-- Counting brackets and keeping the number of open groups come to the same. -/
theorem ClosesOnlyOpen.closesWithin {s : List Char} (h : ClosesOnlyOpen s) :
    ClosesWithin 0 .start s := by
  refine closesWithin_of_counts [] rfl fun i _ hi hmode => ?_
  have hlt : i < s.length := (List.getElem?_eq_some_iff.1 hi).1
  rw [List.nil_append, Mode.after_start] at hmode
  obtain ⟨hq, he⟩ := Mode.mk.inj hmode
  exact h i hlt hi he hq

/-! ### What the readers close -/

/-- A run of content that ends in front of a quote, and outside of quotes in front of brackets,
opens and closes no group. -/
theorem closesWithin_scan {t : Delimiters} (ht : t.contains '"' = true) {q : Bool}
    (hb : q = false → t.contains '(' = true ∧ t.contains ')' = true) {depth : Nat} {s : List Char}
    (h : ClosesWithin depth ⟨q, false⟩ s) : ClosesWithin depth ⟨q, false⟩ (t.scan s).rest := by
  fun_induction Delimiters.scan t s with
  | case1 => trivial
  | case2 => trivial
  | case3 d r ih => exact ih ((closesWithin_escape q d).1 h)
  | case4 => exact h
  | case5 c r he hc ih =>
    refine ih ((closesWithin_plain he (Delimiters.ne_quote_of_contains ht hc) fun hq => ?_).1 h)
    constructor
    · rintro rfl
      exact hc (hb hq).1
    · rintro rfl
      exact hc (hb hq).2

theorem closesWithin_mark {c : Char} (hc : isMark c = true) {depth : Nat} {r : List Char} :
    ClosesWithin depth .start (c :: r) ↔ ClosesWithin depth .start r := by
  rw [isMark, Bool.or_eq_true, beq_iff_eq, beq_iff_eq] at hc
  rcases hc with rfl | rfl <;> rfl

theorem closesWithin_space {c : Char} (hc : isSpace c = true) {depth : Nat} {r : List Char} :
    ClosesWithin depth .start (c :: r) ↔ ClosesWithin depth .start r := by
  refine closesWithin_plain ?_ ?_ fun _ => ⟨?_, ?_⟩ <;>
  · rintro rfl
    exact absurd hc (by decide)

/-- A part closes as many groups as it opens, and a sequence in a group stops before it would close
more. -/
theorem readingSteps_closesWithin :
    ReadingSteps
      (fun s => ∀ depth, ClosesWithin depth .start s → ClosesWithin depth .start (part s).2)
      fun nested s => nested = true → ∀ depth, ClosesWithin depth .start s →
        ClosesWithin depth .start (parts nested s).2 := by
  -- only quotes and groups change what is open, and both are left as they were entered
  constructor
  case mark =>
    intro c r hc hs hr depth h
    rw [part_mark hc, operand_of_starts hs]
    exact hr depth ((closesWithin_mark hc).1 h)
  case loneMark =>
    intro c r hc hs depth h
    rw [part_mark hc, operand_of_not_starts hs]
    exact (closesWithin_mark hc).1 h
  case quote =>
    intro r depth h
    rw [part_quote]
    have hinside : ClosesWithin depth ⟨true, false⟩ r := (closesWithin_quote false).1 h
    have hrest := closesWithin_scan (t := .quote) (by decide) (fun h => absurd h (by decide)) hinside
    -- inside the quote brackets do not count, and its end leads back outside
    cases hr : (Delimiters.quote.scan r).rest with
    | nil => trivial
    | cons c u =>
      have hc : c = '"' := Delimiters.quote_scan_rest_head hr
      rw [hr, hc] at hrest
      rw [hc]
      exact (closesWithin_quote true).1 hrest
  case group =>
    intro r hr depth h
    rw [part_open]
    have hrest := hr rfl (depth + 1) (closesWithin_open.1 h)
    -- one group more is open inside the brackets, and the closing one brings the number back
    rcases rest_parts_nested r with hend | ⟨u, hclose⟩
    · rw [hend]
      trivial
    · rw [hclose] at hrest ⊢
      exact (closesWithin_close.1 hrest).2
  case value =>
    intro c r hc depth h
    rw [part_of_startsValue hc]
    exact closesWithin_scan (by decide) (fun _ => by decide) h
  case finish =>
    intro nested _ depth h
    rw [parts_nil]
    exact h
  case space =>
    intro nested c r hc hr hnested depth h
    rw [parts_space nested hc]
    exact hr hnested depth ((closesWithin_space hc).1 h)
  case closeNested =>
    intro r _ depth h
    rw [parts_close_nested]
    exact h
  case closeOuter =>
    intro r _ hnested
    cases hnested
  case next =>
    intro nested s hs hpart hrest hnested depth h
    rw [parts_part nested hs]
    exact hrest hnested depth (hpart depth h)

/-- Where no closing bracket is left over, a sequence is read inside a group as it is outside. -/
theorem readingSteps_nested :
    ReadingSteps (fun _ => True) fun nested s =>
      ClosesWithin 0 .start s → parts nested s = parts false s := by
  constructor
  case mark | loneMark | quote | group | value => intros; trivial
  case finish =>
    intro nested _
    rw [parts_nil, parts_nil]
  case space =>
    intro nested c r hc hr h
    rw [parts_space nested hc, parts_space false hc]
    exact hr ((closesWithin_space hc).1 h)
  case closeNested =>
    intro r h
    -- the only character that the two readings take differently
    exact absurd (closesWithin_close.1 h).1 (Nat.lt_irrefl 0)
  case closeOuter =>
    intro r _ _
    rfl
  case next =>
    intro nested s hs _ hrest h
    -- behind the part the hypothesis holds again, as the part closes what it opens
    have hleft := readingSteps_closesWithin.part hs 0 h
    rw [parts_part nested hs, parts_part false hs, hrest hleft]

namespace Query

/-- All that a string asks for, in one group. -/
theorem parse_open {s : List Char} (h : ClosesWithin 0 .start s) :
    parse (String.ofList ('(' :: s)) = parse (String.ofList s) := by
  have hnested : parts true s = parts false s := readingSteps_nested.parts true s h
  have hpart : part ('(' :: s) = (ofList (parts false s).1, []) := by
    rw [part_open, hnested, rest_parts_outer]
    rfl
  rw [parse, parse, String.toList_ofList, String.toList_ofList, parts_part false rfl, hpart,
    parts_nil]
  exact ofList_singleton _

/-- An opening bracket keeps the hypothesis, so any number can be put in front. -/
theorem parse_replicate_open (n : Nat) {s : List Char} (h : ClosesWithin 0 .start s) :
    ClosesWithin 0 .start (List.replicate n '(' ++ s) ∧
      parse (String.ofList (List.replicate n '(' ++ s)) = parse (String.ofList s) := by
  induction n with
  | zero => exact ⟨h, rfl⟩
  | succ n ih =>
    rw [List.replicate_succ, List.cons_append]
    exact ⟨closesWithin_open.2 ih.1.succ, (parse_open ih.1).trans ih.2⟩

/-- In front of a string that closes only groups that it opens, any number of opening brackets
changes nothing, even if the string leaves groups or a quote open or ends in a backslash. -/
theorem parse_openBrackets (n : Nat) (s : String) (h : ClosesOnlyOpen s.toList) :
    parse (String.ofList (List.replicate n '(') ++ s) = parse s := by
  have hparse := (parse_replicate_open n h.closesWithin).2
  rwa [String.ofList_append, String.ofList_toList] at hparse

/-- The string `(a) \) (-b ")) c\`, with an escaped bracket and two that stand in quotes, leaves a
group and a quote open and ends in a backslash. -/
theorem parse_openBrackets_left_open :
    ClosesOnlyOpen "(a) \\) (-b \")) c\\".toList ∧
      parse (String.ofList (List.replicate 3 '(') ++ "(a) \\) (-b \")) c\\")
        = parse "(a) \\) (-b \")) c\\" := by
  have h : ClosesOnlyOpen "(a) \\) (-b \")) c\\".toList := by decide
  exact ⟨h, parse_openBrackets 3 _ h⟩

end Query

end WeightedSearch
