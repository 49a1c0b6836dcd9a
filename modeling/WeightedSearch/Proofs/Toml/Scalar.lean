/-
Plain values read back.

A plain value that stands in front of the end of its line is read as what it denotes, be it a number
in decimal digits, a truth value or a text between quotes.  Main statements:

* `decimal?_of_isDecimal` — digits are read by their places;
* `integer?_of_isDigit` — digits have no sign and name no base;
* `readValue_of_denotes` — the value of a plain value as it stands in a document.
-/
import Mathlib.Data.List.Basic
import WeightedSearch.Proofs.Toml.Standard

namespace WeightedSearch

theorem digitChar_of_lt {d : Nat} (h : d < 10) :
    (digitChar d).isDigit = true ∧ Toml.startsWord (digitChar d) = true ∧
      Toml.digitValue? 10 (digitChar d) = some d ∧ (digitChar d = '0' → d = 0) := by
  revert d
  decide

namespace Toml

/-! ### Numbers -/

/-- Digits make a number by their places, on top of what was read before them. -/
theorem digits?_map_digitChar {ds : List Nat} (hds : ∀ d ∈ ds, d < 10) (behind : Bool) (v : Nat)
    (h : behind = true ∨ ds ≠ []) : digits? 10 behind v (ds.map digitChar)
      = some (ds.foldl (fun v d => 10 * v + d) v) := by
  induction ds generalizing behind v with
  | nil =>
    obtain rfl : behind = true := h.resolve_right fun hne => hne rfl
    rfl
  | cons d ds ih =>
    obtain ⟨hd, hds⟩ := List.forall_mem_cons.1 hds
    obtain ⟨hdigit, -, hvalue, -⟩ := digitChar_of_lt hd
    have hne : digitChar d ≠ '_' := by
      intro heq
      rw [heq] at hdigit
      cases hdigit
    rw [List.map_cons, digits?, if_neg hne, hvalue]
    exact ih hds true _ (Or.inl rfl)

section

variable {w : List Char} {n : Nat}

theorem IsDecimal.isDigit (h : IsDecimal w n) {c : Char} (hc : c ∈ w) : c.isDigit = true := by
  obtain ⟨ds, rfl, hds, -⟩ := h
  obtain ⟨d, hd, rfl⟩ := List.mem_map.1 hc
  exact (digitChar_of_lt (hds d hd)).1

theorem IsDecimal.startsWord (h : IsDecimal w n) {c : Char} (hc : c ∈ w) :
    startsWord c = true := by
  obtain ⟨ds, rfl, hds, -⟩ := h
  obtain ⟨d, hd, rfl⟩ := List.mem_map.1 hc
  exact (digitChar_of_lt (hds d hd)).2.1

theorem IsDecimal.ne_nil (h : IsDecimal w n) : w ≠ [] := by
  obtain ⟨ds, rfl, -, hne, -⟩ := h
  exact fun hmap => hne (List.map_eq_nil_iff.1 hmap)

theorem decimal?_of_isDecimal (h : IsDecimal w n) : decimal? w = some n := by
  obtain ⟨ds, rfl, hds, hne, hzero, rfl⟩ := h
  -- a zero in front is refused by the reader, except if it stands alone
  have hfront : ¬((ds.map digitChar).head? = some '0' ∧ (ds.map digitChar).length ≠ 1) := by
    rintro ⟨hhead, hlength⟩
    rw [List.head?_map, Option.map_eq_some_iff] at hhead
    obtain ⟨d, hd, hchar⟩ := hhead
    obtain rfl : d = 0 := (digitChar_of_lt (hds d (List.mem_of_head? hd))).2.2.2 hchar
    exact hlength (by rw [List.length_map, hzero hd])
  rw [decimal?, if_neg hfront, digits?_map_digitChar hds _ _ (Or.inr hne)]

end

theorem integer?_of_isDigit {s : List Char} (h : ∀ c ∈ s, c.isDigit = true) :
    integer? s = (decimal? s).map Int.ofNat := by
  unfold integer?
  split
  · exact absurd (h 'x' (by simp)) (by decide)
  · exact absurd (h 'o' (by simp)) (by decide)
  · exact absurd (h 'b' (by simp)) (by decide)
  · have hsign : splitSign s = (false, s) := by
      unfold splitSign
      split
      · exact absurd (h '-' (by simp)) (by decide)
      · exact absurd (h '+' (by simp)) (by decide)
      · rfl
    rw [hsign]
    rfl

theorem scalar?_of_isDecimal {w : List Char} {n : Nat} (h : IsDecimal w n) :
    scalar? w = some (.integer n) := by
  -- the names of the truth values are the only words that are looked at first
  have hne : ∀ s : List Char, 'e' ∈ s → w ≠ s := by
    rintro s he rfl
    exact absurd (h.isDigit he) (by decide)
  have hread : integer? w = some (n : Int) := by
    rw [integer?_of_isDigit fun _ => h.isDigit, decimal?_of_isDecimal h]
    rfl
  rw [scalar?, if_neg (hne _ (by decide)), if_neg (hne _ (by decide)), hread]

theorem scalar?_boolean (b : Bool) :
    scalar? (if b then "true" else "false").toList = some (.boolean b) := by
  cases b <;> rfl

/-! ### Words -/

theorem isWordChar_of_startsWord {c : Char} (h : startsWord c = true) : isWordChar c = true := by
  simp only [startsWord, Bool.and_eq_true] at h
  exact h.1.1.1

theorem isBlankChar_of_isWordChar {c : Char} (h : isWordChar c = true) :
    isBlankChar c = false := by
  cases hb : isBlankChar c with
  | false => rfl
  | true => simp [isWordChar, hb] at h

/-- Blanks at the end of a line belong to no word. -/
theorem readWords_blank {b : List Char} (hb : Blank b) (blanks r : List Char) :
    readWords blanks (b ++ '\n' :: r) = ([], blanks.reverse ++ (b ++ '\n' :: r)) := by
  induction b generalizing blanks with
  | nil =>
    rw [List.nil_append, readWords, if_neg (by decide), if_neg]
    exact Bool.false_ne_true
  | cons c b ih =>
    obtain ⟨hc, hb⟩ := List.forall_mem_cons.1 hb
    rw [List.cons_append, readWords, if_pos hc, ih hb, List.reverse_cons, List.append_assoc]
    rfl

theorem readWords_word {w : List Char} (hw : ∀ c ∈ w, isWordChar c = true) {b : List Char}
    (hb : Blank b) (r : List Char) :
    readWords [] (w ++ (b ++ '\n' :: r)) = (w, b ++ '\n' :: r) := by
  induction w with
  | nil => exact readWords_blank hb [] r
  | cons c w ih =>
    obtain ⟨hc, hw⟩ := List.forall_mem_cons.1 hw
    rw [List.cons_append, readWords]
    simp [isBlankChar_of_isWordChar hc, hc, ih hw]

/-- A word in which every character could be the first is read as a plain value. -/
theorem readValue_word {w : List Char} (hne : w ≠ []) (hw : ∀ c ∈ w, startsWord c = true)
    {v : Value} (hv : scalar? w = some v) (fuel depth : Nat) {b : List Char} (hb : Blank b)
    (r : List Char) :
    readValue (fuel + 1) depth (w ++ (b ++ '\n' :: r)) = some (v, b ++ '\n' :: r) := by
  have hread := readWords_word (fun c hc => isWordChar_of_startsWord (hw c hc)) hb r
  -- none of the characters that open another kind of value is the first of a word
  have hfront : ∀ d r', startsWord d = false → w ++ (b ++ '\n' :: r) ≠ d :: r' := by
    intro d r' hd heq
    obtain ⟨c, w, rfl⟩ := List.exists_cons_of_ne_nil hne
    have hc := hw c List.mem_cons_self
    rw [(List.cons.inj heq).1, hd] at hc
    cases hc
  unfold readValue
  split
  · next heq => exact absurd heq (hfront '[' _ rfl)
  · next heq => exact absurd heq (hfront '{' _ rfl)
  · next heq => exact absurd heq (hfront '"' _ rfl)
  · next heq => exact absurd heq (hfront '\'' _ rfl)
  · rw [hread]
    simp [hv]

/-! ### Texts between quotes -/

theorem splitLine_of_not_mem {q : Char} {escapes : Bool} {s : List Char}
    (hs : ∀ c ∈ s, c ≠ q ∧ (escapes = true → c ≠ '\\')) (r : List Char) :
    splitLine q escapes (s ++ q :: r) = some (s, r) := by
  induction s with
  | nil =>
    rw [List.nil_append, splitLine.eq_def]
    exact if_pos rfl
  | cons c s ih =>
    obtain ⟨⟨hquote, hslash⟩, hs⟩ := List.forall_mem_cons.1 hs
    have hescape : ¬(escapes && c == '\\') = true := by simpa using hslash
    rw [List.cons_append, splitLine.eq_def]
    dsimp only
    rw [if_neg hquote, if_neg hescape, ih hs]
    rfl

theorem unescape_of_needsNoEscapes {s : List Char} (hs : NeedsNoEscapes s) :
    unescape false .plain s = some s := by
  induction s with
  | nil => rfl
  | cons c s ih =>
    obtain ⟨⟨hplain, -, hslash⟩, hs⟩ := List.forall_mem_cons.1 hs
    simp [unescape, mayStand, hplain, hslash, ih hs]

theorem literal_of_isPlain {s : List Char} (hs : ∀ c ∈ s, isPlain c = true) :
    literal false s = some s := by
  induction s with
  | nil => rfl
  | cons c s ih =>
    obtain ⟨hc, hs⟩ := List.forall_mem_cons.1 hs
    simp [literal, mayStand, hc, ih hs]

/-- Quotes of a kind open a text of several lines only if there are three of them in a row. -/
theorem readString_of_line {q : Char} (hq : q = '"' ∨ q = '\'') {s r : List Char} (hs : q ∉ s)
    (hr : r.head? ≠ some q) :
    readString (q :: (s ++ q :: r)) = readLineString (q :: (s ++ q :: r)) := by
  -- a third quote would be in the text, or behind it if that is empty
  have hthree : ∀ r', q :: (s ++ q :: r) ≠ q :: q :: q :: r' := by
    intro r' heq
    obtain ⟨-, heq⟩ := List.cons.inj heq
    cases s with
    | nil =>
      obtain ⟨-, rfl⟩ := List.cons.inj heq
      exact hr rfl
    | cons c s =>
      obtain ⟨rfl, -⟩ := List.cons.inj heq
      exact hs List.mem_cons_self
  unfold readString
  split
  · next heq =>
    obtain ⟨rfl, -⟩ := List.cons.inj heq
    exact absurd heq (hthree _)
  · next heq =>
    obtain ⟨rfl, -⟩ := List.cons.inj heq
    exact absurd heq (hthree _)
  · rfl

theorem readString_basic {text : String} (h : NeedsNoEscapes text.toList) {r : List Char}
    (hr : r.head? ≠ some '"') :
    readString ('"' :: (text.toList ++ '"' :: r)) = some (text, r) := by
  have hsplit : splitLine '"' true (text.toList ++ '"' :: r) = some (text.toList, r) :=
    splitLine_of_not_mem (fun c hc => ⟨(h c hc).2.1, fun _ => (h c hc).2.2⟩) r
  rw [readString_of_line (.inl rfl) (fun hmem => (h _ hmem).2.1 rfl) hr]
  simp [readLineString, hsplit, unescape_of_needsNoEscapes h]

theorem readString_literal {text : String} (h : ∀ c ∈ text.toList, isPlain c = true ∧ c ≠ '\'')
    {r : List Char} (hr : r.head? ≠ some '\'') :
    readString ('\'' :: (text.toList ++ '\'' :: r)) = some (text, r) := by
  have hs : ∀ c ∈ text.toList, c ≠ '\'' ∧ (false = true → c ≠ '\\') :=
    fun c hc => ⟨(h c hc).2, nofun⟩
  have hsplit : splitLine '\'' false (text.toList ++ '\'' :: r) = some (text.toList, r) :=
    splitLine_of_not_mem hs r
  rw [readString_of_line (.inr rfl) (fun hmem => (h _ hmem).2 rfl) hr]
  simp [readLineString, hsplit, literal_of_isPlain fun c hc => (h c hc).1]

/-! ### Plain values -/

theorem head?_blank_ne {q : Char} (hq : isBlankChar q = false) (hn : q ≠ '\n') {b : List Char}
    (hb : Blank b) (r : List Char) : (b ++ '\n' :: r).head? ≠ some q := by
  cases b with
  | nil => simpa using hn.symm
  | cons c b =>
    rintro ⟨⟩
    exact absurd ((hb q List.mem_cons_self).symm.trans hq) (by decide)

/-- A plain value is read up to the end of its line. -/
theorem readValue_of_denotes {w : List Char} {v : Scalar} (h : Denotes IsDecimal w v)
    (fuel depth : Nat) {b : List Char} (hb : Blank b) (r : List Char) :
    readValue (fuel + 1) depth (w ++ (b ++ '\n' :: r)) = some (v.toValue, b ++ '\n' :: r) := by
  cases h with
  | basic text htext =>
    have hread := readString_basic htext (head?_blank_ne (q := '"') rfl (by decide) hb r)
    rw [List.cons_append, List.append_assoc, List.singleton_append, readValue, hread]
    rfl
  | literal text htext =>
    have hread := readString_literal htext (head?_blank_ne (q := '\'') rfl (by decide) hb r)
    rw [List.cons_append, List.append_assoc, List.singleton_append, readValue, hread]
    rfl
  | boolean b' =>
    have hne : (if b' then "true" else "false").toList ≠ [] := by cases b' <;> decide
    have hw : ∀ c ∈ (if b' then "true" else "false").toList, startsWord c = true := by
      cases b' <;> exact List.all_eq_true.1 rfl
    exact readValue_word hne hw (scalar?_boolean b') fuel depth hb r
  | integer hn =>
    exact readValue_word hn.ne_nil (fun _ => hn.startsWord) (scalar?_of_isDecimal hn) fuel depth
      hb r

theorem Denotes.exists_cons {w : List Char} {v : Scalar} (h : Denotes IsDecimal w v) :
    ∃ c w', w = c :: w' ∧ isBlankChar c = false := by
  cases h with
  | basic text htext => exact ⟨_, _, rfl, rfl⟩
  | literal text htext => exact ⟨_, _, rfl, rfl⟩
  | boolean b => cases b <;> exact ⟨_, _, rfl, rfl⟩
  | integer hn =>
    obtain ⟨c, w', rfl⟩ := List.exists_cons_of_ne_nil hn.ne_nil
    have hc : startsWord c = true := hn.startsWord List.mem_cons_self
    exact ⟨c, w', rfl, isBlankChar_of_isWordChar (isWordChar_of_startsWord hc)⟩

end Toml

end WeightedSearch
