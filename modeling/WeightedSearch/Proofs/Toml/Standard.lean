/-
Standard documents of sections.

What a document of sections looks like is said here without a reader or a writer: a header line for
each section, and below it a line for each field, with blanks around the parts of a line and empty
lines wherever they are wanted.  How numbers look is a parameter, so that what is asked of a writer,
the digits of the number, can be told from what is asked of a reader, any digits by their places.
Main statements:

* `isDecimal_numeral` — the digits of a number denote it;
* `SectionLines.mono` — so a document with such numbers is one in the sense of a reader;
* `sectionLines_write` — what is written for sections is a document of them.
-/
import Mathlib.Data.List.Nodup
import WeightedSearch.Toml.Sections

namespace WeightedSearch

theorem lt_of_mem_decimalDigits {n d : Nat} (h : d ∈ decimalDigits n) : d < 10 := by
  fun_induction decimalDigits n with
  | case1 n hn => rwa [List.mem_singleton.1 h]
  | case2 n hn ih =>
    rcases List.mem_append.1 h with h | h
    · exact ih h
    · rw [List.mem_singleton.1 h]
      omega

theorem foldl_decimalDigits (n : Nat) : (decimalDigits n).foldl (fun v d => 10 * v + d) 0 = n := by
  fun_induction decimalDigits n with
  | case1 n hn => simp
  | case2 n hn ih =>
    -- the last digit is the remainder, and the others make the quotient
    rw [List.foldl_append, ih, List.foldl_cons, List.foldl_nil]
    omega

theorem decimalDigits_ne_nil (n : Nat) : decimalDigits n ≠ [] := by
  fun_cases decimalDigits n <;> simp

/-- A number of several digits has no zero in front. -/
theorem head?_decimalDigits_ne {n : Nat} (h : 10 ≤ n) : (decimalDigits n).head? ≠ some 0 := by
  fun_induction decimalDigits n with
  | case1 n hn => omega
  | case2 n hn ih =>
    rw [List.head?_append_of_ne_nil _ (decimalDigits_ne_nil _)]
    rcases Nat.lt_or_ge (n / 10) 10 with hlt | hge
    · rw [decimalDigits, if_pos hlt, List.head?_cons, Ne, Option.some_inj]
      omega
    · exact ih hge

namespace Toml

/-! ### Plain values -/

/-- Whether the characters are digits that make the number by their places, without zeros in
front. -/
def IsDecimal (w : List Char) (n : Nat) : Prop :=
  ∃ ds : List Nat, w = ds.map digitChar ∧ (∀ d ∈ ds, d < 10) ∧ ds ≠ [] ∧
    (ds.head? = some 0 → ds.length = 1) ∧ ds.foldl (fun v d => 10 * v + d) 0 = n

/-- The digits of a number denote it. -/
theorem isDecimal_numeral (n : Nat) : IsDecimal (numeral n) n := by
  refine ⟨decimalDigits n, rfl, fun _ => lt_of_mem_decimalDigits, decimalDigits_ne_nil n, ?_,
    foldl_decimalDigits n⟩
  intro hzero
  rcases Nat.lt_or_ge n 10 with hlt | hge
  · rw [decimalDigits, if_pos hlt, List.length_singleton]
  · exact absurd hzero (head?_decimalDigits_ne hge)

/-- How a plain value stands in a document in which numbers are written as `number` says: a text
between quotes of either kind, a truth value by its name. -/
inductive Denotes (number : List Char → Nat → Prop) : List Char → Scalar → Prop
  | basic (text : String) (h : NeedsNoEscapes text.toList) :
    Denotes number ('"' :: (text.toList ++ ['"'])) (.string text)
  | literal (text : String) (h : ∀ c ∈ text.toList, isPlain c = true ∧ c ≠ '\'') :
    Denotes number ('\'' :: (text.toList ++ ['\''])) (.string text)
  | boolean (b : Bool) : Denotes number (if b then "true" else "false").toList (.boolean b)
  | integer {w : List Char} {n : Nat} (h : number w n) : Denotes number w (.integer n)

/-- Whether a number is written by its digits. -/
def InDigits (w : List Char) (n : Nat) : Prop :=
  w = numeral n

/-! ### Lines -/

/-- Whether there are only blanks. -/
def Blank (s : List Char) : Prop :=
  ∀ c ∈ s, isBlankChar c = true

/-- Whether there are only blanks and line ends. -/
def Trivia (s : List Char) : Prop :=
  ∀ c ∈ s, isBlankChar c = true ∨ c = '\n'

/-- The lines of some fields, one for each, and what may stand between lines. -/
inductive FieldLines (number : List Char → Nat → Prop) : List Char → Fields → Prop
  | nil {a : List Char} (ha : Trivia a) : FieldLines number a []
  | cons {a b c d w s : List Char} {key : String} {v : Scalar} {fs : Fields} (ha : Trivia a)
    (hkey : IsBareKey key.toList) (hb : Blank b) (hc : Blank c) (hw : Denotes number w v)
    (hd : Blank d) (hs : FieldLines number s fs) :
    FieldLines number (a ++ (key.toList ++ (b ++ '=' :: (c ++ (w ++ (d ++ '\n' :: s))))))
      ((key, v) :: fs)

/-- The lines of some sections: for each the header line and the lines of its fields. -/
inductive SectionLines (number : List Char → Nat → Prop) : List Char → Sections → Prop
  | nil {a : List Char} (ha : Trivia a) : SectionLines number a []
  | cons {a b c d s r : List Char} {name : String} {fs : Fields} {ss : Sections} (ha : Trivia a)
    (hb : Blank b) (hname : IsBareKey name.toList) (hc : Blank c) (hd : Blank d)
    (hs : FieldLines number s fs) (hr : SectionLines number r ss) :
    SectionLines number
      (a ++ '[' :: (b ++ (name.toList ++ (c ++ ']' :: (d ++ '\n' :: (s ++ r))))))
      ((name, fs) :: ss)

theorem blank_nil : Blank [] :=
  List.forall_mem_nil _

theorem blank_space : Blank [' '] :=
  List.forall_mem_singleton.2 rfl

theorem trivia_nil : Trivia [] :=
  List.forall_mem_nil _

theorem trivia_newline : Trivia ['\n'] :=
  List.forall_mem_singleton.2 (.inr rfl)

section

variable {number number' : List Char → Nat → Prop} (h : ∀ w n, number w n → number' w n)

include h

theorem Denotes.mono {w : List Char} {v : Scalar} (hw : Denotes number w v) :
    Denotes number' w v := by
  cases hw with
  | basic text htext => exact .basic text htext
  | literal text htext => exact .literal text htext
  | boolean b => exact .boolean b
  | integer hn => exact .integer (h _ _ hn)

theorem FieldLines.mono {s : List Char} {fs : Fields} (hs : FieldLines number s fs) :
    FieldLines number' s fs := by
  induction hs with
  | nil ha => exact .nil ha
  | cons ha hkey hb hc hw hd _ ih => exact .cons ha hkey hb hc (hw.mono h) hd ih

/-- A document stays one if more is said to be a number. -/
theorem SectionLines.mono {s : List Char} {ss : Sections} (hs : SectionLines number s ss) :
    SectionLines number' s ss := by
  induction hs with
  | nil ha => exact .nil ha
  | cons ha hb hname hc hd hfs _ ih => exact .cons ha hb hname hc hd (hfs.mono h) ih

end

/-! ### Sections in any order -/

/-- Whether no section and no field of a section comes twice. -/
structure Sections.Distinct (ss : Sections) : Prop where
  names : (ss.map Prod.fst).Nodup
  fields : ∀ s ∈ ss, (s.2.map Prod.fst).Nodup

/-- Whether a value is within what is asked of writers and readers: a text without escapes, where a
tab counts as one because a writer may escape it, or a number of at most 64 bits. -/
def Scalar.IsSimple : Scalar → Prop
  | .string text => NeedsNoEscapes text.toList ∧ '\t' ∉ text.toList
  | .integer n => n < UInt64.size
  | .boolean _ => True

/-- Whether all keys are bare and all values simple. -/
structure Sections.Simple (ss : Sections) : Prop where
  names : ∀ name ∈ ss.map Prod.fst, IsBareKey name.toList
  keys : ∀ name key v, ss.Holds name key v → IsBareKey key.toList
  values : ∀ name key v, ss.Holds name key v → v.IsSimple

/-- Whether these are the same sections with the same fields, in any order and none of them twice.
-/
structure Sections.Rearranges (ss ss' : Sections) : Prop where
  distinct : ss.Distinct
  names : ∀ name, name ∈ ss.map Prod.fst ↔ name ∈ ss'.map Prod.fst
  fields : ∀ name key v, ss.Holds name key v ↔ ss'.Holds name key v

theorem Sections.Distinct.rearranges {ss : Sections} (h : ss.Distinct) : ss.Rearranges ss :=
  ⟨h, fun _ => Iff.rfl, fun _ _ _ => Iff.rfl⟩

theorem Sections.Rearranges.trans {ss₁ ss₂ ss₃ : Sections} (h : ss₁.Rearranges ss₂)
    (h' : ss₂.Rearranges ss₃) : ss₁.Rearranges ss₃ where
  distinct := h.distinct
  names name := (h.names name).trans (h'.names name)
  fields name key v := (h.fields name key v).trans (h'.fields name key v)

theorem Sections.Rearranges.simple {ss ss' : Sections} (h : ss.Rearranges ss') (hs : ss'.Simple) :
    ss.Simple where
  names name hname := hs.names name ((h.names name).1 hname)
  keys name key v hv := hs.keys name key v ((h.fields name key v).1 hv)
  values name key v hv := hs.values name key v ((h.fields name key v).1 hv)

theorem Sections.Simple.tail {s : String × Fields} {ss : Sections} (h : Sections.Simple (s :: ss)) :
    Sections.Simple ss where
  names name hname := h.names name (List.mem_cons_of_mem _ hname)
  keys name key v := fun ⟨fs, hfs, hv⟩ => h.keys name key v ⟨fs, List.mem_cons_of_mem _ hfs, hv⟩
  values name key v := fun ⟨fs, hfs, hv⟩ =>
    h.values name key v ⟨fs, List.mem_cons_of_mem _ hfs, hv⟩

/-! ### What is written -/

theorem writeKey_of_isBareKey {key : String} (h : IsBareKey key.toList) :
    writeKey key = .ok key.toList :=
  if_pos h

theorem exists_writeScalar {v : Scalar} (h : v.IsSimple) :
    ∃ w, writeScalar v = .ok w ∧ Denotes InDigits w v := by
  cases v with
  | string text => exact ⟨_, if_pos h.1, .basic text h.1⟩
  | integer n => exact ⟨_, if_pos h, .integer rfl⟩
  | boolean b => exact ⟨_, rfl, .boolean b⟩

theorem exists_writeFields {fs : Fields} (h : ∀ f ∈ fs, IsBareKey f.1.toList ∧ f.2.IsSimple) :
    ∃ s, writeFields fs = .ok s ∧ FieldLines InDigits s fs := by
  induction fs with
  | nil => exact ⟨[], rfl, .nil trivia_nil⟩
  | cons f fs ih =>
    obtain ⟨key, v⟩ := f
    obtain ⟨⟨hkey, hv⟩, hfs⟩ := List.forall_mem_cons.1 h
    obtain ⟨w, hw, hdenotes⟩ := exists_writeScalar hv
    obtain ⟨s, hs, hlines⟩ := ih hfs
    refine ⟨_, ?_, .cons trivia_nil hkey blank_space blank_space hdenotes blank_nil hlines⟩
    rw [writeFields, writeKey_of_isBareKey hkey, hw, hs]
    rfl

/-- Simple sections can be written. An empty line stands in front of a section that follows
others. -/
theorem exists_writeSections {ss : Sections} (h : ss.Simple) (behind : Bool) :
    ∃ s, writeSections behind ss = .ok s ∧ SectionLines InDigits s ss := by
  induction ss generalizing behind with
  | nil => exact ⟨[], rfl, .nil trivia_nil⟩
  | cons section' ss ih =>
    obtain ⟨name, fs⟩ := section'
    have hname := h.names name List.mem_cons_self
    have hsimple : ∀ f ∈ fs, IsBareKey f.1.toList ∧ f.2.IsSimple := by
      intro f hf
      have hholds : Sections.Holds ((name, fs) :: ss) name f.1 f.2 := ⟨fs, List.mem_cons_self, hf⟩
      exact ⟨h.keys _ _ _ hholds, h.values _ _ _ hholds⟩
    obtain ⟨s, hs, hfields⟩ := exists_writeFields hsimple
    obtain ⟨r, hr, hsections⟩ := ih h.tail true
    -- the empty line belongs to what stands between lines
    have hfront : Trivia (if behind then ['\n'] else []) := by
      cases behind with
      | false => exact trivia_nil
      | true => exact trivia_newline
    refine ⟨_, ?_, .cons hfront blank_nil hname blank_nil blank_nil hfields hsections⟩
    rw [writeSections, writeKey_of_isBareKey hname, hs, hr]
    rfl

/-- What is written for simple sections is a document of them, with their numbers in digits. -/
theorem sectionLines_write {ss : Sections} (h : ss.Simple) :
    ∃ text, write ss = .ok text ∧ SectionLines InDigits text.toList ss := by
  obtain ⟨s, hs, hlines⟩ := exists_writeSections h false
  refine ⟨String.ofList s, ?_, by rwa [String.toList_ofList]⟩
  rw [write, hs]
  rfl

end Toml

end WeightedSearch
