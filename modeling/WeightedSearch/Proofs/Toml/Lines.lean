/-
Standard documents read.

Each line of a document of sections is read as its statement, whatever stands between the lines.
The statements make the table of the sections, where each section and each field is put in its place
by its name, so the order of the lines is not kept and does not matter.  Main statements:

* `readStatement_header`, `readStatement_pair` — a line is read as its statement;
* `statements?_sectionLines` — the lines are read as the statements of their sections;
* `addSections_statements` — the statements make the table of the sections;
* `parse?_of_sectionLines` — a document is read as its sections, in some order.
-/
import WeightedSearch.Proofs.Toml.Scalar
import WeightedSearch.Toml.Document
import WeightedSearch.Table

namespace WeightedSearch

namespace Toml

/-! ### Keys -/

theorem IsBareKey.exists_cons {key : List Char} (h : IsBareKey key) :
    ∃ c k, key = c :: k ∧ isKeyChar c = true := by
  obtain ⟨c, k, rfl⟩ := List.exists_cons_of_ne_nil h.1
  exact ⟨c, k, rfl, h.2 c List.mem_cons_self⟩

theorem ne_of_isKeyChar {c d : Char} (hc : isKeyChar c = true) (hd : isKeyChar d = false) :
    c ≠ d := by
  rintro rfl
  rw [hc] at hd
  cases hd

theorem isBlankChar_of_isKeyChar {c : Char} (h : isKeyChar c = true) : isBlankChar c = false := by
  rw [isBlankChar, beq_false_of_ne (ne_of_isKeyChar h (by decide)),
    beq_false_of_ne (ne_of_isKeyChar h (by decide))]
  rfl

theorem isKeyChar_of_isBlankChar {c : Char} (h : isBlankChar c = true) : isKeyChar c = false := by
  cases hc : isKeyChar c with
  | false => rfl
  | true =>
    rw [isBlankChar_of_isKeyChar hc] at h
    cases h

theorem skipBlanks_blank {b : List Char} (hb : Blank b) {c : Char} (hc : isBlankChar c = false)
    (r : List Char) : skipBlanks (b ++ c :: r) = c :: r := by
  rw [skipBlanks, List.dropWhile_append_of_pos hb, List.dropWhile_cons_of_neg (by simp [hc])]

theorem readKey_of_isBareKey {key : List Char} (h : IsBareKey key) {c : Char}
    (hc : isKeyChar c = false) (r : List Char) :
    readKey (key ++ c :: r) = some (String.ofList key, c :: r) := by
  obtain ⟨d, k, rfl, hd⟩ := h.exists_cons
  have hquotes : ¬((d :: k ++ c :: r).head? = some '"' ∨ (d :: k ++ c :: r).head? = some '\'') := by
    simp [ne_of_isKeyChar hd (show isKeyChar '"' = false by decide),
      ne_of_isKeyChar hd (show isKeyChar '\'' = false by decide)]
  have htake : (d :: k ++ c :: r).takeWhile isKeyChar = d :: k := by
    rw [List.takeWhile_append_of_pos h.2, List.takeWhile_cons_of_neg (by simp [hc]),
      List.append_nil]
  have hdrop : (d :: k ++ c :: r).dropWhile isKeyChar = c :: r := by
    rw [List.dropWhile_append_of_pos h.2, List.dropWhile_cons_of_neg (by simp [hc])]
  rw [readKey, if_neg hquotes, htake, hdrop]

/-- A key with blanks around it that no dot follows is a path of its own. -/
theorem readPath_of_isBareKey {key : String} (h : IsBareKey key.toList) {a b : List Char}
    (ha : Blank a) (hb : Blank b) {c : Char} (hc : isKeyChar c = false)
    (hblank : isBlankChar c = false) (hdot : c ≠ '.') (r : List Char) :
    readPath maxDepth (a ++ (key.toList ++ (b ++ c :: r))) = some ([key], c :: r) := by
  -- the key ends at a blank or at the character behind the blanks, neither of which is in keys
  obtain ⟨d, r', hd, hnext⟩ : ∃ d r', isKeyChar d = false ∧ b ++ c :: r = d :: r' := by
    cases b with
    | nil => exact ⟨c, r, hc, rfl⟩
    | cons d b => exact ⟨d, _, isKeyChar_of_isBlankChar (hb d List.mem_cons_self), rfl⟩
  have hfront : skipBlanks (a ++ (key.toList ++ d :: r')) = key.toList ++ d :: r' := by
    obtain ⟨e, k, hk, he⟩ := h.exists_cons
    rw [hk]
    exact skipBlanks_blank ha (isBlankChar_of_isKeyChar he) _
  have hrest : skipBlanks (d :: r') = c :: r := by
    rw [← hnext, skipBlanks_blank hb hblank]
  have hkey : readKey (key.toList ++ d :: r') = some (key, d :: r') := by
    rw [readKey_of_isBareKey h hd, String.ofList_toList]
  rw [hnext, show maxDepth = 79 + 1 from rfl, readPath, hfront, hkey]
  simp only [Option.bind_eq_bind, Option.bind_some, hrest]
  split
  · next heq => exact absurd (List.cons.inj heq).1 hdot
  · rfl

/-! ### Single lines -/

theorem readStatement_header {name : String} (h : IsBareKey name.toList) {b c : List Char}
    (hb : Blank b) (hc : Blank c) (r : List Char) :
    readStatement ('[' :: (b ++ (name.toList ++ (c ++ ']' :: r))))
      = some (.header false [name], r) := by
  have hpath := readPath_of_isBareKey h hb hc (c := ']') (by decide) rfl (by decide) r
  have hexpect : expect ']' (']' :: r) = some r := rfl
  unfold readStatement
  split
  · next heq =>
    -- neither a blank nor the front of a key is a second bracket
    exfalso
    obtain ⟨d, k, hk, hd⟩ := h.exists_cons
    have heq := (List.cons.inj heq).2
    rw [hk] at heq
    cases b with
    | nil =>
      obtain ⟨rfl, -⟩ := List.cons.inj heq
      exact absurd hd (by decide)
    | cons e b =>
      obtain ⟨rfl, -⟩ := List.cons.inj heq
      exact absurd (hb '[' List.mem_cons_self) (by decide)
  · next heq =>
    obtain ⟨-, rfl⟩ := List.cons.inj heq
    simp [hpath, hexpect]
  · next hheader => exact absurd rfl (hheader _)

theorem readStatement_pair {key : String} {w : List Char} {v : Scalar} (h : IsBareKey key.toList)
    (hw : Denotes IsDecimal w v) {b c d : List Char} (hb : Blank b) (hc : Blank c) (hd : Blank d)
    (r : List Char) :
    readStatement (key.toList ++ (b ++ '=' :: (c ++ (w ++ (d ++ '\n' :: r)))))
      = some (.pair [key] v.toValue, d ++ '\n' :: r) := by
  have hpath := readPath_of_isBareKey h blank_nil hb (c := '=') (by decide) rfl (by decide)
    (c ++ (w ++ (d ++ '\n' :: r)))
  rw [List.nil_append] at hpath
  have hexpect : ∀ s, expect '=' ('=' :: s) = some s := fun _ => rfl
  have hblanks : skipBlanks (c ++ (w ++ (d ++ '\n' :: r))) = w ++ (d ++ '\n' :: r) := by
    obtain ⟨e, w, rfl, he⟩ := hw.exists_cons
    exact skipBlanks_blank hc he _
  -- a key does not begin with a bracket, so the line is no header
  have hfront : ∀ r', key.toList ++ (b ++ '=' :: (c ++ (w ++ (d ++ '\n' :: r)))) ≠ '[' :: r' := by
    intro r' heq
    obtain ⟨e, k, hk, he⟩ := h.exists_cons
    rw [hk] at heq
    rw [(List.cons.inj heq).1] at he
    exact absurd he (by decide)
  unfold readStatement
  split
  · next heq => exact absurd heq (hfront _)
  · next heq => exact absurd heq (hfront _)
  · simp [hpath, hexpect, hblanks, readValue_of_denotes hw _ _ hd]

/-! ### The lines of a document -/

/-- No blank is a line end or a part of one. -/
theorem ne_of_isBlankChar {c : Char} (h : isBlankChar c = true) : c ≠ '\n' ∧ c ≠ '\r' := by
  constructor
  · rintro rfl
    exact absurd h (by decide)
  · rintro rfl
    exact absurd h (by decide)

theorem skipTrivia_append {a : List Char} (ha : Trivia a) (s : List Char) :
    skipTrivia false (a ++ s) = skipTrivia false s := by
  induction a with
  | nil => rfl
  | cons c a ih =>
    obtain ⟨hc, hrest⟩ := List.forall_mem_cons.1 ha
    rw [List.cons_append]
    rcases hc with hc | rfl
    · obtain ⟨hnewline, hreturn⟩ := ne_of_isBlankChar hc
      simp [skipTrivia, hreturn, hc, ih hrest]
    · exact ih hrest

theorem skipLineEnd_blank {d : List Char} (hd : Blank d) (r : List Char) :
    skipLineEnd false (d ++ '\n' :: r) = some r := by
  induction d with
  | nil => rfl
  | cons c d ih =>
    obtain ⟨hc, hd⟩ := List.forall_mem_cons.1 hd
    obtain ⟨hnewline, hreturn⟩ := ne_of_isBlankChar hc
    simp [skipLineEnd, hreturn, hc, ih hd]

theorem skipTrivia_of_isKeyChar {c : Char} (hc : isKeyChar c = true) (r : List Char) :
    skipTrivia false (c :: r) = some (c :: r) := by
  have hnewline : c ≠ '\n' := ne_of_isKeyChar hc (by decide)
  have hreturn : c ≠ '\r' := ne_of_isKeyChar hc (by decide)
  have hcomment : c ≠ '#' := ne_of_isKeyChar hc (by decide)
  simp [skipTrivia, hreturn, hcomment, isBlankChar_of_isKeyChar hc]

/-- What stands between lines is passed over. -/
theorem statements?_append {a : List Char} (ha : Trivia a) {s : List Char} {l : List Statement}
    (h : statements? s = some l) : statements? (a ++ s) = some l := by
  rw [statements?.eq_def] at h ⊢
  rw [skipTrivia_append ha]
  cases hs : skipTrivia false s with
  | none => simp [hs] at h
  | some s' =>
    rw [hs] at h
    cases s' with
    | nil => exact h
    | cons c r =>
      dsimp only at h ⊢
      -- what was left of the line got shorter, so it is shorter than the longer text too
      split at h
      · cases h
      · next st rest hread =>
        split at h
        · next hlt =>
          have hle : rest.length < (a ++ s).length := by
            rw [List.length_append]
            omega
          simp only [if_pos hle, h]
        · cases h

/-- The statement of a line, in front of those of the lines behind it. -/
theorem statements?_line {c : Char} {r d rest : List Char} {st : Statement} {l : List Statement}
    (hfront : skipTrivia false (c :: r) = some (c :: r)) (hd : Blank d)
    (hread : readStatement (c :: r) = some (st, d ++ '\n' :: rest))
    (hlength : rest.length < (c :: r).length) (hl : statements? rest = some l) :
    statements? (c :: r) = some (st :: l) := by
  rw [statements?.eq_def, hfront]
  simp only [hread, Option.bind_some, skipLineEnd_blank hd, Option.map_some, if_pos hlength, hl]

/-- The pairs of some fields. -/
def Fields.pairs (fs : Fields) : List (List String × Value) :=
  fs.map fun f => ([f.1], f.2.toValue)

/-- The statements of some fields. -/
def Fields.statements (fs : Fields) : List Statement :=
  (Fields.pairs fs).map fun p => .pair p.1 p.2

/-- The statements of a document with some sections. -/
def Sections.statements (ss : Sections) : List Statement :=
  ss.flatMap fun s => .header false [s.1] :: Fields.statements s.2

theorem statements?_fieldLines {s : List Char} {fs : Fields} (h : FieldLines IsDecimal s fs)
    {r : List Char} {l : List Statement} (hl : statements? r = some l) :
    statements? (s ++ r) = some (Fields.statements fs ++ l) := by
  induction h with
  | nil ha => exact statements?_append ha hl
  | @cons a b c d w s key v fs ha hkey hb hc hw hd _ ih =>
    have hread := readStatement_pair hkey hw hb hc hd (s ++ r)
    obtain ⟨e, k, hk, he⟩ := hkey.exists_cons
    simp only [List.append_assoc, List.cons_append]
    rw [hk] at hread ⊢
    refine statements?_append ha (statements?_line (skipTrivia_of_isKeyChar he _) hd hread ?_ ih)
    show (s ++ r).length < (e :: (k ++ (b ++ '=' :: (c ++ (w ++ (d ++ '\n' :: (s ++ r))))))).length
    simp only [List.length_append, List.length_cons]
    omega

/-- A document is read line by line. -/
theorem statements?_sectionLines {s : List Char} {ss : Sections}
    (h : SectionLines IsDecimal s ss) : statements? s = some ss.statements := by
  induction h with
  | @nil a ha =>
    have hnil : statements? [] = some [] := by
      rw [statements?.eq_def]
      rfl
    have hread := statements?_append ha hnil
    rwa [List.append_nil] at hread
  | @cons a b c d s r name fs ss ha hb hname hc hd hs _ ih =>
    have hread := readStatement_header hname hb hc (d ++ '\n' :: (s ++ r))
    refine statements?_append ha (statements?_line rfl hd hread ?_ (statements?_fieldLines hs ih))
    simp only [List.length_append, List.length_cons]
    omega

/-- No document begins with a byte order mark, which is neither blank nor a bracket. -/
theorem SectionLines.head?_ne {s : List Char} {ss : Sections} (h : SectionLines IsDecimal s ss) :
    s.head? ≠ some (Char.ofNat 0xFEFF) := by
  have hfront : ∀ {a r : List Char}, Trivia a → r.head? ≠ some (Char.ofNat 0xFEFF) →
      (a ++ r).head? ≠ some (Char.ofNat 0xFEFF) := by
    intro a r ha hr
    cases a with
    | nil => exact hr
    | cons c a =>
      rintro ⟨⟩
      exact absurd (ha _ List.mem_cons_self) (by decide)
  cases h with
  | nil ha =>
    have hne := hfront ha (r := []) (by decide)
    rwa [List.append_nil] at hne
  | cons ha => exact hfront ha (by simp)

/-! ### The table of a document -/

/-- The pairs put in their places one after the other. -/
def putAll {α : Type} (l es : List (String × α)) : List (String × α) :=
  l.foldl (fun es e => put e.1 e.2 es) es

section

variable {α β : Type}

theorem perm_put {key : String} {es : List (String × α)} (h : key ∉ es.map Prod.fst) (value : α) :
    (put key value es).Perm ((key, value) :: es) := by
  induction es with
  | nil => exact .refl _
  | cons e es ih =>
    obtain ⟨hkey, hrest⟩ := List.ne_and_not_mem_of_not_mem_cons h
    rw [put, if_neg hkey.symm]
    -- where the key is put depends on the order of the keys, but it is put in somewhere
    split
    · exact .refl _
    · exact ((ih hrest).cons e).trans (.swap ..)

/-- A key with no other of its name is none of those behind it. -/
theorem notMem_keys_of_nodup {e : String × α} {l es : List (String × α)}
    (h : ((e :: l ++ es).map Prod.fst).Nodup) : e.1 ∉ es.map Prod.fst := by
  obtain ⟨hkey, -⟩ := List.nodup_cons.1 h
  exact fun hmem => hkey (List.map_append ▸ List.mem_append_right (l.map Prod.fst) hmem)

theorem perm_append_put {e : String × α} {l es : List (String × α)}
    (h : ((e :: l ++ es).map Prod.fst).Nodup) : (l ++ put e.1 e.2 es).Perm (e :: l ++ es) :=
  ((perm_put (notMem_keys_of_nodup h) e.2).append_left l).trans List.perm_middle

/-- The keys still to come stay different when one is put in its place. -/
theorem nodup_keys_append_put {e : String × α} {l es : List (String × α)}
    (h : ((e :: l ++ es).map Prod.fst).Nodup) : ((l ++ put e.1 e.2 es).map Prod.fst).Nodup :=
  ((perm_append_put h).map Prod.fst).nodup_iff.2 h

theorem perm_putAll {l es : List (String × α)} (h : ((l ++ es).map Prod.fst).Nodup) :
    (putAll l es).Perm (l ++ es) := by
  induction l generalizing es with
  | nil => exact .refl _
  | cons e l ih => exact (ih (nodup_keys_append_put h)).trans (perm_append_put h)

theorem perm_putAll_nil {l : List (String × α)} (h : (l.map Prod.fst).Nodup) :
    (putAll l []).Perm l := by
  rw [← List.append_nil l] at h
  have hperm := perm_putAll h
  rwa [List.append_nil] at hperm

theorem map_put (f : α → β) (key : String) (value : α) (es : List (String × α)) :
    (put key value es).map (Prod.map id f) = put key (f value) (es.map (Prod.map id f)) := by
  induction es with
  | nil => rfl
  | cons e es ih =>
    simp only [put, List.map_cons, Prod.map_fst, Prod.map_snd, id]
    split
    · rfl
    · split
      · rfl
      · rw [List.map_cons, ih]
        rfl

theorem map_putAll (f : α → β) (l es : List (String × α)) :
    (putAll l es).map (Prod.map id f)
      = putAll (l.map (Prod.map id f)) (es.map (Prod.map id f)) := by
  induction l generalizing es with
  | nil => rfl
  | cons e l ih =>
    refine (ih (put e.1 e.2 es)).trans ?_
    rw [map_put]
    rfl

end

/-- The sections and their fields in the order of a table. -/
def Sections.sorted (ss : Sections) : Sections :=
  putAll (ss.map fun s => (s.1, putAll s.2 [])) []

namespace Sections.Distinct

variable {ss : Sections} (h : ss.Distinct)

include h

theorem sorted_perm : ss.sorted.Perm (ss.map fun s => (s.1, putAll s.2 [])) := by
  refine perm_putAll_nil ?_
  rw [List.map_map]
  exact h.names

theorem mem_sorted {name : String} {fs : Fields} :
    (name, fs) ∈ ss.sorted ↔ ∃ fs', (name, fs') ∈ ss ∧ putAll fs' [] = fs := by
  rw [h.sorted_perm.mem_iff, List.mem_map]
  constructor
  · rintro ⟨⟨name, fs'⟩, hmem, ⟨⟩⟩
    exact ⟨fs', hmem, rfl⟩
  · rintro ⟨fs', hmem, rfl⟩
    exact ⟨(name, fs'), hmem, rfl⟩

/-- Sorting moves sections and fields only. -/
theorem sorted_rearranges : ss.sorted.Rearranges ss where
  distinct :=
    { names := by
        rw [(h.sorted_perm.map Prod.fst).nodup_iff, List.map_map]
        exact h.names
      fields := by
        rintro ⟨name, fs⟩ hs
        obtain ⟨fs', hmem, rfl⟩ := h.mem_sorted.1 hs
        exact ((perm_putAll_nil (h.fields _ hmem)).map Prod.fst).nodup_iff.2 (h.fields _ hmem) }
  names name := by
    rw [(h.sorted_perm.map Prod.fst).mem_iff, List.map_map]
    rfl
  fields name key v := by
    constructor
    · rintro ⟨fs, hs, hv⟩
      obtain ⟨fs', hmem, rfl⟩ := h.mem_sorted.1 hs
      exact ⟨fs', hmem, (perm_putAll_nil (h.fields _ hmem)).mem_iff.1 hv⟩
    · rintro ⟨fs, hs, hv⟩
      exact ⟨_, h.mem_sorted.2 ⟨fs, hs, rfl⟩, (perm_putAll_nil (h.fields _ hs)).mem_iff.2 hv⟩

end Sections.Distinct

/-- The table of some fields. -/
def Fields.table (fs : Fields) : Value :=
  .table .header (putAll (Fields.entries fs) [])

theorem Sections.entries_sorted (ss : Sections) :
    ss.sorted.entries = putAll (ss.map fun s => (s.1, Fields.table s.2)) [] := by
  have hfields : ∀ fs : Fields, Fields.entries (putAll fs []) = putAll (Fields.entries fs) [] :=
    fun fs => map_putAll Scalar.toValue fs []
  refine (map_putAll (fun fs => Value.table .header (Fields.entries fs)) _ []).trans ?_
  rw [List.map_map]
  simp only [Function.comp_def, Prod.map_apply, id, hfields, List.map_nil, Fields.table]

/-- A key that a table does not have yet is put into it. -/
theorem addPair_of_notMem {key : String} {es : Entries} (h : key ∉ es.map Prod.fst)
    (value : Value) :
    addPair [key] value (.header, es) = some (.header, put key value es) := by
  simp [addPair, descend, lookup_eq_none_iff_notMem.2 h]

theorem addPairs_of_nodup {l es : Entries} (h : ((l ++ es).map Prod.fst).Nodup) :
    addPairs (l.map fun e => ([e.1], e.2)) (.header, es) = some (.header, putAll l es) := by
  induction l generalizing es with
  | nil => rfl
  | cons e l ih =>
    rw [addPairs, List.map_cons, List.foldlM_cons,
      addPair_of_notMem (notMem_keys_of_nodup h) e.2]
    exact ih (nodup_keys_append_put h)

theorem addPairs_pairs {fs : Fields} (h : (fs.map Prod.fst).Nodup) :
    addPairs (Fields.pairs fs) (.header, []) = some (.header, putAll (Fields.entries fs) []) := by
  have hpairs : Fields.pairs fs = (Fields.entries fs).map fun e => ([e.1], e.2) := by
    rw [Fields.entries, List.map_map]
    rfl
  rw [hpairs]
  refine addPairs_of_nodup ?_
  rw [List.append_nil, Fields.entries, List.map_map]
  exact h

/-- A header line makes the table of the pairs behind it. -/
theorem addSection_of_notMem {name : String} {es : Entries} (h : name ∉ es.map Prod.fst)
    {fs : Fields} (hfs : (fs.map Prod.fst).Nodup) :
    addSection false [name] (Fields.pairs fs) (.header, es)
      = some (.header, put name (Fields.table fs) es) := by
  simp only [addSection, descend, List.getLast?_singleton, List.dropLast_singleton,
    Option.bind_eq_bind, Option.bind_some, lookup_eq_none_iff_notMem.2 h, addPairs_pairs hfs]
  rfl

/-- The pairs of a section end where the next one begins. -/
theorem splitSection_statements (fs : Fields) (ss : Sections) :
    splitSection (Fields.statements fs ++ ss.statements)
      = (Fields.pairs fs, ss.statements) := by
  induction fs with
  | nil => cases ss <;> rfl
  | cons f fs ih =>
    have hcons : splitSection (Fields.statements (f :: fs) ++ ss.statements)
        = let p := splitSection (Fields.statements fs ++ ss.statements)
          (([f.1], f.2.toValue) :: p.1, p.2) := rfl
    rw [hcons, ih]
    rfl

/-- The statements of sections make their tables. -/
theorem addSections_statements {ss : Sections} {es : Entries}
    (hnames : ((ss.map (fun s => (s.1, Fields.table s.2)) ++ es).map Prod.fst).Nodup)
    (hfields : ∀ s ∈ ss, (s.2.map Prod.fst).Nodup) :
    addSections ss.statements (.header, es)
      = some (.header, putAll (ss.map fun s => (s.1, Fields.table s.2)) es) := by
  induction ss generalizing es with
  | nil =>
    unfold addSections
    rfl
  | cons s ss ih =>
    obtain ⟨hs, hss⟩ := List.forall_mem_cons.1 hfields
    have hcons : Sections.statements (s :: ss)
        = .header false [s.1] :: (Fields.statements s.2 ++ Sections.statements ss) := rfl
    -- the pairs up to the next header are those of this section, and its name is new
    rw [hcons, addSections]
    simp only [splitSection_statements, addSection_of_notMem (notMem_keys_of_nodup hnames) hs]
    exact ih (nodup_keys_append_put hnames) hss

/-- A document of sections is read as these, sorted. -/
theorem parse?_of_sectionLines {text : String} {ss : Sections} (h : ss.Distinct)
    (htext : SectionLines IsDecimal text.toList ss) :
    parse? text = some ss.sorted.entries := by
  have hmark : ¬text.toList.head? = some (Char.ofNat 0xFEFF) := htext.head?_ne
  have hnames :
      ((ss.map (fun s : String × Fields => (s.1, s.2.table)) ++ []).map Prod.fst).Nodup := by
    rw [List.append_nil, List.map_map]
    exact h.names
  have hadd := addSections_statements hnames h.fields
  rw [parse?]
  simp only [if_neg hmark, statements?_sectionLines htext, Option.bind_eq_bind, Option.bind_some]
  rw [show splitSection ss.statements = ([], ss.statements) from splitSection_statements [] ss]
  simp only [addPairs, List.foldlM_nil, Option.pure_def, Option.bind_some, hadd,
    Sections.entries_sorted]

end Toml

end WeightedSearch
