/-
What an outline tells of its query.

No line of an outline has a line end inside, so its lines can be told apart.  A line tells the level
of its node, since no label starts with a space, and the label tells what kind of node it is and
which text it has.  What stands below a node follows its line, up to the first line that is not
further in.  So an outline tells all of its query.  Main statements:

* `readLine_line` — a line tells its level and its label;
* `eq_of_label_of_children` — a label and what stands below a node tell the node;
* `marksAll_append_inj` — levels and labels tell the trees;
* `outlineChars_injective` — an outline has one line for each node, and different queries have
  different outlines.
-/
import WeightedSearch.Proofs.Text.Quoted
import WeightedSearch.Query.Outline

namespace WeightedSearch

/-! ### Lines -/

/-- The characters of some lines, each with its end. -/
def unlines (lines : List (List Char)) : List Char :=
  lines.flatMap fun line => line ++ ['\n']

theorem unlines_cons (line : List Char) (lines : List (List Char)) :
    unlines (line :: lines) = line ++ '\n' :: unlines lines := by
  simp [unlines]

/-- Where two lists have the same first `a` behind parts without it, the parts are the same. -/
theorem append_cons_inj {α : Type} {a : α} {s t r r' : List α} (hs : a ∉ s) (ht : a ∉ t)
    (h : s ++ a :: r = t ++ a :: r') : s = t ∧ r = r' := by
  induction s generalizing t with
  | nil =>
    cases t with
    | nil => exact ⟨rfl, (List.cons.inj h).2⟩
    | cons b t => exact absurd ((List.cons.inj h).1 ▸ List.mem_cons_self) ht
  | cons c s ih =>
    cases t with
    | nil => exact absurd ((List.cons.inj h).1 ▸ List.mem_cons_self) hs
    | cons b t =>
      obtain ⟨rfl, hrest⟩ := List.cons.inj h
      obtain ⟨rfl, hr⟩ := ih (List.not_mem_of_not_mem_cons hs) (List.not_mem_of_not_mem_cons ht) hrest
      exact ⟨rfl, hr⟩

/-- Lines without line ends inside can be told apart. -/
theorem unlines_inj {ls ms : List (List Char)} (hls : ∀ l ∈ ls, '\n' ∉ l)
    (hms : ∀ m ∈ ms, '\n' ∉ m) (h : unlines ls = unlines ms) : ls = ms := by
  induction ls generalizing ms with
  | nil =>
    cases ms with
    | nil => rfl
    | cons m ms => simp [unlines] at h
  | cons l ls ih =>
    cases ms with
    | nil => simp [unlines] at h
    | cons m ms =>
      obtain ⟨hl, hls'⟩ := List.forall_mem_cons.1 hls
      obtain ⟨hm, hms'⟩ := List.forall_mem_cons.1 hms
      rw [unlines_cons, unlines_cons] at h
      obtain ⟨rfl, hrest⟩ := append_cons_inj hl hm h
      rw [ih hls' hms' hrest]

/-- Each line has one line end. -/
theorem count_unlines {ls : List (List Char)} (h : ∀ l ∈ ls, '\n' ∉ l) :
    (unlines ls).count '\n' = ls.length := by
  induction ls with
  | nil => rfl
  | cons l ls ih =>
    obtain ⟨hl, hls⟩ := List.forall_mem_cons.1 h
    rw [unlines_cons, List.count_append, List.count_eq_zero_of_not_mem hl, List.count_cons_self,
      ih hls, Nat.zero_add, List.length_cons]

theorem getLast?_unlines {ls : List (List Char)} (h : ls ≠ []) :
    (unlines ls).getLast? = some '\n' := by
  rw [← List.dropLast_concat_getLast h, unlines, List.flatMap_append, List.flatMap_singleton,
    ← List.append_assoc, List.getLast?_concat]

namespace Query

/-! ### Labels -/

/-- The queries right below the outermost node of a query. -/
def children : Query → List Query
  | .nothing => []
  | .value _ _ => []
  | .group qs => qs
  | .required q => [q]
  | .excluded q => [q]

/-- Induction over a query: a node may assume the statement of what stands right below it. -/
@[elab_as_elim]
theorem induct_children {motive : Query → Prop}
    (node : ∀ q : Query, (∀ p ∈ q.children, motive p) → motive q) (q : Query) : motive q := by
  induction q using induct with
  | nothing => exact node _ nofun
  | value m t => exact node _ nofun
  | group qs ih => exact node _ ih
  | required q ih => exact node _ (List.forall_mem_singleton.2 ih)
  | excluded q ih => exact node _ (List.forall_mem_singleton.2 ih)

/-- The letter that the label of a query starts with. -/
def initial : Query → Char
  | .nothing => 'N'
  | .value .standard _ => 'S'
  | .value .precise _ => 'P'
  | .group _ => 'G'
  | .required _ => 'C'
  | .excluded _ => 'E'

theorem initial_ne_space (q : Query) : q.initial ≠ ' ' := by
  cases q with
  | value m t => cases m <;> simp [initial]
  | _ => simp [initial]

variable {shown : Char → Bool}

/-- What the label of a value says before its text. -/
def valueName : Matching → List Char
  | .standard => "StandardValue(".toList
  | .precise => "PreciseValue(".toList

theorem label_value (m : Matching) (t : String) :
    (value m t).label shown = valueName m ++ (quote shown t.toList ++ [')']) := by
  cases m with
  | standard => exact List.append_assoc _ _ _
  | precise => exact List.append_assoc _ _ _

theorem head?_label (q : Query) : (q.label shown).head? = some q.initial := by
  cases q with
  | value m t =>
    rw [label_value]
    cases m with
    | standard => rfl
    | precise => rfl
  | _ => rfl

theorem newline_not_mem_label (q : Query) : '\n' ∉ q.label shown := by
  cases q with
  | value m t =>
    -- what the text has is escaped by quoting, so only the names have to be looked at
    have hname : '\n' ∉ valueName m := by
      cases m with
      | standard => decide
      | precise => decide
    rw [label_value, List.mem_append, List.mem_append, not_or, not_or]
    exact ⟨hname, newline_not_mem_quote shown _, by decide⟩
  | nothing => exact (by decide : '\n' ∉ "NoMatch".toList)
  | group qs => exact (by decide : '\n' ∉ "Group".toList)
  | required q => exact (by decide : '\n' ∉ "Compulsory".toList)
  | excluded q => exact (by decide : '\n' ∉ "Excluding".toList)

/-- The label of a value tells its text. -/
theorem eq_of_label_value {m : Matching} {t u : String}
    (h : (value m t).label shown = (value m u).label shown) : t = u := by
  rw [label_value, label_value] at h
  have hquote := List.append_cancel_left h
  exact String.toList_inj.1 (quote_append_inj hquote).1

/-- The label of a node and what stands below it tell the node. -/
theorem eq_of_label_of_children {q p : Query} (hlabel : q.label shown = p.label shown)
    (hchildren : q.children = p.children) : q = p := by
  -- nodes of two kinds have labels with two initials, so they are of one kind
  have hinitial : q.initial = p.initial := by
    have hhead := congrArg List.head? hlabel
    rwa [head?_label, head?_label, Option.some.injEq] at hhead
  cases q with
  | nothing =>
    cases p with
    | nothing => rfl
    | value n u => cases n <;> simp [initial] at hinitial
    | _ => simp [initial] at hinitial
  | value m t =>
    cases p with
    | value n u =>
      obtain rfl : m = n := by cases m <;> cases n <;> simp [initial] at hinitial ⊢
      rw [eq_of_label_value hlabel]
    | _ => cases m <;> simp [initial] at hinitial
  | group qs =>
    cases p with
    | group ps => exact congrArg group hchildren
    | value n u => cases n <;> simp [initial] at hinitial
    | _ => simp [initial] at hinitial
  | required q =>
    cases p with
    | required p => exact congrArg required (List.cons.inj hchildren).1
    | value n u => cases n <;> simp [initial] at hinitial
    | _ => simp [initial] at hinitial
  | excluded q =>
    cases p with
    | excluded p => exact congrArg excluded (List.cons.inj hchildren).1
    | value n u => cases n <;> simp [initial] at hinitial
    | _ => simp [initial] at hinitial

/-! ### Levels -/

/-- The level of a line and its label. -/
def readLine (line : List Char) : Nat × List Char :=
  ((line.takeWhile (· == ' ')).length / 2, line.dropWhile (· == ' '))

/-- No label starts with a space, so the spaces in front of it tell the level. -/
theorem readLine_line (level : Nat) (q : Query) :
    readLine (List.replicate (2 * level) ' ' ++ q.label shown) = (level, q.label shown) := by
  obtain ⟨rest, hlabel⟩ : ∃ rest, q.label shown = q.initial :: rest :=
    List.head?_eq_some_iff.1 (head?_label q)
  have hspaces : ∀ c ∈ List.replicate (2 * level) ' ', (c == ' ') = true := by
    intro c hc
    rw [List.eq_of_mem_replicate hc]
    rfl
  have hinitial : ¬(q.initial == ' ') = true := by
    rw [beq_iff_eq]
    exact initial_ne_space q
  have htake : (q.initial :: rest).takeWhile (· == ' ') = [] := List.takeWhile_cons_of_neg hinitial
  have hdrop : (q.initial :: rest).dropWhile (· == ' ') = q.initial :: rest :=
    List.dropWhile_cons_of_neg hinitial
  rw [readLine, hlabel, List.takeWhile_append_of_pos hspaces, List.dropWhile_append_of_pos hspaces,
    htake, hdrop, List.append_nil, List.length_replicate, Nat.mul_div_cancel_left _ (by decide)]

/-- The level and the label of each line, for a query whose outermost node has the given level. -/
def marks (shown : Char → Bool) (level : Nat) (q : Query) : List (Nat × List Char) :=
  (q.nodes level).map fun p => (p.1, p.2.label shown)

/-- The levels and labels of some queries, one after the other. -/
def marksAll (shown : Char → Bool) (level : Nat) (qs : List Query) : List (Nat × List Char) :=
  (nodesAll level qs).map fun p => (p.1, p.2.label shown)

/-- The first line of a query is its own, and those of what stands below it follow. -/
theorem marks_eq (level : Nat) (q : Query) :
    marks shown level q = (level, q.label shown) :: marksAll shown (level + 1) q.children := by
  cases q with
  | required q => simp [marks, marksAll, nodes, nodesAll, children]
  | excluded q => simp [marks, marksAll, nodes, nodesAll, children]
  | _ => rfl

theorem marksAll_cons (level : Nat) (q : Query) (qs : List Query) :
    marksAll shown level (q :: qs) = marks shown level q ++ marksAll shown level qs := by
  rw [marksAll, nodesAll, List.map_append]
  rfl

/-- What an outline tells is read off its lines. -/
theorem marks_eq_map_readLine (q : Query) :
    marks shown 0 q = (q.outlineLines shown).map readLine := by
  rw [outlineLines, List.map_map]
  exact List.map_congr_left fun p _ => (readLine_line p.1 p.2).symm

/-- Whether the first of some lines, if there is one, is further out than a level. -/
def StartsOutside (level : Nat) (r : List (Nat × List Char)) : Prop :=
  ∀ x ∈ r.head?, x.1 < level

/-- Lines of siblings are further out than what stands below one of them. -/
theorem StartsOutside.marksAll_append {level : Nat} {r : List (Nat × List Char)}
    (h : StartsOutside level r) (qs : List Query) :
    StartsOutside (level + 1) (marksAll shown level qs ++ r) := by
  intro x hx
  cases qs with
  | nil => exact Nat.lt_succ_of_lt (h x hx)
  | cons q qs =>
    rw [marksAll_cons, marks_eq] at hx
    obtain rfl := Option.some.inj hx
    exact Nat.lt_succ_self level

/-- Whether the lines of a query tell the query, and where they end in front of lines that are not
further in. -/
def Told (shown : Char → Bool) (q : Query) : Prop :=
  ∀ (level : Nat) (p : Query) (r r' : List (Nat × List Char)),
    StartsOutside (level + 1) r → StartsOutside (level + 1) r' →
    marks shown level q ++ r = marks shown level p ++ r' → q = p ∧ r = r'

/-- Siblings that are told are told apart from what follows them. -/
theorem marksAll_append_inj {qs ps : List Query} (hqs : ∀ q ∈ qs, Told shown q) {level : Nat}
    {r r' : List (Nat × List Char)} (hr : StartsOutside level r) (hr' : StartsOutside level r')
    (h : marksAll shown level qs ++ r = marksAll shown level ps ++ r') : qs = ps ∧ r = r' := by
  induction qs generalizing ps with
  | nil =>
    cases ps with
    | nil => exact ⟨rfl, h⟩
    | cons p ps =>
      -- the line of `p` has the level itself, and what follows `[]` starts further out
      rw [marksAll_cons, marks_eq] at h
      exact absurd (hr (level, p.label shown) (congrArg List.head? h)) (Nat.lt_irrefl level)
  | cons q qs ih =>
    cases ps with
    | nil =>
      rw [marksAll_cons, marks_eq] at h
      exact absurd (hr' (level, q.label shown) (congrArg List.head? h.symm)) (Nat.lt_irrefl level)
    | cons p ps =>
      -- the first sibling ends in front of the second, which has the same level
      obtain ⟨hq, hqs⟩ := List.forall_mem_cons.1 hqs
      rw [marksAll_cons, marksAll_cons, List.append_assoc, List.append_assoc] at h
      obtain ⟨rfl, hrest⟩ :=
        hq level p _ _ (hr.marksAll_append qs) (hr'.marksAll_append ps) h
      obtain ⟨rfl, hr⟩ := ih hqs hrest
      exact ⟨rfl, hr⟩

/-- The lines of a query tell it. -/
theorem told (q : Query) : Told shown q := by
  induction q using induct_children with
  | node q ih =>
    intro level p r r' hr hr' h
    rw [marks_eq, marks_eq] at h
    -- the first lines agree, and below them stand the children at the next level
    obtain ⟨hmark, hbelow⟩ := List.cons.inj h
    obtain ⟨hchildren, hrest⟩ := marksAll_append_inj ih hr hr' hbelow
    exact ⟨eq_of_label_of_children (Prod.mk.inj hmark).2 hchildren, hrest⟩

/-! ### Outlines -/

theorem newline_not_mem_outlineLines (q : Query) : ∀ line ∈ q.outlineLines shown, '\n' ∉ line := by
  refine List.forall_mem_map.2 fun p _ hmem => ?_
  rcases List.mem_append.1 hmem with hspace | hlabel
  · exact absurd (List.eq_of_mem_replicate hspace) (by decide)
  · exact newline_not_mem_label p.2 hlabel

theorem outlineLines_ne_nil (q : Query) : q.outlineLines shown ≠ [] := by
  intro h
  have hmarks : marks shown 0 q = (q.outlineLines shown).map readLine := marks_eq_map_readLine q
  rw [h, marks_eq] at hmarks
  cases hmarks

theorem eq_of_outlineChars_eq {q p : Query} (h : q.outlineChars shown = p.outlineChars shown) :
    q = p := by
  have hlines : q.outlineLines shown = p.outlineLines shown :=
    unlines_inj (newline_not_mem_outlineLines q) (newline_not_mem_outlineLines p) h
  have hmarks : marks shown 0 q ++ [] = marks shown 0 p ++ [] := by
    rw [marks_eq_map_readLine, marks_eq_map_readLine, hlines]
  -- nothing stands behind an outline, and nothing starts inside of it
  exact (told q 0 p [] [] nofun nofun hmarks).1

/-- An outline has as many line ends as its query has nodes, the last of them at its very end, and
no two queries have the same outline. This is so whichever characters are shown as they are, among
them those that the outline of a query shows. -/
theorem outlineChars_injective :
    (∀ shown (q : Query), (q.outlineChars shown).count '\n' = q.size ∧
      (q.outlineChars shown).getLast? = some '\n') ∧
    (∀ shown, Function.Injective (outlineChars shown)) ∧ Function.Injective outline := by
  refine ⟨fun shown q => ⟨?_, ?_⟩, fun shown q p => eq_of_outlineChars_eq, fun q p h => ?_⟩
  · rw [← length_outlineLines shown q]
    exact count_unlines (newline_not_mem_outlineLines q)
  · exact getLast?_unlines (outlineLines_ne_nil q)
  · exact eq_of_outlineChars_eq (String.ofList_inj.1 h)

end Query

end WeightedSearch
