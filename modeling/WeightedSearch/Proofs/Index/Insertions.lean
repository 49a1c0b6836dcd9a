/-
The insertions that a lexicon holds.

Entries are inserted into a lexicon one after the other, and from time to time it gets another
normal form or another key policy.  Each entry stays with the form that its token had when it came,
whatever the normal form is later, so a lexicon is the list of its insertions and nothing else.
Main statements:

* `holds_change` — one change keeps the lexicon and the list in step;
* `holds_after` — so does a run of changes;
* `lookup_after` — what a lexicon answers after any run of changes, and how many forms it then has.
-/
import Mathlib.Data.Finset.Card
import WeightedSearch.Index.Lexicon

namespace WeightedSearch

variable {κ : Type}

namespace Lexicon

/-! ### Runs of changes -/

/-- A change of a lexicon. -/
inductive Change (κ : Type)
  | insert (token : String) (entry : Entry κ)
  | setNormal (normal : String → String)
  | setPolicy (policy : KeyPolicy κ)

/-- The lexicon after a change. -/
def change (lexicon : Lexicon κ) : Change κ → Lexicon κ
  | .insert token entry => lexicon.insert token entry
  | .setNormal normal => lexicon.setNormal normal
  | .setPolicy policy => lexicon.setPolicy policy

/-- The lexicon after some changes. -/
def after (lexicon : Lexicon κ) (changes : List (Change κ)) : Lexicon κ :=
  changes.foldl change lexicon

/-- The normal form that is set last, the given one if none is set. -/
def normalAfter (normal : String → String) : List (Change κ) → String → String
  | [] => normal
  | .setNormal normal' :: cs => normalAfter normal' cs
  | _ :: cs => normalAfter normal cs

/-- The entries that are inserted, in order, each with the form that its token has under the normal
form set last before it. -/
def insertions (normal : String → String) : List (Change κ) → List (String × Entry κ)
  | [] => []
  | .insert token entry :: cs => (normal token, entry) :: insertions normal cs
  | .setNormal normal' :: cs => insertions normal' cs
  | .setPolicy _ :: cs => insertions normal cs

/-- The entries of one form. -/
def ofForm (form : String) (inserted : List (String × Entry κ)) : List (Entry κ) :=
  (inserted.filter fun p => p.1 = form).map Prod.snd

theorem ofForm_concat (form : String) (inserted : List (String × Entry κ)) (p : String × Entry κ) :
    ofForm form (inserted ++ [p])
      = if form = p.1 then ofForm form inserted ++ [p.2] else ofForm form inserted := by
  by_cases h : form = p.1
  · simp [ofForm, h]
  · simp [ofForm, h, Ne.symm h]

theorem normal_after (lexicon : Lexicon κ) (changes : List (Change κ)) :
    (lexicon.after changes).normal = normalAfter lexicon.normal changes := by
  induction changes generalizing lexicon with
  | nil => rfl
  | cons c cs ih => cases c <;> exact ih _

/-! ### The lexicon and its insertions -/

/-- Whether a lexicon holds exactly these entries, each with its form. -/
structure Holds (lexicon : Lexicon κ) (inserted : List (String × Entry κ)) : Prop where
  entries : ∀ form, (lexicon.tokens.get? form).getD [] = ofForm form inserted
  forms : ∀ form, form ∈ lexicon.tokens.keys ↔ form ∈ inserted.map Prod.fst

section

variable {lexicon : Lexicon κ} {inserted : List (String × Entry κ)}

theorem holds_empty (normal : String → String) (policy : KeyPolicy κ) :
    (⟨.empty, normal, policy⟩ : Lexicon κ).Holds [] :=
  ⟨fun _ => rfl, fun _ => Iff.rfl⟩

theorem Holds.insert (h : lexicon.Holds inserted) (token : String) (entry : Entry κ) :
    (lexicon.insert token entry).Holds (inserted ++ [(lexicon.normal token, entry)]) := by
  refine ⟨fun form => ?_, fun form => ?_⟩
  · rw [ofForm_concat, ← h.entries form, Lexicon.insert, Table.get?_alter]
    dsimp only
    split
    · next hform => rw [hform]; rfl
    · rfl
  · rw [List.map_append, List.mem_append, ← h.forms form, List.map_singleton, List.mem_singleton,
      Lexicon.insert, Table.keys_alter]
    dsimp only
    split
    -- a form that is there already is not listed again
    · next hold => exact ⟨Or.inl, fun hform => hform.elim id fun heq => heq ▸ hold⟩
    · rw [List.mem_append, List.mem_singleton]

/-- One change keeps the lexicon and the list of its insertions in step. -/
theorem holds_change (h : lexicon.Holds inserted) (c : Change κ) :
    (lexicon.change c).Holds (inserted ++ insertions lexicon.normal [c]) := by
  cases c with
  | insert token entry => exact h.insert token entry
  | setNormal normal =>
    show (lexicon.setNormal normal).Holds (inserted ++ [])
    rw [List.append_nil]
    exact ⟨h.entries, h.forms⟩
  | setPolicy policy =>
    show (lexicon.setPolicy policy).Holds (inserted ++ [])
    rw [List.append_nil]
    exact ⟨h.entries, h.forms⟩

theorem insertions_cons (lexicon : Lexicon κ) (c : Change κ) (cs : List (Change κ)) :
    insertions lexicon.normal (c :: cs)
      = insertions lexicon.normal [c] ++ insertions (lexicon.change c).normal cs := by
  cases c <;> rfl

/-- After any run of changes a lexicon holds what it held before and what was inserted since. -/
theorem holds_after (h : lexicon.Holds inserted) (changes : List (Change κ)) :
    (lexicon.after changes).Holds (inserted ++ insertions lexicon.normal changes) := by
  induction changes generalizing lexicon inserted with
  | nil =>
    show lexicon.Holds (inserted ++ [])
    rwa [List.append_nil]
  | cons c cs ih =>
    rw [insertions_cons, ← List.append_assoc]
    exact ih (holds_change h c)

theorem Holds.lookup (h : lexicon.Holds inserted) (term : String) :
    lexicon.lookup term
      = if isBlank term then .error .blank else .ok (ofForm (lexicon.normal term) inserted) := by
  rw [Lexicon.lookup, h.entries]

theorem Holds.size_eq (h : lexicon.Holds inserted) :
    lexicon.size = (inserted.map Prod.fst).toFinset.card := by
  have hforms : lexicon.tokens.keys.toFinset = (inserted.map Prod.fst).toFinset := by
    ext form
    rw [List.mem_toFinset, List.mem_toFinset, h.forms]
  rw [← hforms, List.toFinset_card_of_nodup lexicon.tokens.nodup_keys, Table.keys,
    List.length_map]
  rfl

end

/-- After any run of changes of a lexicon that was empty at first, a term that is not blank gets the
entries whose tokens had, when they came, the form that the term has now, in the order in which they
came; a blank term is refused. The forms are counted once each, and neither another normal form nor
another policy changes their number. -/
theorem lookup_after (normal : String → String) (policy : KeyPolicy κ)
    (changes : List (Change κ)) :
    let lexicon := (⟨.empty, normal, policy⟩ : Lexicon κ).after changes
    let inserted := insertions normal changes
    (∀ term, lexicon.lookup term =
      if isBlank term then .error .blank
      else .ok ((inserted.filter fun p => p.1 = normalAfter normal changes term).map Prod.snd)) ∧
    lexicon.size = (inserted.map Prod.fst).toFinset.card ∧
    (∀ normal', (lexicon.setNormal normal').size = lexicon.size) ∧
    ∀ policy', (lexicon.setPolicy policy').size = lexicon.size := by
  intro lexicon inserted
  have hholds : lexicon.Holds inserted := holds_after (holds_empty normal policy) changes
  refine ⟨fun term => ?_, hholds.size_eq, fun _ => rfl, fun _ => rfl⟩
  rw [hholds.lookup term, normal_after]
  rfl

/-- Three tokens get one form under normal forms that split them or merge them, and the entries of
this form come in order for a term of a fourth spelling. -/
example :
    let w : Weight := .finite false ⟨1, Format.binary32_has_one⟩
    let changes : List (Change Nat) := [.insert "a" ⟨1, w, []⟩, .insert "A" ⟨2, w, []⟩,
      .setNormal fun _ => "a", .insert "b" ⟨3, w, []⟩, .setPolicy .equality,
      .setNormal fun t => t ++ "a", .insert "" ⟨4, w, []⟩, .setNormal fun _ => "a"]
    ((empty.after changes).lookup "c" = .ok [⟨1, w, []⟩, ⟨3, w, []⟩, ⟨4, w, []⟩]) ∧
      (empty.after changes).size = 2 := by
  exact ⟨rfl, rfl⟩

end Lexicon

end WeightedSearch
