/-
Lexicons.

A lexicon is an index held in memory.  Tokens are stored in a normal form, and a term is brought
into the same form before it is looked up.  Entries of one token keep the order in which they came.
Main statements:

* `Lexicon.lookup_eq_blank_iff` — a blank term is refused in every state, and no other term is.
-/
import WeightedSearch.Index.Entry
import WeightedSearch.Key.Policy
import WeightedSearch.Table
import WeightedSearch.Index.Failure
import WeightedSearch.Text.Blank
import WeightedSearch.Text.Lowercase

namespace WeightedSearch

/-- An index held in memory. -/
structure Lexicon (κ : Type) where
  /-- the entries of each normal form -/
  tokens : Table String (List (Entry κ))
  /-- the normal form of a token or term -/
  normal : String → String
  policy : KeyPolicy κ

namespace Lexicon

variable {κ : Type}

/-- The index without entries that takes every text for its own normal form. -/
def empty [DecidableEq κ] : Lexicon κ := ⟨.empty, id, .equality⟩

/-- The normal form without regard to case and to spaces at the ends. -/
def lenient (text : String) : String :=
  lowercase (trim text)

/-- The same entries under another normal form, which counts from now on. -/
def setNormal (lexicon : Lexicon κ) (normal : String → String) : Lexicon κ :=
  { lexicon with normal }

/-- The same entries under another key policy. -/
def setPolicy (lexicon : Lexicon κ) (policy : KeyPolicy κ) : Lexicon κ :=
  { lexicon with policy }

/-- Adds an entry for a token. -/
def insert (lexicon : Lexicon κ) (token : String) (entry : Entry κ) : Lexicon κ :=
  { lexicon with
    tokens := lexicon.tokens.alter (lexicon.normal token) fun old => old.getD [] ++ [entry] }

/-- The number of normal forms that have entries. -/
def size (lexicon : Lexicon κ) : Nat :=
  lexicon.tokens.size

/-- Whether nothing was inserted. -/
def isEmpty (lexicon : Lexicon κ) : Bool :=
  lexicon.tokens.pairs.isEmpty

/-- The entries of a term. -/
def lookup (lexicon : Lexicon κ) (term : String) : Except LookupFailure (List (Entry κ)) :=
  if isBlank term then .error .blank
  else .ok ((lexicon.tokens.get? (lexicon.normal term)).getD [])

/-- Nothing but a blank term is refused, whatever the normal form makes of other terms. -/
theorem lookup_eq_blank_iff (lexicon : Lexicon κ) {term : String} :
    lexicon.lookup term = .error .blank ↔ isBlank term = true := by
  unfold lookup
  split
  · next hblank => exact ⟨fun _ => hblank, fun _ => rfl⟩
  · next hblank => exact ⟨nofun, fun h => absurd h hblank⟩

end Lexicon

end WeightedSearch
