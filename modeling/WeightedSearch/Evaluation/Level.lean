/-
Levels of a query.

The siblings at one level of a query find entries together.  Keys that an excluded sibling finds are
dropped, and if a sibling is required, keys that no required sibling finds.  The entries that are
left are merged, one for each key, in the order in which the keys were first found.
-/
import WeightedSearch.Index.Entry
import WeightedSearch.Key.Policy

namespace WeightedSearch

variable {κ : Type}

/-- What the siblings at one level find. -/
structure Gathered (κ : Type) where
  /-- the entries, in the order of the siblings -/
  found : List (Entry κ)
  /-- the keys that the required siblings find, if there are any such siblings -/
  required : Option (List κ)
  /-- the keys that the excluded siblings find -/
  excluded : List κ
deriving DecidableEq

namespace Gathered

/-- What no siblings find. -/
def nothing : Gathered κ := ⟨[], none, []⟩

/-- What a sibling without a mark finds. -/
def ofFound (entries : List (Entry κ)) : Gathered κ := ⟨entries, none, []⟩

/-- What a required sibling finds. -/
def ofRequired (entries : List (Entry κ)) : Gathered κ := ⟨entries, some (entries.map (·.key)), []⟩

/-- What an excluded sibling finds. -/
def ofExcluded (entries : List (Entry κ)) : Gathered κ := ⟨[], none, entries.map (·.key)⟩

/-- The keys of two lists of required keys; `none` stands for no required sibling. -/
def joinRequired : Option (List κ) → Option (List κ) → Option (List κ)
  | none, r => r
  | r, none => r
  | some ks, some ls => some (ks ++ ls)

/-- What some siblings and those after them find. -/
def append (g h : Gathered κ) : Gathered κ :=
  ⟨g.found ++ h.found, joinRequired g.required h.required, g.excluded ++ h.excluded⟩

instance : Append (Gathered κ) := ⟨append⟩

/-- Whether the required keys, if there are required siblings at all, have the key among them. -/
def admits (policy : KeyPolicy κ) (key : κ) : Option (List κ) → Bool
  | none => true
  | some keys => keys.any (policy.same key)

/-- Whether the key is left when excluded keys and keys missing from the required ones are
dropped. -/
def keeps (g : Gathered κ) (policy : KeyPolicy κ) (key : κ) : Bool :=
  !g.excluded.any (policy.same key) && admits policy key g.required

/-- The entries that are left. -/
def kept (g : Gathered κ) (policy : KeyPolicy κ) : List (Entry κ) :=
  g.found.filter fun e => g.keeps policy e.key

end Gathered

/-- The entries of a level while they are put together, one for each key. Entries and weights are
kept apart and share their slots. -/
structure Merging (κ : Type) where
  /-- the slot of each key -/
  slots : List (κ × Nat)
  /-- the first entry of each key, with the places of all its entries -/
  entries : List (Entry κ)
  weights : List (List Weight)
deriving DecidableEq

namespace Merging

/-- No entries put together. -/
def nothing : Merging κ := ⟨[], [], []⟩

/-- The slot of a key. -/
def slot? (policy : KeyPolicy κ) (m : Merging κ) (key : κ) : Option Nat :=
  (m.slots.find? fun s => policy.same key s.1).map Prod.snd

/-- Puts an entry to the entries of the same key, or in a new slot if the key is new. -/
def add (policy : KeyPolicy κ) (m : Merging κ) (e : Entry κ) : Merging κ :=
  match m.slot? policy e.key with
  | some i =>
    { m with
      entries := m.entries.modify i fun d => { d with locations := d.locations ++ e.locations }
      weights := m.weights.modify i (· ++ [e.weight]) }
  | none =>
    ⟨m.slots ++ [(e.key, m.entries.length)], m.entries ++ [e], m.weights ++ [[e.weight]]⟩

/-- Puts the entries of each key together. -/
def ofEntries (policy : KeyPolicy κ) (entries : List (Entry κ)) : Merging κ :=
  entries.foldl (add policy) nothing

/-- The entry of each key with the weights it is to be weighed by. -/
def weighted (m : Merging κ) : List (Entry κ × List Weight) :=
  m.entries.zip m.weights

end Merging

end WeightedSearch
