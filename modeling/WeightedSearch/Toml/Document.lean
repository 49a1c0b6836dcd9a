/-
TOML documents.

The pairs behind a header line belong to the table that the line names.  A table gets a header only
once, and only if it has none yet and was not made by dotted keys; the tables of an array are added
one after the other.  Main definitions:

* `parse?` — the entries of a document, or `none` if it is not a valid one.
-/
import WeightedSearch.Toml.Syntax

namespace WeightedSearch.Toml

/-- The statements up to the next header line, and those from it on. -/
def splitSection : List Statement → List (List String × Value) × List Statement
  | .pair path v :: r => let p := splitSection r; ((path, v) :: p.1, p.2)
  | r => ([], r)

theorem length_splitSection_le (l : List Statement) : (splitSection l).2.length ≤ l.length := by
  fun_induction splitSection l with
  | case1 _ _ _ _ ih => exact Nat.le_succ_of_le ih
  | case2 => simp

/-- Adds pairs to a table. -/
def addPairs (pairs : List (List String × Value)) (t : Origin × Entries) :
    Option (Origin × Entries) :=
  pairs.foldlM (fun t p => addPair p.1 p.2 t) t

/-- Adds the table with the given pairs that a header line names. -/
def addSection (array : Bool) (path : List String) (pairs : List (List String × Value))
    (root : Origin × Entries) : Option (Origin × Entries) := do
  let key ← path.getLast?
  descend false path.dropLast (fun (origin, es) =>
    match array, es.lookup key with
    | false, none => do
      let (_, fs) ← addPairs pairs (.header, [])
      pure (origin, put key (.table .header fs) es)
    | false, some (.table .passed fs) => do
      let (_, fs) ← addPairs pairs (.header, fs)
      pure (origin, put key (.table .header fs) es)
    | true, none => do
      let (_, fs) ← addPairs pairs (.header, [])
      pure (origin, put key (.array true [.table .header fs]) es)
    | true, some (.array true items) => do
      let (_, fs) ← addPairs pairs (.header, [])
      pure (origin, put key (.array true (items ++ [.table .header fs])) es)
    | _, _ => none) root

/-- Adds the sections that begin with the header lines among the statements. -/
def addSections (l : List Statement) (root : Origin × Entries) : Option (Origin × Entries) :=
  match l with
  | .header array path :: r =>
    have := length_splitSection_le r
    let p := splitSection r
    match addSection array path p.1 root with
    | some root => addSections p.2 root
    | none => none
  | _ => some root
termination_by l.length

/-- The entries of a document, or `none` if it is not a valid one. A byte order mark at the front is
passed over. -/
def parse? (text : String) : Option Entries := do
  let s := text.toList
  let l ← statements? (if s.head? = some (Char.ofNat 0xFEFF) then s.tail else s)
  let p := splitSection l
  let root ← addSections p.2 (← addPairs p.1 (.header, []))
  pure root.2

end WeightedSearch.Toml
