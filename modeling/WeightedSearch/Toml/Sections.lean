/-
Documents of sections.

A record whose fields are records of plain values is a document of sections: each inner record
stands below a header line with its name, and each of its fields on a line of its own.  Main
definitions:

* `Sections.entries` — the entries of a document with these sections;
* `write` — a document with these sections, one empty line between any two.
-/
import WeightedSearch.Decimal.Shortest
import WeightedSearch.Toml.Syntax

namespace WeightedSearch.Toml

/-- A plain value: a text, a number that is not negative, or a truth value. -/
inductive Scalar
  | string (text : String)
  | integer (n : Nat)
  | boolean (b : Bool)
deriving DecidableEq, Repr

/-- The value among all values of a document. -/
def Scalar.toValue : Scalar → Value
  | string text => .string text
  | integer n => .integer n
  | boolean b => .boolean b

/-- Plain values by the names of their fields. -/
abbrev Fields := List (String × Scalar)

/-- Fields by the names of their sections. -/
abbrev Sections := List (String × Fields)

/-- The entries of the table with these fields. -/
def Fields.entries (fs : Fields) : Entries :=
  fs.map fun f => (f.1, f.2.toValue)

/-- The entries of the document with these sections. -/
def Sections.entries (ss : Sections) : Entries :=
  ss.map fun s => (s.1, .table .header (Fields.entries s.2))

/-- Whether the sections have this value in this field. -/
def Sections.Holds (ss : Sections) (name key : String) (v : Scalar) : Prop :=
  ∃ fs, (name, fs) ∈ ss ∧ (key, v) ∈ fs

/-- Whether a key may be written without quotes. -/
def IsBareKey (key : List Char) : Prop :=
  key ≠ [] ∧ ∀ c ∈ key, isKeyChar c = true

instance (key : List Char) : Decidable (IsBareKey key) :=
  decidable_of_iff (key ≠ [] ∧ key.all isKeyChar = true) (by simp [IsBareKey])

/-- Whether a text needs no escapes between double quotes. -/
def NeedsNoEscapes (s : List Char) : Prop :=
  ∀ c ∈ s, isPlain c = true ∧ c ≠ '"' ∧ c ≠ '\\'

instance (s : List Char) : Decidable (NeedsNoEscapes s) :=
  decidable_of_iff (s.all (fun c => isPlain c && c != '"' && c != '\\') = true)
    (by simp [NeedsNoEscapes, and_assoc])

/-- Why sections cannot be written. Quoted keys and escapes are not written here. -/
inductive WriteFailure
  | quotedKey (key : String)
  | escapes (text : String)
  /-- the number has more than 64 bits -/
  | tooLarge (n : Nat)
deriving DecidableEq, Repr

/-- The digits of a number in base ten. -/
def numeral (n : Nat) : List Char :=
  (decimalDigits n).map digitChar

/-- A key as it is written. -/
def writeKey (key : String) : Except WriteFailure (List Char) :=
  if IsBareKey key.toList then .ok key.toList else .error (.quotedKey key)

/-- A plain value as it is written. -/
def writeScalar : Scalar → Except WriteFailure (List Char)
  | .string text =>
    if NeedsNoEscapes text.toList then .ok ('"' :: (text.toList ++ ['"']))
    else .error (.escapes text)
  | .integer n => if n < UInt64.size then .ok (numeral n) else .error (.tooLarge n)
  | .boolean b => .ok (if b then "true" else "false").toList

/-- The lines of some fields. -/
def writeFields : Fields → Except WriteFailure (List Char)
  | [] => .ok []
  | (key, v) :: fs => do
    let k ← writeKey key
    let w ← writeScalar v
    let s ← writeFields fs
    pure (k ++ ' ' :: '=' :: ' ' :: (w ++ '\n' :: s))

/-- The lines of some sections, with an empty line in front of each if they follow others. -/
def writeSections (behind : Bool) : Sections → Except WriteFailure (List Char)
  | [] => .ok []
  | (name, fs) :: ss => do
    let k ← writeKey name
    let s ← writeFields fs
    let r ← writeSections true ss
    pure ((if behind then ['\n'] else []) ++ '[' :: (k ++ ']' :: '\n' :: (s ++ r)))

/-- The document with these sections. -/
def write (ss : Sections) : Except WriteFailure String := do
  pure (String.ofList (← writeSections false ss))

end WeightedSearch.Toml
