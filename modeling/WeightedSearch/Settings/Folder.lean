/-
Files below a folder.

A path leads through folders name by name: `..` goes one step up, an empty name or `.` stays, and a
file can only come last.  A path that begins with a slash does not begin at the folder, and outside
the folder nothing is known but the folders above it.  Main statements:

* `Folder.node?_makeFolder` — making a folder leaves what stands there.
-/
import WeightedSearch.Table

namespace WeightedSearch

/-- What stands at a path. -/
inductive Node
  | file (bytes : ByteArray)
  | folder

/-- What stands below a folder. Each name on the way to it stands there too, and names are given
with the innermost first. -/
structure Folder where
  /-- what stands at the end of the names -/
  nodes : Table (List String) Node

/-- Why a file cannot be read. -/
inductive ReadFailure
  | notFound
  | isFolder
  /-- the path goes on behind a file -/
  | notFolder
  /-- a name in the path has more than 255 bytes, or the path more than 4095 -/
  | nameTooLong
  /-- the path has a character of code 0 -/
  | invalidPath
  | invalidText
deriving DecidableEq, Repr

/-- Where a path has led so far. -/
inductive Place
  /-- to these names below the folder, the innermost first -/
  | inside (names : List String)
  /-- out of the folder, where nothing but other folders is known -/
  | outside
deriving DecidableEq, Repr

/-- The place one step up. -/
def Place.parent : Place → Place
  | inside (_ :: names) => inside names
  | inside [] => outside
  | outside => outside

/-- The place that a name leads to. -/
def Place.child (name : String) : Place → Option Place
  | inside names => some (inside (name :: names))
  | outside => none

namespace Folder

/-- The folder with nothing below it. -/
def empty : Folder := ⟨.empty⟩

/-- The folder with another folder at the end of the names, if nothing stands there yet. -/
def makeFolder (folder : Folder) (names : List String) : Folder :=
  ⟨folder.nodes.alter names fun old => old.getD .folder⟩

/-- Makes the folder that the next name of a path leads to. -/
def makeNext (made : Folder × List String) (name : String) : Folder × List String :=
  if name = "" ∨ name = "." then made
  else if name = ".." then (made.1, made.2.tail)
  else (made.1.makeFolder (name :: made.2), name :: made.2)

/-- The folder with a node at a path, in place of a file that may stand there. The folders on the
way are made. -/
def write (folder : Folder) (path : String) (node : Node) : Folder :=
  let made := (path.splitOn "/").foldl makeNext (folder, [])
  match node with
  | .folder => made.1
  | .file bytes => ⟨made.1.nodes.insert made.2 (.file bytes)⟩

/-- What stands at a place. -/
def node? (folder : Folder) : Place → Option Node
  | .outside => some .folder
  | .inside [] => some .folder
  | .inside names => folder.nodes.get? names

/-- Goes on from a place, where a folder has to stand, with the next name of a path. -/
def enter (folder : Folder) (place : Place) (name : String) : Except ReadFailure Place :=
  match folder.node? place with
  | none => .error .notFound
  | some (.file _) => .error .notFolder
  | some .folder =>
    if name = "" ∨ name = "." then .ok place
    else if name = ".." then .ok place.parent
    else if 255 < name.utf8ByteSize then .error .nameTooLong
    else (place.child name).elim (.error .notFound) .ok

/-- Whether a path does not begin at the folder. -/
def isAbsolute (path : String) : Bool :=
  path.toList.head? == some '/'

/-- What stands at a path. -/
def find (folder : Folder) (path : String) : Except ReadFailure Node :=
  if path.toList.contains (Char.ofNat 0) then .error .invalidPath
  else if 4095 < path.utf8ByteSize then .error .nameTooLong
  else do
    let start := if isAbsolute path then .outside else .inside []
    let place ← (path.splitOn "/").foldlM folder.enter start
    (folder.node? place).elim (.error .notFound) .ok

/-- The text of the file at a path. -/
def read (folder : Folder) (path : String) : Except ReadFailure String := do
  match ← folder.find path with
  | .folder => .error .isFolder
  | .file bytes => (String.fromUTF8? bytes).elim (.error .invalidText) .ok

/-- Whether a file stands at a path. -/
def hasFile (folder : Folder) (path : String) : Bool :=
  folder.find path matches .ok (.file _)

/-- What can be read is a file. -/
theorem hasFile_of_read {folder : Folder} {path text : String} (h : folder.read path = .ok text) :
    folder.hasFile path = true := by
  unfold read at h
  unfold hasFile
  cases hfind : folder.find path with
  | error e =>
    rw [hfind] at h
    cases h
  | ok node =>
    cases node with
    | file bytes => rfl
    | folder =>
      rw [hfind] at h
      cases h

/-- Making a folder leaves what stands there. -/
theorem node?_makeFolder (folder : Folder) (names : List String) (place : Place) :
    (folder.makeFolder names).node? place =
      if place = .inside names then some ((folder.node? place).getD .folder)
      else folder.node? place := by
  cases place with
  | outside => simp [node?]
  | inside up =>
    cases up with
    | nil => simp [node?]
    | cons name up =>
      simp only [node?, makeFolder, Table.get?_alter, Place.inside.injEq]
      by_cases h : name :: up = names
      · subst h
        rfl
      · rw [if_neg h, if_neg h]

end Folder

end WeightedSearch
