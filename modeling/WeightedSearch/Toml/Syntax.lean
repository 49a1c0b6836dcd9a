/-
The lines of a TOML document.

A document is a sequence of statements, each on lines of its own: a header line, or a key with its
value.  Arrays and tables between braces may go over several lines.  Main definitions:

* `readValue` — the value at the front, and what follows it;
* `statements?` — the statements of a document.
-/
import WeightedSearch.Toml.Scalar

namespace WeightedSearch.Toml

/-- Whether the character is a space or a tab. -/
def isBlankChar (c : Char) : Bool :=
  c == ' ' || c == '\t'

/-- The characters without spaces and tabs at the front. -/
def skipBlanks (s : List Char) : List Char :=
  s.dropWhile isBlankChar

/-- What follows the spaces, line ends and comments at the front; `comment` says whether the front
is inside a comment. -/
def skipTrivia (comment : Bool) : List Char → Option (List Char)
  | [] => some []
  | '\n' :: r => skipTrivia false r
  | '\r' :: '\n' :: r => skipTrivia false r
  | c :: r =>
    if comment then if isPlain c then skipTrivia true r else none
    else if isBlankChar c then skipTrivia false r
    else if c = '#' then skipTrivia true r
    else some (c :: r)

/-- What follows the end of the line, which only spaces and a comment may stand before. -/
def skipLineEnd (comment : Bool) : List Char → Option (List Char)
  | [] => some []
  | '\n' :: r => some r
  | '\r' :: '\n' :: r => some r
  | c :: r =>
    if comment then if isPlain c then skipLineEnd true r else none
    else if isBlankChar c then skipLineEnd false r
    else if c = '#' then skipLineEnd true r
    else none

/-- Whether the character may stand in a key without quotes. -/
def isKeyChar (c : Char) : Bool :=
  c.isAlphanum || c == '_' || c == '-'

/-- The key at the front, and what follows it. -/
def readKey (s : List Char) : Option (String × List Char) :=
  if s.head? = some '"' ∨ s.head? = some '\'' then readLineString s
  else
    match s.takeWhile isKeyChar with
    | [] => none
    | k => some (String.ofList k, s.dropWhile isKeyChar)

/-- The greatest number of keys in a path, and the greatest depth of a value. -/
def maxDepth : Nat := 80

/-- The keys with dots between them at the front, at most `left` of them, and what follows. -/
def readPath : Nat → List Char → Option (List String × List Char)
  | 0, _ => none
  | left + 1, s => do
    let (k, s) ← readKey (skipBlanks s)
    match skipBlanks s with
    | '.' :: r => do
      let (ks, s) ← readPath left r
      pure (k :: ks, s)
    | s => pure ([k], s)

/-- Whether the character may stand in a word without quotes. Quotes may, but not at its front. -/
def isWordChar (c : Char) : Bool :=
  !(isBlankChar c || c == '\r' || c == '\n' || c == '=' || c == ',' || c == '#' || c == '[' ||
    c == ']' || c == '{' || c == '}')

/-- Whether words may go on with the character behind blanks. -/
def startsWord (c : Char) : Bool :=
  isWordChar c && c != '.' && c != '"' && c != '\''

/-- The words at the front that only blanks are between, as the one between a date and a time, and
what follows them; `blanks` are those right before, the last one first. -/
def readWords (blanks : List Char) : List Char → List Char × List Char
  | [] => ([], blanks.reverse)
  | c :: r =>
    if isBlankChar c then readWords (c :: blanks) r
    else if isWordChar c && (blanks.isEmpty || startsWord c) then
      let p := readWords [] r
      (blanks.reverse ++ c :: p.1, p.2)
    else ([], blanks.reverse ++ c :: r)

/-- The table in which a path leads to the value; the keys before the last are tables of dotted
keys. -/
def descend (dotted : Bool) :
    List String → (Origin × Entries → Option (Origin × Entries)) →
    Origin × Entries → Option (Origin × Entries)
  | [], f, t => f t
  | k :: ks, f, (origin, es) =>
    match es.lookup k with
    | none => do
      let (o, fs) ← descend dotted ks f (if dotted then .dotted else .passed, [])
      pure (origin, put k (.table o fs) es)
    | some (.table o fs) =>
      if o = .braces ∨ (dotted ∧ o = .header) then none
      else do
        let (o, fs) ← descend dotted ks f (o, fs)
        pure (origin, put k (.table o fs) es)
    | some (.array true items) =>
      match items.getLast? with
      | some (.table o fs) => do
        let (o, fs) ← descend dotted ks f (o, fs)
        pure (origin, put k (.array true (items.dropLast ++ [.table o fs])) es)
      | _ => none
    | some _ => none

/-- Adds the entry that a path with its value names. A path of several keys adds only to tables that
such paths made, and a key is given a value only once. -/
def addPair (path : List String) (value : Value) (t : Origin × Entries) :
    Option (Origin × Entries) := do
  let key ← path.getLast?
  let front := path.dropLast
  descend true front (fun (origin, es) =>
    if (origin = .dotted ↔ front = []) ∨ (es.lookup key).isSome then none
    else some (origin, put key value es)) t

mutual

/-- The value at the front, and what follows it. At most `fuel` steps are made, and at most `depth`
values are nested in each other. -/
def readValue : (fuel depth : Nat) → List Char → Option (Value × List Char)
  | 0, _, _ => none
  | fuel + 1, depth, s =>
    match s with
    | '[' :: r =>
      if depth = 0 then none
      else (readItems fuel (depth - 1) r).map fun p => (.array false p.1, p.2)
    | '{' :: r =>
      if depth = 0 then none
      else (readFields fuel (depth - 1) (.braces, []) r).map fun p =>
        (.table .braces p.1, p.2)
    | '"' :: _ => (readString s).map fun p => (.string p.1, p.2)
    | '\'' :: _ => (readString s).map fun p => (.string p.1, p.2)
    | s =>
      let (words, rest) := readWords [] s
      (scalar? words).map fun v => (v, rest)

/-- The items of an array up to its closing bracket, and what follows that. -/
def readItems : (fuel depth : Nat) → List Char → Option (List Value × List Char)
  | 0, _, _ => none
  | fuel + 1, depth, s => do
    match ← skipTrivia false s with
    | ']' :: r => pure ([], r)
    | s =>
      let (v, s) ← readValue fuel depth s
      match ← skipTrivia false s with
      | ',' :: r => do
        let (vs, s) ← readItems fuel depth r
        pure (v :: vs, s)
      | ']' :: r => pure ([v], r)
      | _ => none

/-- The entries of a table up to its closing brace, added to those before, and what follows the
brace. Lines may end between any two of its parts, only not inside a path. -/
def readFields : (fuel depth : Nat) → Origin × Entries → List Char →
    Option (Entries × List Char)
  | 0, _, _, _ => none
  | fuel + 1, depth, t, s => do
    match ← skipTrivia false s with
    | '}' :: r => pure (t.2, r)
    | s =>
      let (path, s) ← readPath maxDepth s
      let s ← skipTrivia false (← expect '=' (← skipTrivia false s))
      let (v, s) ← readValue fuel depth s
      let t ← addPair path v t
      match ← skipTrivia false s with
      | ',' :: r => readFields fuel depth t r
      | '}' :: r => pure (t.2, r)
      | _ => none

end

/-- A statement of a document. -/
inductive Statement
  /-- a path and its value -/
  | pair (path : List String) (value : Value)
  /-- a header line; with `array` its table is one of several -/
  | header (array : Bool) (path : List String)

/-- The statement at the front, and what follows it. -/
def readStatement : List Char → Option (Statement × List Char)
  | '[' :: '[' :: r => do
    let (path, s) ← readPath maxDepth r
    let s ← expect ']' (← expect ']' s)
    pure (.header true path, s)
  | '[' :: r => do
    let (path, s) ← readPath maxDepth r
    let s ← expect ']' s
    pure (.header false path, s)
  | s => do
    let (path, s) ← readPath maxDepth s
    let s := skipBlanks (← expect '=' s)
    let (v, s) ← readValue (s.length + 1) maxDepth s
    pure (.pair path v, s)

/-- The statements of a document. -/
def statements? (s : List Char) : Option (List Statement) :=
  match skipTrivia false s with
  | none => none
  | some [] => some []
  | some (c :: r) =>
    match (readStatement (c :: r)).bind fun p => (skipLineEnd false p.2).map fun s => (p.1, s) with
    | none => none
    | some (st, rest) =>
      if rest.length < s.length then (statements? rest).map (st :: ·) else none
termination_by s.length

end WeightedSearch.Toml
