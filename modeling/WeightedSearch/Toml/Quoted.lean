/-
TOML strings.

A string stands between single or double quotes, one of each on a line or three of each around
several lines.  Between double quotes a backslash starts an escape.  Main definitions:

* `readString` — the text of the string at the front, and what follows it.
-/

namespace WeightedSearch.Toml

/-- Whether the character may stand in a string or comment as it is. -/
def isPlain (c : Char) : Bool :=
  c == '\t' || (0x20 ≤ c.toNat && c.toNat != 0x7F)

/-- Whether the character may stand in a string with `r` behind it; a line may end only in a string
of several lines. -/
def mayStand (multiline : Bool) (c : Char) (r : List Char) : Bool :=
  isPlain c || (multiline && (c == '\n' || (c == '\r' && r.head? == some '\n')))

/-- The value of a digit in a base up to 16. -/
def digitValue? (base : Nat) (c : Char) : Option Nat :=
  let n := c.toNat
  let d := if '0' ≤ c && c ≤ '9' then n - 48
    else if 'a' ≤ c && c ≤ 'f' then n - 87
    else if 'A' ≤ c && c ≤ 'F' then n - 55
    else base
  if d < base then some d else none

/-- The character with the code point, unless that is a surrogate or too large. -/
def charOf? (n : Nat) : Option Char :=
  if h : n.isValidChar then some (Char.ofNatAux n h) else none

/-- Where the reader of an escaped text is. -/
inductive EscapeState
  /-- between two characters -/
  | plain
  /-- behind a backslash -/
  | escaped
  /-- in a code point, with so many digits to come -/
  | code (left value : Nat)
  /-- behind a backslash at the end of a line, which the spaces and line ends that follow belong
  to -/
  | folded (lineEnded : Bool)

/-- The character that an escape with one letter stands for. -/
def simpleEscape? : Char → Option Char
  | 'b' => some '\x08'
  | 't' => some '\t'
  | 'n' => some '\n'
  | 'f' => some '\x0C'
  | 'r' => some '\r'
  | 'e' => some '\x1B'
  | '"' => some '"'
  | '\\' => some '\\'
  | _ => none

/-- The number of digits of a code point after a letter. -/
def codeLength? : Char → Option Nat
  | 'x' => some 2
  | 'u' => some 4
  | 'U' => some 8
  | _ => none

/-- Whether the character belongs to a folded line end. -/
def isFold (c : Char) (r : List Char) : Bool :=
  c == ' ' || c == '\t' || c == '\n' || (c == '\r' && r.head? == some '\n')

/-- The text that an escaped text stands for. -/
def unescape (multiline : Bool) : EscapeState → List Char → Option (List Char)
  | .plain, [] => some []
  | .folded true, [] => some []
  | _, [] => none
  | .plain, c :: r =>
    if c = '\\' then unescape multiline .escaped r
    else if mayStand multiline c r then (unescape multiline .plain r).map (c :: ·)
    else none
  | .escaped, c :: r =>
    if let some d := simpleEscape? c then (unescape multiline .plain r).map (d :: ·)
    else if let some n := codeLength? c then unescape multiline (.code n 0) r
    else if multiline && isFold c r then unescape multiline (.folded (c == '\n')) r
    else none
  | .code left value, c :: r =>
    match digitValue? 16 c with
    | none => none
    | some d =>
      if left ≤ 1 then
        match charOf? (16 * value + d) with
        | some e => (unescape multiline .plain r).map (e :: ·)
        | none => none
      else unescape multiline (.code (left - 1) (16 * value + d)) r
  | .folded ended, c :: r =>
    if isFold c r then unescape multiline (.folded (ended || c == '\n')) r
    else if !ended then none
    else if c = '\\' then unescape multiline .escaped r
    else if mayStand multiline c r then (unescape multiline .plain r).map (c :: ·)
    else none

/-- The characters up to the closing quote `q`, and those behind it. With `escapes` a backslash
keeps the next character from closing. -/
def splitLine (q : Char) (escapes : Bool) : List Char → Option (List Char × List Char)
  | [] => none
  | c :: r =>
    if c = q then some ([], r)
    else if escapes && c == '\\' then
      match r with
      | [] => none
      | d :: r => (splitLine q escapes r).map fun p => (c :: d :: p.1, p.2)
    else (splitLine q escapes r).map fun p => (c :: p.1, p.2)

/-- The characters up to the three closing quotes `q`, and those behind them. Of up to five quotes
in a row the last three close. -/
def splitLines (q : Char) (escapes : Bool) : List Char → Option (List Char × List Char)
  | a :: b :: c :: r =>
    if a = q ∧ b = q ∧ c = q then
      let extra := (r.takeWhile (· == q)).length
      if extra ≤ 2 then some (List.replicate extra q, r.drop extra) else none
    else if escapes && a == '\\' then
      (splitLines q escapes (c :: r)).map fun p => (a :: b :: p.1, p.2)
    else (splitLines q escapes (b :: c :: r)).map fun p => (a :: p.1, p.2)
  | _ => none

/-- The characters without a line end at the front. -/
def dropLineEnd : List Char → List Char
  | '\n' :: r => r
  | '\r' :: '\n' :: r => r
  | s => s

/-- The characters, if each of them may stand in a string without escapes. -/
def literal (multiline : Bool) : List Char → Option (List Char)
  | [] => some []
  | c :: r => if mayStand multiline c r then (literal multiline r).map (c :: ·) else none

/-- The string of one line at the front, and what follows it. -/
def readLineString : List Char → Option (String × List Char)
  | '"' :: r => do
    let (raw, r) ← splitLine '"' true r
    let text ← unescape false .plain raw
    pure (String.ofList text, r)
  | '\'' :: r => do
    let (raw, r) ← splitLine '\'' false r
    let text ← literal false raw
    pure (String.ofList text, r)
  | _ => none

/-- The string at the front, and what follows it. -/
def readString : List Char → Option (String × List Char)
  | '"' :: '"' :: '"' :: r => do
    let (raw, r) ← splitLines '"' true (dropLineEnd r)
    let text ← unescape true .plain raw
    pure (String.ofList text, r)
  | '\'' :: '\'' :: '\'' :: r => do
    let (raw, r) ← splitLines '\'' false (dropLineEnd r)
    let text ← literal true raw
    pure (String.ofList text, r)
  | s => readLineString s

end WeightedSearch.Toml
