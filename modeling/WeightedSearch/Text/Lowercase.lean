/-
Lowercase text.

Each character is replaced by its lowercase form.  Two rules go beyond one character at a time: the
capital I with a dot becomes two characters, and the capital sigma becomes a final sigma at the end
of a word.  Main definitions:

* `lowerSigma` — a sigma is final exactly when a letter stands before and none after it, characters
  that case ignores passed over;
* `lowercase` — the text in lowercase.
-/
import WeightedSearch.Text.Cased

namespace WeightedSearch

/-- The lowercase form of a character by itself. -/
def lowerChar (c : Char) : List Char :=
  if c.toNat = 0x130 then ['i', Char.ofNat 0x307]
  else match lowercaseRuns.find? (·.contains c.toNat) with
    | some run => [Char.ofNat (c.toNat + run.shift).toNat]
    | none => [c]

/-- Whether the first character that case does not ignore is a letter with case. -/
def meetsCased (s : List Char) : Bool :=
  match s.dropWhile isCaseIgnorable with
  | [] => false
  | c :: _ => isCased c

/-- The capital sigma. -/
def capitalSigma : Char := Char.ofNat 0x3A3

/-- The lowercase sigma between two parts of a text: the final one if a word ends there. -/
def lowerSigma (before after : List Char) : Char :=
  if meetsCased before && !meetsCased after then Char.ofNat 0x3C2 else Char.ofNat 0x3C3

/-- The lowercase form of characters that follow `before`, which is given from its end. -/
def lowerFrom (before : List Char) : List Char → List Char
  | [] => []
  | c :: r =>
    (if c = capitalSigma then [lowerSigma before r] else lowerChar c) ++ lowerFrom (c :: before) r

/-- The text with each character in lowercase. -/
def lowercase (text : String) : String :=
  String.ofList (lowerFrom [] text.toList)

end WeightedSearch
