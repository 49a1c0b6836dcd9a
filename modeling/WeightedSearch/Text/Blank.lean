/-
White space and blank text.

`isSpace` is Unicode's `White_Space` property, twenty-five characters in all, and a text is
blank when it has no other character.  Main statements:

* `isBlank_iff` — a text is blank exactly when all its characters are spaces.
-/

namespace WeightedSearch

/-- Unicode's `White_Space` property. -/
def isSpace (c : Char) : Bool :=
  let n := c.toNat
  (0x09 ≤ n && n ≤ 0x0D) || n == 0x20 || n == 0x85 || n == 0xA0 || n == 0x1680 ||
    (0x2000 ≤ n && n ≤ 0x200A) || n == 0x2028 || n == 0x2029 || n == 0x202F || n == 0x205F ||
    n == 0x3000

/-- A text with no character other than spaces, the empty one included. -/
def isBlank (text : String) : Bool :=
  text.toList.all isSpace

theorem isBlank_iff {text : String} :
    isBlank text = true ↔ ∀ c ∈ text.toList, isSpace c = true := by
  simp [isBlank]

/-- The characters without the spaces at both ends. -/
def trimSpaces (s : List Char) : List Char :=
  ((s.dropWhile isSpace).reverse.dropWhile isSpace).reverse

/-- The text without the spaces at both ends. -/
def trim (text : String) : String :=
  String.ofList (trimSpaces text.toList)

end WeightedSearch
