/-
Positions in a search string.

A position is a place in an input, given by the number of UTF-8 bytes before it.  Moving on gives a
new position, so one that is kept can be gone back to.  Main statements:

* `Position.rest?_start` — the whole input follows the first position;
* `charsFrom_byteLength` — the place after a part of the input lies between two characters;
* `Position.rest?_eq_some_iff` — and there are no other such places;
* `Position.rest?_moveOver` — what follows the place after some of what follows a place;
* `Position.atEnd_iff` — a place is at the end exactly when nothing follows it.
-/
import WeightedSearch.Query.Basic
import WeightedSearch.Query.Content

namespace WeightedSearch

-- sums start from the core library's zero, whatever other instances are in scope
attribute [local instance (2000)] Zero.ofOfNat0

/-- The number of bytes that the characters take in UTF-8. -/
def byteLength (s : List Char) : Nat :=
  (s.map Char.utf8Size).sum

/-- The characters from a byte offset on; `none` if the offset is inside a character or behind the
end. -/
def charsFrom : List Char → Nat → Option (List Char)
  | s, 0 => some s
  | [], _ + 1 => none
  | c :: r, n + 1 => if c.utf8Size ≤ n + 1 then charsFrom r (n + 1 - c.utf8Size) else none

theorem charsFrom_byteLength (s r : List Char) :
    charsFrom (s ++ r) (byteLength s) = some r := by
  induction s with
  | nil => cases r <;> rfl
  | cons c s ih =>
    obtain ⟨n, hn⟩ : ∃ n, byteLength (c :: s) = n + 1 :=
      ⟨byteLength (c :: s) - 1, by
        have := c.utf8Size_pos
        simp only [byteLength, List.map_cons, List.sum_cons]
        omega⟩
    have h : byteLength (c :: s) = c.utf8Size + byteLength s := by simp [byteLength]
    rw [hn, List.cons_append, charsFrom, if_pos (by omega), ← hn, h, Nat.add_sub_cancel_left, ih]

theorem charsFrom_eq_some_iff {s r : List Char} {n : Nat} :
    charsFrom s n = some r ↔ ∃ before, s = before ++ r ∧ n = byteLength before := by
  constructor
  · intro h
    fun_induction charsFrom s n with
    | case1 s =>
      obtain rfl : s = r := Option.some.inj h
      exact ⟨[], rfl, rfl⟩
    | case2 => cases h
    | case3 c s n hle ih =>
      obtain ⟨before, rfl, hn⟩ := ih h
      refine ⟨c :: before, rfl, ?_⟩
      simp only [byteLength, List.map_cons, List.sum_cons] at hn ⊢
      omega
    | case4 => cases h
  · rintro ⟨before, rfl, rfl⟩
    exact charsFrom_byteLength before r

theorem byteLength_append (s t : List Char) :
    byteLength (s ++ t) = byteLength s + byteLength t := by
  simp [byteLength]

theorem byteLength_eq_zero_iff {s : List Char} : byteLength s = 0 ↔ s = [] := by
  cases s with
  | nil => exact ⟨fun _ => rfl, fun _ => rfl⟩
  | cons c s =>
    have := c.utf8Size_pos
    simp [byteLength]
    omega

theorem utf8ByteSize_ofList (s : List Char) : (String.ofList s).utf8ByteSize = byteLength s := by
  induction s with
  | nil => rfl
  | cons c s ih =>
    rw [String.ofList_cons, String.utf8ByteSize_append, String.utf8ByteSize_singleton, ih]
    simp [byteLength]

/-- A place in an input. -/
structure Position where
  input : String
  offset : Nat
deriving DecidableEq, Repr

namespace Position

/-- The place before the first character. -/
def start (input : String) : Position := ⟨input, 0⟩

/-- What follows the place; `none` if the place is not between two characters. -/
def rest? (p : Position) : Option (List Char) :=
  charsFrom p.input.toList p.offset

/-- What follows the place. -/
def rest (p : Position) : List Char :=
  p.rest?.getD []

/-- The character after the place. -/
def next? (p : Position) : Option Char :=
  p.rest.head?

/-- The place after the next character; at the end the place stays. -/
def step (p : Position) : Position :=
  match p.next? with
  | some ch => { p with offset := p.offset + ch.utf8Size }
  | none => p

/-- The place after some characters that follow the place. -/
def moveOver (p : Position) (read : List Char) : Position :=
  { p with offset := p.offset + byteLength read }

/-- Whether all bytes of the input are before the place. -/
def atEnd (p : Position) : Bool :=
  p.input.utf8ByteSize ≤ p.offset

/-- The first place from here on that no space follows. -/
def skipSpaces (p : Position) : Position :=
  { p with offset := p.offset + byteLength (p.rest.takeWhile isSpace) }

/-- The text of the run of content that starts here, if it is not empty, and the place after the
run. -/
def scan (p : Position) (t : Delimiters) : Option String × Position :=
  let run := t.scan p.rest
  (if run.text.isEmpty then none else some (String.ofList run.text),
    { p with offset := p.offset + (byteLength p.rest - byteLength run.rest) })

/-- Reads the run of content that starts here, and what `make` makes of its text; an empty run asks
for nothing, and nothing is made of it. -/
def readRun {m : Type → Type} [Monad m] (p : Position) (t : Delimiters)
    (make : String → m Query) : m (Query × Position) :=
  match p.scan t with
  | (some text, p') => do
    let q ← make text
    pure (q, p')
  | (none, p') => pure (.nothing, p')

theorem rest?_start (input : String) : (start input).rest? = some input.toList := by
  unfold rest? start
  cases input.toList <;> rfl

theorem rest?_eq_some_iff {p : Position} {r : List Char} :
    p.rest? = some r ↔ ∃ before, p.input.toList = before ++ r ∧ p.offset = byteLength before :=
  charsFrom_eq_some_iff

theorem rest?_moveOver {p : Position} {read r : List Char} (h : p.rest? = some (read ++ r)) :
    (p.moveOver read).rest? = some r := by
  obtain ⟨before, hinput, hoffset⟩ := rest?_eq_some_iff.1 h
  refine rest?_eq_some_iff.2 ⟨before ++ read, ?_, ?_⟩
  · rw [List.append_assoc]
    exact hinput
  · rw [byteLength_append, ← hoffset]
    rfl

theorem atEnd_iff {p : Position} {r : List Char} (h : p.rest? = some r) :
    p.atEnd = true ↔ r = [] := by
  obtain ⟨before, hinput, hoffset⟩ := rest?_eq_some_iff.1 h
  have hsize : p.input.utf8ByteSize = byteLength before + byteLength r := by
    rw [← byteLength_append, ← hinput, ← utf8ByteSize_ofList, String.ofList_toList]
  rw [atEnd, decide_eq_true_eq, hsize, hoffset, ← byteLength_eq_zero_iff]
  omega

end Position

end WeightedSearch
