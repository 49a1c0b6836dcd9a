/-
The places that can be reached.

From the first place in an input one moves on by a character or over spaces, and any place that was
kept can be gone back to.  However one moves, a place reached this way lies between two characters
of the input, and every such place can be reached.  Offsets count bytes and moves count characters;
what ties them is the list of the characters before the place.  Main statements:

* `Reached.rest?_isSome` — no move ends inside a character or behind the end;
* `reached_iff` — the places that can be reached are those between two characters;
* `iterate_step` — what a number of steps goes over;
* `skipSpaces_of_space`, `skipSpaces_of_stopsSpaces` — spaces are gone over one by one;
* `reached_between` — the offset of a place that is reached, and the moves from there.
-/
import Mathlib.Data.List.Induction
import Mathlib.Logic.Function.Iterate
import Mathlib.Order.Bounds.Basic
import WeightedSearch.Query.Position

namespace WeightedSearch

namespace Position

/-- The places in an input that are reached from the first one, by moves in any order from places
already reached. -/
inductive Reached (input : String) : Position → Prop
  | start : Reached input (start input)
  | step (p : Position) : Reached input p → Reached input p.step
  | skipSpaces (p : Position) : Reached input p → Reached input p.skipSpaces

theorem rest_of_rest? {p : Position} {s : List Char} (h : p.rest? = some s) : p.rest = s := by
  rw [rest, h]
  rfl

theorem next?_of_rest? {p : Position} {s : List Char} (h : p.rest? = some s) :
    p.next? = s.head? := by
  rw [next?, rest_of_rest? h]

theorem step_of_cons {p : Position} {c : Char} {r : List Char} (h : p.rest? = some (c :: r)) :
    p.step = p.moveOver [c] := by
  have hnext : p.next? = some c := next?_of_rest? h
  rw [step, hnext]
  rfl

theorem step_of_nil {p : Position} (h : p.rest? = some []) : p.step = p := by
  have hnext : p.next? = none := next?_of_rest? h
  rw [step, hnext]

theorem skipSpaces_eq (p : Position) :
    p.skipSpaces = p.moveOver (p.rest.takeWhile isSpace) :=
  rfl

theorem Reached.input_eq {input : String} {p : Position} (h : p.Reached input) :
    p.input = input := by
  induction h with
  | start => rfl
  | step p _ ih =>
    rw [Position.step]
    split
    · exact ih
    · exact ih
  | skipSpaces p _ ih => exact ih

/-- A place that is reached lies between two characters. -/
theorem Reached.rest?_isSome {input : String} {p : Position} (h : p.Reached input) :
    ∃ s, p.rest? = some s := by
  induction h with
  | start => exact ⟨_, rest?_start input⟩
  | step p _ ih =>
    obtain ⟨s, hs⟩ := ih
    cases s with
    | nil => exact ⟨[], by rw [step_of_nil hs, hs]⟩
    | cons c r =>
      rw [step_of_cons hs]
      exact ⟨r, rest?_moveOver hs⟩
  | skipSpaces p _ ih =>
    obtain ⟨s, hs⟩ := ih
    rw [skipSpaces_eq, rest_of_rest? hs]
    refine ⟨s.dropWhile isSpace, rest?_moveOver ?_⟩
    rw [List.takeWhile_append_dropWhile, hs]

/-- Every place between two characters is reached by going over the characters before it. -/
theorem reached_of_append {input : String} {before r : List Char}
    (h : input.toList = before ++ r) : Reached input ⟨input, byteLength before⟩ := by
  -- the last character before the place is gone over last
  induction before using List.reverseRecOn generalizing r with
  | nil => exact .start
  | append_singleton before c ih =>
    rw [List.append_assoc] at h
    have hrest : rest? ⟨input, byteLength before⟩ = some (c :: r) :=
      rest?_eq_some_iff.2 ⟨before, h, rfl⟩
    have hstep := (ih h).step
    rw [step_of_cons hrest] at hstep
    rwa [byteLength_append]

/-- The places that can be reached are those between two characters. -/
theorem reached_iff {input : String} {p : Position} :
    p.Reached input ↔ p.input = input ∧ ∃ s, p.rest? = some s := by
  refine ⟨fun h => ⟨h.input_eq, h.rest?_isSome⟩, ?_⟩
  rintro ⟨rfl, s, hs⟩
  obtain ⟨before, hinput, hoffset⟩ := rest?_eq_some_iff.1 hs
  have hreached := reached_of_append hinput
  rwa [← hoffset] at hreached

theorem Reached.moveOver {input : String} {p : Position} {read r : List Char}
    (h : p.Reached input) (hrest : p.rest? = some (read ++ r)) :
    (p.moveOver read).Reached input :=
  reached_iff.2 ⟨h.input_eq, r, rest?_moveOver hrest⟩

theorem next?_eq_none_iff {p : Position} {s : List Char} (h : p.rest? = some s) :
    p.next? = none ↔ p.atEnd = true := by
  rw [next?_of_rest? h, List.head?_eq_none_iff, atEnd_iff h]

/-- A place that something of the input follows is a valid position in the sense of the core
library. -/
theorem isValid_offset {p : Position} {s : List Char} (h : p.rest? = some s) :
    String.Pos.Raw.IsValid p.input ⟨p.offset⟩ := by
  obtain ⟨before, hinput, hoffset⟩ := rest?_eq_some_iff.1 h
  -- the core library asks for the input in two parts with the offset between them
  have hsplit : p.input = String.ofList before ++ String.ofList s := by
    rw [← String.ofList_append, ← hinput, String.ofList_toList]
  have hend : String.rawEndPos (String.ofList before) = ⟨p.offset⟩ := by
    rw [hoffset, ← utf8ByteSize_ofList]
    rfl
  rw [hsplit, ← hend]
  exact String.Pos.Raw.isValid_rawEndPos.append_right _

theorem moveOver_append (p : Position) (s t : List Char) :
    p.moveOver (s ++ t) = (p.moveOver s).moveOver t := by
  simp only [moveOver, byteLength_append, Nat.add_assoc]

/-- What `k` steps go over are the next `k` characters, or all if fewer follow. -/
theorem iterate_step {p : Position} {s : List Char} (h : p.rest? = some s) (k : Nat) :
    step^[k] p = p.moveOver (s.take k) := by
  induction k generalizing p s with
  | zero => rfl
  | succ k ih =>
    rw [Function.iterate_succ_apply]
    cases s with
    | nil =>
      rw [step_of_nil h, ih h, List.take_nil, List.take_nil]
    | cons c r =>
      have hrest : (p.moveOver [c]).rest? = some r := rest?_moveOver h
      rw [step_of_cons h, ih hrest, ← moveOver_append, List.take_succ_cons, List.singleton_append]

theorem rest?_iterate_step {p : Position} {s : List Char} (h : p.rest? = some s) (k : Nat) :
    (step^[k] p).rest? = some (s.drop k) := by
  rw [iterate_step h]
  exact rest?_moveOver (by rw [List.take_append_drop, h])

/-- Whether the input ends here or goes on with a character that is no space. -/
def StopsSpaces (p : Position) : Prop :=
  ∀ c, p.next? = some c → isSpace c = false

/-- A space is gone over, and then those behind it. -/
theorem skipSpaces_of_space {p : Position} {c : Char} {r : List Char} (h : p.rest? = some (c :: r))
    (hc : isSpace c = true) : p.skipSpaces = p.step.skipSpaces := by
  have hrest : (p.moveOver [c]).rest? = some r := rest?_moveOver h
  rw [step_of_cons h, skipSpaces_eq, skipSpaces_eq, rest_of_rest? h, rest_of_rest? hrest,
    ← moveOver_append, List.takeWhile_cons_of_pos hc, List.singleton_append]

/-- Where no space follows the place stays. -/
theorem skipSpaces_of_stopsSpaces {p : Position} (h : p.StopsSpaces) : p.skipSpaces = p := by
  have hnone : p.rest.takeWhile isSpace = [] := by
    cases hrest : p.rest with
    | nil => rfl
    | cons c r =>
      have hc := h c (by rw [next?, hrest, List.head?_cons])
      exact List.takeWhile_cons_of_neg (by simp [hc])
  rw [skipSpaces_eq, hnone]
  rfl

theorem skipSpaces_stops_here {p : Position} (h : p.StopsSpaces) :
    ∃ k, p.skipSpaces = step^[k] p ∧ IsLeast {k | (step^[k] p).StopsSpaces} k :=
  ⟨0, skipSpaces_of_stopsSpaces h, h, fun _ _ => Nat.zero_le _⟩

/-- Skipping spaces is stepping to the first place that stops them. -/
theorem skipSpaces_stops {p : Position} {s : List Char} (h : p.rest? = some s) :
    ∃ k, p.skipSpaces = step^[k] p ∧ IsLeast {k | (step^[k] p).StopsSpaces} k := by
  induction s generalizing p with
  | nil =>
    refine skipSpaces_stops_here fun c hc => ?_
    rw [next?_of_rest? h] at hc
    cases hc
  | cons c r ih =>
    have hnext : p.next? = some c := next?_of_rest? h
    by_cases hc : isSpace c = true
    · have hstep : p.step.rest? = some r := rest?_iterate_step h 1
      obtain ⟨k, hskip, hstops, hleast⟩ := ih hstep
      refine ⟨k + 1, ?_, hstops, fun j hj => ?_⟩
      · rw [skipSpaces_of_space h hc, hskip]
        rfl
      · -- no place before can stop, the first because of its space and the others by induction
        cases j with
        | zero => exact absurd (hj c hnext) (by simp [hc])
        | succ j => exact Nat.succ_le_succ (hleast hj)
    · refine skipSpaces_stops_here fun d hd => ?_
      rw [hnext, Option.some_inj] at hd
      rwa [← hd, ← Bool.not_eq_true]

/-- From the first place, `k` steps go over `k` characters, or over all if there are fewer. A place
that is reached, however one has moved, is behind some characters of the input, and its offset is
the number of their bytes; so it lies between two characters, and what follows it can always be
taken. It is at the end exactly when no character comes next. From there `k` steps go over the next
`k` characters, and skipping spaces is stepping to the first place that stops them. -/
theorem reached_between (input : String) :
    (∀ k, (step^[k] (start input)).offset = byteLength (input.toList.take k) ∧
      (input.toList.take k).length = min k input.toList.length) ∧
    ∀ p : Position, p.Reached input → ∃ passed rest,
      input.toList = passed ++ rest ∧ p.rest? = some rest ∧ p.offset = byteLength passed ∧
      p.offset ≤ input.utf8ByteSize ∧ String.Pos.Raw.IsValid input ⟨p.offset⟩ ∧
      p.next? = rest.head? ∧ (p.next? = none ↔ p.atEnd = true) ∧
      (∀ k, (step^[k] p).offset = byteLength (passed ++ rest.take k)) ∧
      ∃ k, p.skipSpaces = step^[k] p ∧ IsLeast {k | (step^[k] p).StopsSpaces} k := by
  refine ⟨fun k => ⟨?_, List.length_take⟩, fun p hp => ?_⟩
  · rw [iterate_step (rest?_start input), moveOver, start, Nat.zero_add]
  · obtain ⟨rest, hrest⟩ := hp.rest?_isSome
    obtain ⟨passed, hinput, hoffset⟩ := rest?_eq_some_iff.1 hrest
    have hvalid := isValid_offset hrest
    rw [hp.input_eq] at hinput hvalid
    refine ⟨passed, rest, hinput, hrest, hoffset, hvalid.le_utf8ByteSize, hvalid,
      next?_of_rest? hrest, next?_eq_none_iff hrest, fun k => ?_, skipSpaces_stops hrest⟩
    rw [iterate_step hrest, moveOver, hoffset, byteLength_append]

/-- Behind a letter of two bytes and spaces of three and one, the place in front of the last
character. -/
theorem reached_between_wide_space :
    let input := "é\u3000 €"
    let p := (start input).step.skipSpaces
    p.Reached input ∧ p = ⟨input, 6⟩ ∧ p.next? = some '€' ∧ p.atEnd = false := by
  intro input p
  have hreached : p.Reached input := .skipSpaces _ (.step _ .start)
  have hp : p = ⟨input, 6⟩ := by decide +kernel
  obtain ⟨passed, rest, -, -, -, -, -, -, hend, -⟩ := (reached_between input).2 p hreached
  have hnext : p.next? = some '€' := by decide +kernel
  refine ⟨hreached, hp, hnext, ?_⟩
  rw [← Bool.not_eq_true, ← hend, hnext]
  exact Option.some_ne_none _

end Position

end WeightedSearch
