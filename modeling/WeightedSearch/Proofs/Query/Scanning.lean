/-
Where a run of content ends.

The scan keeps one bit while it reads: whether the next character is escaped.  What it does can be
said without that bit.  The run ends in front of the first delimiter with an even number of
backslashes right before it, and its text is the run without the first, third, fifth, ... backslash
of each row of backslashes.  Both hold because a backslash is never a delimiter.  Main statements:

* `Delimiters.isLeast_stopsAt_cons`, `Delimiters.isLeast_stopsAt_escape` — the first place to stop,
  behind one more character and behind an escape;
* `Delimiters.scan_stops`, `Delimiters.scan_eq_firstStop` — a scan ends at the first place to stop;
* `Position.readRun_stops` — the same for the run that starts at a place in an input, with the query
  that is made of its text.
-/
import Mathlib.Order.Bounds.Basic
import Mathlib.Order.Nat
import WeightedSearch.Proofs.Query.Escapes
import WeightedSearch.Proofs.Query.Places

namespace WeightedSearch

/-- The characters without each backslash that has an even number of backslashes right before it. -/
def dropEscapes (s : List Char) : List Char :=
  filterBefore (fun before c => c != escape || endsEscaping before) s

/-- A character that is no backslash stays, and changes nothing behind it. -/
theorem dropEscapes_cons {c : Char} (hc : c ≠ escape) (s : List Char) :
    dropEscapes (c :: s) = c :: dropEscapes s := by
  rw [dropEscapes, filterBefore_cons, if_pos (by simp [hc])]
  simp only [endsEscaping_cons hc]
  rfl

/-- A backslash goes, and the character that it escapes stays. -/
theorem dropEscapes_escape_cons (c : Char) (s : List Char) :
    dropEscapes (escape :: c :: s) = c :: dropEscapes s := by
  have hescaped : endsEscaping [escape] = true := rfl
  rw [dropEscapes, filterBefore_cons, filterBefore_cons, if_neg (by decide),
    if_pos (by simp [hescaped])]
  simp only [endsEscaping_escape_cons]
  rfl

namespace Delimiters

/-- Whether a run may end before the `n`th of the characters: at their end, or in front of a
delimiter that an even number of backslashes precedes. -/
def StopsAt (t : Delimiters) (s : List Char) (n : Nat) : Prop :=
  n = s.length ∨ ∃ c, s[n]? = some c ∧ t.contains c = true ∧ endsEscaping (s.take n) = false

instance (t : Delimiters) (s : List Char) : DecidablePred (t.StopsAt s) := fun n =>
  decidable_of_iff
    (n = s.length ∨ s[n]?.any t.contains = true ∧ endsEscaping (s.take n) = false) <| by
    cases h : s[n]? <;> simp [StopsAt, h]

theorem exists_stopsAt (t : Delimiters) (s : List Char) : ∃ n, t.StopsAt s n :=
  ⟨s.length, Or.inl rfl⟩

/-- The first place where a run may end. -/
def firstStop (t : Delimiters) (s : List Char) : Nat :=
  Nat.find (t.exists_stopsAt s)

theorem isLeast_firstStop (t : Delimiters) (s : List Char) :
    IsLeast {n | t.StopsAt s n} (t.firstStop s) :=
  Nat.isLeast_find (t.exists_stopsAt s)

variable {t : Delimiters}

theorem stopsAt_zero {c : Char} {s : List Char} : t.StopsAt (c :: s) 0 ↔ t.contains c = true := by
  simp [StopsAt, show endsEscaping [] = false from rfl]

/-- In front of a character that is no delimiter no run ends. -/
theorem firstStop_pos {c : Char} (hc : t.contains c = false) (s : List Char) :
    0 < t.firstStop (c :: s) := by
  refine Nat.pos_of_ne_zero fun hzero => ?_
  have hstop : t.StopsAt (c :: s) 0 := hzero ▸ (t.isLeast_firstStop (c :: s)).1
  rw [stopsAt_zero, hc] at hstop
  cases hstop

theorem stopsAt_succ {c : Char} (hc : c ≠ escape) {s : List Char} {n : Nat} :
    t.StopsAt (c :: s) (n + 1) ↔ t.StopsAt s n := by
  simp [StopsAt, endsEscaping_cons hc]

theorem not_stopsAt_escaped {c : Char} {s : List Char} : ¬t.StopsAt (escape :: c :: s) 1 := by
  simp [StopsAt, show endsEscaping [escape] = true from rfl]

theorem stopsAt_escape_succ {c : Char} {s : List Char} {n : Nat} :
    t.StopsAt (escape :: c :: s) (n + 2) ↔ t.StopsAt s n := by
  simp [StopsAt, endsEscaping_escape_cons]

/-- The first place to stop moves on with a character in front that is no delimiter. -/
theorem isLeast_stopsAt_cons {c : Char} (hc : c ≠ escape) (ht : ¬t.contains c = true)
    {s : List Char} {n : Nat} (h : IsLeast {k | t.StopsAt s k} n) :
    IsLeast {k | t.StopsAt (c :: s) k} (n + 1) := by
  refine ⟨(stopsAt_succ hc).2 h.1, fun k hk => ?_⟩
  cases k with
  | zero => exact absurd (stopsAt_zero.1 hk) ht
  | succ k => exact Nat.succ_le_succ (h.2 ((stopsAt_succ hc).1 hk))

/-- It moves on by two with an escape in front, whatever is escaped. -/
theorem isLeast_stopsAt_escape (c : Char) {s : List Char} {n : Nat}
    (h : IsLeast {k | t.StopsAt s k} n) :
    IsLeast {k | t.StopsAt (escape :: c :: s) k} (n + 2) := by
  refine ⟨stopsAt_escape_succ.2 h.1, fun k hk => ?_⟩
  match k with
  | 0 => exact absurd (stopsAt_zero.1 hk) (by simp [contains_escape])
  -- between a backslash and its character a run does not end
  | 1 => exact absurd hk not_stopsAt_escaped
  | k + 2 => exact Nat.add_le_add_right (h.2 (stopsAt_escape_succ.1 hk)) 2

/-- A scan ends at the first place to stop, and finds what it went over without the escapes. -/
theorem scan_stops (t : Delimiters) (s : List Char) :
    ∃ scanned, s = scanned ++ (t.scan s).rest ∧ (t.scan s).text = dropEscapes scanned ∧
      IsLeast {n | t.StopsAt s n} scanned.length := by
  fun_induction scan t s with
  | case1 => exact ⟨[], rfl, rfl, Or.inl rfl, fun _ _ => Nat.zero_le _⟩
  | case2 =>
    refine ⟨[escape], rfl, rfl, Or.inl rfl, fun k hk => Nat.one_le_iff_ne_zero.2 ?_⟩
    rintro rfl
    exact absurd (stopsAt_zero.1 hk) (by simp [contains_escape])
  | case3 d r ih =>
    obtain ⟨scanned, hs, htext, hleast⟩ := ih
    refine ⟨escape :: d :: scanned, ?_, ?_, isLeast_stopsAt_escape d hleast⟩
    · exact congrArg (escape :: d :: ·) hs
    · rw [dropEscapes_escape_cons, ← htext]
      rfl
  -- the delimiter is not escaped, as nothing stands before it
  | case4 c r _ hc => exact ⟨[], rfl, rfl, stopsAt_zero.2 hc, fun _ _ => Nat.zero_le _⟩
  | case5 c r he hc ih =>
    obtain ⟨scanned, hs, htext, hleast⟩ := ih
    refine ⟨c :: scanned, ?_, ?_, isLeast_stopsAt_cons he hc hleast⟩
    · exact congrArg (c :: ·) hs
    · rw [dropEscapes_cons he, ← htext]
      rfl

/-- What a scan finds and what it leaves over, by the first place to stop. -/
theorem scan_eq_firstStop (t : Delimiters) (s : List Char) :
    t.scan s = ⟨dropEscapes (s.take (t.firstStop s)), s.drop (t.firstStop s)⟩ := by
  obtain ⟨scanned, hs, htext, hleast⟩ := t.scan_stops s
  have hstop : t.firstStop s = scanned.length := (t.isLeast_firstStop s).unique hleast
  have htake : s.take scanned.length = scanned := (congrArg (List.take _) hs).trans List.take_left
  have hdrop : s.drop scanned.length = (t.scan s).rest :=
    (congrArg (List.drop _) hs).trans List.drop_left
  rw [hstop, htake, hdrop, ← htext]

/-- The backslash and nothing else is refused as a delimiter. -/
theorem ofChars_eq_error_iff {chars : List Char} {spaces : Bool} :
    ofChars chars spaces = .error .escapeGiven ↔ escape ∈ chars := by
  by_cases h : escape ∈ chars <;> simp [ofChars, h]

theorem ofChars_eq_ok_iff {chars : List Char} {spaces : Bool} {t : Delimiters} :
    ofChars chars spaces = .ok t ↔ t.chars = chars ∧ t.spaces = spaces := by
  obtain ⟨chars', spaces', ht⟩ := t
  by_cases h : escape ∈ chars
  · simp only [ofChars, h, dite_true, reduceCtorEq, false_iff, not_and]
    rintro rfl
    exact absurd h ht
  · simp [ofChars, h, eq_comm]

end Delimiters

namespace Position

/-- The text of a scan and the place behind it, by what the scan goes over. -/
theorem scan_eq {p : Position} {t : Delimiters} {scanned rest : List Char}
    (hp : p.rest? = some (scanned ++ rest)) (hrest : (t.scan (scanned ++ rest)).rest = rest)
    (htext : (t.scan (scanned ++ rest)).text = dropEscapes scanned) :
    p.scan t
      = (if (dropEscapes scanned).isEmpty then none else some (String.ofList (dropEscapes scanned)),
        p.moveOver scanned) := by
  rw [scan, rest_of_rest? hp, htext, hrest, byteLength_append, Nat.add_sub_cancel]
  rfl

/-- The backslash is refused as a delimiter, and nothing else is. From any place that is reached in
an input, the run of content ends at the first place to stop. The query is made, once, of what the
run goes over without its escapes; if nothing of that is left, no query is made and the run asks for
nothing. -/
theorem readRun_stops :
    (∀ chars spaces, (Delimiters.ofChars chars spaces = .error .escapeGiven ↔ escape ∈ chars) ∧
      ∀ t, Delimiters.ofChars chars spaces = .ok t ↔ t.chars = chars ∧ t.spaces = spaces) ∧
    ∀ (t : Delimiters) (input : String) (p : Position), p.Reached input →
      ∃ scanned rest, p.rest? = some (scanned ++ rest) ∧
        IsLeast {n | t.StopsAt (scanned ++ rest) n} scanned.length ∧
        (p.moveOver scanned).Reached input ∧ (p.moveOver scanned).rest? = some rest ∧
        ∀ (m : Type → Type) [Monad m] (make : String → m Query),
          p.readRun t make =
            if dropEscapes scanned = [] then pure (.nothing, p.moveOver scanned)
            else make (String.ofList (dropEscapes scanned)) >>= fun q =>
              pure (q, p.moveOver scanned) := by
  refine ⟨fun chars spaces => ⟨Delimiters.ofChars_eq_error_iff, fun t =>
    Delimiters.ofChars_eq_ok_iff⟩, fun t input p hp => ?_⟩
  obtain ⟨s, hs⟩ := hp.rest?_isSome
  obtain ⟨scanned, happend, htext, hleast⟩ := t.scan_stops s
  generalize hrest : (t.scan s).rest = rest at happend
  subst happend
  -- the place behind the run is reached by going over what was scanned
  refine ⟨scanned, rest, hs, hleast, hp.moveOver hs, rest?_moveOver hs, fun m _ make => ?_⟩
  rw [readRun, scan_eq hs hrest htext]
  cases dropEscapes scanned with
  | nil => rfl
  | cons c text => rfl

/-- Behind a letter of two bytes and two spaces, a run with an escaped bracket and an escaped
backslash ends in front of the next bracket. The text is noted each time that a query is made. -/
theorem readRun_stops_escaped_bracket :
    let input := "é  a\\)\\\\) b"
    let p : Position := (start input).step.skipSpaces
    let make : String → StateM (List String) Query := fun text made =>
      (.value .standard text, text :: made)
    p.Reached input ∧ p.rest? = some "a\\)\\\\) b".toList ∧
    IsLeast {n | Delimiters.value.StopsAt "a\\)\\\\) b".toList n} 5 ∧
    p.readRun .value make [] = ((.value .standard "a)\\", ⟨input, 9⟩), ["a)\\"]) := by
  intro input p make
  have hreached : p.Reached input := .skipSpaces _ (.step _ .start)
  have hrest : p.rest? = some "a\\)\\\\) b".toList := by decide +kernel
  have hstop : IsLeast {n | Delimiters.value.StopsAt "a\\)\\\\) b".toList n} 5 :=
    Delimiters.isLeast_stopsAt_cons (by decide) (by decide)
      (Delimiters.isLeast_stopsAt_escape ')' (Delimiters.isLeast_stopsAt_escape '\\'
        ⟨Delimiters.stopsAt_zero.2 (by decide), fun _ _ => Nat.zero_le _⟩))
  obtain ⟨scanned, rest, happend, hleast, -, -, hread⟩ := readRun_stops.2 .value input p hreached
  have hs : "a\\)\\\\) b".toList = scanned ++ rest := Option.some.inj (hrest.symm.trans happend)
  rw [← hs] at hleast
  have hscanned : scanned = "a\\)\\\\".toList := by
    rw [← List.take_left' (hleast.unique hstop), ← hs]
    rfl
  have htext : dropEscapes scanned = "a)\\".toList := by rw [hscanned]; decide
  have hmove : p.moveOver scanned = ⟨input, 9⟩ := by rw [hscanned]; decide +kernel
  refine ⟨hreached, hrest, hstop, ?_⟩
  rw [hread, htext, hmove]
  rfl

end Position

end WeightedSearch
