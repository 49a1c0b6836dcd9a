/-
Well-formed query trees.

The plain constructors build trees that no search string stands for: blank values, groups of fewer
than two members, parts that ask for nothing.  A tree without these is well-formed, and so is the
tree that asks for nothing as a whole.  Main statements:

* `normalize_of_isSolid`, `normalize_of_isWellFormed` — normalizing leaves a well-formed tree as it
  is;
* `isWellFormed_term`, `isWellFormed_ofList`, `isWellFormed_require`, `isWellFormed_exclude` — the
  constructors build well-formed trees of well-formed ones;
* `ofList_congr` — what a list of alternatives asks for depends only on its members that ask for
  something.
-/
import WeightedSearch.Query.Basic

namespace WeightedSearch

namespace Query

mutual

/-- Whether every part of the tree asks for something: no value is blank, every group has at least
two members, and `nothing` does not occur. -/
def isSolid : Query → Bool
  | .nothing => false
  | .value _ text => !isBlank text
  | .group qs => decide (2 ≤ qs.length) && allSolid qs
  | .required q => isSolid q
  | .excluded q => isSolid q

/-- Whether every tree of a list is solid. -/
def allSolid : List Query → Bool
  | [] => true
  | q :: qs => isSolid q && allSolid qs

end

/-- Whether `nothing` occurs at most as the whole tree and all else is solid. -/
def isWellFormed (q : Query) : Bool :=
  q.isNothing || q.isSolid

theorem allSolid_iff {qs : List Query} : allSolid qs = true ↔ ∀ q ∈ qs, q.isSolid = true := by
  induction qs with
  | nil => simp [allSolid]
  | cons q qs ih => simp [allSolid, ih]

theorem isSolid_group {qs : List Query} :
    (Query.group qs).isSolid = true ↔ 2 ≤ qs.length ∧ ∀ q ∈ qs, q.isSolid = true := by
  simp [isSolid, allSolid_iff]

theorem isNothing_of_isSolid {q : Query} (h : q.isSolid = true) : q.isNothing = false := by
  cases q <;> simp_all [isSolid, isNothing]

/-- The members that ask for something. -/
def asking (members : List Query) : List Query :=
  members.filter fun q => !q.isNothing

theorem asking_cons_nothing (qs : List Query) : asking (.nothing :: qs) = asking qs := by
  simp [asking, isNothing]

/-- A member in front does not matter to what the others ask for. -/
theorem asking_cons_congr (q : Query) {qs ps : List Query} (h : asking qs = asking ps) :
    asking (q :: qs) = asking (q :: ps) := by
  unfold asking at h ⊢
  rw [List.filter_cons, List.filter_cons, h]

theorem asking_of_isSolid {qs : List Query} (h : ∀ q ∈ qs, q.isSolid = true) : asking qs = qs := by
  refine List.filter_eq_self.2 fun q hq => ?_
  rw [isNothing_of_isSolid (h q hq)]
  rfl

/-- Only members that ask for something count. -/
theorem ofList_congr {qs ps : List Query} (h : asking qs = asking ps) : ofList qs = ofList ps := by
  unfold asking at h
  unfold ofList
  rw [h]

theorem ofList_singleton (q : Query) : ofList [q] = q := by
  cases q <;> rfl

/-- Two members or more that all ask for something stay as they are. -/
theorem ofList_of_isSolid {qs : List Query} (hlen : 2 ≤ qs.length)
    (h : ∀ q ∈ qs, q.isSolid = true) : ofList qs = .group qs := by
  have hqs : qs.filter (fun q => !q.isNothing) = qs := asking_of_isSolid h
  rw [ofList, hqs]
  cases qs with
  | nil => simp at hlen
  | cons q qs =>
    cases qs with
    | nil => simp at hlen
    | cons p qs => rfl

theorem isSolid_of_isWellFormed {q : Query} (h : q.isWellFormed = true)
    (hn : q.isNothing = false) : q.isSolid = true := by
  rwa [isWellFormed, hn, Bool.false_or] at h

theorem isWellFormed_of_isSolid {q : Query} (h : q.isSolid = true) : q.isWellFormed = true := by
  rw [isWellFormed, h, Bool.or_true]

theorem isWellFormed_term (m : Matching) (text : String) : (term m text).isWellFormed = true := by
  cases h : isBlank text with
  | true =>
    rw [term, h]
    rfl
  | false =>
    have hsolid : (value m text).isSolid = true := by simp [isSolid, h]
    rw [term, h]
    exact isWellFormed_of_isSolid hsolid

/-- Rebuilding drops what asks for nothing, so what is left is solid. -/
theorem isWellFormed_ofList {qs : List Query} (h : ∀ q ∈ qs, q.isWellFormed = true) :
    (ofList qs).isWellFormed = true := by
  have hsolid : ∀ q ∈ qs.filter (fun q => !q.isNothing), q.isSolid = true := by
    intro q hq
    obtain ⟨hq, hn⟩ := List.mem_filter.1 hq
    exact isSolid_of_isWellFormed (h q hq) (by simpa using hn)
  -- no member, one, or a group of at least two
  rw [ofList]
  split
  · rfl
  · next q hq =>
    exact isWellFormed_of_isSolid (hsolid q (by simp [hq]))
  · next q p rs hq =>
    rw [hq] at hsolid
    exact isWellFormed_of_isSolid (isSolid_group.2 ⟨by simp, hsolid⟩)

theorem isWellFormed_require {q : Query} (h : q.isWellFormed = true) :
    (require q).isWellFormed = true := by
  rw [require]
  split
  · rfl
  · next hn =>
    have hq : q.isSolid = true := isSolid_of_isWellFormed h (Bool.eq_false_iff.2 hn)
    exact isWellFormed_of_isSolid hq

theorem isWellFormed_exclude {q : Query} (h : q.isWellFormed = true) :
    (exclude q).isWellFormed = true := by
  rw [exclude]
  split
  · rfl
  · next hn =>
    have hq : q.isSolid = true := isSolid_of_isWellFormed h (Bool.eq_false_iff.2 hn)
    exact isWellFormed_of_isSolid hq

theorem normalizeAll_of_forall {qs : List Query} (h : ∀ q ∈ qs, q.normalize = q) :
    normalizeAll qs = qs := by
  induction qs with
  | nil => rw [normalizeAll]
  | cons q qs ih =>
    rw [normalizeAll, h q (by simp), ih fun p hp => h p (List.mem_cons_of_mem _ hp)]

/-- A solid tree is rebuilt as it is. -/
theorem normalize_of_isSolid {q : Query} (h : q.isSolid = true) : q.normalize = q := by
  induction q using induct with
  | nothing => simp [isSolid] at h
  | value m t =>
    have ht : isBlank t = false := by simpa [isSolid] using h
    rw [normalize, term, ht]
    rfl
  | group qs ih =>
    obtain ⟨hlen, hqs⟩ := isSolid_group.1 h
    -- there are two members at least and none is dropped, so the group stays one
    rw [normalize, normalizeAll_of_forall fun q hq => ih q hq (hqs q hq)]
    exact ofList_of_isSolid hlen hqs
  | required q ih =>
    have hq : q.isSolid = true := by simpa [isSolid] using h
    rw [normalize, ih hq, require, isNothing_of_isSolid hq]
    rfl
  | excluded q ih =>
    have hq : q.isSolid = true := by simpa [isSolid] using h
    rw [normalize, ih hq, exclude, isNothing_of_isSolid hq]
    rfl

/-- And so is `nothing`, the only well-formed tree that is not solid. -/
theorem normalize_of_isWellFormed {q : Query} (h : q.isWellFormed = true) : q.normalize = q := by
  rw [isWellFormed, Bool.or_eq_true] at h
  rcases h with h | h
  · rw [isNothing_iff.1 h, normalize]
  · exact normalize_of_isSolid h

end Query

end WeightedSearch
