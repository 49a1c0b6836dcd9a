/-
One level of a query.

Each sibling at a level is resolved to entries of its own: a value to what it is looked up as, a
group to what its members find together, a marked query to what it finds.  The level then depends on
the siblings only through these entries.  Main statements:

* `Query.induct_levels` — induction over a query, level by level;
* `gather_eq_resolveAll` — a level resolves its siblings one after the other and puts together what
  they resolve to;
* `reduce_eq_settle`, `found_eq_reduce` — so does the reduction of a level, and what a query finds
  is the reduction of the level it stands for;
* `kept_ofSiblings` — the entries left at a level are those of the siblings that are not excluded,
  in order, less the excluded keys and, where a sibling is required, less the keys that no required
  one finds.
-/
import WeightedSearch.Evaluation.Basic
import WeightedSearch.Proofs.Query.Leaves

namespace WeightedSearch

variable {κ : Type}

namespace Query

/-- Whether the query is marked as required. -/
def isRequired : Query → Bool
  | .required _ => true
  | _ => false

/-- Whether the query is marked as excluded. -/
def isExcluded : Query → Bool
  | .excluded _ => true
  | _ => false

/-- Induction over a query, level by level. A level may assume of each of its siblings what `R`
says, and a sibling with a level of its own may assume of that level what `L` says. -/
theorem induct_levels {R L : Query → Prop} (nothing : R .nothing) (value : ∀ m t, R (.value m t))
    (group : ∀ qs, L (.group qs) → R (.group qs)) (required : ∀ q, L q → R (.required q))
    (excluded : ∀ q, L q → R (.excluded q)) (level : ∀ q, (∀ s ∈ q.siblings, R s) → L q)
    (q : Query) : R q ∧ L q := by
  -- a query that is no group is the only sibling at its level
  have halone : ∀ q, q.siblings = [q] → R q → R q ∧ L q := by
    intro q hq hR
    refine ⟨hR, level q fun s hs => ?_⟩
    rw [hq, List.mem_singleton] at hs
    rwa [hs]
  -- so only for a group the two statements are about different lists of siblings
  induction q using induct with
  | nothing => exact halone _ rfl nothing
  | value m t => exact halone _ rfl (value m t)
  | group qs ih =>
    have hL := level (.group qs) fun q hq => (ih q hq).1
    exact ⟨group qs hL, hL⟩
  | required q ih => exact halone _ rfl (required q ih.2)
  | excluded q ih => exact halone _ rfl (excluded q ih.2)

/-- The siblings at the level of a query have all its values. -/
theorem leavesAll_siblings (q : Query) : leavesAll q.siblings = q.leaves := by
  cases q <;> simp [siblings, leavesAll, leaves]

theorem mem_leaves_of_mem_siblings {q s : Query} (hs : s ∈ q.siblings) {l : Matching × String}
    (hl : l ∈ s.leaves) : l ∈ q.leaves := by
  rw [← leavesAll_siblings]
  exact mem_leavesAll.2 ⟨s, hs, hl⟩

end Query

/-- A sibling with the entries it is resolved to. -/
abbrev Resolved (κ : Type) := Query × List (Entry κ)

namespace Resolved

/-- The entries that siblings bring to their level: all but those of excluded siblings. -/
def accumulated (rs : List (Resolved κ)) : List (Entry κ) :=
  rs.flatMap fun r => if r.1.isExcluded then [] else r.2

theorem exists_of_mem_accumulated {rs : List (Resolved κ)} {e : Entry κ}
    (he : e ∈ accumulated rs) : ∃ r ∈ rs, e ∈ r.2 := by
  obtain ⟨r, hr, he⟩ := List.mem_flatMap.1 he
  split at he
  · cases he
  · exact ⟨r, hr, he⟩

/-- Whether a sibling of the given kind finds the key. -/
def findsKey (policy : KeyPolicy κ) (kind : Query → Bool) (rs : List (Resolved κ)) (key : κ) :
    Bool :=
  rs.any fun r => kind r.1 && r.2.any fun e => policy.same key e.key

/-- Whether the entries of the key are left at a level. -/
def keeps (policy : KeyPolicy κ) (rs : List (Resolved κ)) (key : κ) : Bool :=
  !findsKey policy Query.isExcluded rs key &&
    (!(rs.any fun r => r.1.isRequired) || findsKey policy Query.isRequired rs key)

/-- The entries that are left at a level. -/
def survivors (policy : KeyPolicy κ) (rs : List (Resolved κ)) : List (Entry κ) :=
  (accumulated rs).filter fun e => keeps policy rs e.key

end Resolved

namespace Gathered

/-! ### What a level takes from its siblings -/

/-- What a level takes from a sibling that is resolved to the given entries. -/
def ofSibling : Query → List (Entry κ) → Gathered κ
  | .required _, es => .ofRequired es
  | .excluded _, es => .ofExcluded es
  | _, es => .ofFound es

/-- What a level takes from all its siblings. -/
def ofSiblings : List (Resolved κ) → Gathered κ
  | [] => .nothing
  | r :: rs => ofSibling r.1 r.2 ++ ofSiblings rs

theorem append_def (g h : Gathered κ) :
    g ++ h = ⟨g.found ++ h.found, joinRequired g.required h.required, g.excluded ++ h.excluded⟩ :=
  rfl

theorem append_nothing (g : Gathered κ) : g ++ nothing = g := by
  obtain ⟨found, required, excluded⟩ := g
  cases required <;> simp [append_def, nothing, joinRequired]

/-- What is found is what the siblings bring that are not excluded. -/
theorem found_ofSiblings (rs : List (Resolved κ)) :
    (ofSiblings rs).found = Resolved.accumulated rs := by
  induction rs with
  | nil => rfl
  | cons r rs ih =>
    obtain ⟨q, es⟩ := r
    rw [ofSiblings, append_def, ih]
    cases q <;> rfl

/-- The excluded keys are those that an excluded sibling finds. -/
theorem any_excluded_ofSiblings (policy : KeyPolicy κ) (rs : List (Resolved κ)) (key : κ) :
    (ofSiblings rs).excluded.any (policy.same key)
      = Resolved.findsKey policy Query.isExcluded rs key := by
  induction rs with
  | nil => rfl
  | cons r rs ih =>
    obtain ⟨q, es⟩ := r
    rw [ofSiblings, append_def, List.any_append, ih]
    cases q <;>
      simp [ofSibling, ofRequired, ofExcluded, ofFound, Resolved.findsKey, Query.isExcluded,
        Function.comp_def]

theorem isSome_joinRequired (r s : Option (List κ)) :
    (joinRequired r s).isSome = (r.isSome || s.isSome) := by
  cases r <;> cases s <;> rfl

theorem getD_joinRequired (r s : Option (List κ)) :
    (joinRequired r s).getD [] = r.getD [] ++ s.getD [] := by
  cases r <;> cases s <;> simp [joinRequired]

/-- There are required keys as soon as a sibling is required, even if it finds none. -/
theorem isSome_required_ofSiblings (rs : List (Resolved κ)) :
    (ofSiblings rs).required.isSome = rs.any fun r => r.1.isRequired := by
  induction rs with
  | nil => rfl
  | cons r rs ih =>
    obtain ⟨q, es⟩ := r
    rw [ofSiblings, append_def, isSome_joinRequired, ih]
    cases q <;> rfl

/-- The required keys are those that some required sibling finds. -/
theorem any_required_ofSiblings (policy : KeyPolicy κ) (rs : List (Resolved κ)) (key : κ) :
    ((ofSiblings rs).required.getD []).any (policy.same key)
      = Resolved.findsKey policy Query.isRequired rs key := by
  induction rs with
  | nil => rfl
  | cons r rs ih =>
    obtain ⟨q, es⟩ := r
    rw [ofSiblings, append_def, getD_joinRequired, List.any_append, ih]
    cases q <;>
      simp [ofSibling, ofRequired, ofExcluded, ofFound, Resolved.findsKey, Query.isRequired,
        Function.comp_def]

theorem admits_eq (policy : KeyPolicy κ) (key : κ) (required : Option (List κ)) :
    admits policy key required
      = (!required.isSome || (required.getD []).any (policy.same key)) := by
  cases required <;> rfl

/-- A level keeps what survives of the entries that its siblings bring. -/
theorem kept_ofSiblings (policy : KeyPolicy κ) (rs : List (Resolved κ)) :
    (ofSiblings rs).kept policy = Resolved.survivors policy rs := by
  unfold kept keeps Resolved.survivors Resolved.keeps
  simp only [found_ofSiblings, any_excluded_ofSiblings, admits_eq, isSome_required_ofSiblings,
    any_required_ofSiblings]

end Gathered

namespace Effects

variable {μ : Type → Type} [Monad μ] (effects : Effects μ κ)

/-! ### Resolving siblings one by one -/

/-- The entries of one sibling. -/
def resolve : Query → μ (List (Entry κ))
  | .nothing => pure []
  | .value m text => effects.lookup m text
  | .group qs => effects.reduce qs
  | .required q => effects.found q
  | .excluded q => effects.found q

/-- The siblings in order, each with its entries. -/
def resolveAll : List Query → μ (List (Resolved κ))
  | [] => pure []
  | q :: qs => do
    let es ← effects.resolve q
    let rs ← resolveAll qs
    pure ((q, es) :: rs)

variable [LawfulMonad μ]

/-- Siblings are gathered by resolving the first and then the others. -/
theorem gather_cons (q : Query) (qs : List Query) :
    effects.gather (q :: qs) = (do
      let es ← effects.resolve q
      let h ← effects.gather qs
      pure (Gathered.ofSibling q es ++ h)) := by
  cases q <;> simp [gather, level, resolve, found, reduce, Gathered.ofSibling, Query.siblings]
  rfl

/-- To gather siblings is to resolve all and to take from each what its mark says. -/
theorem gather_eq_resolveAll (qs : List Query) :
    effects.gather qs = (do
      let rs ← effects.resolveAll qs
      pure (Gathered.ofSiblings rs)) := by
  induction qs with
  | nil => simp [gather, resolveAll, Gathered.ofSiblings]
  | cons q qs ih =>
    rw [gather_cons, ih]
    simp [resolveAll, Gathered.ofSiblings]

/-- So a level is resolved first and settled then. -/
theorem reduce_eq_settle (qs : List Query) :
    effects.reduce qs = (do
      let rs ← effects.resolveAll qs
      effects.settle qs (Gathered.ofSiblings rs)) := by
  simp [reduce, gather_eq_resolveAll]

/-- A query that is no group is the only sibling at its level. -/
theorem found_eq_reduce (q : Query) : effects.found q = effects.reduce q.siblings := by
  cases q <;> simp [found, reduce, Query.siblings, level, gather, Gathered.append_nothing]

theorem resolve_group (qs : List Query) :
    effects.resolve (.group qs) = effects.found (.group qs) := by
  rw [found_eq_reduce]
  rfl

end Effects

end WeightedSearch
