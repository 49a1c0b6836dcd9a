/-
Tables.

A table gives a value to each of finitely many keys and keeps the keys in the order in which they
came.  That no key comes twice is part of the table.  Main statements:

* `Table.get?_alter` — altering one key changes the value of that key and of no other;
* `Table.keys_alter` — a new key comes last, a known one keeps its place;
* `Table.get?_eq_some_iff` — the value of a key is the one that is listed with it.
-/

namespace WeightedSearch

/-- Where no key comes twice, the value of a key is the one that is listed with it. -/
theorem lookup_eq_some_iff_mem {α β : Type} [DecidableEq α] {ps : List (α × β)}
    (h : (ps.map Prod.fst).Nodup) {a : α} {b : β} : ps.lookup a = some b ↔ (a, b) ∈ ps := by
  induction ps with
  | nil => simp
  | cons p ps ih =>
    obtain ⟨hfirst, hrest⟩ := List.nodup_cons.1 h
    rw [List.mem_cons]
    by_cases hp : a = p.1
    · -- the key is that of the first pair, and no other pair has it
      subst hp
      rw [List.lookup_cons_self]
      refine ⟨fun hb => Or.inl (by rw [← Option.some.inj hb]), fun hmem => ?_⟩
      rcases hmem with hmem | hmem
      · rw [← hmem]
      · exact absurd (List.mem_map_of_mem hmem) hfirst
    · rw [List.lookup_cons, beq_false_of_ne hp]
      refine (ih hrest).trans ⟨Or.inr, fun hmem => hmem.resolve_left ?_⟩
      rintro rfl
      exact hp rfl

/-- A key that is not listed has no value. -/
theorem lookup_eq_none_iff_notMem {α β : Type} [DecidableEq α] {ps : List (α × β)} {a : α} :
    ps.lookup a = none ↔ a ∉ ps.map Prod.fst := by
  rw [List.lookup_eq_none_iff, List.mem_map]
  refine ⟨?_, fun h p hp => bne_iff_ne.2 fun ha => h ⟨p, hp, ha.symm⟩⟩
  rintro h ⟨p, hp, rfl⟩
  exact bne_iff_ne.1 (h p hp) rfl

/-- A finite map that keeps the order of its keys. -/
structure Table (α β : Type) where
  pairs : List (α × β)
  /-- no key comes twice -/
  nodup : (pairs.map Prod.fst).Nodup

namespace Table

variable {α β : Type}

/-- The table without keys. -/
def empty : Table α β := ⟨[], List.nodup_nil⟩

instance : Inhabited (Table α β) := ⟨empty⟩

/-- The keys in the order in which they came. -/
def keys (t : Table α β) : List α :=
  t.pairs.map Prod.fst

/-- The number of keys. -/
def size (t : Table α β) : Nat :=
  t.pairs.length

theorem nodup_keys (t : Table α β) : t.keys.Nodup :=
  t.nodup

variable [DecidableEq α]

/-- The value of a key. -/
def get? (t : Table α β) (a : α) : Option β :=
  t.pairs.lookup a

/-- Gives a key of the pairs the value made from the one it has, or adds the key at the end. -/
def alterPairs (a : α) (f : Option β → β) : List (α × β) → List (α × β)
  | [] => [(a, f none)]
  | p :: ps => if p.1 = a then (p.1, f (some p.2)) :: ps else p :: alterPairs a f ps

theorem lookup_alterPairs (a : α) (f : Option β → β) (ps : List (α × β)) (b : α) :
    (alterPairs a f ps).lookup b = if b = a then some (f (ps.lookup a)) else ps.lookup b := by
  induction ps with
  | nil => grind [alterPairs]
  | cons p ps ih => grind [alterPairs]

theorem map_fst_alterPairs (a : α) (f : Option β → β) (ps : List (α × β)) :
    (alterPairs a f ps).map Prod.fst
      = if a ∈ ps.map Prod.fst then ps.map Prod.fst else ps.map Prod.fst ++ [a] := by
  induction ps with
  | nil => simp [alterPairs]
  | cons p ps ih => grind [alterPairs]

/-- A key that is there already is not added again. -/
theorem nodup_alterPairs {ps : List (α × β)} (h : (ps.map Prod.fst).Nodup) (a : α)
    (f : Option β → β) : ((alterPairs a f ps).map Prod.fst).Nodup := by
  rw [map_fst_alterPairs]
  split
  · exact h
  · next ha => exact List.nodup_append.2 ⟨h, by simp, by grind⟩

/-- Gives a key the value made from the one it has. -/
def alter (t : Table α β) (a : α) (f : Option β → β) : Table α β :=
  ⟨alterPairs a f t.pairs, nodup_alterPairs t.nodup a f⟩

/-- Gives a key a value, in place of the one it may have. -/
def insert (t : Table α β) (a : α) (b : β) : Table α β :=
  t.alter a fun _ => b

@[simp] theorem get?_empty (a : α) : (empty : Table α β).get? a = none := rfl

theorem get?_alter (t : Table α β) (a : α) (f : Option β → β) (b : α) :
    (t.alter a f).get? b = if b = a then some (f (t.get? a)) else t.get? b :=
  lookup_alterPairs a f t.pairs b

theorem keys_alter (t : Table α β) (a : α) (f : Option β → β) :
    (t.alter a f).keys = if a ∈ t.keys then t.keys else t.keys ++ [a] :=
  map_fst_alterPairs a f t.pairs

theorem get?_eq_some_iff (t : Table α β) {a : α} {b : β} :
    t.get? a = some b ↔ (a, b) ∈ t.pairs :=
  lookup_eq_some_iff_mem t.nodup

theorem get?_eq_none_iff (t : Table α β) (a : α) : t.get? a = none ↔ a ∉ t.keys :=
  lookup_eq_none_iff_notMem

theorem mem_alterPairs {a : α} {b : β} {ps : List (α × β)} {p : α × β}
    (h : p ∈ alterPairs a (fun _ => b) ps) : p = (a, b) ∨ p ∈ ps := by
  induction ps with
  | nil => exact Or.inl (List.mem_singleton.1 h)
  | cons q ps ih => grind [alterPairs]

theorem mem_pairs_insert {t : Table α β} {a : α} {b : β} {p : α × β}
    (h : p ∈ (t.insert a b).pairs) : p = (a, b) ∨ p ∈ t.pairs :=
  mem_alterPairs h

theorem alterPairs_of_new {a : α} {ps : List (α × β)} (h : a ∉ ps.map Prod.fst)
    (f : Option β → β) : alterPairs a f ps = ps ++ [(a, f none)] := by
  induction ps with
  | nil => rfl
  | cons p ps ih =>
    rw [List.map_cons, List.mem_cons, not_or] at h
    rw [alterPairs, if_neg (Ne.symm h.1), ih h.2, List.cons_append]

/-- A new key comes last with its value. -/
theorem pairs_insert_of_new {t : Table α β} {a : α} (h : a ∉ t.keys) (b : β) :
    (t.insert a b).pairs = t.pairs ++ [(a, b)] :=
  alterPairs_of_new h _

end Table

end WeightedSearch
