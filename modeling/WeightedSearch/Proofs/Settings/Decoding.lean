/-
Settings found again.

The settings are looked for entry by entry, so what has to be known is what a single entry does: it
brings one field of the settings nearer to those that the document was made from, and moves no field
away from them.  Whatever else the document holds is passed over.  Main statements:

* `toward_foldlM` — many steps go where each of them goes;
* `toward_setEntry` — an entry of the document brings all its fields;
* `ofEntries_of_foundIn` — a document with the fields of settings holds these settings.
-/
import WeightedSearch.Proofs.Toml.Standard
import WeightedSearch.Settings.Decode

namespace WeightedSearch

-- powers are the core library's, whatever other instances are in scope
attribute [local instance (2000)] instPowNat

open Toml

namespace Toml

/-- A field has one value. -/
theorem Sections.Distinct.holds_inj {ss : Sections} (h : ss.Distinct) {name key : String}
    {v w : Scalar} (hv : ss.Holds name key v) (hw : ss.Holds name key w) : v = w := by
  obtain ⟨fs, hfs, hv⟩ := hv
  obtain ⟨gs, hgs, hw⟩ := hw
  obtain rfl : fs = gs := by
    have h₁ := (lookup_eq_some_iff_mem h.names).2 hfs
    have h₂ := (lookup_eq_some_iff_mem h.names).2 hgs
    exact Option.some_inj.1 (h₁.symm.trans h₂)
  have h₁ := (lookup_eq_some_iff_mem (h.fields _ hfs)).2 hv
  have h₂ := (lookup_eq_some_iff_mem (h.fields _ hfs)).2 hw
  exact Option.some_inj.1 (h₁.symm.trans h₂)

end Toml

namespace Settings

/-- The fields of settings, one by one. -/
theorem holds_sections_iff {s : Settings} {name key : String} {v : Scalar} :
    s.sections.Holds name key v ↔
      name = "translator" ∧ (key = "combiner" ∧ v = .string s.combiner.name ∨
        key = "cache" ∧ v = .boolean s.cache) ∨
      name = "search" ∧ key = "limit" ∧ v = .integer s.limit.toNat := by
  simp only [Sections.Holds, sections, List.mem_cons, List.not_mem_nil, or_false, Prod.mk.injEq]
  constructor
  · rintro ⟨_, ⟨rfl, rfl⟩ | ⟨rfl, rfl⟩, hv⟩
    · exact .inl ⟨rfl, by simpa using hv⟩
    · exact .inr ⟨rfl, by simpa using hv⟩
  · rintro (⟨rfl, hv⟩ | ⟨rfl, hv⟩)
    · exact ⟨_, .inl ⟨rfl, rfl⟩, by simpa using hv⟩
    · exact ⟨_, .inr ⟨rfl, rfl⟩, by simpa using hv⟩

theorem holds_combiner (s : Settings) :
    s.sections.Holds "translator" "combiner" (.string s.combiner.name) :=
  holds_sections_iff.2 (.inl ⟨rfl, .inl ⟨rfl, rfl⟩⟩)

theorem holds_cache (s : Settings) : s.sections.Holds "translator" "cache" (.boolean s.cache) :=
  holds_sections_iff.2 (.inl ⟨rfl, .inr ⟨rfl, rfl⟩⟩)

theorem holds_limit (s : Settings) : s.sections.Holds "search" "limit" (.integer s.limit.toNat) :=
  holds_sections_iff.2 (.inr ⟨rfl, rfl, rfl⟩)

theorem name_injective : Function.Injective WeightRule.name := by
  intro k k' h
  have heq := congrArg WeightRule.ofName? h
  rw [WeightRule.ofName?_name, WeightRule.ofName?_name] at heq
  exact Option.some_inj.1 heq

/-- Settings with the fields of others are these. -/
theorem eq_of_holds {s t : Settings}
    (h : ∀ name key v, s.sections.Holds name key v → t.sections.Holds name key v) : t = s := by
  have hcombiner : s.combiner = t.combiner := by
    have hname := holds_sections_iff.1 (h _ _ _ s.holds_combiner)
    simp only [Scalar.string.injEq, String.reduceEq, reduceCtorEq, and_false, true_and,
      or_false] at hname
    exact name_injective hname
  have hcache : s.cache = t.cache := by
    simpa using holds_sections_iff.1 (h _ _ _ s.holds_cache)
  have hlimit : s.limit = t.limit := by
    have hcount : s.limit.toNat = t.limit.toNat := by
      simpa using holds_sections_iff.1 (h _ _ _ s.holds_limit)
    exact UInt64.toNat_inj.1 hcount
  cases s
  cases t
  simp_all

/-- The result is settings with the fields of `s` that `t` has and those that the step brings. -/
def Toward (s t : Settings) (brings : String → String → Prop) (r : Except Obstacle Settings) :
    Prop :=
  ∃ t', r = .ok t' ∧ ∀ name key v, s.sections.Holds name key v →
    t.sections.Holds name key v ∨ brings name key → t'.sections.Holds name key v

variable {s : Settings}

/-- Steps that all go towards the same settings go there together, and bring what each of them
brings. -/
theorem toward_foldlM {α : Type} {l : List α} {f : Settings → α → Except Obstacle Settings}
    {brings : α → String → String → Prop} (h : ∀ e ∈ l, ∀ t, Toward s t (brings e) (f t e))
    (t : Settings) :
    Toward s t (fun name key => ∃ e ∈ l, brings e name key) (l.foldlM f t) := by
  -- the first step keeps the fields that are there, so the rest starts with these and its own
  induction l generalizing t with
  | nil =>
    refine ⟨t, rfl, fun name key v _ hv => hv.resolve_right ?_⟩
    rintro ⟨e, he, -⟩
    exact absurd he List.not_mem_nil
  | cons e l ih =>
    obtain ⟨he, hl⟩ := List.forall_mem_cons.1 h
    obtain ⟨t₁, h₁, hfirst⟩ := he t
    obtain ⟨t₂, h₂, hrest⟩ := ih hl t₁
    refine ⟨t₂, ?_, fun name key v hs hv => hrest name key v hs ?_⟩
    · rw [List.foldlM_cons, h₁]
      exact h₂
    · rcases hv with hv | ⟨e', he', hv⟩
      · exact .inl (hfirst name key v hs (.inl hv))
      · rcases List.mem_cons.1 he' with rfl | he'
        · exact .inl (hfirst name key v hs (.inr hv))
        · exact .inr ⟨e', he', hv⟩

/-! ### What is passed over -/

theorem numbersFit_scalar {v : Scalar} (h : v.IsSimple) : numbersFit isWide v.toValue = true := by
  cases v with
  | string text => rfl
  | boolean b => rfl
  | integer n =>
    have hn : n < 18446744073709551616 := h
    simp only [Scalar.toValue, numbersFit, isWide, Bool.and_eq_true, decide_eq_true_eq]
    omega

theorem entriesFit_fields {fs : Fields} (h : ∀ f ∈ fs, f.2.IsSimple) :
    entriesFit isWide (Fields.entries fs) = true := by
  induction fs with
  | nil => rfl
  | cons f fs ih =>
    obtain ⟨hf, hfs⟩ := List.forall_mem_cons.1 h
    have hcons : entriesFit isWide (Fields.entries (f :: fs))
        = (numbersFit isWide f.2.toValue && entriesFit isWide (Fields.entries fs)) := by
      rw [Fields.entries, List.map_cons, entriesFit]
      rfl
    rw [hcons, numbersFit_scalar hf, ih hfs]
    rfl

theorem passOver_scalar {v : Scalar} (h : v.IsSimple) : passOver v.toValue = .ok () :=
  passOver_eq_ok_iff.2 (numbersFit_scalar h)

theorem passOver_table {fs : Fields} (h : ∀ f ∈ fs, f.2.IsSimple) :
    passOver (.table .header (Fields.entries fs)) = .ok () := by
  rw [passOver_eq_ok_iff, numbersFit]
  exact entriesFit_fields h

/-! ### What is looked for -/

theorem decodeCombiner_name (k : WeightRule) : decodeCombiner (.string k.name) = .ok k := by
  rw [decodeCombiner, combinerNamed, WeightRule.ofName?_name]
  rfl

theorem decodeCount_toNat (n : UInt64) : decodeCount (.integer n.toNat) = .ok n := by
  have hn : n.toNat < 18446744073709551616 := n.toNat_lt
  have hrange : (0 : Int) ≤ n.toNat ∧ (n.toNat : Int) < 2 ^ (64 : Nat) := by omega
  rw [decodeCount, if_pos hrange, Int.toNat_natCast, UInt64.ofNat_toNat]

theorem toward_passOver {v : Value} (h : passOver v = .ok ()) {brings : String → String → Prop}
    (hbrings : ∀ name key v, brings name key → ¬s.sections.Holds name key v) (t : Settings) :
    Toward s t brings (do passOver v; pure t) := by
  refine ⟨t, by rw [h]; rfl, fun name key v hs hv => hv.resolve_right fun hbring => ?_⟩
  exact hbrings name key v hbring hs

/-- Whether setting a field of the section brings it. -/
def Brings (name : String) (set : Settings → String → Value → Except Obstacle Settings) : Prop :=
  ∀ (s t : Settings) (key : String) (v : Scalar), v.IsSimple →
    (∀ w, s.sections.Holds name key w → v = w) →
    Toward s t (fun name' key' => name' = name ∧ key' = key) (set t key v.toValue)

theorem brings_setEvaluation : Brings "translator" setEvaluation := by
  intro s t key v hv hagree
  rw [setEvaluation]
  split_ifs with hcombiner hcache
  · subst hcombiner
    obtain rfl := hagree _ s.holds_combiner
    rw [Scalar.toValue, decodeCombiner_name]
    refine ⟨{ t with combiner := s.combiner }, rfl, fun name key w hs ht => ?_⟩
    simp only [holds_sections_iff] at hs ht ⊢
    grind
  · subst hcache
    obtain rfl := hagree _ s.holds_cache
    refine ⟨{ t with cache := s.cache }, rfl, fun name key w hs ht => ?_⟩
    simp only [holds_sections_iff] at hs ht ⊢
    grind
  · -- a field of another name is passed over, and the settings have none of that name
    refine toward_passOver (passOver_scalar hv) ?_ t
    rintro name key w ⟨rfl, rfl⟩ hs
    rcases holds_sections_iff.1 hs with ⟨-, ⟨rfl, -⟩ | ⟨rfl, -⟩⟩ | ⟨hname, -⟩
    · exact hcombiner rfl
    · exact hcache rfl
    · exact absurd hname (by decide)

theorem brings_setSearch : Brings "search" setSearch := by
  intro s t key v hv hagree
  rw [setSearch]
  split_ifs with hlimit
  · subst hlimit
    obtain rfl := hagree _ s.holds_limit
    rw [Scalar.toValue, decodeCount_toNat]
    refine ⟨{ t with limit := s.limit }, rfl, fun name key w hs ht => ?_⟩
    simp only [holds_sections_iff] at hs ht ⊢
    grind
  · refine toward_passOver (passOver_scalar hv) ?_ t
    rintro name key w ⟨rfl, rfl⟩ hs
    rcases holds_sections_iff.1 hs with ⟨hname, -⟩ | ⟨-, rfl, -⟩
    · exact absurd hname (by decide)
    · exact hlimit rfl

/-- The table of a section brings all its fields. -/
theorem Brings.toward_setSection {name : String}
    {set : Settings → String → Value → Except Obstacle Settings} (h : Brings name set)
    {fs : Fields} (hfs : ∀ f ∈ fs, f.2.IsSimple)
    (hagree : ∀ f ∈ fs, ∀ w, s.sections.Holds name f.1 w → f.2 = w) (fields : List String)
    (expected : Expected) (t : Settings) :
    Toward s t (fun name' key => ∃ f ∈ fs, name' = name ∧ key = f.1)
      (setSection set fields expected t (.table .header (Fields.entries fs))) := by
  have hfold := toward_foldlM (l := fs) (f := fun t f => set t f.1 f.2.toValue)
    (fun f hf t => h s t f.1 f.2 (hfs f hf) (hagree f hf)) t
  rwa [setSection, Fields.entries, List.foldlM_map]

/-- An entry of the document brings the fields of its section, and an unknown one brings nothing. -/
theorem toward_setEntry {name : String} {fs : Fields} (hfs : ∀ f ∈ fs, f.2.IsSimple)
    (hagree : ∀ f ∈ fs, ∀ w, s.sections.Holds name f.1 w → f.2 = w) (t : Settings) :
    Toward s t (fun name' key => ∃ f ∈ fs, name' = name ∧ key = f.1)
      (setEntry t name (.table .header (Fields.entries fs))) := by
  rw [setEntry]
  split_ifs with htranslator hsearch
  · subst htranslator
    exact brings_setEvaluation.toward_setSection hfs hagree _ _ t
  · subst hsearch
    exact brings_setSearch.toward_setSection hfs hagree _ _ t
  · refine toward_passOver (passOver_table hfs) ?_ t
    rintro name key w ⟨f, -, rfl, rfl⟩ hs
    rcases holds_sections_iff.1 hs with ⟨rfl, -⟩ | ⟨rfl, -⟩
    · exact htranslator rfl
    · exact hsearch rfl

/-- Whether a document with these sections has the fields of the settings. A field with its default
may be left out. -/
def FoundIn (s : Settings) (ss : Sections) : Prop :=
  ∀ name key v, s.sections.Holds name key v → ss.Holds name key v ∨
    (∀ w, ¬ss.Holds name key w) ∧ ({} : Settings).sections.Holds name key v

/-- A document with the fields of settings holds these settings. -/
theorem ofEntries_of_foundIn {ss : Sections} (hdistinct : ss.Distinct) (hsimple : ss.Simple)
    (h : s.FoundIn ss) : ofEntries ss.entries = .ok s := by
  have hentry : ∀ e ∈ ss, ∀ t, Toward s t (fun name key => ∃ f ∈ e.2, name = e.1 ∧ key = f.1)
      (setEntry t e.1 (.table .header (Fields.entries e.2))) := by
    intro e he t
    refine toward_setEntry (fun f hf => hsimple.values e.1 f.1 f.2 ⟨e.2, he, hf⟩) ?_ t
    intro f hf w hw
    have hf : ss.Holds e.1 f.1 f.2 := ⟨e.2, he, hf⟩
    rcases h _ _ _ hw with hw | ⟨hnone, -⟩
    · exact hdistinct.holds_inj hf hw
    · exact absurd hf (hnone _)
  obtain ⟨t, ht, hfields⟩ := toward_foldlM hentry {}
  rw [ofEntries, Sections.entries, List.foldlM_map]
  -- a field that is not in the document has its default, with which the search started
  refine ht.trans (congrArg _ (eq_of_holds fun name key v hv => hfields name key v hv ?_))
  rcases h name key v hv with ⟨fs, hfs, hv⟩ | ⟨-, hdefault⟩
  · exact .inr ⟨_, hfs, _, hv, rfl, rfl⟩
  · exact .inl hdefault

end Settings

end WeightedSearch
