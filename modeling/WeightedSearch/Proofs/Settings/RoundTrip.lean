/-
Settings written out and read.

What is asked of the steps of a codec is that fields are listed and found by their names, and that
documents are written and read in the sense of TOML.  Nothing is said of the order of the fields, of
blanks and empty lines or of the kind of quotes.  A writer has to write numbers by their digits, and
a reader to read the digits of a number.  Main statements:

* `Codec.toml_encodesFields`, `Codec.toml_writesStandard`, `Codec.toml_readsStandard`,
  `Codec.toml_decodesFields` — the steps that are taken where no others are given do what is asked;
* `Settings.parse_of_sectionLines` — a standard document with the fields of settings is read as
  these;
* `Settings.parse_render_of_error` — settings that cannot be written would be read as the defaults;
* `Settings.load_render` — a folder with settings in its file has these;
* `Settings.parse_render_injective` — settings are always written, and read as they were.
-/
import WeightedSearch.Proofs.Settings.Decoding
import WeightedSearch.Proofs.Toml.Lines
import WeightedSearch.Settings.Load

namespace WeightedSearch

open Toml

/-! ### What is asked of the steps -/

namespace Codec

variable (codec : Codec)

/-- The fields of settings are listed by their names, each of them once. -/
def EncodesFields : Prop :=
  ∀ s : Settings, (codec.encode s).Rearranges s.sections

/-- Simple values below bare keys are written as a standard document, with numbers in digits. -/
def WritesStandard : Prop :=
  ∀ ss : Sections, ss.Distinct → ss.Simple → ∃ (text : String) (ss' : Sections),
    codec.write ss = .ok text ∧ SectionLines InDigits text.toList ss' ∧ ss'.Rearranges ss

/-- A standard document of simple values below bare keys is read as its entries. -/
def ReadsStandard : Prop :=
  ∀ (text : String) (ss : Sections), ss.Distinct → ss.Simple →
    SectionLines IsDecimal text.toList ss →
    ∃ ss' : Sections, codec.read text = .ok ss'.entries ∧ ss'.Rearranges ss

/-- The fields of settings are found by their names, and those that are missing have their
defaults. -/
def DecodesFields : Prop :=
  ∀ (ss : Sections) (s : Settings), ss.Distinct → ss.Simple → s.FoundIn ss →
    codec.decode ss.entries = .ok s

end Codec

namespace Settings

theorem distinct_sections (s : Settings) : s.sections.Distinct where
  names := show ["translator", "search"].Nodup by decide
  fields := by simp [sections]

theorem simple_sections (s : Settings) : s.sections.Simple where
  names := show ∀ name ∈ ["translator", "search"], IsBareKey name.toList by decide
  keys name key v h := by
    rcases holds_sections_iff.1 h with ⟨-, ⟨rfl, -⟩ | ⟨rfl, -⟩⟩ | ⟨-, rfl, -⟩ <;> decide
  values name key v h := by
    rcases holds_sections_iff.1 h with ⟨-, ⟨-, rfl⟩ | ⟨-, rfl⟩⟩ | ⟨-, -, rfl⟩
    · show NeedsNoEscapes s.combiner.name.toList ∧ '\t' ∉ s.combiner.name.toList
      cases s.combiner <;> decide
    · exact trivial
    · exact s.limit.toNat_lt_size

end Settings

namespace Codec

theorem toml_encodesFields : toml.EncodesFields :=
  fun s => s.distinct_sections.rearranges

theorem toml_writesStandard : toml.WritesStandard := by
  intro ss hdistinct hsimple
  obtain ⟨text, htext, hlines⟩ := sectionLines_write hsimple
  exact ⟨text, ss, htext, hlines, hdistinct.rearranges⟩

theorem toml_readsStandard : toml.ReadsStandard := by
  intro text ss hdistinct _ hlines
  refine ⟨ss.sorted, ?_, hdistinct.sorted_rearranges⟩
  show (parse? text).elim (Except.error DocumentFailure.invalid) Except.ok = _
  rw [parse?_of_sectionLines hdistinct hlines]
  rfl

theorem toml_decodesFields : toml.DecodesFields := by
  intro ss s hdistinct hsimple hs
  show (Settings.ofEntries ss.entries).mapError (Settings.failure ss.entries) = .ok s
  rw [Settings.ofEntries_of_foundIn hdistinct hsimple hs]
  rfl

end Codec

/-! ### There and back -/

namespace Settings

theorem FoundIn.of_rearranges {s : Settings} {ss : Sections} (h : ss.Rearranges s.sections) :
    s.FoundIn ss :=
  fun name key v hv => .inl ((h.fields name key v).2 hv)

theorem FoundIn.rearranged {s : Settings} {ss ss' : Sections} (hs : s.FoundIn ss)
    (h : ss'.Rearranges ss) : s.FoundIn ss' := by
  intro name key v hv
  rcases hs name key v hv with hv | ⟨hnone, hdefault⟩
  · exact .inl ((h.fields name key v).2 hv)
  · exact .inr ⟨fun w hw => hnone w ((h.fields name key w).1 hw), hdefault⟩

variable {codec : Codec}

section Reading

variable (hread : codec.ReadsStandard) (hdecode : codec.DecodesFields)

include hread hdecode

/-- A standard document with the fields of settings is read as these settings. -/
theorem parse_of_sectionLines {s : Settings} {text : String} {ss : Sections}
    (hdistinct : ss.Distinct) (hsimple : ss.Simple) (hlines : SectionLines IsDecimal text.toList ss)
    (hs : s.FoundIn ss) (path : String) : parse text path codec = .ok s := by
  obtain ⟨ss', htable, hsame⟩ := hread text ss hdistinct hsimple hlines
  have hfields := hdecode ss' s hsame.distinct (hsame.simple hsimple) (hs.rearranged hsame)
  rw [parse, htable]
  exact congrArg (Except.mapError (SettingsFailure.ofDocument path)) hfields

/-- If settings could not be written, the document would be empty and read as the defaults. -/
theorem parse_render_of_error {s : Settings} {e : WriteFailure}
    (h : codec.write (codec.encode s) = .error e) (path : String) :
    parse (s.render codec) path codec = .ok {} := by
  have hempty : s.render codec = "" := by
    rw [render, h]
    rfl
  have hnone : ∀ name key v, ¬Sections.Holds [] name key v := by
    rintro name key v ⟨fs, hfs, -⟩
    exact absurd hfs List.not_mem_nil
  have hdistinct : Sections.Distinct [] := ⟨List.nodup_nil, List.forall_mem_nil _⟩
  have hsimple : Sections.Simple [] :=
    ⟨List.forall_mem_nil _, fun _ _ _ hv => absurd hv (hnone _ _ _),
      fun _ _ _ hv => absurd hv (hnone _ _ _)⟩
  have hlines : SectionLines IsDecimal "".toList [] := .nil trivia_nil
  rw [hempty]
  exact parse_of_sectionLines hread hdecode hdistinct hsimple hlines
    (fun name key v hv => .inr ⟨hnone name key, hv⟩) path

end Reading

/-- Settings are always written, as a standard document with their fields. -/
theorem exists_render (hencode : codec.EncodesFields) (hwrite : codec.WritesStandard)
    (s : Settings) :
    ∃ text ss, codec.write (codec.encode s) = .ok text ∧ s.render codec = text ∧
      SectionLines InDigits text.toList ss ∧ ss.Rearranges s.sections := by
  have hfields := hencode s
  obtain ⟨text, ss, htext, hlines, hsame⟩ :=
    hwrite (codec.encode s) hfields.distinct (hfields.simple s.simple_sections)
  have hrender : s.render codec = text := by
    rw [render, htext]
    rfl
  exact ⟨text, ss, htext, hrender, hlines, hsame.trans hfields⟩

section RoundTrip

variable (hencode : codec.EncodesFields) (hwrite : codec.WritesStandard)
  (hread : codec.ReadsStandard) (hdecode : codec.DecodesFields)

include hencode hwrite hread hdecode

theorem parse_render (s : Settings) (path : String) :
    parse (s.render codec) path codec = .ok s := by
  obtain ⟨text, ss, -, hrender, hlines, hsame⟩ := exists_render hencode hwrite s
  -- what the writer does with a number is within what the reader takes for it
  have hdecimal : SectionLines IsDecimal text.toList ss :=
    hlines.mono fun _ n hw => hw ▸ isDecimal_numeral n
  rw [hrender]
  exact parse_of_sectionLines hread hdecode hsame.distinct (hsame.simple s.simple_sections)
    hdecimal (.of_rearranges hsame) path

/-- A folder with the file that settings were written to has these settings. -/
theorem load_render {folder : Folder} {s : Settings}
    (h : folder.read fileName = .ok (s.render codec)) (base : String) :
    load folder base codec = .ok s := by
  rw [load_of_read h]
  exact parse_render hencode hwrite hread hdecode s _

end RoundTrip

/-- Settings are read as they were written, whatever the path, and different settings are written
differently. Writing never fails, so no empty document stands for settings. -/
theorem parse_render_injective (hencode : codec.EncodesFields) (hwrite : codec.WritesStandard)
    (hread : codec.ReadsStandard) (hdecode : codec.DecodesFields) :
    (∀ (s : Settings) (path : String), parse (s.render codec) path codec = .ok s) ∧
    Function.Injective (fun s : Settings => s.render codec) ∧
    ∀ s : Settings, ∃ text, codec.write (codec.encode s) = .ok text ∧ s.render codec = text := by
  have hparse := parse_render hencode hwrite hread hdecode
  refine ⟨hparse, fun s s' h => ?_, fun s => ?_⟩
  · have hsame := hparse s ""
    rw [show s.render codec = s'.render codec from h, hparse] at hsame
    exact (Except.ok.inj hsame).symm
  · obtain ⟨text, -, hwritten, hrender, -⟩ := exists_render hencode hwrite s
    exact ⟨text, hwritten, hrender⟩

/-- The greatest limit of all, with the document that holds it. -/
theorem parse_render_injective_wide :
    let s : Settings := ⟨.max, false, 18446744073709551615⟩
    (Codec.toml.EncodesFields ∧ Codec.toml.WritesStandard ∧ Codec.toml.ReadsStandard ∧
      Codec.toml.DecodesFields) ∧
    s.render = "[translator]\ncombiner = \"max\"\ncache = false\n\n" ++
      "[search]\nlimit = 18446744073709551615\n" ∧
    parse s.render "a/b.toml" = .ok s := by
  refine ⟨⟨Codec.toml_encodesFields, Codec.toml_writesStandard, Codec.toml_readsStandard,
    Codec.toml_decodesFields⟩, by decide +kernel, ?_⟩
  exact (parse_render_injective Codec.toml_encodesFields Codec.toml_writesStandard
    Codec.toml_readsStandard Codec.toml_decodesFields).1 _ "a/b.toml"

end Settings

end WeightedSearch
