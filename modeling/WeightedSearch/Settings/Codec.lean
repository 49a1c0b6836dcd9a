/-
How settings become documents.

Four steps lead from settings to a document and back: the fields are listed, the list is written as
a text, a text is read as a table, and the fields are looked for in the table.  None of them is for
this library to decide, so they are a parameter of what follows, and what is asked of them is said
step by step.  Main definitions:

* `Codec` — the four steps;
* `Codec.toml` — the steps that are taken where no others are given.
-/
import WeightedSearch.Settings.Decode

namespace WeightedSearch

/-- Why a text holds no settings. -/
inductive DocumentFailure
  /-- it is no document, or has a number that cannot be read -/
  | invalid
  | misfit (cause : Misfit)
deriving DecidableEq, Repr

/-- The steps between settings and documents. -/
structure Codec where
  /-- the fields of settings -/
  encode : Settings → Toml.Sections
  /-- the text of a document with these sections -/
  write : Toml.Sections → Except Toml.WriteFailure String
  /-- the entries of the document that a text is -/
  read : String → Except DocumentFailure Toml.Entries
  /-- the settings with the fields that a document has -/
  decode : Toml.Entries → Except DocumentFailure Settings

namespace Settings

/-- The failure to get settings from the entries of a document. A number that cannot be read or has
more than 64 bits makes the document an invalid one, whatever the obstacle was. -/
def failure (es : Toml.Entries) : Obstacle → DocumentFailure
  | .number => .invalid
  | .misfit cause => if entriesFit isInt64 es then .misfit cause else .invalid

end Settings

/-- Fields in the order of their declaration, one to a line, and documents in the sense of TOML. -/
def Codec.toml : Codec where
  encode := Settings.sections
  write := Toml.write
  read text := (Toml.parse? text).elim (.error .invalid) .ok
  decode es := (Settings.ofEntries es).mapError (Settings.failure es)

end WeightedSearch
