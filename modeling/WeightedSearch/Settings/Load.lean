/-
Settings from files.

Settings are written as documents and read from them in the steps of a codec.  The settings of a
folder are in a file of a fixed name, and a folder without the file has the defaults.  Main
statements:

* `Settings.load_of_no_file`, `Settings.load_of_read` — what is loaded without the file and with it.
-/
import WeightedSearch.Settings.Codec
import WeightedSearch.Settings.Folder

namespace WeightedSearch

/-- Why settings cannot be had. -/
inductive SettingsFailure
  | unreadable (path : String) (cause : ReadFailure)
  | invalid (path : String)
  | misfit (path : String) (cause : Misfit)
deriving DecidableEq, Repr

namespace SettingsFailure

/-- The failure of a file with the path. -/
def ofDocument (path : String) : DocumentFailure → SettingsFailure
  | .invalid => .invalid path
  | .misfit cause => .misfit path cause

/-- The path of the file. -/
def path : SettingsFailure → String
  | unreadable path _ => path
  | invalid path => path
  | misfit path _ => path

/-- The text of the failure before that of its cause. -/
def lead : SettingsFailure → String
  | unreadable path _ => "failed to read config file " ++ path ++ ": "
  | invalid path => "failed to parse config file " ++ path ++ ": "
  | misfit path _ => "failed to parse config file " ++ path ++ ": "

end SettingsFailure

namespace Settings

/-- The name of the file with the settings of a folder. -/
def fileName : String := ".sift.toml"

/-- The settings as a document. The document is empty if they cannot be written. -/
def render (s : Settings) (codec : Codec := .toml) : String :=
  (codec.write (codec.encode s)).toOption.getD ""

/-- The settings that a text holds. The path is for messages. -/
def parse (text path : String) (codec : Codec := .toml) : Except SettingsFailure Settings :=
  (codec.read text >>= codec.decode).mapError (.ofDocument path)

/-- The settings in a file below a folder, which messages call `base`. -/
def parseFile (folder : Folder) (base path : String) (codec : Codec := .toml) :
    Except SettingsFailure Settings :=
  let whole := if Folder.isAbsolute path then path else base ++ "/" ++ path
  match folder.read path with
  | .error e => .error (.unreadable whole e)
  | .ok text => parse text whole codec

/-- The settings of a folder. -/
def load (folder : Folder) (base : String) (codec : Codec := .toml) :
    Except SettingsFailure Settings :=
  if folder.hasFile fileName then parseFile folder base fileName codec else .ok {}

/-- Without the file the defaults are loaded, and nothing can fail. -/
theorem load_of_no_file {folder : Folder} (h : folder.hasFile fileName = false) (base : String)
    (codec : Codec) : load folder base codec = .ok {} := by
  simp [load, h]

/-- With the file its text is parsed. -/
theorem load_of_read {folder : Folder} {text : String} (h : folder.read fileName = .ok text)
    (base : String) (codec : Codec) :
    load folder base codec = parse text (base ++ "/" ++ fileName) codec := by
  have hrelative : Folder.isAbsolute fileName = false := by decide
  rw [load, if_pos (Folder.hasFile_of_read h), parseFile, h, hrelative]
  rfl

end Settings

end WeightedSearch
