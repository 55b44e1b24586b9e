import FlatCrate.Settings.Basic
import FlatCrate.Text.LowerCase
import FlatCrate.Toml.Read
import FlatCrate.Value.OfJson
import FlatCrate.Yaml.Read

/-!
# Settings files

A settings file holds one mapping, in the format that its suffix names. It is read before its suffix
is looked at. An empty document stands for an empty mapping.

A document may escape one half of a surrogate pair alone. No text here has such a character, so what
comes of that document is left open, and reading it counts as broken off.
-/

namespace FlatCrate

/-- Why a settings file is not accepted. -/
inductive LoadFault
  /-- The file cannot be opened. -/
  | unreadable (path : Path) (fault : Fault)
  /-- The bytes of the file are no text. -/
  | undecodable (path : Path)
  /-- The suffix names no format. -/
  | unsupported (suffix : String)
  /-- The text is not in the format. -/
  | unparsable (path : Path)
  /-- The document is not a mapping. -/
  | notMapping (path : Path)
  /-- The mapping gives no settings. -/
  | settings (fault : SettingsFault)
  /-- The document holds a value that cannot be made, or its file cannot be asked for. -/
  | broken (breakdown : Breakdown)

/-- The message of a fault; a breakdown has none. -/
def LoadFault.message : LoadFault → String
  | .unreadable path fault =>
    "cannot read config file " ++ path.toString ++ ": " ++ FileError.message ⟨fault, path, none⟩
  | .undecodable path => "cannot read config file " ++ path.toString
  | .unsupported suffix => "unsupported config format '" ++ suffix ++ "'"
  | .unparsable path => "cannot parse config file " ++ path.toString
  | .notMapping path => "config file " ++ path.toString ++ " must contain a mapping"
  | .settings fault => fault.message
  | .broken _ => ""

/-- The breakdown that a fault is, if it is one. -/
def LoadFault.breakdown? : LoadFault → Option Breakdown
  | .broken breakdown => some breakdown
  | .settings fault => fault.readingBreakdown?
  | _ => none

/-- The formats of settings files. -/
inductive Format
  | yaml
  | toml
  | json
  deriving DecidableEq, Repr

/-- The format that a suffix names. -/
def Format.ofSuffix? (suffix : String) : Option Format :=
  if suffix = ".yaml" ∨ suffix = ".yml" then some .yaml
  else if suffix = ".toml" then some .toml
  else if suffix = ".json" then some .json
  else none

/-- The value that a JSON text is. -/
def Format.readJson (text : String) : Except DocumentFault Value :=
  match Json.read text with
  | .ok document => .ok (.ofJson document)
  | .error .malformed => .error .malformed
  | .error .hugeInteger => .error (.broken .impossibleValue)
  | .error .unpaired => .error .unpaired

/-- The value that a text is in a format. -/
def Format.read (format : Format) (text : String) : Except DocumentFault Value :=
  match format with
  | .json => readJson text
  | .toml => Toml.read text
  | .yaml => Yaml.read text

namespace Settings

/-- The settings that a document gives. -/
def ofDocument (path : Path) (document : Value) : Except LoadFault Settings :=
  match document, document.members? with
  | .null, _ => (ofMapping []).mapError .settings
  | _, some members => (ofMapping members).mapError .settings
  | _, none => .error (.notMapping path)

/-- The text of a settings file. -/
def readText (tree : FileTree) (path : Path) : Except LoadFault String :=
  if path.holdsZero then .error (.broken .impossibleValue)
  else match tree.readBytes path with
    | .error fault => .error (.unreadable path fault)
    | .ok bytes => match Text.ofBytes? bytes with
      | none => .error (.undecodable path)
      | some text => .ok text

/-- The settings that a file gives. -/
def load (tree : FileTree) (path : Path) : Except LoadFault Settings := do
  let text ← readText tree path
  let suffix := Text.lower path.suffix
  match Format.ofSuffix? suffix with
  | none => .error (.unsupported suffix)
  | some format =>
    match format.read text with
    | .error .malformed => .error (.unparsable path)
    | .error (.broken breakdown) => .error (.broken breakdown)
    | .error .unpaired => .error (.broken .impossibleValue)
    | .ok document => ofDocument path document

end Settings

end FlatCrate
