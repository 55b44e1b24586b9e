import FlatCrate.Value.Fault
import FlatCrate.Value.Literal

/-!
# Faults of settings

A fault of settings names its cause; the wording of all of them is here. Some causes are slips of
the caller and not of the settings, such as an unknown field in an override: these break the program
off instead of being reported. So does a fault with a value that cannot be shown.
-/

namespace FlatCrate

/-- Why settings are not accepted. -/
inductive SettingsFault
  /-- Keys that are no fields, in ascending order. -/
  | unknownKeys (names : List String)
  /-- Keys that are no fields and cannot be put in order. -/
  | unsortableKeys
  /-- A field that an override names and settings do not have. -/
  | unknownField (name : String)
  /-- A value that is no path. -/
  | notAPath (value : Value)
  /-- A value that has no elements. -/
  | noElements (value : Value)
  /-- No component at all. -/
  | noComponents
  /-- A component that has no name. -/
  | badComponent (value : Value)
  /-- A value that does not say whether bodies are stubbed. -/
  | badStubbing (value : Value)
  /-- A value that is no budget. -/
  | badBudget (value : Value)

namespace SettingsFault

/-- The words for a value that is no path. -/
def notAPathText : Value → String
  | .bytes _ =>
    "argument should be a str object or an os.PathLike object returning str, not <class 'bytes'>"
  | value => "expected str, bytes or os.PathLike object, not " ++ value.kind

/-- The beginning of the message about a value, and the value. -/
def shownValue? : SettingsFault → Option (String × Value)
  | badComponent value => some ("component names must be non-empty strings, got ", value)
  | badStubbing value => some ("strip_bodies must be true or false, got ", value)
  | badBudget value => some ("budget must be a non-negative integer, got ", value)
  | _ => none

/-- The message of a fault. -/
def message : SettingsFault → String
  | unknownKeys names => "unknown config keys: " ++ String.intercalate ", " names
  | unsortableKeys => "keys of different kinds"
  | unknownField name => "unexpected field " ++ name
  | notAPath value => "invalid config value: " ++ notAPathText value
  | noElements value =>
    "invalid config value: '" ++ value.qualifiedKind ++ "' object is not iterable"
  | noComponents => "at least one component is required"
  | fault =>
    (fault.shownValue?.map fun (beginning, value) => beginning ++ value.literal?.getD "").getD ""

/-- What breaks the program off in the place of a fault of new settings. -/
def readingBreakdown? : SettingsFault → Option Breakdown
  | unsortableKeys | unknownField _ => some .wrongKind
  | fault =>
    if fault.shownValue?.any fun shown => shown.2.literal?.isNone then some .impossibleValue
    else none

/-- What breaks the program off in the place of a fault of an override. -/
def overrideBreakdown? : SettingsFault → Option Breakdown
  | notAPath _ | noElements _ => some .wrongKind
  | fault => fault.readingBreakdown?

end SettingsFault

end FlatCrate
