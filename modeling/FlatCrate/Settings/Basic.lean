import FlatCrate.Flatten.Run
import FlatCrate.Settings.Fault

/-!
# Settings

Settings are made from a mapping of field names to values; a field that is not given keeps its
standard. Every field is checked in a fixed order: the two paths first, then the components, the
stubbing and the budget. The compiler and the manifest are taken as they are.
-/

namespace FlatCrate

/-- What to flatten and where to write it. -/
structure Settings where
  /-- Where the toolchain is; none means that the compiler is asked. -/
  sysroot : Option Path := none
  /-- The compiler that knows the toolchain. -/
  compiler : Value := .string "rustc"
  /-- Where the flat crates are written. -/
  outputDir : Path := .ofString "www"
  /-- The library crates to flatten, in order. -/
  components : List String := ["std", "alloc", "core"]
  /-- How many declarations of each crate root may be expanded. -/
  budget : Nat := Budget.standard
  /-- Whether function bodies are stubbed. -/
  stubbing : Bool := false
  /-- The file name of the manifest. -/
  manifest : Value := .string "crates.json"

namespace Settings

/-- The names of the fields. -/
def fieldNames : List String :=
  ["sysroot", "rustc", "output_dir", "components", "budget", "strip_bodies", "manifest"]

/-- The path that a value is. -/
def asPath : Value → Except SettingsFault Path
  | .string s => .ok (.ofString s)
  | value => .error (.notAPath value)

/-- The sysroot that a value gives; null gives none. -/
def asSysroot : Value → Except SettingsFault (Option Path)
  | .null => .ok none
  | value => (asPath value).map some

/-- The components that a value lists; a string is a single one. -/
def asItems : Value → Except SettingsFault (List Value)
  | .string s => .ok [.string s]
  | value => match value.elements? with
    | some items => .ok items
    | none => .error (.noElements value)

/-- The name that a value is. -/
def asName : Value → Except SettingsFault String
  | .string s => if s = "" then .error (.badComponent (.string s)) else .ok s
  | value => .error (.badComponent value)

/-- The names that some values are; there has to be one. -/
def asNames (items : List Value) : Except SettingsFault (List String) :=
  if items.isEmpty then .error .noComponents else items.mapM asName

/-- The truth value that a value is. -/
def asStubbing : Value → Except SettingsFault Bool
  | .bool b => .ok b
  | value => .error (.badStubbing value)

/-- The budget that a value is. -/
def asBudget : Value → Except SettingsFault Nat
  | .integer (.ofNat n) => .ok n
  | value => .error (.badBudget value)

/-- A field that is given anew, or else its old content. -/
def fieldOr {α : Type} (given : List (String × Value)) (name : String)
    (read : Value → Except SettingsFault α) (old : α) : Except SettingsFault α :=
  match given.lookup name with
  | none => .ok old
  | some value => read value

/-- Settings with the fields that are given; names that are no fields play no part. -/
def update (settings : Settings) (given : List (String × Value)) :
    Except SettingsFault Settings := do
  let sysroot ← fieldOr given "sysroot" asSysroot settings.sysroot
  let outputDir ← fieldOr given "output_dir" asPath settings.outputDir
  let items ← fieldOr given "components" asItems (settings.components.map .string)
  let components ← asNames items
  let stubbing ← fieldOr given "strip_bodies" asStubbing settings.stubbing
  let budget ← fieldOr given "budget" asBudget settings.budget
  let compiler ← fieldOr given "rustc" .ok settings.compiler
  let manifest ← fieldOr given "manifest" .ok settings.manifest
  return { sysroot, compiler, outputDir, components, budget, stubbing, manifest }

/-- The keys of a mapping that are no fields, or none if one of them is not a string. -/
def unknownKeys? (members : List (Value × Value)) : Option (List String) :=
  (members.map (·.1)).foldr
    (fun key found =>
      match key with
      | .string name => if name ∈ fieldNames then found else found.map (name :: ·)
      | _ => none)
    (some [])

/-- The fields that a mapping gives. -/
def givenFields (members : List (Value × Value)) : List (String × Value) :=
  members.filterMap fun (key, value) =>
    match key with
    | .string name => some (name, value)
    | _ => none

/-- The settings that a mapping gives. -/
def ofMapping (members : List (Value × Value)) : Except SettingsFault Settings :=
  match unknownKeys? members with
  | none => .error .unsortableKeys
  | some [] => ({} : Settings).update (givenFields members)
  | some names => .error (.unknownKeys (names.mergeSort fun a b => a ≤ b))

/-- Whether a value is given at all. -/
def isGiven : Value → Bool
  | .null => false
  | _ => true

/-- The name under which an override holds the settings that it changes; it is never a field. -/
def ownName : String := "self"

/-- Whether a change names no field. A null may stand under any name but that of the settings. -/
def isStray (change : String × Value) : Bool :=
  change.1 == ownName || (isGiven change.2 && change.1 ∉ fieldNames)

/-- The settings with some fields given anew; a null leaves its field as it is. -/
def override (settings : Settings) (changes : List (String × Value)) :
    Except SettingsFault Settings :=
  match changes.find? isStray with
  | some (name, _) => .error (.unknownField name)
  | none => settings.update (changes.filter fun change => isGiven change.2)

/-- Overriding with nothing but nulls gives what an empty override gives. -/
theorem override_of_nulls (settings : Settings) {changes : List (String × Value)}
    (h : ∀ change ∈ changes, isGiven change.2 = false ∧ change.1 ≠ ownName) :
    settings.override changes = settings.override [] := by
  have hempty : (changes.filter fun change => isGiven change.2) = [] := by
    simpa [List.filter_eq_nil_iff] using fun a b hmem => (h (a, b) hmem).1
  have hnone : changes.find? isStray = none := by
    simpa [List.find?_eq_none, isStray] using fun a b hmem => by simp [h (a, b) hmem]
  simp only [override, hempty, hnone, List.filter_nil, List.find?_nil]

end Settings

end FlatCrate
