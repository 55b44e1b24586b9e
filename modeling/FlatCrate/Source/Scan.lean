import FlatCrate.Source.Declaration
import FlatCrate.Text.Lines

/-!
# Scanning a source file line by line

The scanner looks at one line at a time and remembers only whether an attribute is open and which
path override is pending. It knows neither block comments nor literals: two slashes start a
comment wherever they stand. A line without a comment keeps its indentation, so an indented
declaration without a comment is not found.
-/

namespace FlatCrate.Source

/-- What the scanner remembers between two lines. -/
inductive ScanState
  /-- Nothing is pending. -/
  | idle
  /-- An attribute has given the path of the next declaration. -/
  | pending (path : String)
  /-- An attribute over several lines is open; `path` is the override seen before or in it. -/
  | inAttribute (path : Option String)
  deriving DecidableEq, Repr

/-- The override that the next declaration takes. -/
def ScanState.override : ScanState → Option String
  | .idle => none
  | .pending path => some path
  | .inAttribute path => path

/-- The state after an attribute has ended. -/
def ScanState.ofOverride : Option String → ScanState
  | none => .idle
  | some path => .pending path

/-- What stands in front of the first two slashes, if there are any. -/
def beforeComment? : List Char → Option (List Char)
  | '/' :: '/' :: _ => some []
  | [] => none
  | c :: rest => (beforeComment? rest).map (c :: ·)

/-- The code of a line: the line itself, or the trimmed text in front of its comment. -/
def stripComment (line : List Char) : List Char :=
  match beforeComment? line with
  | none => line
  | some code => Text.trim code

/-- The path of a path attribute at the beginning of the code. -/
def pathAttribute? (code : List Char) : Option String :=
  match after? "#[path = \"".toList code with
  | none => none
  | some rest =>
    let path := rest.takeWhile (· != '"')
    if "\"]".toList.isPrefixOf (rest.drop path.length) then some (String.ofList path) else none

/-- The state after one line and the declaration found on it. -/
def scanLine (state : ScanState) (line : List Char) :
    Except UnsupportedVisibility (ScanState × Option ModuleDecl) :=
  let code := stripComment line
  if Text.allBlank code then .ok (state, none)
  else match pathAttribute? code with
    | some path =>
      match state with
      | .inAttribute _ => .ok (.inAttribute (some path), none)
      | _ => .ok (.pending path, none)
    | none =>
      if "#[".toList.isPrefixOf code then
        if code.getLast? = some ']' then .ok (state, none)
        else .ok (.inAttribute state.override, none)
      else match state with
        | .inAttribute path =>
          if code.getLast? = some ']' then .ok (ScanState.ofOverride path, none)
          else .ok (state, none)
        | _ => (ModuleDecl.parse code state.override).map fun decl => (.idle, decl)

end FlatCrate.Source
