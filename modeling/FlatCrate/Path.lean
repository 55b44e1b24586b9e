import FlatCrate.Text.Lines

/-!
# Paths

A path is an anchor and a list of names. Repeated slashes, `.` and a slash at the end leave no
trace, `..` stays a name like any other. Exactly two slashes at the beginning are an anchor of their
own; any other positive number of them means the root.

A path can be written down with a zero character in it, but no file operation takes it: to ask for
such a path breaks off.
-/

namespace FlatCrate

/-- Where a path starts from. -/
inductive Anchor
  | relative
  | root
  | doubleRoot
  deriving DecidableEq, Repr, Inhabited

/-- An anchor as it is written. -/
def Anchor.text : Anchor → String
  | .relative => ""
  | .root => "/"
  | .doubleRoot => "//"

/-- The anchor that a number of leading slashes stands for. -/
def Anchor.ofSlashes : Nat → Anchor
  | 0 => .relative
  | 2 => .doubleRoot
  | _ => .root

/-- A path, from its anchor to its last name. -/
structure Path where
  anchor : Anchor := .relative
  names : List String := []
  deriving DecidableEq, Repr, Inhabited

namespace Path

/-- Whether a piece between slashes is a name: the empty piece and a single dot are not. -/
def isName (piece : String) : Bool := piece != "" && piece != "."

/-- The path that a text denotes. -/
def ofString (text : String) : Path where
  anchor := .ofSlashes (text.toList.takeWhile (· == '/')).length
  names := (Text.pieces '/' text).filter isName

/-- A path as it is written; the empty relative path is a dot. -/
def toString (path : Path) : String :=
  match path.anchor.text ++ String.intercalate "/" path.names with
  | "" => "."
  | text => text

instance : ToString Path := ⟨toString⟩

/-- Whether a zero character is in one of the names, so that no file operation takes the path. -/
def holdsZero (path : Path) : Bool := path.names.any fun name => name.toList.contains '\x00'

/-- Whether the path starts at the root. -/
def isAbsolute (path : Path) : Bool := path.anchor != .relative

/-- The second path as seen from the first; an absolute path stays what it is. -/
def join (base path : Path) : Path :=
  if path.isAbsolute then path else ⟨base.anchor, base.names ++ path.names⟩

/-- The path with more names behind it, given as a text. -/
def child (base : Path) (text : String) : Path := base.join (ofString text)

/-- The path without its last name. -/
def parent (path : Path) : Path := ⟨path.anchor, path.names.dropLast⟩

/-- The last name, empty if there is none. -/
def name (path : Path) : String := path.names.getLast?.getD ""

/-- Where the suffix of a name begins: at its last dot, unless that is its first or last character.
-/
def suffixStart? (name : List Char) : Option Nat :=
  match name.reverse.findIdx? (· == '.') with
  | none => none
  | some fromEnd =>
    if 0 < fromEnd && fromEnd + 1 < name.length then some (name.length - 1 - fromEnd) else none

/-- The last name without its suffix. -/
def stem (path : Path) : String :=
  match suffixStart? path.name.toList with
  | none => path.name
  | some start => String.ofList (path.name.toList.take start)

/-- The suffix of the last name with its dot, empty if there is none. -/
def suffix (path : Path) : String :=
  match suffixStart? path.name.toList with
  | none => ""
  | some start => String.ofList (path.name.toList.drop start)

/-- The path with another last name; there has to be one. -/
def withName? (path : Path) (name : String) : Option Path :=
  if path.names.isEmpty then none else some ⟨path.anchor, path.names.dropLast ++ [name]⟩

/-- What remains of an absolute list of names below another one, as a relative path. -/
def below? (base names : List String) : Option Path :=
  if base.isPrefixOf names then some ⟨.relative, names.drop base.length⟩ else none

/-- Joining a relative path puts its names behind those of the base. -/
theorem join_of_relative (base : Path) (names : List String) :
    base.join ⟨.relative, names⟩ = ⟨base.anchor, base.names ++ names⟩ := by
  simp [join, isAbsolute]

end Path

end FlatCrate
