import FlatCrate.Text.Blank

/-!
# Module declarations

An out-of-line module is declared by `mod name;`, with one of five visibilities in front. The text
read here has lost its line comment already. A visibility restricted to a path, as in
`pub(in path) mod name;`, is refused with an error instead of being skipped.
-/

namespace FlatCrate.Source

/-- The visibilities that a declared module may have. -/
inductive Visibility
  | inherited
  | everywhere
  | inCrate
  | inSelf
  | inParent
  deriving DecidableEq, Repr

/-- The five visibilities. -/
def Visibility.all : List Visibility := [.inherited, .everywhere, .inCrate, .inSelf, .inParent]

/-- A visibility as it is written in front of the keyword, with the space that ends it. -/
def Visibility.text : Visibility → String
  | .inherited => ""
  | .everywhere => "pub "
  | .inCrate => "pub(crate) "
  | .inSelf => "pub(self) "
  | .inParent => "pub(super) "

/-- Everything in front of the name of a declared module. -/
def Visibility.opening (v : Visibility) : List Char := v.text.toList ++ "mod ".toList

/-- An out-of-line module declaration; `override` is the path that an attribute gives its file. -/
structure ModuleDecl where
  visibility : Visibility
  name : String
  override : Option String := none
  deriving DecidableEq, Repr

/-- The line that opens the block which takes the place of the declaration. -/
def ModuleDecl.header (decl : ModuleDecl) : String :=
  decl.visibility.text ++ "mod " ++ decl.name ++ " \x7b"

/-- A declaration whose visibility is restricted to a path; `line` is its code. -/
structure UnsupportedVisibility where
  line : String
  deriving DecidableEq, Repr

/-- The text of the error for a visibility restricted to a path. -/
def UnsupportedVisibility.message (e : UnsupportedVisibility) : String :=
  "pub(in ...) visibility is not supported: " ++ e.line

/-- What is left of a text after a given beginning. -/
def after? (start cs : List Char) : Option (List Char) :=
  if start.isPrefixOf cs then some (cs.drop start.length) else none

/-- The characters that may begin an identifier. -/
def isIdentifierStart (c : Char) : Bool := c.isAlpha || c == '_'

/-- The characters that may continue an identifier. -/
def isIdentifierRest (c : Char) : Bool := isIdentifierStart c || c.isDigit

/-- An ASCII identifier. -/
def isIdentifier : List Char → Bool
  | [] => false
  | c :: cs => isIdentifierStart c && cs.all isIdentifierRest

/-- A module name is an identifier; one line feed may end it. -/
def isModuleName (cs : List Char) : Bool :=
  isIdentifier cs || (cs.getLast? == some '\n' && isIdentifier cs.dropLast)

/-- The name without the mark of a raw identifier. -/
def dropRawMark (cs : List Char) : List Char := (after? "r#".toList cs).getD cs

/-- Whether the code begins a module whose visibility is restricted to a path. -/
def hasPathVisibility (body : List Char) : Bool :=
  match after? "pub(in ".toList body with
  | none => false
  | some rest => ") mod ".toList.isPrefixOf (rest.dropWhile (· != ')'))

/-- The name that follows a visibility and the keyword, if the code begins with them. -/
def Visibility.declared? (v : Visibility) (body : List Char) : Option (Visibility × List Char) :=
  (after? v.opening body).map fun name => (v, dropRawMark name)

/-- The declaration that a line of code is, if it is one. -/
def ModuleDecl.parse (code : List Char) (override : Option String) :
    Except UnsupportedVisibility (Option ModuleDecl) :=
  if code.getLast? ≠ some ';' then .ok none
  else if hasPathVisibility code.dropLast then .error ⟨String.ofList code⟩
  else match Visibility.all.findSome? (·.declared? code.dropLast) with
    | none => .ok none
    | some (visibility, name) =>
      if isModuleName name then .ok (some ⟨visibility, String.ofList name, override⟩) else .ok none

end FlatCrate.Source
