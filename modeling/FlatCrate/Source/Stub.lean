import FlatCrate.Text.Blank

/-!
# Stubs for function bodies

A function begins with `fn ` at the start of the text, behind a blank or behind a line comment. Its
signature runs to the first opening brace outside brackets and comments; from there the whole block
is replaced by a stub. A semicolon outside brackets ends a function without a body.

The text is read in one pass over its characters. Literals and block comments are not
recognised, and inside a body every bracket counts, also in a comment.
-/

namespace FlatCrate.Source

/-- What takes the place of a function body. -/
def stubBody : List Char := "\x7b loop \x7b\x7d \x7d".toList

/-- The opening brackets. -/
def isOpener (c : Char) : Bool := c == '(' || c == '[' || c == '\x7b'

/-- The closing brackets. -/
def isCloser (c : Char) : Bool := c == ')' || c == ']' || c == '\x7d'

/-- Where the pass stands. -/
inductive StubMode
  /-- Between functions; a function may begin here if `boundary` holds. -/
  | item (boundary : Bool)
  /-- In a line comment between functions. -/
  | comment
  /-- In a signature, inside `depth` brackets. -/
  | signature (depth : Nat)
  /-- In a line comment of a signature. -/
  | signatureComment (depth : Nat)
  /-- In a body, inside `depth` brackets besides its own. -/
  | body (depth : Nat)
  deriving DecidableEq, Repr

/-- Whether a line comment begins with the character `c` in front of `rest`. -/
def startsComment (c : Char) (rest : List Char) : Bool := c == '/' && rest.head? == some '/'

/-- Whether a function begins with the character `c` in front of `rest`. -/
def startsFunction (c : Char) (rest : List Char) : Bool := c == 'f' && "n ".toList.isPrefixOf rest

/-- The mode behind the character `c`, which stands in front of `rest`. -/
def StubMode.next (mode : StubMode) (c : Char) (rest : List Char) : StubMode :=
  match mode with
  | .item boundary =>
    if boundary && startsFunction c rest then .signature 0
    else if startsComment c rest then .comment
    else .item (Text.isBlank c)
  | .comment => if c == '\n' then .item true else .comment
  | .signature depth =>
    if startsComment c rest then .signatureComment depth
    else if depth == 0 && c == '\x7b' then .body 0
    else if depth == 0 && c == ';' then .item false
    else if isOpener c then .signature (depth + 1)
    else if isCloser c then .signature (depth - 1)
    else .signature depth
  | .signatureComment depth => if c == '\n' then .signature depth else .signatureComment depth
  | .body depth =>
    if isOpener c then .body (depth + 1)
    else if isCloser c then (if depth == 0 then .item false else .body (depth - 1))
    else .body depth

/-- What is written for the character `c`. -/
def StubMode.emit (mode : StubMode) (c : Char) : List Char :=
  match mode with
  | .signature depth => if depth == 0 && c == '\x7b' then stubBody else [c]
  | .body _ => []
  | _ => [c]

/-- The text with stubs for function bodies, when the pass begins in a given mode. -/
def stubFrom : StubMode → List Char → List Char
  | _, [] => []
  | mode, c :: rest => mode.emit c ++ stubFrom (mode.next c rest) rest

/-- The mode in which the pass ends. -/
def stubEnd : StubMode → List Char → StubMode
  | mode, [] => mode
  | mode, c :: rest => stubEnd (mode.next c rest) rest

/-- The pass with what it has written so far, the last character first. -/
def stubOnto (out : List Char) : StubMode → List Char → List Char
  | _, [] => out
  | mode, c :: rest => stubOnto ((mode.emit c).reverse ++ out) (mode.next c rest) rest

/-- The text with a stub in place of every function body. -/
def stubBodies (source : String) : String :=
  String.ofList (stubOnto [] (.item true) source.toList).reverse

/-- Writing onto a reversed text gives what the plain pass gives. -/
theorem stubOnto_eq (out : List Char) (mode : StubMode) (cs : List Char) :
    stubOnto out mode cs = (stubFrom mode cs).reverse ++ out := by
  induction cs generalizing out mode with
  | nil => rfl
  | cons c rest ih => simp [stubOnto, stubFrom, ih]

/-- Stubbing is the pass from the start of the text. -/
theorem toList_stubBodies (source : String) :
    (stubBodies source).toList = stubFrom (.item true) source.toList := by
  simp [stubBodies, stubOnto_eq]

end FlatCrate.Source
