import FlatCrate.Toml.Number
import FlatCrate.Toml.Table
import FlatCrate.Toml.Text

/-!
# Reading TOML

A document is a sequence of statements, one a line: a key and its value, or a header that opens a
table or one more table of an array, whose keys follow. A key is a path of names; no key is set
twice, and what is written as an array or as a table between braces is complete.
-/

namespace FlatCrate.Toml

/-- The characters of a name that stands without quotes. -/
def isNameChar (c : Char) : Bool := c.isAlphanum || c == '-' || c == '_'

/-- A part of a key. -/
def readName? (cs : List Char) : Option (String × List Char) :=
  match cs.span isNameChar with
  | ([], _) => (readLine? cs).map fun (name, rest) => (String.ofList name, rest)
  | (name, rest) => some (String.ofList name, rest)

/-- The parts of a key, between points, and what follows the blanks behind it. -/
def readKey? : Nat → List Char → Option (List String × List Char)
  | 0, _ => none
  | fuel + 1, cs => do
    let (name, rest) ← readName? cs
    match skipSpace rest with
    | '.' :: rest =>
      let (path, rest) ← readKey? fuel (skipSpace rest)
      return (name :: path, rest)
    | rest => return ([name], rest)

/-- The text behind a comment, if one begins it. -/
def skipComment? : List Char → Option (List Char)
  | '#' :: rest =>
    let (comment, behind) := rest.span (· != '\n')
    if comment.any isControl then none else some behind
  | cs => some cs

/-- The text behind blanks, line ends and comments. -/
def skipLines? : Nat → List Char → Option (List Char)
  | 0, _ => none
  | fuel + 1, cs =>
    match cs.dropWhile isSpaceOrEnd with
    | '#' :: rest => do skipLines? fuel (← skipComment? ('#' :: rest))
    | rest => some rest

/-- The names before the last one of a path, and the last one. -/
def splitPath : List String → List String × String
  | [] => ([], "")
  | [name] => ([], name)
  | name :: path =>
    let (parents, last) := splitPath path
    (name :: parents, last)

/-- The members after a key of a section is set. -/
def setKey? (header path : List String) (part : Nat) (value : Value) (members : Members) :
    Option Members :=
  let (parents, name) := splitPath path
  let assign := (Route.dotted part).alter? (Members.assign? name value) parents
  Route.header.alter? assign header members

mutual

/-- The value at the beginning of a text, and the text behind it. -/
def readValue : Nat → List Char → Except DocumentFault (Value × List Char)
  | 0, _ => .error .malformed
  | fuel + 1, cs =>
    match cs with
    | '"' :: _ | '\'' :: _ =>
      match readText? cs with
      | some (text, rest) => .ok (.string (String.ofList text), rest)
      | none => .error .malformed
    | 't' :: 'r' :: 'u' :: 'e' :: rest => .ok (.bool true, rest)
    | 'f' :: 'a' :: 'l' :: 's' :: 'e' :: rest => .ok (.bool false, rest)
    | '[' :: rest => (readItems fuel rest).map fun (items, rest) => (.list items, rest)
    | '\x7b' :: rest =>
      match skipSpace rest with
      | '\x7d' :: rest => .ok (.dict [], rest)
      | rest => (readInline fuel [] rest).map fun (members, rest) =>
        (.dict (memberValues members), rest)
    | _ =>
      match readTime? cs with
      | some found => .ok found
      | none => readNumber cs

/-- The items of an array up to its closing bracket; a comma may follow the last one. -/
def readItems : Nat → List Char → Except DocumentFault (List Value × List Char)
  | 0, _ => .error .malformed
  | fuel + 1, cs =>
    match skipLines? (cs.length + 1) cs with
    | none => .error .malformed
    | some (']' :: rest) => .ok ([], rest)
    | some rest =>
      match readValue fuel rest with
      | .error fault => .error fault
      | .ok (item, rest) =>
        match skipLines? (rest.length + 1) rest with
        | some (',' :: rest) => (readItems fuel rest).map fun (items, rest) => (item :: items, rest)
        | some (']' :: rest) => .ok ([item], rest)
        | _ => .error .malformed

/-- The members of a table between braces up to its closing brace, behind those read already. -/
def readInline : Nat → Members → List Char → Except DocumentFault (Members × List Char)
  | 0, _, _ => .error .malformed
  | fuel + 1, found, cs =>
    match readKey? (cs.length + 1) cs with
    | some (path, '=' :: rest) =>
      match readValue fuel (skipSpace rest) with
      | .error fault => .error fault
      | .ok (value, rest) =>
        match setKey? [] path 0 value found, skipSpace rest with
        | some members, '\x7d' :: rest => .ok (members, rest)
        | some members, ',' :: rest => readInline fuel members (skipSpace rest)
        | _, _ => .error .malformed
    | _ => .error .malformed

end

/-- A document as far as it is read. -/
structure Draft where
  members : Members := []
  /-- The path of the table that keys are put into. -/
  header : List String := []
  /-- How many headers have been read. -/
  part : Nat := 0

/-- A header from behind its first bracket. -/
def readHeader (draft : Draft) (cs : List Char) : Option (Draft × List Char) := do
  let (isArray, rest) := match cs with
    | '[' :: rest => (true, rest)
    | _ => (false, cs)
  let (path, rest) ← readKey? (rest.length + 1) (skipSpace rest)
  let (parents, name) := splitPath path
  let opening := if isArray then Members.openItem? name else Members.openTable? name
  let members ← Route.header.alter? opening parents draft.members
  let closing := if isArray then [']', ']'] else [']']
  if closing.isPrefixOf rest then
    some (⟨members, path, draft.part + 1⟩, rest.drop closing.length)
  else none

/-- A key with its value. -/
def readAssignment (draft : Draft) (cs : List Char) :
    Except DocumentFault (Draft × List Char) :=
  match readKey? (cs.length + 1) cs with
  | some (path, '=' :: rest) =>
    match readValue (2 * rest.length + 2) (skipSpace rest) with
    | .error fault => .error fault
    | .ok (value, rest) =>
      match setKey? draft.header path draft.part value draft.members with
      | some members => .ok ({ draft with members }, rest)
      | none => .error .malformed
  | _ => .error .malformed

/-- The statement at the beginning of a text, if there is one before the line ends. -/
def readStatement (draft : Draft) (cs : List Char) : Except DocumentFault (Draft × List Char) :=
  match cs with
  | [] | '\n' :: _ | '#' :: _ => .ok (draft, cs)
  | '[' :: rest =>
    match readHeader draft rest with
    | some found => .ok found
    | none => .error .malformed
  | _ => readAssignment draft cs

/-- The document that the lines of a text add to. -/
def readLines : Nat → Draft → List Char → Except DocumentFault Draft
  | 0, _, _ => .error .malformed
  | fuel + 1, draft, cs =>
    match readStatement draft (skipSpace cs) with
    | .error fault => .error fault
    | .ok (draft, rest) =>
      match skipComment? (skipSpace rest) with
      | some [] => .ok draft
      | some ('\n' :: rest) => readLines fuel draft rest
      | _ => .error .malformed

/-- The table that a text is. -/
def read (text : String) : Except DocumentFault Value :=
  let cs := text.toList
  (readLines (cs.length + 1) {} cs).map fun draft => .dict (memberValues draft.members)

end FlatCrate.Toml
