import FlatCrate.Json.Basic
import FlatCrate.Text.Quoted

/-!
# Writing JSON

Documents are written over several lines: every item and member has a line of its own, indented by
a number of spaces for each enclosing array or object. Empty arrays and objects stay on one line.
Strings are written in ASCII; a character beyond the basic plane takes two escapes.
-/

namespace FlatCrate.Json

/-- The escape of a sixteen bit unit. -/
def unitEscape (n : Nat) : List Char := '\\' :: 'u' :: Text.hex 4 n

/-- A character in a string. -/
def escapeChar (c : Char) : List Char :=
  if c == '"' then ['\\', '"']
  else if c == '\\' then ['\\', '\\']
  else if c == '\n' then ['\\', 'n']
  else if c == '\r' then ['\\', 'r']
  else if c == '\t' then ['\\', 't']
  else if c == '\x0c' then ['\\', 'f']
  else if c == '\x08' then ['\\', 'b']
  else if 0x20 ≤ c.toNat && c.toNat ≤ 0x7e then [c]
  else if c.toNat ≤ 0xffff then unitEscape c.toNat
  else
    unitEscape (0xd800 + (c.toNat - 0x10000) / 0x400) ++
      unitEscape (0xdc00 + (c.toNat - 0x10000) % 0x400)

/-- A string with its quotes. -/
def renderString (s : String) : List Char := '"' :: s.toList.flatMap escapeChar ++ ['"']

/-- A line feed with the indentation behind it. -/
def newLine (indent depth : Nat) : List Char := '\n' :: List.replicate (indent * depth) ' '

/-- Written items between brackets, each on a line of its own. -/
def bracketed (opening closing : Char) (indent depth : Nat) (items : List (List Char)) :
    List Char :=
  if items.isEmpty then [opening, closing]
  else
    opening :: newLine indent (depth + 1) ++
      List.intercalate (',' :: newLine indent (depth + 1)) items ++
      newLine indent depth ++ [closing]

mutual

/-- A document under a number of enclosing ones. -/
def renderAt (indent : Nat) : Nat → Json → List Char
  | _, .null => "null".toList
  | _, .bool true => "true".toList
  | _, .bool false => "false".toList
  | _, .integer n => (toString n).toList
  | _, .float x => (toString x).toList
  | _, .string s => renderString s
  | depth, .array items => bracketed '[' ']' indent depth (renderItems indent (depth + 1) items)
  | depth, .object members =>
    bracketed '\x7b' '\x7d' indent depth (renderMembers indent (depth + 1) members)

/-- The items of an array. -/
def renderItems (indent : Nat) : Nat → List Json → List (List Char)
  | _, [] => []
  | depth, item :: rest => renderAt indent depth item :: renderItems indent depth rest

/-- The members of an object. -/
def renderMembers (indent : Nat) : Nat → List (String × Json) → List (List Char)
  | _, [] => []
  | depth, (name, value) :: rest =>
    (renderString name ++ ':' :: ' ' :: renderAt indent depth value) ::
      renderMembers indent depth rest

end

/-- A document over several lines. -/
def render (indent : Nat) (document : Json) : String := String.ofList (renderAt indent 0 document)

end FlatCrate.Json
