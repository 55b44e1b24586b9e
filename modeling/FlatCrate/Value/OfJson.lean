import FlatCrate.Json.Read
import FlatCrate.Value.Basic

/-!
# JSON documents as values

Every JSON document is a value; the names of members become string keys.
-/

namespace FlatCrate.Value

mutual

/-- The value that a document is. -/
def ofJson : Json → Value
  | .null => .null
  | .bool b => .bool b
  | .integer n => .integer n
  | .float x => .float x
  | .string s => .string s
  | .array items => .list (ofJsonItems items)
  | .object members => .dict (ofJsonMembers members)

/-- The values that some documents are. -/
def ofJsonItems : List Json → List Value
  | [] => []
  | item :: rest => ofJson item :: ofJsonItems rest

/-- The members of an object with string keys. -/
def ofJsonMembers : List (String × Json) → List (Value × Value)
  | [] => []
  | (name, value) :: rest => (.string name, ofJson value) :: ofJsonMembers rest

end

end FlatCrate.Value
