/-!
# JSON documents

A document keeps whole numbers apart from numbers with a fraction or an exponent, and the members
of an object in their order.
-/

namespace FlatCrate

/-- A JSON document. -/
inductive Json
  | null
  | bool (b : Bool)
  | integer (n : Int)
  | float (x : Float)
  | string (s : String)
  | array (items : List Json)
  | object (members : List (String × Json))
  deriving Inhabited

namespace Json

/-- The array of some strings. -/
def strings (items : List String) : Json := .array (items.map .string)

/-- A string, or null if there is none. -/
def stringOrNull : Option String → Json
  | none => .null
  | some s => .string s

/-- The member of an object with a given name. -/
def get? (name : String) : Json → Option Json
  | .object members => members.lookup name
  | _ => none

/-- The members with one more; a name that is there already keeps its place. -/
def setMember (name : String) (value : Json) : List (String × Json) → List (String × Json)
  | [] => [(name, value)]
  | (here, old) :: rest =>
    if here = name then (here, value) :: rest else (here, old) :: setMember name value rest

end Json

end FlatCrate
