import FlatCrate.Value.Basic

/-!
# Tables of a TOML document

A document is one table, filled while it is read. A table below it may be opened by a header, by
dotted keys of one section, or only implied by the header of a table below it; how it came to be
decides who may open it again. What a key is set to is closed: nothing can be added to it. Of an
array of tables only the last item is still open.
-/

namespace FlatCrate.Toml

/-- How a table came to be. -/
inductive Standing
  /-- As a part of the path of a header. -/
  | implied
  /-- As a part of a dotted key in a section of the document. -/
  | dotted (part : Nat)
  /-- By a header of its own. -/
  | headed
  deriving DecidableEq, Repr

/-- What a key of a table stands for. -/
inductive Entry
  | closed (value : Value)
  | table (standing : Standing) (members : List (String × Entry))
  | tables (earlier : List Value) (latest : List (String × Entry))

/-- The members of a table that is being filled, in the order of their keys' appearance. -/
abbrev Members := List (String × Entry)

mutual

/-- The value that an entry stands for. -/
def Entry.value : Entry → Value
  | .closed value => value
  | .table _ members => .dict (memberValues members)
  | .tables earlier latest => .list (earlier ++ [.dict (memberValues latest)])

/-- The members that entries stand for. -/
def memberValues : List (String × Entry) → List (Value × Value)
  | [] => []
  | (name, entry) :: rest => (.string name, entry.value) :: memberValues rest

end

namespace Members

/-- The members with another entry for a key that is there. -/
def replace (name : String) (entry : Entry) : Members → Members
  | [] => []
  | (here, old) :: rest =>
    if here = name then (here, entry) :: rest else (here, old) :: replace name entry rest

end Members

/-- How a path leads through tables. -/
inductive Route
  /-- The path of a header: it leads through every table. -/
  | header
  /-- A dotted key in a section: it leads only through tables of its own making and implied ones. -/
  | dotted (part : Nat)

namespace Route

/-- The standing of a table that a route makes. -/
def fresh : Route → Standing
  | header => .implied
  | dotted part => .dotted part

/-- The standing of a table after a route has led through it, if it may. -/
def enter? : Route → Standing → Option Standing
  | header, standing => some standing
  | dotted part, .implied => some (.dotted part)
  | dotted part, .dotted other => if part = other then some (.dotted part) else none
  | dotted _, .headed => none

/-- Whether a route leads into the last item of an array of tables. -/
def entersArrays : Route → Bool
  | header => true
  | dotted _ => false

/-- The members after a change of those at the end of a path. -/
def alter? (route : Route) (change : Members → Option Members) :
    List String → Members → Option Members
  | [], members => change members
  | name :: path, members =>
    match members.lookup name with
    | none => (alter? route change path []).map fun inner =>
      members ++ [(name, .table route.fresh inner)]
    | some (.table standing inner) => do
      let standing ← route.enter? standing
      let inner ← alter? route change path inner
      return members.replace name (.table standing inner)
    | some (.tables earlier latest) =>
      if route.entersArrays then
        (alter? route change path latest).map fun inner =>
          members.replace name (.tables earlier inner)
      else none
    | some (.closed _) => none

end Route

namespace Members

/-- Opens a table by its header. -/
def openTable? (name : String) (members : Members) : Option Members :=
  match members.lookup name with
  | none => some (members ++ [(name, .table .headed [])])
  | some (.table .implied inner) => some (members.replace name (.table .headed inner))
  | _ => none

/-- Opens one more table of an array. -/
def openItem? (name : String) (members : Members) : Option Members :=
  match members.lookup name with
  | none => some (members ++ [(name, .tables [] [])])
  | some (.tables earlier latest) =>
    some (members.replace name (.tables (earlier ++ [.dict (memberValues latest)]) []))
  | _ => none

/-- Sets a key that is not there yet. -/
def assign? (name : String) (value : Value) (members : Members) : Option Members :=
  match members.lookup name with
  | none => some (members ++ [(name, .closed value)])
  | some _ => none

end Members

end FlatCrate.Toml
