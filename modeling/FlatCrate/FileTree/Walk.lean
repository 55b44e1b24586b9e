import FlatCrate.FileTree.Fault

/-!
# Following a path

Names are followed one by one from the directory where the path starts. A link on the way is
replaced by its target, in the directory that holds it; at most forty links are followed. What is
asked for in a place that is not a directory does not exist there; a name of more than 255 bytes and
a path of more than 4095 bytes are refused.
-/

namespace FlatCrate.FileTree

/-- Where a path leads: to an entry, or to a free name in an existing directory. -/
inductive Arrival
  | found (location : Location)
  | vacant (directory : Location) (name : String)
  deriving DecidableEq

/-- The most links that are followed. -/
def maxLinks : Nat := 40

/-- The most bytes of a name. -/
def maxNameBytes : Nat := 255

/-- The most bytes of a path. -/
def maxPathBytes : Nat := 4095

/-- The names of a link's target. -/
def targetNames (target : String) : List String := Text.pieces '/' target

/-- Where the target of a link starts that stands in a given directory. -/
def targetStart (directory : Location) (target : String) : Location :=
  if target.startsWith "/" then [] else directory

/-- Follows names up to the first link; `jump` goes on from there. -/
def follow (tree : FileTree) (jump : Location → List String → Except Fault Arrival) :
    Location → List String → Except Fault Arrival
  | directory, [] => .ok (.found directory)
  | directory, name :: rest =>
    if tree.isDirectoryAt directory = false then .error .notDirectory
    else if name = "" ∨ name = "." then follow tree jump directory rest
    else if name = ".." then follow tree jump directory.tail rest
    else if maxNameBytes < name.utf8ByteSize then .error .nameTooLong
    else match tree.find? (name :: directory) with
      | none => if rest.isEmpty then .ok (.vacant directory name) else .error .noEntry
      | some (.link target) => jump (targetStart directory target) (targetNames target ++ rest)
      | some _ => follow tree jump (name :: directory) rest

/-- Follows names and at most a given number of links. -/
def walk (tree : FileTree) : Nat → Location → List String → Except Fault Arrival
  | 0 => tree.follow fun _ _ => .error .tooManyLinks
  | links + 1 => tree.follow (walk tree links)

/-- Where a path leads, its last name included. -/
def locate (tree : FileTree) (path : Path) : Except Fault Arrival :=
  if maxPathBytes < path.toString.utf8ByteSize then .error .nameTooLong
  else tree.walk maxLinks (tree.startOf path) path.names

/-- The location to which a path leads, if there is an entry. -/
def locationOf (tree : FileTree) (path : Path) : Except Fault Location :=
  match tree.locate path with
  | .error fault => .error fault
  | .ok (.vacant _ _) => .error .noEntry
  | .ok (.found location) => .ok location

/-- The entry to which a path leads. -/
def entryOf (tree : FileTree) (path : Path) : Except Fault Entry :=
  match tree.locationOf path with
  | .error fault => .error fault
  | .ok location => match tree.find? location with
    | none => .error .noEntry
    | some entry => .ok entry

/-- The bytes of the file to which a path leads. -/
def readBytes (tree : FileTree) (path : Path) : Except Fault ByteArray :=
  match tree.entryOf path with
  | .error fault => .error fault
  | .ok (.file content) => .ok content
  | .ok _ => .error .isDirectory

/-- Whether a path leads to an entry with a property; nothing there is an answer, too. -/
def holds (tree : FileTree) (path : Path) (p : Entry → Bool) : Except Fault Bool :=
  match tree.entryOf path with
  | .ok entry => .ok (p entry)
  | .error fault => if fault.meansAbsent then .ok false else .error fault

/-- Whether a path leads to a regular file. -/
def isFile (tree : FileTree) (path : Path) : Except Fault Bool := tree.holds path Entry.isFile

/-- Whether a path leads to a directory. -/
def isDirectory (tree : FileTree) (path : Path) : Except Fault Bool :=
  tree.holds path fun
    | .directory => true
    | _ => false

/-- The directory and the last name of a path, without following a link of that name. There is
none if the path ends in `..` or has no name. -/
def slot (tree : FileTree) (path : Path) : Except Fault (Option (Location × String)) :=
  if maxPathBytes < path.toString.utf8ByteSize then .error .nameTooLong
  else match tree.walk maxLinks (tree.startOf path) path.names.dropLast with
    | .error fault => .error fault
    | .ok (.vacant _ _) => .error .noEntry
    | .ok (.found directory) =>
      if tree.isDirectoryAt directory = false then .error .notDirectory
      else match path.names.getLast? with
        | none => .ok none
        | some name =>
          if name = ".." then .ok none
          else if maxNameBytes < name.utf8ByteSize then .error .nameTooLong
          else .ok (some (directory, name))

end FlatCrate.FileTree
