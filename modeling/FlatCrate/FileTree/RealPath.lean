import FlatCrate.FileTree.Walk

/-!
# Real locations

The real location of a path is what it denotes once every link on the way is replaced by its
target. It exists also for paths that lead nowhere: a name that is not a link is kept as it is.

A link that is met again while its own target is being resolved stands for itself, and the names
behind it are taken as they are written. Only if the place found so cannot be reached because of
its links, the path has no real location.
-/

namespace FlatCrate.FileTree

/-- How far the links of a path could be resolved. -/
inductive Resolution
  /-- All of them were. -/
  | whole (location : Location)
  /-- One was met again while it was being resolved. -/
  | stuck (location : Location)
  deriving DecidableEq

/-- Where names lead if none of them is a link. -/
def lexical : Location → List String → Location
  | location, [] => location
  | location, name :: rest =>
    if name = "" ∨ name = "." then lexical location rest
    else if name = ".." then lexical location.tail rest
    else lexical (name :: location) rest

/-- Where the names behind an unresolved link lead; further slashes in front of them mean the
root. -/
def lexicalBehind (link : Location) (rest : List String) : Location :=
  match rest with
  | "" :: _ :: _ => lexical [] rest
  | _ => lexical link rest

/-- Follows names; `enter` resolves the target of a link from the place where it starts. -/
def resolveWith (tree : FileTree) (enter : Location → Location → List String → Resolution) :
    Location → List String → Resolution
  | directory, [] => .whole directory
  | directory, name :: rest =>
    if name = "" ∨ name = "." then resolveWith tree enter directory rest
    else if name = ".." then resolveWith tree enter directory.tail rest
    else match tree.find? (name :: directory) with
      | some (.link target) =>
        match enter (name :: directory) (targetStart directory target) (targetNames target) with
        | .whole location => resolveWith tree enter location rest
        | .stuck location => .stuck (lexicalBehind location rest)
      | _ => resolveWith tree enter (name :: directory) rest

/-- Resolves names while some links are being resolved already; the number bounds how many more
may be opened inside each other. -/
def resolveNames (tree : FileTree) : Nat → List Location → Location → List String → Resolution
  | 0, _ => tree.resolveWith fun link _ _ => .stuck link
  | depth + 1, pending => tree.resolveWith fun link start names =>
      if link ∈ pending then .stuck link else resolveNames tree depth (link :: pending) start names

/-- Whether following the names of a location meets too many links. -/
def hasLinkLoop (tree : FileTree) (location : Location) : Bool :=
  match tree.walk maxLinks [] location.reverse with
  | .error .tooManyLinks => true
  | _ => false

/-- The real location of a path, unless its links form a loop. -/
def realLocation (tree : FileTree) (path : Path) : Option Location :=
  match tree.resolveNames (tree.size + 1) [] (tree.startOf path) path.names with
  | .whole location => some location
  | .stuck location => if tree.hasLinkLoop location then none else some location

end FlatCrate.FileTree
