import FlatCrate.FileTree.Basic

/-!
# What changed in a directory

Two states of a tree are compared below their working directory, entry by entry; a directory counts
as one entry and a link is not entered. The answers are sorted by path.
-/

namespace FlatCrate.FileTree

/-- The path from a directory down to a location, if it lies below it. -/
def pathBelow? (directory location : Location) : Option String :=
  if directory.isSuffixOf location && directory.length < location.length then
    some (String.intercalate "/" (location.take (location.length - directory.length)).reverse)
  else none

/-- The entries below the working directory with their paths, sorted by path. -/
def listing (tree : FileTree) : List (String × Entry) :=
  let found := tree.entries.filterMap fun e =>
    (pathBelow? tree.workDir e.1).map fun path => (path, e.2)
  found.mergeSort fun a b => a.1 ≤ b.1

/-- The entries that are new or changed in the second tree. -/
def written (before now : FileTree) : List (String × Entry) :=
  let old := before.listing
  now.listing.filter fun e => old.lookup e.1 != some e.2

/-- The paths that are gone in the second tree. -/
def removed (before now : FileTree) : List String :=
  let new := now.listing
  (before.listing.filter fun e => (new.lookup e.1).isNone).map (·.1)

end FlatCrate.FileTree
