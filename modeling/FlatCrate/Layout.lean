import FlatCrate.FileTree.Walk
import FlatCrate.Source.Declaration

/-!
# Where the file of a module is

The children of `lib.rs` and `mod.rs` stand beside them, those of any other `foo.rs` in the
directory `foo` beside it. A module is the file named after it or, if there is none, the file
`mod.rs` in the directory named after it. A path override is taken as it is, seen from the directory
of the declaring file, and may lead nowhere.
-/

namespace FlatCrate.Layout

/-- The stems of the files whose children stand beside them. -/
def ownerStems : List String := ["lib", "mod"]

/-- The directory in which the children of a file are looked up. -/
def searchDir (file : Path) : Path :=
  if file.stem ∈ ownerStems then file.parent else file.parent.child file.stem

/-- The file of a module that has a directory of its own. -/
def folderFile (file : Path) (name : String) : Path :=
  ((searchDir file).child name).child "mod.rs"

/-- The file of a module beside its siblings. -/
def flatFile (file : Path) (name : String) : Path := (searchDir file).child (name ++ ".rs")

/-- The files that a declaration may mean, the preferred one first. -/
def candidates (file : Path) (decl : Source.ModuleDecl) : List Path :=
  match decl.override with
  | some path => [file.parent.child path]
  | none => [flatFile file decl.name, folderFile file decl.name]

/-- Whether a path leads to a regular file; a path that cannot be looked up does not. -/
def isPresent (tree : FileTree) (path : Path) : Bool :=
  match tree.isFile path with
  | .ok answer => answer
  | .error _ => false

/-- The file that a declaration means. -/
def moduleFile? (tree : FileTree) (file : Path) (decl : Source.ModuleDecl) : Option Path :=
  match decl.override with
  | some path => some (file.parent.child path)
  | none => (candidates file decl).find? (isPresent tree)

/-- The file that a declaration means is one of its candidates. -/
theorem mem_candidates_of_moduleFile? {tree : FileTree} {file target : Path}
    {decl : Source.ModuleDecl} (h : moduleFile? tree file decl = some target) :
    target ∈ candidates file decl := by
  unfold moduleFile? at h
  split at h
  · next path hpath => simp_all [candidates]
  · exact List.mem_of_find?_eq_some h

end FlatCrate.Layout
