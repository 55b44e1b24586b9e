import FlatCrate.FileTree.Walk

/-!
# Changing a file tree

Writing follows links, also a link to nothing; making, removing and moving an entry does not follow
a link of its last name. An operation in several steps gives the tree it leaves behind together
with the error that ended it, if any.
-/

namespace FlatCrate.FileTree

/-- The tree with a file of given bytes where a path leads. -/
def writeBytes (tree : FileTree) (path : Path) (content : ByteArray) : Except Fault FileTree :=
  match tree.locate path with
  | .error fault => .error fault
  | .ok (.vacant directory name) => .ok (tree.put (name :: directory) (.file content))
  | .ok (.found location) =>
    match tree.find? location with
    | some (.file _) => .ok (tree.put location (.file content))
    | _ => .error .isDirectory

/-- The tree with a file of a given text where a path leads. -/
def writeText (tree : FileTree) (path : Path) (text : String) : Except Fault FileTree :=
  tree.writeBytes path text.toUTF8

/-- The tree with a new entry under a free name. -/
def make (tree : FileTree) (path : Path) (entry : Entry) : Except Fault FileTree :=
  match tree.slot path with
  | .error fault => .error fault
  | .ok none => .error .exists
  | .ok (some (directory, name)) =>
    match tree.find? (name :: directory) with
    | some _ => .error .exists
    | none => .ok (tree.put (name :: directory) entry)

/-- The tree with a new directory. -/
def makeDirectory (tree : FileTree) (path : Path) : Except Fault FileTree :=
  tree.make path .directory

/-- The tree without a file or link. -/
def remove (tree : FileTree) (path : Path) : Except Fault FileTree :=
  match tree.slot path with
  | .error fault => .error fault
  | .ok none => .error .isDirectory
  | .ok (some (directory, name)) =>
    match tree.find? (name :: directory) with
    | none => .error .noEntry
    | some .directory => .error .isDirectory
    | some _ => .ok (tree.erase (name :: directory))

/-- The tree in which a file or link has moved to another name, whatever file or link was there. -/
def move (tree : FileTree) (path target : Path) : Except Fault FileTree := do
  match ← tree.slot path, ← tree.slot target with
  | some (directory, name), some (directory', name') =>
    match tree.find? (name :: directory), tree.find? (name' :: directory') with
    | none, _ => .error .noEntry
    | _, some .directory => .error .isDirectory
    | some .directory, _ => .error .notDirectory
    | some entry, _ =>
      if name :: directory = name' :: directory' then .ok tree
      else .ok ((tree.erase (name :: directory)).put (name' :: directory') entry)
  | _, _ => .error .busy

/-- A tree after an attempt to change it, and the error that ended the attempt. -/
structure Attempt where
  tree : FileTree
  error : Option FileError := none

/-- The attempt to make a single directory, where a directory may be already. -/
def ensureDirectory (tree : FileTree) (path : Path) (fault : Fault) : Attempt :=
  match tree.isDirectory path with
  | .ok true => ⟨tree, none⟩
  | .ok false => ⟨tree, some ⟨fault, path, none⟩⟩
  | .error other => ⟨tree, some ⟨other, path, none⟩⟩

/-- Makes a directory and the missing ones above it; `above` makes those. -/
def makeBelow (above : FileTree → Attempt) (tree : FileTree) (path : Path) : Attempt :=
  match tree.makeDirectory path with
  | .ok made => ⟨made, none⟩
  | .error .noEntry =>
    match above tree with
    | ⟨tree, some e⟩ => ⟨tree, some e⟩
    | ⟨tree, none⟩ =>
      match tree.makeDirectory path with
      | .ok made => ⟨made, none⟩
      | .error .noEntry => ⟨tree, some ⟨.noEntry, path, none⟩⟩
      | .error fault => tree.ensureDirectory path fault
  | .error fault => tree.ensureDirectory path fault

/-- Makes the directory at the last of some names and the missing ones above it. -/
def makeUpTo (path : Path) : Nat → FileTree → Attempt
  | 0, tree => makeBelow (fun tree => ⟨tree, some ⟨.noEntry, path, none⟩⟩) tree path
  | above + 1, tree => makeBelow (makeUpTo path.parent above) tree path

/-- Makes a directory and the missing ones above it, as far as possible. -/
def makeDirectories (tree : FileTree) (path : Path) : Attempt :=
  makeUpTo path path.names.length tree

end FlatCrate.FileTree
