import FlatCrate.Path

/-!
# File trees

A file tree maps locations to entries: files with their bytes, directories, and symbolic links with
the text of their target. A location is the list of names from the innermost one outwards, so its
parent is its tail; the root is the empty list and always a directory. Relative paths start in the
working directory.

Every name of an entry is a text without slashes and zero characters. A tree does not know of paths
with a zero in them; whoever asks for a path looks at that first.
-/

namespace FlatCrate

/-- The names that lead from the root to an entry, the innermost first. -/
abbrev Location := List String

instance Location.decidableMem (location : Location) (locations : List Location) :
    Decidable (location ∈ locations) :=
  List.instDecidableMemOfLawfulBEq location locations

/-- Whether bytes are the same is decided by the built-in test. -/
instance decidableEqBytes : DecidableEq ByteArray := ByteArray.instDecidableEq

/-- What a location may hold. -/
inductive Entry
  | file (content : ByteArray)
  | directory
  | link (target : String)
  deriving DecidableEq, Inhabited

/-- Whether an entry is a regular file. -/
def Entry.isFile : Entry → Bool
  | .file _ => true
  | _ => false

/-- The entries below the root, and the location of the working directory. -/
structure FileTree where
  workDir : Location
  entries : List (Location × Entry)

namespace FileTree

/-- The entry at a location. -/
def find? (tree : FileTree) : Location → Option Entry
  | [] => some .directory
  | location => tree.entries.lookup location

/-- Whether a location holds a directory; a link to one does not count. -/
def isDirectoryAt (tree : FileTree) (location : Location) : Bool :=
  match tree.find? location with
  | some .directory => true
  | _ => false

/-- The tree without the entry at a location. -/
def erase (tree : FileTree) (location : Location) : FileTree :=
  { tree with entries := tree.entries.filter fun e => e.1 != location }

/-- The tree with a given entry at a location. -/
def put (tree : FileTree) (location : Location) (entry : Entry) : FileTree :=
  { tree with entries := (location, entry) :: (tree.erase location).entries }

/-- How many entries of the tree are regular files. -/
def fileCount (tree : FileTree) : Nat := tree.entries.countP fun e => e.2.isFile

/-- How many entries the tree has. -/
def size (tree : FileTree) : Nat := tree.entries.length

/-- Where a path starts. -/
def startOf (tree : FileTree) (path : Path) : Location :=
  if path.isAbsolute then [] else tree.workDir

/-- Leaving out the entries of one location keeps those of another one. -/
private theorem lookup_filter_ne {location other : Location} (h : other ≠ location)
    (entries : List (Location × Entry)) :
    (entries.filter fun e => e.1 != location).lookup other = entries.lookup other := by
  induction entries with
  | nil => rfl
  | cons e entries ih =>
    obtain ⟨here, entry⟩ := e
    by_cases hhere : here = location
    · subst hhere
      simp [ih, List.lookup_cons, beq_eq_false_iff_ne.mpr h]
    · simp [hhere, List.lookup_cons, ih]

/-- Nothing is found where all entries have been left out. -/
private theorem lookup_filter_self (location : Location) (entries : List (Location × Entry)) :
    (entries.filter fun e => e.1 != location).lookup location = none := by
  induction entries with
  | nil => rfl
  | cons e entries ih =>
    obtain ⟨here, entry⟩ := e
    by_cases hhere : here = location
    · simp [hhere, ih]
    · simp [hhere, ih, List.lookup_cons, beq_eq_false_iff_ne.mpr (Ne.symm hhere)]

/-- An entry that was put somewhere is found there. -/
theorem find?_put_self (tree : FileTree) {location : Location} (h : location ≠ [])
    (entry : Entry) : (tree.put location entry).find? location = some entry := by
  cases location with
  | nil => exact absurd rfl h
  | cons name dir => simp [find?, put]

/-- Putting an entry somewhere leaves the other locations as they are. -/
theorem find?_put_of_ne (tree : FileTree) {location other : Location} (h : other ≠ location)
    (entry : Entry) : (tree.put location entry).find? other = tree.find? other := by
  cases other with
  | nil => rfl
  | cons name dir =>
    simp [find?, put, erase, List.lookup_cons, beq_eq_false_iff_ne.mpr h, lookup_filter_ne h]

/-- Nothing is found where an entry was erased. -/
theorem find?_erase_self (tree : FileTree) {location : Location} (h : location ≠ []) :
    (tree.erase location).find? location = none := by
  cases location with
  | nil => exact absurd rfl h
  | cons name dir => simp [find?, erase, lookup_filter_self]

/-- Erasing an entry leaves the other locations as they are. -/
theorem find?_erase_of_ne (tree : FileTree) {location other : Location} (h : other ≠ location) :
    (tree.erase location).find? other = tree.find? other := by
  cases other with
  | nil => rfl
  | cons name dir => simp [find?, erase, lookup_filter_ne h]

end FileTree

end FlatCrate
