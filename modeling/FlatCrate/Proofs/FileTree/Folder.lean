import FlatCrate.Proofs.FileTree.LinkFree

/-!
# A file that moves into a folder

The file `n.rs` of a directory may move to `mod.rs` in the directory `n` beside it, which is made if
it is not there. In a tree without links this makes a difference only for the paths of these two
files.
-/

namespace FlatCrate.FileTree

variable {tree : FileTree} {directory : Location} {name : String} {content : ByteArray}

/-- The location of a file that is named after a module. -/
def flatSpot (directory : Location) (name : String) : Location := (name ++ ".rs") :: directory

/-- The location of a file in the folder that is named after a module. -/
def folderSpot (directory : Location) (name : String) : Location := "mod.rs" :: name :: directory

/-- The tree in which the file of a module has moved into a folder of its own. -/
def intoFolder (tree : FileTree) (directory : Location) (name : String) : FileTree :=
  match tree.find? (flatSpot directory name) with
  | none => tree
  | some entry =>
    ((tree.erase (flatSpot directory name)).put (name :: directory) .directory).put
      (folderSpot directory name) entry

/-- The extension makes another name. -/
theorem append_extension_ne (name : String) : name ++ ".rs" ≠ name := by
  intro heq
  have hlength := congrArg String.length heq
  rw [String.length_append] at hlength
  have hthree : ".rs".length = 3 := rfl
  omega

/-- The two places of a module are different. -/
theorem folderSpot_ne_flatSpot : folderSpot directory name ≠ flatSpot directory name := by
  intro heq
  have hlength := congrArg List.length heq
  simp [folderSpot, flatSpot] at hlength

/-- The file in a folder is not the folder. -/
theorem folderSpot_ne_folder : folderSpot directory name ≠ name :: directory := by
  intro heq
  have hlength := congrArg List.length heq
  simp [folderSpot] at hlength

/-- The folder of a module is not its flat file. -/
theorem folder_ne_flatSpot : name :: directory ≠ flatSpot directory name :=
  fun heq => append_extension_ne name (List.cons.inj heq).1.symm

/-- The flat place tells the directory and the module. -/
theorem flatSpot_inj {other : Location} {module : String}
    (h : flatSpot directory name = flatSpot other module) : name = module ∧ directory = other := by
  obtain ⟨hname, hdirectory⟩ := List.cons.inj h
  exact ⟨(String.append_left_inj _).mp hname, hdirectory⟩

/-- The place in the folder tells the directory and the module. -/
theorem folderSpot_inj {other : Location} {module : String}
    (h : folderSpot directory name = folderSpot other module) :
    name = module ∧ directory = other :=
  List.cons.inj (List.cons.inj h).2

/-- The two kinds of files of modules differ unless a module is named like the file in a folder. -/
theorem eq_mod_of_flatSpot_eq {other : Location} {module : String}
    (h : flatSpot directory name = folderSpot other module) : name = "mod" := by
  have hname : name ++ ".rs" = "mod" ++ ".rs" := (List.cons.inj h).1
  exact (String.append_left_inj _).mp hname

/-- The flat place is below the root. -/
theorem flatSpot_ne_nil : flatSpot directory name ≠ [] := List.cons_ne_nil _ _

/-- The place in the folder is below the root. -/
theorem folderSpot_ne_nil : folderSpot directory name ≠ [] := List.cons_ne_nil _ _

/-- The file of a module can move into a folder: there is such a file, and nothing is in its way. -/
structure IsMovable (tree : FileTree) (directory : Location) (name : String) (content : ByteArray) :
    Prop where
  file : tree.find? (flatSpot directory name) = some (.file content)
  folder : ∀ entry, tree.find? (name :: directory) = some entry → entry = .directory
  free : tree.find? (folderSpot directory name) = none

namespace IsMovable

/-- A file that can be moved into its folder is moved by three changes of entries. -/
theorem intoFolder_eq (h : tree.IsMovable directory name content) :
    tree.intoFolder directory name =
      ((tree.erase (flatSpot directory name)).put (name :: directory) .directory).put
        (folderSpot directory name) (.file content) := by
  rw [intoFolder, h.file]

/-- Nothing is left in the flat place. -/
theorem find?_flatSpot (h : tree.IsMovable directory name content) :
    (tree.intoFolder directory name).find? (flatSpot directory name) = none := by
  rw [h.intoFolder_eq, find?_put_of_ne _ folderSpot_ne_flatSpot.symm,
    find?_put_of_ne _ folder_ne_flatSpot.symm, find?_erase_self _ flatSpot_ne_nil]

/-- The folder is there. -/
theorem find?_folder (h : tree.IsMovable directory name content) :
    (tree.intoFolder directory name).find? (name :: directory) = some .directory := by
  rw [h.intoFolder_eq, find?_put_of_ne _ folderSpot_ne_folder.symm,
    find?_put_self _ (List.cons_ne_nil _ _)]

/-- The file is in its folder, with the same bytes. -/
theorem find?_folderSpot (h : tree.IsMovable directory name content) :
    (tree.intoFolder directory name).find? (folderSpot directory name) =
      some (.file content) := by
  rw [h.intoFolder_eq, find?_put_self _ folderSpot_ne_nil]

/-- All other locations are left alone. -/
theorem find?_other (h : tree.IsMovable directory name content) {location : Location}
    (hflat : location ≠ flatSpot directory name) (hfolder : location ≠ name :: directory)
    (hspot : location ≠ folderSpot directory name) :
    (tree.intoFolder directory name).find? location = tree.find? location := by
  rw [h.intoFolder_eq, find?_put_of_ne _ hspot, find?_put_of_ne _ hfolder,
    find?_erase_of_ne _ hflat]

/-- Directories stay where they are. -/
theorem find?_directory (h : tree.IsMovable directory name content) {location : Location}
    (hfind : tree.find? location = some .directory) :
    (tree.intoFolder directory name).find? location = some .directory := by
  by_cases hfolder : location = name :: directory
  · rw [hfolder, h.find?_folder]
  · rw [h.find?_other ?_ hfolder ?_, hfind]
    · rintro rfl
      simp [h.file] at hfind
    · rintro rfl
      simp [h.free] at hfind

/-- A file elsewhere is the same in both trees. -/
theorem find?_file_iff (h : tree.IsMovable directory name content) {location : Location}
    (hflat : location ≠ flatSpot directory name) (hspot : location ≠ folderSpot directory name)
    (bytes : ByteArray) :
    (tree.intoFolder directory name).find? location = some (.file bytes) ↔
      tree.find? location = some (.file bytes) := by
  by_cases hfolder : location = name :: directory
  · rw [hfolder, h.find?_folder]
    refine ⟨by simp, fun hfile => ?_⟩
    exact absurd (h.folder _ hfile) (by simp)
  · rw [h.find?_other hflat hfolder hspot]

/-- The moved file has made no links, and it stands in directories. -/
theorem isLinkFree (h : tree.IsMovable directory name content) (htree : tree.IsLinkFree) :
    (tree.intoFolder directory name).IsLinkFree := by
  have hname : name.utf8ByteSize ≤ maxNameBytes := by
    refine Nat.le_trans ?_ (htree.isShort _ _ _ h.file)
    rw [String.utf8ByteSize_append]
    exact Nat.le_add_right _ _
  have hdirectory : tree.find? directory = some .directory := htree.inDirectory _ _ _ h.file
  have hworkDir : (tree.intoFolder directory name).workDir = tree.workDir := by
    rw [h.intoFolder_eq]
    rfl
  have hcases : ∀ location entry, (tree.intoFolder directory name).find? location = some entry →
      location = name :: directory ∧ entry = .directory ∨
      location = folderSpot directory name ∧ entry = .file content ∨
      tree.find? location = some entry := by
    intro location entry hfind
    by_cases hflat : location = flatSpot directory name
    · simp [hflat, h.find?_flatSpot] at hfind
    by_cases hfolder : location = name :: directory
    · rw [hfolder, h.find?_folder] at hfind
      exact .inl ⟨hfolder, (Option.some.inj hfind).symm⟩
    by_cases hspot : location = folderSpot directory name
    · rw [hspot, h.find?_folderSpot] at hfind
      exact .inr (.inl ⟨hspot, (Option.some.inj hfind).symm⟩)
    · exact .inr (.inr (h.find?_other hflat hfolder hspot ▸ hfind))
  refine ⟨?_, fun location target hlink => ?_, fun last above entry hfind => ?_,
    fun last above entry hfind => ?_⟩
  · rw [hworkDir]
    exact h.find?_directory htree.workDir
  · obtain ⟨-, hentry⟩ | ⟨-, hentry⟩ | hbefore := hcases _ _ hlink
    · simp at hentry
    · simp at hentry
    · exact htree.noLink _ _ hbefore
  · obtain ⟨heq, -⟩ | ⟨heq, -⟩ | hbefore := hcases _ _ hfind
    · obtain ⟨rfl, rfl⟩ := List.cons.inj heq
      exact h.find?_directory hdirectory
    · obtain ⟨rfl, rfl⟩ := List.cons.inj heq
      exact h.find?_folder
    · exact h.find?_directory (htree.inDirectory _ _ _ hbefore)
  · obtain ⟨heq, -⟩ | ⟨heq, -⟩ | hbefore := hcases _ _ hfind
    · obtain ⟨rfl, rfl⟩ := List.cons.inj heq
      exact hname
    · obtain ⟨rfl, rfl⟩ := List.cons.inj heq
      decide
    · exact htree.isShort _ _ _ hbefore

/-- Paths lead to the same directories. -/
theorem leadsTo (h : tree.IsMovable directory name content) (htree : tree.IsLinkFree) {base : Path}
    {place : Location} (hbase : tree.LeadsTo base place) :
    (tree.intoFolder directory name).LeadsTo base place := by
  have hfewer : (tree.intoFolder directory name).Fewer tree := by
    intro location entry hfind hplain
    cases entry with
    | directory => exact h.find?_directory hfind
    | file bytes => simp [Entry.isFile] at hplain
    | link target => exact absurd hfind (htree.noLink _ _)
  refine hfewer.leadsTo ?_ hbase
  rw [startOf, startOf, h.intoFolder_eq]
  rfl

/-- Behind a directory, the same files are read under paths that spell other locations. -/
theorem readBytes_below_iff (h : tree.IsMovable directory name content) (htree : tree.IsLinkFree)
    {base : Path} {place : Location} {names : List String} (hbase : tree.LeadsTo base place)
    (hnames : ∀ n ∈ names, IsEntryName n)
    (hflat : names.reverse ++ place ≠ flatSpot directory name)
    (hspot : names.reverse ++ place ≠ folderSpot directory name) {bytes : ByteArray} :
    (tree.intoFolder directory name).readBytes (base.below names) = .ok bytes ↔
      tree.readBytes (base.below names) = .ok bytes := by
  rw [(h.isLinkFree htree).readBytes_below_iff (h.leadsTo htree hbase) hnames,
    htree.readBytes_below_iff hbase hnames, h.find?_file_iff hflat hspot]

/-- A file that is not the one to be moved is read as before, at the same location. -/
theorem readBytes_other (h : tree.IsMovable directory name content) (htree : tree.IsLinkFree)
    {base : Path} {place : Location} {names : List String} (hbase : tree.LeadsTo base place)
    (hnames : ∀ n ∈ names, IsEntryName n)
    (hflat : names.reverse ++ place ≠ flatSpot directory name) {bytes : ByteArray}
    (hread : tree.readBytes (base.below names) = .ok bytes) :
    (tree.intoFolder directory name).readBytes (base.below names) = .ok bytes ∧
      (tree.intoFolder directory name).realLocation (base.below names) =
        tree.realLocation (base.below names) := by
  have hspot : names.reverse ++ place ≠ folderSpot directory name := by
    intro heq
    obtain ⟨-, hfind⟩ := (htree.readBytes_below_iff hbase hnames).mp hread
    simp [heq, h.free] at hfind
  have hafter := (h.readBytes_below_iff htree hbase hnames hflat hspot).mpr hread
  refine ⟨hafter, ?_⟩
  rw [htree.realLocation_below hbase hnames hread,
    (h.isLinkFree htree).realLocation_below (h.leadsTo htree hbase) hnames hafter]

end IsMovable

end FlatCrate.FileTree
