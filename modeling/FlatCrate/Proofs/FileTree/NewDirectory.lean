import FlatCrate.Proofs.FileTree.Made

/-!
# A new directory

A directory that does not exist yet is made at once if the directory around it exists. Nothing is in
it then. Its name and its path have to be short enough; whatever comes into it has a longer path.
-/

namespace FlatCrate

/-! ## Lengths of paths -/

namespace Path

/-- A path is written as its text, if that is not empty. -/
theorem toString_of_ne_empty {path : Path}
    (h : path.anchor.text ++ String.intercalate "/" path.names ≠ "") :
    path.toString = path.anchor.text ++ String.intercalate "/" path.names := by
  rw [toString]
  split
  · next hempty => exact absurd hempty h
  · rfl

/-- The text of a path with one more name. -/
theorem toString_entry (path : Path) {name : String} (hname : name ≠ "") :
    (path.entry name).toString = path.anchor.text ++
      ((if path.names = [] then "" else String.intercalate "/" path.names ++ "/") ++ name) := by
  have htext : String.intercalate "/" (path.names ++ [name]) =
      (if path.names = [] then "" else String.intercalate "/" path.names ++ "/") ++ name := by
    by_cases hnames : path.names = []
    · simp [hnames]
    · rw [if_neg hnames, String.intercalate_append_of_ne_nil hnames (List.cons_ne_nil _ _),
        String.intercalate_singleton]
  rw [toString_of_ne_empty, entry, htext]
  rw [entry, htext]
  simp [hname]

variable {path : Path} {name longer : String}

/-- A path does not get shorter by one more name. -/
theorem utf8ByteSize_toString_le_entry (path : Path) (hname : name ≠ "") :
    path.toString.utf8ByteSize ≤ (path.entry name).toString.utf8ByteSize := by
  have hpositive : 0 < name.utf8ByteSize :=
    Nat.pos_of_ne_zero fun hzero => hname (String.utf8ByteSize_eq_zero_iff.mp hzero)
  rw [toString_entry path hname, String.utf8ByteSize_append, String.utf8ByteSize_append]
  by_cases htext : path.anchor.text ++ String.intercalate "/" path.names = ""
  · have hdot : path.toString = "." := by simp [toString, htext]
    have hone : ".".utf8ByteSize = 1 := rfl
    rw [hdot, hone]
    omega
  · rw [toString_of_ne_empty htext, String.utf8ByteSize_append]
    split_ifs with hnames
    · rw [hnames, String.intercalate_nil]
      omega
    · rw [String.utf8ByteSize_append]
      omega

/-- A shorter last name makes a shorter path. -/
theorem utf8ByteSize_toString_entry_mono (path : Path) (hname : name ≠ "") (hlonger : longer ≠ "")
    (h : name.utf8ByteSize ≤ longer.utf8ByteSize) :
    (path.entry name).toString.utf8ByteSize ≤ (path.entry longer).toString.utf8ByteSize := by
  rw [toString_entry path hname, toString_entry path hlonger]
  simp only [String.utf8ByteSize_append]
  omega

end Path

namespace FileTree

variable {tree : FileTree} {path : Path} {directory : Location} {name : String}

/-! ## Making a directory where nothing is -/

/-- An existing directory has nothing of a given name, not even below it. -/
structure IsNew (tree : FileTree) (path : Path) (directory : Location) (name : String) : Prop where
  leadsTo : tree.LeadsTo path directory
  ne_up : name ≠ ".."
  find?_eq : ∀ below, tree.find? (below ++ name :: directory) = none

/-- A path with one more name leads to the directory of that name, unless it is that of a link. -/
theorem LeadsTo.of_entry {place : Location} (h : tree.LeadsTo (path.entry name) place)
    (hname : IsEntryName name) (hleads : tree.LeadsTo path directory) :
    name.utf8ByteSize ≤ maxNameBytes ∧
      (place = name :: directory ∨
        ∃ target, tree.find? (name :: directory) = some (.link target)) := by
  have hwalk := h.walk_eq
  rw [Path.entry] at hwalk
  obtain ⟨above, habove, hends⟩ := exists_directory_of_walk hname hwalk
  obtain rfl := LeadsTo.unique ⟨habove, hends.isDirectory⟩ hleads
  refine ⟨hends.isShort, ?_⟩
  obtain hvacant | ⟨_, -, hfound⟩ | hlink := hends.arrives
  · simp at hvacant
  · exact .inl (Arrival.found.inj hfound)
  · exact .inr hlink

namespace IsNew

/-- The tree in which the directory has been made. -/
abbrev made (tree : FileTree) (directory : Location) (name : String) : FileTree :=
  tree.put (name :: directory) .directory

/-- There is nothing yet where the new directory is to be. -/
theorem find?_self (h : tree.IsNew path directory name) : tree.find? (name :: directory) = none :=
  h.find?_eq []

/-- The new directory is empty. -/
theorem find?_made (h : tree.IsNew path directory name) {below : Location} (hbelow : below ≠ []) :
    (made tree directory name).find? (below ++ name :: directory) = none := by
  have hne : below ++ name :: directory ≠ name :: directory := by
    simpa using hbelow
  rw [find?_put_of_ne tree hne, h.find?_eq]

/-- The directory is made at once, if its name and its path are not too long. -/
theorem makeDirectories_eq (h : tree.IsNew path directory name)
    (hlong : name.utf8ByteSize ≤ maxNameBytes)
    (hshort : (path.entry name).toString.utf8ByteSize ≤ maxPathBytes) :
    tree.makeDirectories (path.entry name) = ⟨made tree directory name, none⟩ := by
  apply makeDirectories_of_makeDirectory
  refine makeDirectory_eq_ok_iff.mpr ⟨name :: directory, ?_, h.find?_self, rfl⟩
  exact slotOf?_entry_eq_some_iff.mpr ⟨directory, rfl, h.leadsTo, h.ne_up, hlong, hshort⟩

/-- The path of the new directory leads there. -/
theorem leadsTo_made (h : tree.IsNew path directory name) (hname : IsEntryName name)
    (hlong : name.utf8ByteSize ≤ maxNameBytes) :
    (made tree directory name).LeadsTo (path.entry name) (name :: directory) := by
  have hfind : (made tree directory name).find? (name :: directory) = some .directory :=
    find?_put_self tree (List.cons_ne_nil _ _) _
  have habove : (made tree directory name).LeadsTo path directory :=
    (fewer_put h.find?_self).leadsTo rfl h.leadsTo
  refine ⟨?_, by simp [isDirectoryAt, hfind]⟩
  rw [Path.entry]
  refine walk_append habove.walk_eq fun jump => ?_
  exact .enter habove.isDirectory hname hlong hfind (by simp) (.here _)

/-- If the path of the new directory leads anywhere when directories have been made, its name is
short and it leads there. -/
theorem eq_of_makesOnly {after : FileTree} {other : Path} {place : Location}
    (h : tree.IsNew path directory name) (hname : IsEntryName name)
    (hmakes : tree.MakesOnly other after) (hleads : after.LeadsTo (path.entry name) place) :
    name.utf8ByteSize ≤ maxNameBytes ∧ place = name :: directory := by
  have hfewer : after.Fewer tree := fun location entry hfind _ => hmakes.kept location entry hfind
  have habove : after.LeadsTo path directory :=
    hfewer.leadsTo (by rw [startOf, startOf, hmakes.workDir_eq]) h.leadsTo
  obtain ⟨hlong, hplace | ⟨target, hlink⟩⟩ := hleads.of_entry hname habove
  · exact ⟨hlong, hplace⟩
  · have hbefore := hmakes.find?_of_ne_directory hlink Entry.noConfusion
    simp [h.find?_self] at hbefore

end IsNew

end FileTree

end FlatCrate
