import FlatCrate.Proofs.FileTree.LinkFree
import FlatCrate.Proofs.Source.Header

/-!
# Where modules are looked up

The modules of a file are looked up in the same directory whichever layout the file itself has. As
long as no path is overridden, all files of modules are looked up below one directory, to which the
path of the crate root leads.
-/

namespace FlatCrate

/-- The parent of an entry is the path it is in. -/
theorem Path.parent_entry (path : Path) (name : String) : (path.entry name).parent = path := by
  rw [parent, entry, List.dropLast_concat]

namespace Layout

open FileTree (IsEntryName)

variable {tree : FileTree} {file child root : Path} {name : String} {decl : Source.ModuleDecl}
  {content : ByteArray}

/-! ## Names of module files -/

/-- A character that is part of no identifier is not in one. -/
theorem notMem_of_isIdentifier (h : Source.isIdentifier name.toList = true) {c : Char}
    (hc : Source.isIdentifierRest c = false) : c ∉ name.toList :=
  fun hmem => Bool.false_ne_true
    (hc.symm.trans (Source.isIdentifierRest_of_isIdentifier h c hmem))

/-- An identifier is not empty. -/
theorem ne_empty_of_isIdentifier (h : Source.isIdentifier name.toList = true) : name ≠ "" := by
  rintro rfl
  exact Bool.false_ne_true h

/-- An identifier is the name of an entry. -/
theorem isFileName_of_isIdentifier (h : Source.isIdentifier name.toList = true) :
    Path.IsFileName name := by
  have hdot : name ≠ "." := by
    rintro rfl
    exact Bool.false_ne_true h
  exact ⟨by simp [Path.isName, ne_empty_of_isIdentifier h, hdot], notMem_of_isIdentifier h rfl⟩

/-- An identifier is the name of an entry. -/
theorem isEntryName_of_isIdentifier (h : Source.isIdentifier name.toList = true) :
    IsEntryName name := by
  refine (isFileName_of_isIdentifier h).isEntryName ?_
  rintro rfl
  exact Bool.false_ne_true h

/-- A name with the extension, character by character. -/
theorem toList_extension (name : String) :
    (name ++ ".rs").toList = name.toList ++ ['.', 'r', 's'] :=
  String.toList_append

/-- The name of a file with the extension is the name of an entry, too. -/
theorem ne_of_extension (name : String) {text : String} (h : text.toList.getLast? ≠ some 's') :
    name ++ ".rs" ≠ text := by
  rintro rfl
  exact h (by rw [toList_extension, List.getLast?_append_of_ne_nil _ (by simp)]; rfl)

/-- An identifier with the extension is the name of a file. -/
theorem isFileName_extension (h : Source.isIdentifier name.toList = true) :
    Path.IsFileName (name ++ ".rs") := by
  have hslash : '/' ∉ name.toList := notMem_of_isIdentifier h rfl
  have hempty : name ++ ".rs" ≠ "" := ne_of_extension name (by decide)
  have hdot : name ++ ".rs" ≠ "." := ne_of_extension name (by decide)
  refine ⟨?_, by simp [hslash]⟩
  rw [Path.isName, Bool.and_eq_true, bne_iff_ne, bne_iff_ne]
  exact ⟨hempty, hdot⟩

/-- An identifier with the extension is the name of an entry. -/
theorem isEntryName_extension (h : Source.isIdentifier name.toList = true) :
    IsEntryName (name ++ ".rs") :=
  (isFileName_extension h).isEntryName (ne_of_extension name (by decide))

/-- The file of a folder has the name of a file. -/
theorem isFileName_modFile : Path.IsFileName "mod.rs" := ⟨by decide, by decide⟩

/-- The file of a folder has the name of an entry. -/
theorem isEntryName_modFile : IsEntryName "mod.rs" := ⟨by decide, by decide⟩

/-! ## Stems and search directories -/

/-- The stem of a file with the extension. -/
theorem stem_extension (path : Path) (hname : name ≠ "") :
    (path.entry (name ++ ".rs")).stem = name := by
  have hne : name.toList ≠ [] := fun hnil => hname (String.toList_eq_nil_iff.mp hnil)
  have hpositive : 0 < name.toList.length := List.length_pos_iff.mpr hne
  have hstart : Path.suffixStart? (name.toList ++ ['.', 'r', 's']) = some name.toList.length := by
    have hdot : (name.toList ++ ['.', 'r', 's']).reverse.findIdx? (· == '.') = some 2 := by
      simp [List.findIdx?_cons]
    simp only [Path.suffixStart?, hdot]
    simp [hpositive]
  simp only [Path.stem, Path.name_entry, toList_extension, hstart]
  rw [List.take_left, String.ofList_toList]

/-- The file of a folder is called `mod`. -/
theorem stem_modFile (path : Path) : (path.entry "mod.rs").stem = "mod" := by
  have hstart : Path.suffixStart? "mod.rs".toList = some 3 := by decide
  simp only [Path.stem, Path.name_entry, hstart]
  rfl

/-- The modules of a file that stands beside its siblings are looked up in the directory of its
name. -/
theorem searchDir_flat (path : Path) (h : Source.isIdentifier name.toList = true)
    (howner : name ∉ ownerStems) :
    searchDir (path.entry (name ++ ".rs")) = path.entry name := by
  rw [searchDir, stem_extension path (ne_empty_of_isIdentifier h), if_neg howner,
    Path.parent_entry, (isFileName_of_isIdentifier h).child_eq]

/-- The modules of a file in a folder of its own are looked up in this folder. -/
theorem searchDir_folder (path : Path) : searchDir (path.entry "mod.rs") = path := by
  rw [searchDir, stem_modFile, if_pos (by decide), Path.parent_entry]

/-! ## Candidates -/

/-- A declaration whose file is looked up by its name, and whose name is not one of those that stand
for the directory around them. -/
structure IsConventional (decl : Source.ModuleDecl) : Prop where
  override_eq : decl.override = none
  notMem : decl.name ∉ ownerStems

instance decidableIsConventional : DecidablePred IsConventional := fun decl =>
  decidable_of_iff (decl.override = none ∧ decl.name ∉ ownerStems)
    ⟨fun h => ⟨h.1, h.2⟩, fun h => ⟨h.override_eq, h.notMem⟩⟩

/-- The flat file of an identifier lies in the search directory. -/
theorem flatFile_eq (h : Source.isIdentifier name.toList = true) :
    flatFile file name = (searchDir file).entry (name ++ ".rs") :=
  (isFileName_extension h).child_eq _

/-- The file in the folder of an identifier lies two steps below the search directory. -/
theorem folderFile_eq (h : Source.isIdentifier name.toList = true) :
    folderFile file name = ((searchDir file).entry name).entry "mod.rs" := by
  rw [folderFile, (isFileName_of_isIdentifier h).child_eq, isFileName_modFile.child_eq]

/-- Without an override, the file of a module is the first one of two that is there. -/
theorem moduleFile?_eq (h : IsConventional decl)
    (hname : Source.isIdentifier decl.name.toList = true) :
    moduleFile? tree file decl =
      if isPresent tree ((searchDir file).entry (decl.name ++ ".rs")) then
        some ((searchDir file).entry (decl.name ++ ".rs"))
      else if isPresent tree (((searchDir file).entry decl.name).entry "mod.rs") then
        some (((searchDir file).entry decl.name).entry "mod.rs")
      else none := by
  rw [moduleFile?, h.override_eq]
  simp only [candidates, h.override_eq, flatFile_eq hname, folderFile_eq hname, List.find?_cons,
    List.find?_nil]
  cases isPresent tree ((searchDir file).entry (decl.name ++ ".rs")) <;>
    cases isPresent tree (((searchDir file).entry decl.name).entry "mod.rs") <;> rfl

/-- A file is present exactly if it can be read. -/
theorem isPresent_iff {path : Path} :
    isPresent tree path = true ↔ ∃ content, tree.readBytes path = .ok content := by
  rw [isPresent, FileTree.isFile, FileTree.holds, FileTree.readBytes]
  cases tree.entryOf path with
  | error fault => cases fault <;> simp [Fault.meansAbsent]
  | ok entry => cases entry <;> simp [Entry.isFile]

/-! ## The directory of a crate -/

/-- A stem is the whole name or the beginning of it. -/
theorem stem_eq_or_take (path : Path) :
    path.stem = path.name ∨ ∃ count, path.stem = String.ofList (path.name.toList.take count) := by
  rw [Path.stem]
  split
  · exact .inl rfl
  · exact .inr ⟨_, rfl⟩

/-- A crate root that can be read leads to a directory, and its modules are looked up there or in
one of the directories below. -/
theorem exists_base (htree : tree.IsLinkFree) (hroot : root.IsNormal)
    (hread : tree.readBytes root = .ok content) :
    ∃ base place names, tree.LeadsTo base place ∧ (∀ name ∈ names, IsEntryName name) ∧
      searchDir root = base.below names := by
  obtain ⟨parent, name, directory, rfl, hname, hleads⟩ := htree.exists_entry hroot hread
  have hslash : '/' ∉ (parent.entry name).stem.toList := by
    have hlast : '/' ∉ name.toList := (hroot name (by simp [Path.entry])).2
    obtain hstem | ⟨count, hstem⟩ := stem_eq_or_take (parent.entry name)
    · rwa [hstem, Path.name_entry]
    · rw [hstem, Path.name_entry, String.toList_ofList]
      exact fun hmem => hlast (List.take_subset _ _ hmem)
  rw [searchDir, Path.parent_entry]
  generalize (parent.entry name).stem = stem at hslash
  split
  · exact ⟨parent, directory, [], hleads, by simp, parent.below_nil.symm⟩
  by_cases hproper : Path.isName stem = true
  · have hfile : Path.IsFileName stem := ⟨hproper, hslash⟩
    rw [hfile.child_eq]
    by_cases hup : stem = ".."
    · refine ⟨parent.entry stem, directory.tail, [], ⟨?_, ?_⟩, by simp, (Path.below_nil _).symm⟩
      · refine FileTree.walk_append hleads.walk_eq fun jump => ?_
        rw [hup]
        exact .up hleads.isDirectory (.here _)
      · have hdirectory := FileTree.isDirectoryAt_iff.mp hleads.isDirectory
        exact FileTree.isDirectoryAt_iff.mpr (htree.find?_tail hdirectory)
    · exact ⟨parent, directory, [stem], hleads, by simpa using hfile.isEntryName hup, rfl⟩
  · -- a stem that is no name leaves no trace in the path
    have hempty : Path.ofString stem = ⟨.relative, []⟩ := by
      obtain rfl | rfl : stem = "" ∨ stem = "." := by
        simpa [Path.isName, imp_iff_or_not, or_comm] using hproper
      · decide
      · decide
    refine ⟨parent, directory, [], hleads, by simp, ?_⟩
    rw [Path.child, hempty, Path.join_of_relative, Path.below]

end Layout

end FlatCrate
