import FlatCrate.Proofs.Flatten.FixedPoint
import FlatCrate.Proofs.Layout

/-!
# What a run enters

As long as no path is overridden, all files that a run enters inside of the crate root are files of
modules below one directory.
-/

namespace FlatCrate

open FileTree (IsEntryName)
open Layout (IsConventional moduleFile? searchDir)
open Source (ModuleDecl)

/-! ## What a run enters -/

namespace Expansion

/-- The declarations that are expanded, also those at which the run ends. -/
def expandedDecls : Expansion → List ModuleDecl
  | copied _ rest => rest.expandedDecls
  | kept _ _ rest => rest.expandedDecls
  | spliced decl _ _ body rest => decl :: (body.expandedDecls ++ rest.expandedDecls)
  | broken decl _ _ body => decl :: body.expandedDecls
  | refused decl _ _ _ => [decl]
  | _ => []

/-- The files that are entered inside of the crate root, also those that turn out to be
unreadable. -/
def entered : Expansion → List Path
  | copied _ rest => rest.entered
  | kept _ _ rest => rest.entered
  | spliced _ _ child body rest => child :: (body.entered ++ rest.entered)
  | broken _ _ child body => child :: body.entered
  | _ => []

end Expansion

/-- The file of a task. -/
def Task.path : Task → Path
  | .file path _ => path
  | .lines path _ _ _ => path

section Searched

variable {tree : FileTree} {base file child : Path} {place : Location} {names : List String}
  {decl : ModuleDecl} {run : Expansion} {active : List Location} {task : Task}

/-- The modules of a file are looked up below a directory. -/
def IsSearched (base : Path) (file : Path) : Prop :=
  ∃ names, (∀ name ∈ names, IsEntryName name) ∧ searchDir file = base.below names

/-- One of the two files that a module may have below a directory. -/
def IsModuleFile (base : Path) (names : List String) (name : String) (child : Path) : Prop :=
  child = base.below (names ++ [name ++ ".rs"]) ∨ child = base.below (names ++ [name] ++ ["mod.rs"])

/-- The file of a module is one of the two, and it can be read. -/
theorem isModuleFile_of_moduleFile? (hdecl : IsConventional decl)
    (hname : Source.isIdentifier decl.name.toList = true)
    (hsearch : searchDir file = base.below names)
    (hchild : moduleFile? tree file decl = some child) :
    IsModuleFile base names decl.name child ∧ ∃ content, tree.readBytes child = .ok content := by
  rw [Layout.moduleFile?_eq hdecl hname, hsearch, Path.below_entry, Path.below_entry,
    Path.below_entry] at hchild
  split_ifs at hchild with hflat hfolder
  · obtain rfl := Option.some.inj hchild
    exact ⟨.inl rfl, Layout.isPresent_iff.mp hflat⟩
  · obtain rfl := Option.some.inj hchild
    exact ⟨.inr rfl, Layout.isPresent_iff.mp hfolder⟩

namespace IsModuleFile

variable {name : String}

/-- The modules of both files are looked up in the same directory. -/
theorem searchDir_eq (h : IsModuleFile base names name child)
    (hname : Source.isIdentifier name.toList = true) (howner : name ∉ Layout.ownerStems) :
    searchDir child = base.below (names ++ [name]) := by
  obtain rfl | rfl := h
  · rw [← Path.below_entry, Layout.searchDir_flat _ hname howner, Path.below_entry]
  · rw [← Path.below_entry, Layout.searchDir_folder]

/-- An identifier behind names of entries is one of them. -/
theorem isEntryName_append (hnames : ∀ n ∈ names, IsEntryName n)
    (hname : Source.isIdentifier name.toList = true) : ∀ n ∈ names ++ [name], IsEntryName n := by
  intro n hn
  obtain hn | hn := List.mem_append.mp hn
  · exact hnames n hn
  · exact List.mem_singleton.mp hn ▸ Layout.isEntryName_of_isIdentifier hname

/-- The file of a module is searched in the directory of the module around it. -/
theorem isSearched (h : IsModuleFile base names name child) (hnames : ∀ n ∈ names, IsEntryName n)
    (hname : Source.isIdentifier name.toList = true) (howner : name ∉ Layout.ownerStems) :
    IsSearched base child :=
  ⟨names ++ [name], isEntryName_append hnames hname, h.searchDir_eq hname howner⟩

end IsModuleFile

/-- All files that are entered are files of modules below one directory. They are different from the
ones that are being spliced. -/
theorem Yields.exists_isModuleFile (hyields : Yields tree active task run)
    (hplain : task.IsPlain) (hsearched : IsSearched base task.path)
    (hdecls : ∀ decl ∈ run.expandedDecls, IsConventional decl) :
    ∀ child ∈ run.entered, ∃ names name, (∀ n ∈ names, IsEntryName n) ∧
      Source.isIdentifier name.toList = true ∧ IsModuleFile base names name child ∧
      (∃ content, tree.readBytes child = .ok content) ∧
      ∃ location, tree.realLocation child = some location ∧ location ∉ active := by
  induction hyields with
  | read hsource _ _ ih =>
    intro child hchild
    obtain ⟨names, name, hnames, hname, hfile, hread, location, hlocation, hnot⟩ :=
      ih (isPlainLine_of_sourceOf? hsource) hsearched hdecls child hchild
    exact ⟨names, name, hnames, hname, hfile, hread, location, hlocation,
      List.not_mem_of_not_mem_cons hnot⟩
  | copied _ _ ih => exact ih (fun l hl => hplain l (List.mem_cons_of_mem _ hl)) hsearched hdecls
  | kept _ _ _ ih => exact ih (fun l hl => hplain l (List.mem_cons_of_mem _ hl)) hsearched hdecls
  | @spliced active _ child _ _ _ _ _ _ decl body rest hscan _ htarget _ _ _ ihBody ihRest =>
    rw [Expansion.expandedDecls, List.forall_mem_cons, List.forall_mem_append] at hdecls
    obtain ⟨hdecl, hbody, hrest⟩ := hdecls
    have hname := isIdentifier_of_scanLine hscan (hplain _ List.mem_cons_self)
    obtain ⟨hfile, location, hlocation, hnot⟩ := target_eq_ok_iff.mp htarget
    obtain ⟨names, hnames, hsearch⟩ := hsearched
    obtain ⟨hchild, hread⟩ := isModuleFile_of_moduleFile? hdecl hname hsearch hfile
    rw [Expansion.entered, List.forall_mem_cons, List.forall_mem_append]
    exact ⟨⟨names, decl.name, hnames, hname, hchild, hread, location, hlocation, hnot⟩,
      ihBody trivial (hchild.isSearched hnames hname hdecl.notMem) hbody,
      ihRest (fun l hl => hplain l (List.mem_cons_of_mem _ hl)) ⟨names, hnames, hsearch⟩ hrest⟩
  | @broken active _ child _ _ _ _ _ _ decl body hscan _ htarget _ _ ih =>
    rw [Expansion.expandedDecls, List.forall_mem_cons] at hdecls
    obtain ⟨hdecl, hbody⟩ := hdecls
    have hname := isIdentifier_of_scanLine hscan (hplain _ List.mem_cons_self)
    obtain ⟨hfile, location, hlocation, hnot⟩ := target_eq_ok_iff.mp htarget
    obtain ⟨names, hnames, hsearch⟩ := hsearched
    obtain ⟨hchild, hread⟩ := isModuleFile_of_moduleFile? hdecl hname hsearch hfile
    rw [Expansion.entered, List.forall_mem_cons]
    exact ⟨⟨names, decl.name, hnames, hname, hchild, hread, location, hlocation, hnot⟩,
      ih trivial (hchild.isSearched hnames hname hdecl.notMem) hbody⟩
  | _ => simp [Expansion.entered]

end Searched

end FlatCrate
