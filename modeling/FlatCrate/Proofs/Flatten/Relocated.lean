import FlatCrate.Proofs.FileTree.Folder
import FlatCrate.Proofs.Flatten.Entered
import FlatCrate.Proofs.Flatten.Renamed

/-!
# Runs over a file in a new place

The file of a module moves from `n.rs` to `n/mod.rs` below the directory in which the modules of a
crate are looked up. Its own modules are looked up in the same directory as before, and nothing else
is ever looked up at the two places. So the run over the new tree is the old run with one path
renamed.
-/

namespace FlatCrate

open Expansion (sourceOf? target)
open FileTree (IsEntryName flatSpot folderSpot maxPathBytes)
open Layout (IsConventional isPresent moduleFile? searchDir)
open Source (ModuleDecl)

/-! ## One file in a new place -/

/-- The file of a module below a directory can move into a folder, also as far as the length of its
path is concerned. -/
structure IsRelocated (tree : FileTree) (base : Path) (place : Location) (above : List String)
    (name : String) (content : ByteArray) : Prop where
  isLinkFree : tree.IsLinkFree
  leadsTo : tree.LeadsTo base place
  isEntryName : ∀ n ∈ above, IsEntryName n
  isIdentifier : Source.isIdentifier name.toList = true
  ne_mod : name ≠ "mod"
  isMovable : tree.IsMovable (above.reverse ++ place) name content
  isReadable : tree.readBytes (base.below (above ++ [name ++ ".rs"])) = .ok content
  isShort : (base.below (above ++ [name] ++ ["mod.rs"])).toString.utf8ByteSize ≤ maxPathBytes

/-- The path of a file after one of them has moved. -/
def relocate (base : Path) (above : List String) (name : String) (path : Path) : Path :=
  if path = base.below (above ++ [name ++ ".rs"]) then base.below (above ++ [name] ++ ["mod.rs"])
  else path

/-- The location of a file after one of them has moved. -/
def relocateSpot (directory : Location) (name : String) (location : Location) : Location :=
  if location = flatSpot directory name then folderSpot directory name else location

namespace IsRelocated

variable {tree : FileTree} {base file child : Path} {place : Location} {above names : List String}
  {name module : String} {content bytes : ByteArray} {decl : ModuleDecl}

/-- The location of a flat file below a place. -/
theorem spell_flat (names : List String) (module : String) (place : Location) :
    (names ++ [module ++ ".rs"]).reverse ++ place = flatSpot (names.reverse ++ place) module := by
  simp [flatSpot]

/-- The location of a file in a folder below a place. -/
theorem spell_folder (names : List String) (module : String) (place : Location) :
    (names ++ [module] ++ ["mod.rs"]).reverse ++ place =
      folderSpot (names.reverse ++ place) module := by
  simp [folderSpot]

/-- Names below a place are told by their location. -/
theorem eq_of_spell {others : List String} (h : names.reverse ++ place = others.reverse ++ place) :
    names = others :=
  List.reverse_injective (List.append_cancel_right h)

/-- The names that lead to a flat file are those of entries. -/
theorem isEntryName_flat (hnames : ∀ n ∈ names, IsEntryName n)
    (hmodule : Source.isIdentifier module.toList = true) :
    ∀ n ∈ names ++ [module ++ ".rs"], IsEntryName n := by
  rw [List.forall_mem_append, List.forall_mem_singleton]
  exact ⟨hnames, Layout.isEntryName_extension hmodule⟩

/-- The names that lead to a file in a folder are those of entries. -/
theorem isEntryName_folder (hnames : ∀ n ∈ names, IsEntryName n)
    (hmodule : Source.isIdentifier module.toList = true) :
    ∀ n ∈ names ++ [module] ++ ["mod.rs"], IsEntryName n := by
  rw [List.forall_mem_append, List.forall_mem_singleton]
  exact ⟨IsModuleFile.isEntryName_append hnames hmodule, Layout.isEntryName_modFile⟩

/-- The moved file is read at its new place. -/
theorem readBytes_moved (h : IsRelocated tree base place above name content) :
    (tree.intoFolder (above.reverse ++ place) name).readBytes
      (base.below (above ++ [name] ++ ["mod.rs"])) = .ok content := by
  rw [(h.isMovable.isLinkFree h.isLinkFree).readBytes_below_iff
    (h.isMovable.leadsTo h.isLinkFree h.leadsTo) (isEntryName_folder h.isEntryName h.isIdentifier)]
  exact ⟨h.isShort, spell_folder above name place ▸ h.isMovable.find?_folderSpot⟩

/-- Every file below the directory is read as before, and one of them is somewhere else. -/
theorem readBytes_relocate (h : IsRelocated tree base place above name content)
    (hnames : ∀ n ∈ names, IsEntryName n) (hread : tree.readBytes (base.below names) = .ok bytes) :
    (tree.intoFolder (above.reverse ++ place) name).readBytes
        (relocate base above name (base.below names)) = .ok bytes ∧
      (tree.intoFolder (above.reverse ++ place) name).realLocation
          (relocate base above name (base.below names)) =
        (tree.realLocation (base.below names)).map
          (relocateSpot (above.reverse ++ place) name) := by
  have hlocation := h.isLinkFree.realLocation_below h.leadsTo hnames hread
  by_cases hsame : names = above ++ [name ++ ".rs"]
  · subst hsame
    obtain rfl := Except.ok.inj (h.isReadable.symm.trans hread)
    have hmoved := h.readBytes_moved
    rw [relocate, if_pos rfl, hlocation, Option.map_some, relocateSpot,
      if_pos (spell_flat above name place)]
    refine ⟨hmoved, ?_⟩
    rw [(h.isMovable.isLinkFree h.isLinkFree).realLocation_below
      (h.isMovable.leadsTo h.isLinkFree h.leadsTo)
      (isEntryName_folder h.isEntryName h.isIdentifier) hmoved, spell_folder]
  · have hflat : names.reverse ++ place ≠ flatSpot (above.reverse ++ place) name := by
      rw [← spell_flat]
      exact fun heq => hsame (eq_of_spell heq)
    rw [relocate, if_neg fun heq => hsame (Path.below_inj heq), hlocation, Option.map_some,
      relocateSpot, if_neg hflat, ← hlocation]
    exact h.isMovable.readBytes_other h.isLinkFree h.leadsTo hnames hflat hread

/-- Another file of a module is present as before. -/
theorem isPresent_iff_of_ne (h : IsRelocated tree base place above name content)
    (hnames : ∀ n ∈ names, IsEntryName n)
    (hflat : names.reverse ++ place ≠ flatSpot (above.reverse ++ place) name)
    (hspot : names.reverse ++ place ≠ folderSpot (above.reverse ++ place) name) :
    isPresent (tree.intoFolder (above.reverse ++ place) name) (base.below names) =
      isPresent tree (base.below names) := by
  rw [Bool.eq_iff_iff, Layout.isPresent_iff, Layout.isPresent_iff]
  simp only [h.isMovable.readBytes_below_iff h.isLinkFree h.leadsTo hnames hflat hspot]

/-- A file in a folder is not the one that moves. -/
theorem relocate_folder (hmod : name ≠ "mod") (names : List String) :
    relocate base above name (base.below (names ++ ["mod.rs"])) =
      base.below (names ++ ["mod.rs"]) := by
  refine if_neg fun heq => hmod ?_
  obtain ⟨-, hmodule⟩ := List.append_inj' (Path.below_inj heq) rfl
  have hfile : "mod" ++ ".rs" = name ++ ".rs" := (List.cons.inj hmodule).1
  exact ((String.append_left_inj _).mp hfile).symm

/-- A declaration finds the same file, and perhaps somewhere else. -/
theorem moduleFile?_relocate (h : IsRelocated tree base place above name content)
    (hdecl : IsConventional decl) (hname : Source.isIdentifier decl.name.toList = true)
    (hnames : ∀ n ∈ names, IsEntryName n) (hsearch : searchDir file = base.below names)
    {other : Path} (hother : searchDir other = searchDir file) :
    moduleFile? (tree.intoFolder (above.reverse ++ place) name) other decl =
      (moduleFile? tree file decl).map (relocate base above name) := by
  have hmod : decl.name ≠ "mod" := fun heq => hdecl.notMem (by rw [heq]; decide)
  rw [Layout.moduleFile?_eq hdecl hname, Layout.moduleFile?_eq hdecl hname, hother, hsearch,
    Path.below_entry, Path.below_entry, Path.below_entry]
  by_cases hsame : names = above ∧ decl.name = name
  · obtain ⟨rfl, hmodule⟩ := hsame
    rw [hmodule]
    have hbefore : isPresent tree (base.below (names ++ [name ++ ".rs"])) = true :=
      Layout.isPresent_iff.mpr ⟨_, h.isReadable⟩
    have hafter : isPresent (tree.intoFolder (names.reverse ++ place) name)
        (base.below (names ++ [name ++ ".rs"])) ≠ true := by
      rw [ne_eq, Layout.isPresent_iff]
      rintro ⟨bytes, hread⟩
      rw [(h.isMovable.isLinkFree h.isLinkFree).readBytes_below_iff
        (h.isMovable.leadsTo h.isLinkFree h.leadsTo)
        (isEntryName_flat h.isEntryName h.isIdentifier), spell_flat, h.isMovable.find?_flatSpot]
        at hread
      simp at hread
    have hmoved : isPresent (tree.intoFolder (names.reverse ++ place) name)
        (base.below (names ++ [name] ++ ["mod.rs"])) = true :=
      Layout.isPresent_iff.mpr ⟨_, h.readBytes_moved⟩
    rw [if_neg hafter, if_pos hmoved, if_pos hbefore, Option.map_some, relocate, if_pos rfl]
  · have hflat : isPresent (tree.intoFolder (above.reverse ++ place) name)
        (base.below (names ++ [decl.name ++ ".rs"])) =
          isPresent tree (base.below (names ++ [decl.name ++ ".rs"])) := by
      refine h.isPresent_iff_of_ne (isEntryName_flat hnames hname) (fun heq => hsame ?_)
        fun heq => hmod (FileTree.eq_mod_of_flatSpot_eq (spell_flat .. ▸ heq))
      obtain ⟨hmodule, hdirectory⟩ := FileTree.flatSpot_inj (spell_flat .. ▸ heq)
      exact ⟨eq_of_spell hdirectory, hmodule⟩
    have hfolder : isPresent (tree.intoFolder (above.reverse ++ place) name)
        (base.below (names ++ [decl.name] ++ ["mod.rs"])) =
          isPresent tree (base.below (names ++ [decl.name] ++ ["mod.rs"])) := by
      refine h.isPresent_iff_of_ne (isEntryName_folder hnames hname)
        (fun heq => h.ne_mod (FileTree.eq_mod_of_flatSpot_eq (spell_folder .. ▸ heq).symm))
        fun heq => hsame ?_
      obtain ⟨hmodule, hdirectory⟩ := FileTree.folderSpot_inj (spell_folder .. ▸ heq)
      exact ⟨eq_of_spell hdirectory, hmodule⟩
    have hkeepFlat : relocate base above name (base.below (names ++ [decl.name ++ ".rs"])) =
        base.below (names ++ [decl.name ++ ".rs"]) := by
      refine if_neg fun heq => hsame ?_
      obtain ⟨hdirectory, hmodule⟩ := List.append_inj' (Path.below_inj heq) rfl
      exact ⟨hdirectory, (String.append_left_inj _).mp (List.cons.inj hmodule).1⟩
    rw [hflat, hfolder]
    split_ifs <;>
      simp only [Option.map_some, Option.map_none, hkeepFlat, relocate_folder h.ne_mod]

/-- A file of a module is one when it has been moved, too. -/
theorem isModuleFile_relocate (hmod : name ≠ "mod")
    (h : IsModuleFile base names module child) :
    IsModuleFile base names module (relocate base above name child) := by
  obtain rfl | rfl := h
  · rw [relocate]
    split_ifs with hmoved
    · obtain ⟨rfl, hmodule⟩ := List.append_inj' (Path.below_inj hmoved) rfl
      obtain rfl : module = name := (String.append_left_inj _).mp (List.cons.inj hmodule).1
      exact .inr rfl
    · exact .inl rfl
  · rw [relocate_folder hmod]
    exact .inr rfl

/-- Different files are at different locations after the move. -/
theorem relocateSpot_inj (h : IsRelocated tree base place above name content)
    {location other : Location} (hlocation : tree.find? location = some (.file bytes))
    {others : ByteArray} (hother : tree.find? other = some (.file others))
    (heq : relocateSpot (above.reverse ++ place) name location =
      relocateSpot (above.reverse ++ place) name other) : location = other := by
  have hfree := h.isMovable.free
  rw [relocateSpot, relocateSpot] at heq
  split_ifs at heq with hleft hright hright
  · rw [hleft, hright]
  · simp [← heq, hfree] at hother
  · simp [heq, hfree] at hlocation
  · exact heq

end IsRelocated

/-! ## The run over the new tree -/

/-- What is the same of a file in both trees: where its modules are looked up, and what is read. -/
structure IsKept (tree : FileTree) (base : Path) (place : Location) (above : List String)
    (name : String) (file : Path) : Prop where
  isSearched : IsSearched base file
  searchDir_eq : searchDir (relocate base above name file) = searchDir file
  readBytes_eq : (tree.intoFolder (above.reverse ++ place) name).readBytes
    (relocate base above name file) = tree.readBytes file
  realLocation_eq : (tree.intoFolder (above.reverse ++ place) name).realLocation
    (relocate base above name file) =
      (tree.realLocation file).map (relocateSpot (above.reverse ++ place) name)

section Relocated

variable {tree : FileTree} {base file child path : Path} {place : Location} {above : List String}
  {name : String} {content : ByteArray} {decl : ModuleDecl} {active : List Location}
  {task : Task} {run : Expansion} {fault : SpliceFault}

/-- A file is read as before at the place to which it has been moved. -/
theorem IsKept.sourceOf?_eq (h : IsKept tree base place above name file) :
    sourceOf? (tree.intoFolder (above.reverse ++ place) name) (relocate base above name file) =
      sourceOf? tree file := by
  rw [sourceOf?, sourceOf?, h.readBytes_eq]

namespace IsRelocated

/-- The file of a declaration is kept, if the declaring file is. -/
theorem isKept_child (h : IsRelocated tree base place above name content)
    (hfile : IsKept tree base place above name file) (hdecl : IsConventional decl)
    (hname : Source.isIdentifier decl.name.toList = true)
    (hchild : moduleFile? tree file decl = some child) :
    IsKept tree base place above name child := by
  obtain ⟨names, hnames, hsearch⟩ := hfile.isSearched
  obtain ⟨hmodule, bytes, hread⟩ := isModuleFile_of_moduleFile? hdecl hname hsearch hchild
  have hspelled : ∃ others, (∀ n ∈ others, IsEntryName n) ∧ child = base.below others := by
    obtain rfl | rfl := hmodule
    · exact ⟨_, isEntryName_flat hnames hname, rfl⟩
    · exact ⟨_, isEntryName_folder hnames hname, rfl⟩
  obtain ⟨others, hothers, rfl⟩ := hspelled
  obtain ⟨hafter, hlocation⟩ := h.readBytes_relocate hothers hread
  refine ⟨hmodule.isSearched hnames hname hdecl.notMem, ?_, hafter.trans hread.symm, hlocation⟩
  rw [hmodule.searchDir_eq hname hdecl.notMem,
    (isModuleFile_relocate h.ne_mod hmodule).searchDir_eq hname hdecl.notMem]

/-- A declaration leads to the file at the place to which that has been moved. -/
theorem target_relocate_ok (h : IsRelocated tree base place above name content)
    (hfile : IsKept tree base place above name file) (hdecl : IsConventional decl)
    (hname : Source.isIdentifier decl.name.toList = true)
    (hactive : ∀ location ∈ active, ∃ bytes, tree.find? location = some (.file bytes))
    (htarget : target tree active file decl = .ok child) :
    target (tree.intoFolder (above.reverse ++ place) name)
      (active.map (relocateSpot (above.reverse ++ place) name)) (relocate base above name file)
      decl = .ok (relocate base above name child) := by
  obtain ⟨hchild, location, hlocation, hnot⟩ := target_eq_ok_iff.mp htarget
  obtain ⟨names, hnames, hsearch⟩ := hfile.isSearched
  have hkept := h.isKept_child hfile hdecl hname hchild
  refine target_eq_ok_iff.mpr ⟨?_, relocateSpot (above.reverse ++ place) name location, ?_, ?_⟩
  · rw [h.moduleFile?_relocate hdecl hname hnames hsearch hfile.searchDir_eq, hchild]
    rfl
  · rw [hkept.realLocation_eq, hlocation]
    rfl
  · intro hmem
    obtain ⟨other, hother, heq⟩ := List.mem_map.mp hmem
    obtain ⟨others, hfind⟩ := hactive other hother
    obtain ⟨-, bytes, hread⟩ := isModuleFile_of_moduleFile? hdecl hname hsearch hchild
    obtain ⟨place, hplace, hplaceFile⟩ := FileTree.realLocation_of_readBytes hread
    obtain rfl := Option.some.inj (hlocation.symm.trans hplace)
    exact hnot (h.relocateSpot_inj hfind hplaceFile heq ▸ hother)

/-- A declaration without a file to splice in has none behind the move. -/
theorem target_relocate_error (h : IsRelocated tree base place above name content)
    (hfile : IsKept tree base place above name file) (hdecl : IsConventional decl)
    (hname : Source.isIdentifier decl.name.toList = true)
    (htarget : target tree active file decl = .error (fault, path)) :
    target (tree.intoFolder (above.reverse ++ place) name)
      (active.map (relocateSpot (above.reverse ++ place) name)) (relocate base above name file)
      decl = .error (fault, relocate base above name path) := by
  obtain ⟨names, hnames, hsearch⟩ := hfile.isSearched
  have hmodule := h.moduleFile?_relocate hdecl hname hnames hsearch hfile.searchDir_eq
  have hcases := htarget ▸ targets_target tree active file decl
  cases hcases with
  | missing hchild =>
    have hfolder : relocate base above name (Layout.folderFile file decl.name) =
        Layout.folderFile (relocate base above name file) decl.name := by
      rw [Layout.folderFile_eq hname, Layout.folderFile_eq hname, hfile.searchDir_eq, hsearch,
        Path.below_entry, Path.below_entry, relocate_folder h.ne_mod]
    simp only [target, hmodule, hchild, Option.map_none, hfolder]
  | lost hchild hlocation =>
    have hkept := (h.isKept_child hfile hdecl hname hchild).realLocation_eq
    simp only [target, hmodule, hchild, Option.map_some, hkept, hlocation, Option.map_none]
  | cycle hchild hlocation hmem =>
    have hkept := (h.isKept_child hfile hdecl hname hchild).realLocation_eq
    simp only [target, hmodule, hchild, Option.map_some, hkept, hlocation,
      if_pos (List.mem_map_of_mem hmem)]

end IsRelocated

/-- The run over the new tree is the old run with the path of the moved file renamed. -/
theorem Yields.relocate (h : IsRelocated tree base place above name content)
    (hyields : Yields tree active task run) (hplain : task.IsPlain)
    (htask : IsKept tree base place above name task.path)
    (hactive : ∀ location ∈ active, ∃ bytes, tree.find? location = some (.file bytes))
    (hdecls : ∀ decl ∈ run.expandedDecls, IsConventional decl) :
    Yields (tree.intoFolder (above.reverse ++ place) name)
      (active.map (relocateSpot (above.reverse ++ place) name))
      (task.rename (FlatCrate.relocate base above name))
      (run.rename (FlatCrate.relocate base above name)) := by
  induction hyields with
  | unreadable hsource => exact .unreadable (htask.sourceOf?_eq.trans hsource)
  | @read active file budget source location _ hsource hlocation _ ih =>
    have hlocation' := htask.realLocation_eq
    rw [Task.path, hlocation, Option.map_some] at hlocation'
    refine .read (htask.sourceOf?_eq.trans hsource) hlocation' ?_
    refine ih (isPlainLine_of_sourceOf? hsource) htask ?_ hdecls
    exact List.forall_mem_cons.mpr ⟨find?_of_sourceOf? hsource hlocation, hactive⟩
  | finished => exact .finished
  | unsupported hscan => exact .unsupported hscan
  | copied hscan _ ih =>
    exact .copied hscan (ih (fun l hl => hplain l (List.mem_cons_of_mem _ hl)) htask hactive hdecls)
  | kept hscan hspend _ ih =>
    exact .kept hscan hspend
      (ih (fun l hl => hplain l (List.mem_cons_of_mem _ hl)) htask hactive hdecls)
  | refused hscan hspend htarget =>
    have hname := isIdentifier_of_scanLine hscan (hplain _ List.mem_cons_self)
    have hdecl := hdecls _ (List.mem_singleton_self _)
    exact .refused hscan hspend (h.target_relocate_error htask hdecl hname htarget)
  | spliced hscan hspend htarget _ hcomplete _ ihBody ihRest =>
    rw [Expansion.expandedDecls, List.forall_mem_cons, List.forall_mem_append] at hdecls
    obtain ⟨hdecl, hbody, hrest⟩ := hdecls
    have hname := isIdentifier_of_scanLine hscan (hplain _ List.mem_cons_self)
    have hchild := h.isKept_child htask hdecl hname (target_eq_ok_iff.mp htarget).1
    exact .spliced hscan hspend (h.target_relocate_ok htask hdecl hname hactive htarget)
      (ihBody trivial hchild hactive hbody) ((Expansion.isComplete_rename _ _).trans hcomplete)
      (ihRest (fun l hl => hplain l (List.mem_cons_of_mem _ hl)) htask hactive hrest)
  | broken hscan hspend htarget _ hbroken ih =>
    rw [Expansion.expandedDecls, List.forall_mem_cons] at hdecls
    obtain ⟨hdecl, hbody⟩ := hdecls
    have hname := isIdentifier_of_scanLine hscan (hplain _ List.mem_cons_self)
    have hchild := h.isKept_child htask hdecl hname (target_eq_ok_iff.mp htarget).1
    exact .broken hscan hspend (h.target_relocate_ok htask hdecl hname hactive htarget)
      (ih trivial hchild hactive hbody) ((Expansion.isComplete_rename _ _).trans hbroken)

/-- A crate root that stands somewhere else is kept, and its path too. -/
theorem IsRelocated.isKept_root (h : IsRelocated tree base place above name content)
    {root : Path} {spot : Location} {bytes : ByteArray} (hroot : root.IsNormal)
    (hsearched : IsSearched base root) (hread : tree.readBytes root = .ok bytes)
    (hspot : tree.realLocation root = some spot)
    (hother : spot ≠ flatSpot (above.reverse ++ place) name) :
    FlatCrate.relocate base above name root = root ∧
      IsKept tree base place above name root := by
  have hkeep : FlatCrate.relocate base above name root = root := by
    refine if_neg fun heq => hother ?_
    rw [heq, h.isLinkFree.realLocation_below h.leadsTo
      (IsRelocated.isEntryName_flat h.isEntryName h.isIdentifier) h.isReadable,
      IsRelocated.spell_flat] at hspot
    exact (Option.some.inj hspot).symm
  obtain ⟨parent, last, directory, rfl, hlast, hleads⟩ := h.isLinkFree.exists_entry hroot hread
  have hnames : ∀ n ∈ [last], IsEntryName n := List.forall_mem_singleton.mpr hlast
  have hlocation := h.isLinkFree.realLocation_below hleads hnames hread
  obtain rfl := Option.some.inj (hspot.symm.trans hlocation)
  obtain ⟨hafter, hsame⟩ :=
    h.isMovable.readBytes_other h.isLinkFree hleads hnames hother hread
  refine ⟨hkeep, hsearched, ?_, ?_, ?_⟩ <;> rw [hkeep]
  · exact hafter.trans hread.symm
  · refine hsame.trans ?_
    rw [hspot, hlocation, Option.map_some, relocateSpot, if_neg hother]

end Relocated

end FlatCrate
