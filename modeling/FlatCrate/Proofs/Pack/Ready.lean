import FlatCrate.Proofs.FileTree.NewDirectory
import FlatCrate.Proofs.FileTree.Without
import FlatCrate.Proofs.Pack.Placed

/-!
# Files that can be staged and moved

Files of a directory can be staged if their names fit and nothing is in the way. Whether they can
also be moved depends on their order. A file that comes to the name of a link takes its place, and
if the path of the directory goes through that link, the files behind it cannot be reached any more.
So all files can be moved exactly if the path does without what stands under their names, the last
one apart.
-/

namespace FlatCrate.Pack

open FileTree (IsEntryName maxNameBytes maxPathBytes)

variable {tree prepared after : FileTree} {path : Path} {directory : Location}
  {names : List String} {files : List (String × String)} {staged : List (Path × Path)}

/-- Staging names in a directory. -/
theorem stagingPath?_entry_eq_some_iff {name : String} {temporary : Path} :
    stagingPath? (path.entry name) = some temporary ↔
      (path.entry name).holdsZero = false ∧ temporary = path.entry (name ++ stagingSuffix) := by
  rw [stagingPath?_eq_some_iff, Path.name_entry]
  simp [Path.entry]

/-- A file of a directory is staged in that directory. -/
theorem exists_directory_of_staging {name : String} {temporary : Path} {location : Location}
    (htemporary : stagingPath? (path.entry name) = some temporary)
    (hslot : tree.slotOf? temporary = some location) :
    (path.entry name).holdsZero = false ∧
      (path.entry (name ++ stagingSuffix)).toString.utf8ByteSize ≤ maxPathBytes ∧
      ∃ directory, tree.LeadsTo path directory ∧
        location = (name ++ stagingSuffix) :: directory := by
  obtain ⟨hzero, rfl⟩ := stagingPath?_entry_eq_some_iff.mp htemporary
  obtain ⟨directory, hlocation, hleads, -, -, hshort⟩ :=
    FileTree.slotOf?_entry_eq_some_iff.mp hslot
  exact ⟨hzero, hshort, directory, hleads, hlocation⟩

/-- What is staged is told by the names of the files. -/
theorem Staged.eq_map (h : Staged tree (outputsIn path files) staged after) :
    staged = (files.map (·.1)).map fun name =>
      (path.entry (name ++ stagingSuffix), path.entry name) := by
  induction files generalizing tree staged with
  | nil =>
    cases h
    rfl
  | cons file files ih =>
    rw [outputsIn, List.map_cons, ← outputsIn] at h
    cases h with
    | cons htemporary _ hrest =>
      rw [ih hrest, (stagingPath?_entry_eq_some_iff.mp htemporary).2]
      rfl

/-- A staging name is always the name of an entry. -/
theorem isEntryName_append_stagingSuffix (name : String) : IsEntryName (name ++ stagingSuffix) := by
  have hne {other : String} (hshort : other.length < 4) : name ++ stagingSuffix ≠ other := by
    rintro rfl
    rw [String.length_append] at hshort
    exact absurd hshort (Nat.not_lt.mpr (Nat.le_add_left 4 _))
  exact ⟨not_or.mpr ⟨hne (by decide), hne (by decide)⟩, hne (by decide)⟩

/-! ## Names that fit -/

/-- A file can have a name in the directory of a path, and also be staged there. -/
structure Fits (path : Path) (name : String) : Prop where
  isEntryName : IsEntryName name
  noZero : (path.entry name).holdsZero = false
  isShort : (name ++ stagingSuffix).utf8ByteSize ≤ maxNameBytes
  isShortPath : (path.entry (name ++ stagingSuffix)).toString.utf8ByteSize ≤ maxPathBytes

namespace Fits

variable {name : String}

/-- A name that fits is staged under its staging name. -/
theorem stagingPath?_eq (h : Fits path name) :
    stagingPath? (path.entry name) = some (path.entry (name ++ stagingSuffix)) :=
  stagingPath?_entry_eq_some_iff.mpr ⟨h.noZero, rfl⟩

/-- A name that fits is not empty. -/
theorem ne_empty (h : Fits path name) : name ≠ "" := fun heq => h.isEntryName.1 (.inl heq)

/-- The staging path of a name that fits leads into the directory. -/
theorem slotOf?_staging (h : Fits path name) (hleads : tree.LeadsTo path directory) :
    tree.slotOf? (path.entry (name ++ stagingSuffix)) =
      some ((name ++ stagingSuffix) :: directory) :=
  FileTree.slotOf?_entry_eq_some_iff.mpr ⟨directory, rfl, hleads,
    (isEntryName_append_stagingSuffix name).2, h.isShort, h.isShortPath⟩

/-- The path of a name that fits leads into the directory. -/
theorem slotOf?_target (h : Fits path name) (hleads : tree.LeadsTo path directory) :
    tree.slotOf? (path.entry name) = some (name :: directory) := by
  have hle : name.utf8ByteSize ≤ (name ++ stagingSuffix).utf8ByteSize := by
    rw [String.utf8ByteSize_append]
    exact Nat.le_add_right _ _
  have hpath := path.utf8ByteSize_toString_entry_mono h.ne_empty
    (fun heq => (isEntryName_append_stagingSuffix name).1 (.inl heq)) hle
  exact FileTree.slotOf?_entry_eq_some_iff.mpr ⟨directory, rfl, hleads, h.isEntryName.2,
    Nat.le_trans hle h.isShort, Nat.le_trans hpath h.isShortPath⟩

/-- A file is staged where nothing but a file may have been. -/
theorem writeText_staging (h : Fits path name) (hleads : tree.LeadsTo path directory)
    (hfile : ∀ entry ∈ tree.find? ((name ++ stagingSuffix) :: directory), entry.isFile = true)
    (text : String) :
    tree.writeText (path.entry (name ++ stagingSuffix)) text =
      .ok (tree.put ((name ++ stagingSuffix) :: directory) (.file text.toUTF8)) := by
  have hplain : ∀ target,
      tree.find? ((name ++ stagingSuffix) :: directory) ≠ some (.link target) :=
    fun target hlink => Bool.false_ne_true (hfile _ hlink)
  rw [FileTree.writeText, FileTree.writeBytes, hleads.locate_entry
    (isEntryName_append_stagingSuffix name) h.isShort h.isShortPath hplain]
  cases hfind : tree.find? ((name ++ stagingSuffix) :: directory) with
  | none => rfl
  | some entry =>
    cases entry with
    | file content => simp [hfind]
    | directory => exact absurd (hfile _ hfind) Bool.false_ne_true
    | link target => exact absurd hfind (hplain target)

end Fits

/-- Files whose names fit can be staged where there are only files. -/
theorem exists_stage (hleads : tree.LeadsTo path directory)
    (hfits : ∀ file ∈ files, Fits path file.1)
    (hfiles : ∀ file ∈ files, ∀ entry ∈ tree.find? ((file.1 ++ stagingSuffix) :: directory),
      entry.isFile = true)
    (staged : List (Path × Path)) :
    ∃ prepared all, stage tree staged (outputsIn path files) = (prepared, .ok all) := by
  induction files generalizing tree staged with
  | nil => exact ⟨tree, staged, rfl⟩
  | cons file files ih =>
    obtain ⟨hfit, hfits'⟩ := List.forall_mem_cons.mp hfits
    obtain ⟨hfile, hfiles'⟩ := List.forall_mem_cons.mp hfiles
    have hwrite := hfit.writeText_staging hleads hfile file.2
    have hways := FileTree.sameWays_writeBytes hwrite
    rw [outputsIn, List.map_cons, ← outputsIn, stage, hfit.stagingPath?_eq]
    simp only [FileTree.writeOn_sound_of_writeText hwrite]
    refine ih (hways.leadsTo hleads) hfits' (fun other hother entry hentry => ?_) _
    by_contra hplain
    rw [Bool.not_eq_true] at hplain
    have hbefore := hfiles' other hother entry ((hways.find?_iff _ entry hplain).mp hentry)
    exact Bool.false_ne_true (hplain.symm.trans hbefore)

/-! ## Moving staged files -/

/-- Files with different names are staged in a directory in which they can have these names. -/
structure AreStaged (tree : FileTree) (path : Path) (directory : Location) (names : List String) :
    Prop where
  nodup : names.Nodup
  fits : ∀ name ∈ names, Fits path name
  staged : ∀ name ∈ names, ∃ content,
    tree.find? ((name ++ stagingSuffix) :: directory) = some (.file content)
  unblocked : ∀ name ∈ names, tree.find? (name :: directory) ≠ some .directory

/-- The first one can be moved. That takes away what has stood under its name, and the other ones are
still staged. -/
theorem AreStaged.exists_move {name : String} (h : AreStaged tree path directory (name :: names))
    (hleads : tree.LeadsTo path directory) : ∃ next,
      tree.move (path.entry (name ++ stagingSuffix)) (path.entry name) = .ok next ∧
      (tree.erase (name :: directory)).SameWays next ∧ AreStaged next path directory names := by
  obtain ⟨hfit, hfits⟩ := List.forall_mem_cons.mp h.fits
  obtain ⟨⟨content, hfile⟩, hstaged⟩ := List.forall_mem_cons.mp h.staged
  obtain ⟨hfree, hunblocked⟩ := List.forall_mem_cons.mp h.unblocked
  obtain ⟨hnew, hnodup⟩ := List.nodup_cons.mp h.nodup
  obtain ⟨next, hmove⟩ : ∃ next, tree.move (path.entry (name ++ stagingSuffix))
      (path.entry name) = .ok next :=
    ⟨_, FileTree.move_eq_ok_iff.mpr ⟨_, _, _, hfit.slotOf?_staging hleads,
      hfit.slotOf?_target hleads, hfile, Entry.noConfusion, hfree, rfl⟩⟩
  obtain ⟨source, place, hsource, hplace, hmoved⟩ := FileTree.moved_of_move hmove
  obtain rfl := Option.some.inj ((hfit.slotOf?_staging hleads).symm.trans hsource)
  obtain rfl := Option.some.inj ((hfit.slotOf?_target hleads).symm.trans hplace)
  refine ⟨next, hmove,
    hmoved.sameWays_erase (FileTree.workDir_move hmove) (List.cons_ne_nil _ _) hfile, hnodup, hfits,
    fun other hother => ?_, fun other hother hdirectory => ?_⟩
  · -- the file of the other name is still there, or this one has just come in its place
    by_cases hplace : other ++ stagingSuffix = name
    · rw [hplace, hmoved.arrived]
      exact ⟨content, hfile⟩
    · have hsource : other ++ stagingSuffix ≠ name ++ stagingSuffix :=
        fun heq => hnew ((String.append_left_inj _).mp heq ▸ hother)
      rw [hmoved.others _ (fun heq => hsource (List.cons.inj heq).1)
        fun heq => hplace (List.cons.inj heq).1]
      exact hstaged other hother
  · exact hunblocked other hother (hmoved.fewer hfile _ _ hdirectory rfl)

/-- When the next file has been moved, the path has led to a directory. -/
theorem exists_leadsTo_of_moveAll {name : String}
    (h : (moveAll tree ((name :: names).map fun name =>
      (path.entry (name ++ stagingSuffix), path.entry name))).fault = none) :
    ∃ directory, tree.LeadsTo path directory := by
  rw [List.map_cons, moveAll] at h
  cases hmove : tree.move (path.entry (name ++ stagingSuffix)) (path.entry name) with
  | error cause => simp [hmove] at h
  | ok next =>
    obtain ⟨source, -, -, hsource, -⟩ := FileTree.move_eq_ok_iff.mp hmove
    obtain ⟨directory, -, hleads, -⟩ := FileTree.slotOf?_entry_eq_some_iff.mp hsource
    exact ⟨directory, hleads⟩

/-- Staged files can be moved exactly if the path of their directory does without what stands under
their names, that of the last one apart. -/
theorem AreStaged.fault_moveAll_eq_none_iff (h : AreStaged tree path directory names)
    (hleads : tree.LeadsTo path directory) :
    (moveAll tree (names.map fun name =>
      (path.entry (name ++ stagingSuffix), path.entry name))).fault = none ↔
      ∀ name ∈ names.dropLast, tree.LeadsPast path name := by
  induction names generalizing tree with
  | nil => simp [moveAll]
  | cons name names ih =>
    obtain ⟨next, hmove, hways, hstaged⟩ := h.exists_move hleads
    rw [List.map_cons, moveAll]
    simp only [hmove]
    cases names with
    | nil => simp [moveAll]
    | cons second names =>
      rw [List.dropLast_cons_cons, List.forall_mem_cons, hleads.leadsPast_iff]
      by_cases herased : (tree.erase (name :: directory)).LeadsTo path directory
      · rw [ih hstaged (hways.leadsTo herased), and_iff_right herased]
        refine forall₂_congr fun other _ => ?_
        rw [hways.leadsPast_iff, hleads.leadsPast_erase_iff herased]
      · -- the path is lost with the first move, so the second one fails
        refine iff_of_false (fun hnone => ?_) fun hall => herased hall.1
        obtain ⟨place, hplace⟩ := exists_leadsTo_of_moveAll hnone
        have hbefore := hways.symm.leadsTo hplace
        have hsame := (FileTree.fewer_erase (List.cons_ne_nil _ _)).leadsTo rfl hbefore
        exact herased (hsame.unique hleads ▸ hbefore)

/-! ## Both phases -/

/-- Files with different names can be staged in a directory, in places that are free, and can have
their names there. The order of the names does not matter. -/
structure IsReady (tree : FileTree) (path : Path) (directory : Location) (names : List String) :
    Prop where
  leadsTo : tree.LeadsTo path directory
  nodup : names.Nodup
  fits : ∀ name ∈ names, Fits path name
  free : ∀ name ∈ names, tree.find? ((name ++ stagingSuffix) :: directory) = none
  unblocked : ∀ name ∈ names, tree.find? (name :: directory) ≠ some .directory

namespace IsReady

/-- A directory is ready for names in any order. -/
theorem of_perm {others : List String} (h : IsReady tree path directory names)
    (hperm : others.Perm names) : IsReady tree path directory others where
  leadsTo := h.leadsTo
  nodup := hperm.nodup_iff.mpr h.nodup
  fits name hname := h.fits name (hperm.mem_iff.mp hname)
  free name hname := h.free name (hperm.mem_iff.mp hname)
  unblocked name hname := h.unblocked name (hperm.mem_iff.mp hname)

/-- Nothing is in the way of files for which a directory is ready. -/
theorem isFree (h : IsReady tree path directory (files.map (·.1))) :
    IsFree tree (outputsIn path files) := by
  refine List.forall_mem_map.mpr fun file hfile temporary htemporary location hslot entry hentry =>
    ?_
  obtain ⟨-, -, other, hother, rfl⟩ := exists_directory_of_staging htemporary hslot
  obtain rfl := hother.unique h.leadsTo
  simp [h.free file.1 (List.mem_map_of_mem hfile)] at hentry

/-- Files that are ready can be written exactly if the path of their directory does without what
stands under their names, that of the last one apart. -/
theorem fault_writeStaged_eq_none_iff (h : IsReady tree path directory (files.map (·.1))) :
    (writeStaged tree (outputsIn path files)).fault = none ↔
      ∀ name ∈ (files.map (·.1)).dropLast, tree.LeadsPast path name := by
  obtain ⟨prepared, staged, hstage⟩ := exists_stage h.leadsTo (List.forall_mem_map.mp h.fits)
    (fun file hfile entry hentry => by
      simp [h.free file.1 (List.mem_map_of_mem hfile)] at hentry) []
  obtain ⟨added, hadded, hstaged⟩ := staged_of_stage hstage
  obtain rfl : staged = added := hadded
  have hplain := hstaged.isPlain h.isFree
  have hways := hstaged.sameWays
  have hplaces : Names tree staged ((files.map (·.1)).map (· :: directory)) := by
    constructor
    all_goals
      rw [hstaged.eq_map]
      simp only [List.map_map]
      refine List.map_congr_left fun file hfile => ?_
      have hfit := h.fits file.1 (List.mem_map_of_mem hfile)
    · exact hfit.slotOf?_target h.leadsTo
    · exact hfit.slotOf?_staging h.leadsTo
  have hnodup : ((files.map (·.1)).map (· :: directory)).Nodup :=
    h.nodup.map fun name other heq => (List.cons.inj heq).1
  have hstays : AreStaged prepared path directory (files.map (·.1)) := by
    refine ⟨h.nodup, h.fits, List.forall_mem_map.mpr fun file hfile => ?_, fun name hname hfind => ?_⟩
    · exact ⟨_, find?_stagingSpot hstaged hplaces hplain hnodup (List.mem_map_of_mem hfile)
        ((h.fits file.1 (List.mem_map_of_mem hfile)).slotOf?_target h.leadsTo)⟩
    · exact h.unblocked name hname ((hways.find?_iff _ _ rfl).mp hfind)
  have hmoves : writeStaged tree (outputsIn path files) = moveAll prepared staged := by
    rw [writeStaged, hstage]
  rw [hmoves, hstaged.eq_map, hstays.fault_moveAll_eq_none_iff (hways.leadsTo h.leadsTo)]
  exact forall₂_congr fun name _ => hways.leadsPast_iff

end IsReady

/-- Files with proper names that have been written were ready. -/
theorem exists_isReady (hstaged : Staged tree (outputsIn path files) staged prepared)
    (hmoves : Moves prepared staged after) (hfree : IsFree tree (outputsIn path files))
    (hnames : ∀ file ∈ files, Path.IsFileName file.1)
    (hlast : ((outputsIn path files).map (·.1.name)).Pairwise
      fun name later => name ≠ later ++ stagingSuffix)
    (hne : files ≠ []) : ∃ directory, IsReady tree path directory (files.map (·.1)) := by
  obtain ⟨places, hplaces, hinto⟩ := exists_movedInto hstaged hmoves hlast
  have hplace {file : String × String} (hfile : file ∈ files) :=
    exists_place hstaged hplaces (List.mem_map_of_mem hfile)
  obtain ⟨first, hfirst⟩ := List.exists_mem_of_ne_nil files hne
  obtain ⟨_, -, hslot⟩ := hplace hfirst
  obtain ⟨directory, -, hleads, -⟩ := FileTree.slotOf?_entry_eq_some_iff.mp hslot
  -- all files are in the directory of the first one
  have htarget {file : String × String} (hfile : file ∈ files) :
      file.1 :: directory ∈ places ∧ file.1 ≠ ".." ∧
        tree.slotOf? (path.entry file.1) = some (file.1 :: directory) := by
    obtain ⟨place, hmem, hslot⟩ := hplace hfile
    obtain ⟨other, rfl, hother, hup, -⟩ := FileTree.slotOf?_entry_eq_some_iff.mp hslot
    obtain rfl := hother.unique hleads
    exact ⟨hmem, hup, hslot⟩
  have hslots : places.map some = (files.map (·.1)).map fun name => some (name :: directory) := by
    rw [← map_slotOf?_eq hstaged hplaces, outputsIn, List.map_map, List.map_map]
    exact List.map_congr_left fun file hfile => (htarget hfile).2.2
  refine ⟨directory, hleads, ?_, List.forall_mem_map.mpr fun file hfile => ?_,
    List.forall_mem_map.mpr fun file hfile => ?_, List.forall_mem_map.mpr fun file hfile hfind => ?_⟩
  · have hnodup := hinto.nodup.map fun _ _ => Option.some.inj
    rw [hslots] at hnodup
    exact hnodup.of_map _
  all_goals obtain ⟨hmem, hup, hslot⟩ := htarget hfile
  · obtain ⟨temporary, htemporary, hspot⟩ :=
      slotOf?_staging hstaged hplaces (List.mem_map_of_mem hfile) hslot
    obtain ⟨hzero, rfl⟩ := stagingPath?_entry_eq_some_iff.mp htemporary
    obtain ⟨-, -, -, -, hshort, hshortPath⟩ := FileTree.slotOf?_entry_eq_some_iff.mp hspot
    exact ⟨(hnames file hfile).isEntryName hup, hzero, hshort, hshortPath⟩
  · obtain ⟨pair, hpair, hspot⟩ := hplaces.exists_staging hmem
    obtain ⟨spot, hspot', hnone⟩ := hstaged.find?_eq_none hfree pair hpair
    obtain rfl := Option.some.inj (hspot.symm.trans hspot')
    exact hnone
  · exact hinto.unblocked _ hmem ((hstaged.sameWays.find?_iff _ _ rfl).mpr hfind)

end FlatCrate.Pack
