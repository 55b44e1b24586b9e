import FlatCrate.Proofs.Pack.Ready
import FlatCrate.Proofs.Settings

/-!
# Packing into a new directory

Nothing is in the way of files that come into a new directory. If their names are different and not
too long, all of them can be staged and moved. That the names are different is not seen to when the
settings are read: a component may be given twice, and then the second one of its files is not
where it has been staged any more.
-/

namespace FlatCrate

namespace Pack

open FileTree (IsEntryName maxNameBytes maxPathBytes)

variable {tree : FileTree} {directory : Location}

/-- Settings under which the crates of a toolchain, which can be flattened, are to be written into a
directory that does not exist yet. -/
structure IsFresh (tree : FileTree) (settings : Settings) (sysroot parent : Path)
    (directory : Location) (last : String) : Prop where
  sysroot_eq : settings.sysroot = some sysroot
  manifest_eq : settings.manifest = .null ∨ settings.manifest = .string "crates.json"
  component : ∀ name ∈ settings.components, '/' ∉ name.toList ∧ name.utf8ByteSize ≤ 200
  outputDir_eq : settings.outputDir = parent.entry last
  isNew : tree.IsNew parent directory last
  flattens : ∀ name ∈ settings.components, ∃ text,
    flatten tree (Toolchain.crateRoot sysroot name) (.limited settings.budget) = .ok text

namespace IsFresh

variable {settings : Settings} {sysroot parent : Path} {last : String}
  {answer : Toolchain.Answer}

/-- The manifest has its standard name, if there is one. -/
theorem manifestName?_eq (h : IsFresh tree settings sysroot parent directory last) :
    ∀ name ∈ manifestName? settings, name = "crates.json" := by
  intro name hname
  rw [manifestName?] at hname
  obtain hmanifest | hmanifest := h.manifest_eq
  · simp [hmanifest] at hname
  · obtain rfl : "crates.json" = name := by simpa [hmanifest] using hname
    rfl

/-- The outputs have the names of files. -/
theorem hasFileNames (h : IsFresh tree settings sysroot parent directory last) :
    HasFileNames settings where
  component name hname := (h.component name hname).1
  manifest name hname := by
    obtain rfl := h.manifestName?_eq name hname
    exact ⟨by decide, by decide⟩

/-- All crates are built and go on to be written. -/
theorem exists_crates (h : IsFresh tree settings sysroot parent directory last)
    (answer : Toolchain.Answer) :
    AreCratesOf tree settings sysroot (run tree settings answer).2 ∧
      (run tree settings answer).1.fault =
        (writeAll tree settings (run tree settings answer).2).fault := by
  have hsysroot : (Pack.sysroot settings answer).result = .ok sysroot := by
    rw [Pack.sysroot, h.sysroot_eq]
  obtain ⟨crates, hbuilt⟩ := PackedCrate.exists_buildAll h.flattens
  obtain ⟨hcrates, -, hfault⟩ := run_eq_writeAll _ hsysroot hbuilt
  rw [hcrates]
  exact ⟨PackedCrate.buildAll_eq_ok hbuilt, hfault⟩

/-- What the names of the files are. -/
theorem exists_of_mem_fileNames (h : IsFresh tree settings sysroot parent directory last)
    {name : String} (hname : name ∈ fileNames settings) :
    (∃ component ∈ settings.components, name = Toolchain.outputName component) ∨
      name = "crates.json" := by
  obtain hcomponent | hmanifest := List.mem_append.mp hname
  · obtain ⟨component, hmem, rfl⟩ := List.mem_map.mp hcomponent
    exact .inl ⟨component, hmem, rfl⟩
  · exact .inr (h.manifestName?_eq name (Option.mem_toList.mp hmanifest))

/-- No name is too long to be staged, and none is special. -/
theorem isEntryName (h : IsFresh tree settings sysroot parent directory last)
    {name : String} (hname : name ∈ fileNames settings) :
    IsEntryName name ∧ (name ++ stagingSuffix).utf8ByteSize ≤ maxNameBytes := by
  obtain ⟨component, hmem, rfl⟩ | rfl := h.exists_of_mem_fileNames hname
  · obtain ⟨hslash, hshort⟩ := h.component component hmem
    have hup : Toolchain.outputName component ≠ ".." :=
      Toolchain.outputName_ne component (by decide)
    refine ⟨(Toolchain.isFileName_outputName hslash).isEntryName hup, ?_⟩
    have hsize : (Toolchain.outputName component ++ stagingSuffix).utf8ByteSize =
        component.utf8ByteSize + 12 := by
      simp only [Toolchain.outputName, String.utf8ByteSize_append]
      have hparts : "fake_".utf8ByteSize = 5 ∧ ".rs".utf8ByteSize = 3 ∧
        stagingSuffix.utf8ByteSize = 4 := by decide
      omega
    rw [hsize, maxNameBytes]
    omega
  · exact ⟨⟨by decide, by decide⟩, by decide⟩

/-- The names are different if the components are. -/
theorem nodup_fileNames (h : IsFresh tree settings sysroot parent directory last)
    (hnodup : settings.components.Nodup) : (fileNames settings).Nodup := by
  rw [fileNames, List.nodup_append]
  refine ⟨hnodup.map Toolchain.outputName_injective, ?_, fun name hname other hother heq => ?_⟩
  · cases manifestName? settings <;> simp
  · obtain rfl := h.manifestName?_eq other (Option.mem_toList.mp hother)
    obtain ⟨component, -, rfl⟩ := List.mem_map.mp hname
    exact Toolchain.outputName_ne component (by decide) heq

/-- The output directory has the name of an entry. -/
theorem isEntryName_last (h : IsFresh tree settings sysroot parent directory last)
    (hnormal : settings.outputDir.IsNormal) : IsEntryName last := by
  have hmem : last ∈ settings.outputDir.names := by simp [h.outputDir_eq, Path.entry]
  exact Path.IsFileName.isEntryName (hnormal last hmem) h.isNew.ne_up

/-- If the output directory can be reached when it has been made, it is where it was to be. -/
theorem leadsTo_madeTree (h : IsFresh tree settings sysroot parent directory last)
    (hnormal : settings.outputDir.IsNormal) {place : Location}
    (hleads : (madeTree tree settings).LeadsTo settings.outputDir place) :
    last.utf8ByteSize ≤ maxNameBytes ∧ place = last :: directory := by
  rw [h.outputDir_eq] at hleads
  have hmakes := makesOnly_madeTree tree settings
  exact h.isNew.eq_of_makesOnly (h.isEntryName_last hnormal) hmakes hleads

/-- Nothing has been where files are staged. -/
theorem stagesFreely (h : IsFresh tree settings sysroot parent directory last)
    (hnormal : settings.outputDir.IsNormal) (answer : Toolchain.Answer) :
    StagesFreely tree settings (run tree settings answer).2 := by
  obtain ⟨hcrates, -⟩ := h.exists_crates answer
  rw [StagesFreely, hcrates.outputsOf_eq h.hasFileNames]
  refine List.forall_mem_map.mpr fun file _ temporary htemporary location hslot entry hentry => ?_
  obtain ⟨-, -, place, hplace, rfl⟩ := exists_directory_of_staging htemporary hslot
  obtain ⟨-, rfl⟩ := h.leadsTo_madeTree hnormal hplace
  have hnone := h.isNew.find?_eq [file.1 ++ stagingSuffix]
  exact absurd (hnone.symm.trans hentry) (by simp)

/-- A run that succeeds has staged every file, so no path has been too long or has had a zero in it.
-/
theorem isShort_of_success (h : IsFresh tree settings sysroot parent directory last)
    (hnormal : settings.outputDir.IsNormal) (hsuccess : (run tree settings answer).1.fault = none)
    {name : String} (hname : name ∈ fileNames settings) :
    last.utf8ByteSize ≤ maxNameBytes ∧ (settings.outputDir.entry name).holdsZero = false ∧
      (settings.outputDir.entry (name ++ stagingSuffix)).toString.utf8ByteSize ≤ maxPathBytes := by
  obtain ⟨hcrates, -⟩ := h.exists_crates answer
  have hplaced := (placed_of_success h.hasFileNames (h.stagesFreely hnormal answer) hsuccess).2
  rw [hcrates.outputsOf_eq h.hasFileNames] at hplaced
  rw [← hcrates.map_fst_filesOf] at hname
  obtain ⟨file, hfile, rfl⟩ := List.mem_map.mp hname
  obtain ⟨temporary, location, htemporary, hslot, -⟩ := hplaced.left _ (List.mem_map_of_mem hfile)
  obtain ⟨hzero, hshort, place, hplace, -⟩ := exists_directory_of_staging htemporary hslot
  exact ⟨(h.leadsTo_madeTree hnormal hplace).1, hzero, hshort⟩

/-- If the components are different, and no path is too long or has a zero in it, nothing can go
wrong. -/
theorem fault_eq_none (h : IsFresh tree settings sysroot parent directory last)
    (hnormal : settings.outputDir.IsNormal) (hnodup : settings.components.Nodup)
    (hlong : last.utf8ByteSize ≤ maxNameBytes)
    (hzero : settings.outputDir.holdsZero = false)
    (hshort : settings.outputDir.toString.utf8ByteSize ≤ maxPathBytes)
    (hnames : ∀ name ∈ fileNames settings, (settings.outputDir.entry name).holdsZero = false ∧
      (settings.outputDir.entry (name ++ stagingSuffix)).toString.utf8ByteSize ≤ maxPathBytes) :
    (run tree settings answer).1.fault = none := by
  obtain ⟨hcrates, hfault⟩ := h.exists_crates answer
  have hmade := h.isNew.makeDirectories_eq hlong (h.outputDir_eq ▸ hshort)
  rw [← h.outputDir_eq] at hmade
  have hleads := h.isNew.leadsTo_made (h.isEntryName_last hnormal) hlong
  rw [← h.outputDir_eq] at hleads
  obtain ⟨manifest, hmanifest⟩ : ∃ manifest,
      manifestOutput settings (run tree settings answer).2 = .ok manifest := by
    obtain hmanifest | hmanifest := h.manifest_eq <;>
      simp [manifestOutput, hmanifest, Value.isTruthy, Value.elements?]
  have hempty {name : String} : (madeTree tree settings).find? (name :: last :: directory) = none := by
    rw [madeTree, hmade]
    exact h.isNew.find?_made (List.cons_ne_nil name [])
  have hready : IsReady (madeTree tree settings) settings.outputDir (last :: directory)
      ((filesOf settings (run tree settings answer).2).map (·.1)) := by
    rw [hcrates.map_fst_filesOf]
    refine ⟨by rwa [madeTree, hmade], h.nodup_fileNames hnodup, fun name hname => ?_,
      fun name _ => hempty, fun name _ => by simp [hempty]⟩
    obtain ⟨hentry, hshortName⟩ := h.isEntryName hname
    exact ⟨hentry, (hnames name hname).1, hshortName, (hnames name hname).2⟩
  have herror : (tree.makeDirectories settings.outputDir).error = none := by rw [hmade]
  rw [hfault, writeAll_eq hmanifest, if_neg (Bool.not_eq_true _ ▸ hzero), herror,
    hcrates.outputsOf_eq h.hasFileNames]
  exact hready.fault_writeStaged_eq_none_iff.mpr fun name _ =>
    hready.leadsTo.leadsPast (by simp [hempty])

/-- After a run that succeeds, the path of every component is read with its text. -/
theorem readBytes_of_success (h : IsFresh tree settings sysroot parent directory last)
    (hnormal : settings.outputDir.IsNormal) (hsuccess : (run tree settings answer).1.fault = none)
    {name text : String} (hname : name ∈ settings.components)
    (htext : flatten tree (Toolchain.crateRoot sysroot name) (.limited settings.budget) =
      .ok text) :
    (run tree settings answer).1.tree.readBytes
        (settings.outputDir.child (Toolchain.outputName name)) =
      .ok (if settings.stubbing then Source.stubBodies text else text).toUTF8 := by
  obtain ⟨hcrates, -⟩ := h.exists_crates answer
  have hplaced := (placed_of_success h.hasFileNames (h.stagesFreely hnormal answer) hsuccess).2
  -- nothing has been in the directory, so no link has stood at a target
  have hkept : ∀ other, (run tree settings answer).1.tree.slotOf? other =
      (madeTree tree settings).slotOf? other := by
    refine hplaced.slotOf?_eq ?_
    rw [hcrates.outputsOf_eq h.hasFileNames]
    refine List.forall_mem_map.mpr fun file _ location hlocation target hlink => ?_
    obtain ⟨place, rfl, hplace, -⟩ := FileTree.slotOf?_entry_eq_some_iff.mp hlocation
    obtain ⟨-, rfl⟩ := h.leadsTo_madeTree hnormal hplace
    have hbefore := (makesOnly_madeTree tree settings).find?_of_ne_directory hlink Entry.noConfusion
    have hnone := h.isNew.find?_eq [file.1]
    exact absurd (hnone.symm.trans hbefore) (by simp)
  obtain ⟨crate, hcrate, hof⟩ := hcrates.exists_crate hname
  have hmem : (crate.output, crate.text) ∈ outputsOf settings (run tree settings answer).2 :=
    List.mem_append_left _ (List.mem_map.mpr ⟨crate, hcrate, rfl⟩)
  have hread := hplaced.read _ hmem (hkept crate.output)
  rwa [hof.output_eq, hof.text_eq text htext] at hread

end IsFresh

/-- Crates that can be flattened are packed into a new directory exactly if no component is given
twice, no path has a zero in it, and no name or path is too long. In that case every crate is read
from its path. -/
theorem fault_run_eq_none_iff {members : List (Value × Value)} {settings : Settings}
    {sysroot parent : Path} {last : String} (hvalid : Settings.ofMapping members = .ok settings)
    (h : IsFresh tree settings sysroot parent directory last) (answer : Toolchain.Answer) :
    let outcome := (run tree settings answer).1
    (outcome.fault = none ↔ settings.components.Nodup ∧ last.utf8ByteSize ≤ maxNameBytes ∧
      ∀ name ∈ fileNames settings, (settings.outputDir.entry name).holdsZero = false ∧
        (settings.outputDir.entry (name ++ stagingSuffix)).toString.utf8ByteSize ≤ maxPathBytes) ∧
    (outcome.fault = none → ∀ name ∈ settings.components, ∀ text,
      flatten tree (Toolchain.crateRoot sysroot name) (.limited settings.budget) = .ok text →
      outcome.tree.readBytes (settings.outputDir.child (Toolchain.outputName name)) =
        .ok (if settings.stubbing then Source.stubBodies text else text).toUTF8) := by
  obtain ⟨hnormal, hcomponents⟩ := Settings.ofMapping_eq_ok hvalid
  obtain ⟨component, hcomponent⟩ := List.exists_mem_of_ne_nil _ hcomponents
  have hname : Toolchain.outputName component ∈ fileNames settings :=
    List.mem_append_left _ (List.mem_map_of_mem hcomponent)
  intro outcome
  refine ⟨⟨fun hsuccess => ⟨?_, ?_, fun name hname => ?_⟩, ?_⟩,
    fun hsuccess name hname text htext => h.readBytes_of_success hnormal hsuccess hname htext⟩
  · exact (placed_of_success h.hasFileNames (h.stagesFreely hnormal answer) hsuccess).1
  · exact (h.isShort_of_success hnormal hsuccess hname).1
  · exact (h.isShort_of_success hnormal hsuccess hname).2
  · rintro ⟨hnodup, hlong, hnames⟩
    have hshort := settings.outputDir.utf8ByteSize_toString_le_entry fun heq =>
      (isEntryName_append_stagingSuffix (Toolchain.outputName component)).1 (.inl heq)
    obtain ⟨hzero, hshorts⟩ := hnames _ hname
    exact h.fault_eq_none hnormal hnodup hlong (Path.holdsZero_of_entry hzero)
      (Nat.le_trans hshort hshorts) hnames

/-- A mapping that gives the settings of a tree with a single crate. -/
def crateMembers (components : List String) : List (Value × Value) :=
  [(.string "sysroot", .string "."), (.string "components", .list (components.map .string)),
    (.string "manifest", .null)]

/-- Nothing of the tree is in the output directory, and its crate can be flattened. -/
theorem isFresh_crateTree {components : List String} (h : ∀ name ∈ components, name = "a") :
    IsFresh crateTree (crateSettings components) {} {} [] "www" where
  sysroot_eq := rfl
  manifest_eq := .inl rfl
  component name hname := h name hname ▸ by decide
  outputDir_eq := by
    have hwww : Path.ofString "www" = (⟨.relative, ["www"]⟩ : Path) := by decide
    exact hwww
  isNew := by
    refine ⟨⟨rfl, rfl⟩, by decide, fun below => ?_⟩
    have houtermost : ∀ e ∈ crateTree.entries, e.1.getLast? ≠ some "www" := by decide +kernel
    have hlookup : crateTree.entries.lookup (below ++ ["www"]) = none := by
      refine List.lookup_eq_none_iff.mpr fun e he => ?_
      rw [bne_iff_ne]
      intro heq
      exact houtermost e he (by rw [← heq, List.getLast?_concat])
    cases below with
    | nil => exact hlookup
    | cons name below => exact hlookup
  flattens name hname := by
    have hflatten : flatten crateTree (Toolchain.crateRoot {} "a") (.limited Budget.standard) =
        .ok "fn a();\n" := by
      decide +kernel
    exact h name hname ▸ ⟨_, hflatten⟩

/-- The crate is packed, and read from its path. -/
theorem run_single_component :
    Settings.ofMapping (crateMembers ["a"]) = .ok (crateSettings ["a"]) ∧
      IsFresh crateTree (crateSettings ["a"]) {} {} [] "www" ∧
      (run crateTree (crateSettings ["a"]) .missing).1.fault = none ∧
      (run crateTree (crateSettings ["a"]) .missing).1.tree.readBytes
        ⟨.relative, ["www", "fake_a.rs"]⟩ = .ok "fn a();\n".toUTF8 := by
  have hvalid : Settings.ofMapping (crateMembers ["a"]) = .ok (crateSettings ["a"]) := rfl
  have hfresh : IsFresh crateTree (crateSettings ["a"]) {} {} [] "www" :=
    isFresh_crateTree (by decide)
  obtain ⟨hiff, hread⟩ := fault_run_eq_none_iff hvalid hfresh .missing
  have hsuccess := hiff.mpr (by decide +kernel)
  exact ⟨hvalid, hfresh, hsuccess, hread hsuccess "a" (by decide) _ (by decide +kernel)⟩

/-- A component that is given twice is accepted, but its second file is gone when it is to be moved;
the first one has been put in its place by then. -/
theorem run_repeated_component :
    Settings.ofMapping (crateMembers ["a", "a"]) = .ok (crateSettings ["a", "a"]) ∧
      IsFresh crateTree (crateSettings ["a", "a"]) {} {} [] "www" ∧
      (run crateTree (crateSettings ["a", "a"]) .missing).1.fault =
        some (.file ⟨.noEntry, some ⟨.relative, ["www", "fake_a.rs.tmp"]⟩,
          some ⟨.relative, ["www", "fake_a.rs"]⟩⟩) ∧
      (run crateTree (crateSettings ["a", "a"]) .missing).1.tree.readBytes
        ⟨.relative, ["www", "fake_a.rs"]⟩ = .ok "fn a();\n".toUTF8 :=
  ⟨rfl, isFresh_crateTree (by decide), by decide +kernel, by decide +kernel⟩

end Pack

end FlatCrate
