import FlatCrate.Proofs.Pack.Ready

/-!
# The order of the components

Two runs that differ in the order of the components alone build the same crates, and if both of them
succeed, they leave the same files: only the manifest tells the order. But the last file to be moved
is a special one without a manifest. It may take the place of a link through which the output
directory is reached, and if another file does so, the files behind it are left staged.
-/

namespace FlatCrate

/-! ## Manifests -/

namespace Manifest

variable {names others : List String}

/-- The manifest of crates with given entries, in a given order. -/
def listing (names : List String) (entryOf : String → Json) : Json :=
  .object [
    ("root", .object [("virtual_path", .string rootPath), ("dependencies", .strings names)]),
    ("crates", .array (names.map entryOf))]

/-- The dependencies of a crate do not depend on the order of the available ones. -/
theorem entry_of_perm (h : others.Perm names) (output : String × String) :
    entry others output = entry names output := by
  have hdependencies : dependencies output.1 others = dependencies output.1 names := by
    rw [dependencies, dependencies]
    exact List.filter_congr fun name _ => by simp [h.mem_iff]
  rw [entry, entry, hdependencies]

/-- Crates that come in another order have the same entries. -/
theorem document_of_perm (h : others.Perm names) (fileOf : String → String) :
    document (others.map fun name => (name, fileOf name)) =
      listing others fun name => entry names (name, fileOf name) := by
  have hnames : (others.map fun name => (name, fileOf name)).map (·.1) = others := by
    rw [List.map_map]
    exact List.map_id others
  rw [document, hnames, listing, List.map_map]
  simp only [Function.comp_def, entry_of_perm h]

end Manifest

namespace Pack

variable {tree : FileTree} {settings : Settings} {answer : Toolchain.Answer} {medium : Medium}
  {sysroot : Path}
  {crates built : List PackedCrate} {components : List String}

/-! ## Runs that are ready to write -/

/-- The places where files are staged come from the settings alone. -/
theorem stagesFreely_iff (hcrates : AreCratesOf tree settings sysroot crates)
    (hnames : HasFileNames settings) : StagesFreely tree settings crates ↔
      ∀ name ∈ fileNames settings, (settings.outputDir.entry name).holdsZero = false →
        ∀ location ∈ (madeTree tree settings).slotOf?
          (settings.outputDir.entry (name ++ stagingSuffix)),
          ∀ entry ∈ tree.find? location, entry = .directory := by
  rw [StagesFreely, hcrates.outputsOf_eq hnames, ← hcrates.map_fst_filesOf, outputsIn,
    List.forall_mem_map, List.forall_mem_map]
  simp [stagingPath?_entry_eq_some_iff]

/-- A run that succeeds has been ready to write its files. -/
theorem exists_isReady_of_success (hnames : HasFileNames settings)
    (hfree : StagesFreely tree settings (run tree settings answer).2)
    (hsuccess : (run tree settings answer).1.fault = none) (hne : fileNames settings ≠ []) :
    ∃ directory, IsReady (madeTree tree settings) settings.outputDir directory
      (fileNames settings) := by
  obtain ⟨sysroot, prepared, staged, -, hcrates, hstaged, hmoves⟩ := exists_of_success hsuccess
  have houtputs := hcrates.outputsOf_eq hnames
  have hfiles := hcrates.map_fst_filesOf
  rw [← hfiles]
  refine exists_isReady (houtputs ▸ hstaged) hmoves (houtputs ▸ hfree.isFree)
    (hcrates.isFileName hnames) (houtputs ▸ hcrates.pairwise_names) fun hnil => hne ?_
  rw [← hfiles, hnil, List.map_nil]

/-- Files that are ready are written exactly if the path of the output directory does without what
stands at their targets, the last one apart. -/
theorem fault_writeStaged_outputsOf_iff (hcrates : AreCratesOf tree settings sysroot crates)
    (hnames : HasFileNames settings)
    (hready : fileNames settings ≠ [] → ∃ directory, IsReady (madeTree tree settings)
      settings.outputDir directory (fileNames settings)) :
    (writeStaged (madeTree tree settings) (outputsOf settings crates)).fault = none ↔
      ∀ name ∈ (fileNames settings).dropLast,
        (madeTree tree settings).LeadsPast settings.outputDir name := by
  rw [hcrates.outputsOf_eq hnames]
  have hfiles := hcrates.map_fst_filesOf
  by_cases hempty : filesOf settings crates = []
  · have hnone : fileNames settings = [] := by rw [← hfiles, hempty, List.map_nil]
    simp [hempty, hnone, outputsIn, writeStaged, stage, moveAll]
  · rw [← hfiles] at hready ⊢
    obtain ⟨directory, hready⟩ := hready (by simpa using hempty)
    exact hready.fault_writeStaged_eq_none_iff

/-! ## Another order -/

/-- The names of the files are the same in another order. -/
theorem fileNames_perm (hperm : components.Perm settings.components) :
    (fileNames { settings with components }).Perm (fileNames settings) :=
  (hperm.map _).append_right _

/-- Components in another order have the names of files, too. -/
theorem HasFileNames.of_perm (h : HasFileNames settings)
    (hperm : components.Perm settings.components) :
    HasFileNames { settings with components } where
  component name hname := h.component name (hperm.mem_iff.mp hname)
  manifest := h.manifest

/-- With a manifest, the same names come before the last one in any order. -/
theorem mem_dropLast_fileNames_of_perm (hperm : components.Perm settings.components)
    (hmanifest : (manifestName? settings).isSome = true) {name : String} :
    name ∈ (fileNames { settings with components }).dropLast ↔
      name ∈ (fileNames settings).dropLast := by
  obtain ⟨last, hlast⟩ := Option.isSome_iff_exists.mp hmanifest
  have hnames : fileNames settings =
      settings.components.map Toolchain.outputName ++ [last] := by
    rw [fileNames, hlast]
    rfl
  have hnames' : fileNames { settings with components } =
      components.map Toolchain.outputName ++ [last] :=
    congrArg (components.map Toolchain.outputName ++ ·) (congrArg Option.toList hlast)
  rw [hnames, hnames', List.dropLast_concat, List.dropLast_concat]
  exact (hperm.map _).mem_iff

/-! ## What both runs leave -/

/-- Two runs that differ in the order of their components have left the same crates at the same
places, and manifests with the same entries. -/
structure LeavesSame (made : FileTree) (settings : Settings) (components : List String)
    (crates : List PackedCrate) (first second : FileTree) : Prop where
  /-- Every crate is at its target. -/
  crate : ∀ crate ∈ crates, ∃ location, made.slotOf? crate.output = some location ∧
    first.find? location = some (.file crate.text.toUTF8) ∧
    second.find? location = some (.file crate.text.toUTF8)
  /-- The entries of the manifest come in the order of the components of the run. -/
  manifest : ∀ name ∈ manifestName? settings, ∃ location,
    made.slotOf? (settings.outputDir.child name) = some location ∧
    let entryOf (component : String) :=
      Manifest.entry settings.components (component, Toolchain.outputName component)
    first.find? location = some (.file
      ((Manifest.listing settings.components entryOf).render 2 ++ "\n").toUTF8) ∧
    second.find? location = some (.file
      ((Manifest.listing components entryOf).render 2 ++ "\n").toUTF8)
  /-- Nothing but the manifest is different. -/
  others : ∀ location, (∀ name ∈ manifestName? settings,
      made.slotOf? (settings.outputDir.child name) ≠ some location) →
    second.find? location = first.find? location

/-- A manifest that has been put in its place lists the crates of its run. -/
theorem Placed.find?_manifest {made after : FileTree} {names : List String}
    (h : Placed made (outputsOf settings crates) after)
    (hcrates : AreCratesOf tree settings sysroot crates) (hnames : HasFileNames settings)
    (hnodup : settings.components.Nodup) (hperm : settings.components.Perm names) {name : String}
    (hname : name ∈ manifestName? settings) {location : Location}
    (hslot : made.slotOf? (settings.outputDir.child name) = some location) :
    after.find? location = some (.file ((Manifest.listing settings.components fun component =>
      Manifest.entry names (component, Toolchain.outputName component)).render 2 ++
        "\n").toUTF8) := by
  obtain ⟨place, hplace, hfile⟩ := h.isFile _ (mem_outputsOf_iff.mpr (.inr ⟨name, hname, rfl⟩))
  obtain rfl := Option.some.inj (hslot.symm.trans hplace)
  rw [hfile, hcrates.manifestText_eq hnames hnodup, Manifest.render, Manifest.document_of_perm hperm]

/-- Files that are placed in another order leave the same tree. -/
theorem leavesSame_of_placed {made first second : FileTree}
    (hperm : components.Perm settings.components) (hbuilt : built.Perm crates)
    (hnames : HasFileNames settings) (hnodup : settings.components.Nodup)
    (hcrates : AreCratesOf tree settings sysroot crates)
    (hcrates' : AreCratesOf tree { settings with components } sysroot built)
    (hfirst : Placed made (outputsOf settings crates) first)
    (hsecond : Placed made (outputsOf { settings with components } built) second) :
    LeavesSame made settings components crates first second := by
  have hcrate : ∀ crate ∈ crates, ∃ location, made.slotOf? crate.output = some location ∧
      first.find? location = some (.file crate.text.toUTF8) ∧
      second.find? location = some (.file crate.text.toUTF8) := by
    intro crate hcrate
    obtain ⟨location, hslot, hfile⟩ :=
      hfirst.isFile _ (mem_outputsOf_iff.mpr (.inl ⟨crate, hcrate, rfl⟩))
    obtain ⟨place, hplace, hfile'⟩ :=
      hsecond.isFile _ (mem_outputsOf_iff.mpr (.inl ⟨crate, hbuilt.mem_iff.mpr hcrate, rfl⟩))
    obtain rfl := Option.some.inj (hslot.symm.trans hplace)
    exact ⟨location, hslot, hfile, hfile'⟩
  refine ⟨hcrate, fun name hname => ?_, fun location hlocation => ?_⟩
  · obtain ⟨location, hslot, -⟩ :=
      hfirst.isFile _ (mem_outputsOf_iff.mpr (.inr ⟨name, hname, rfl⟩))
    exact ⟨location, hslot, hfirst.find?_manifest hcrates hnames hnodup (.refl _) hname hslot,
      hsecond.find?_manifest hcrates' (hnames.of_perm hperm) (hperm.nodup_iff.mpr hnodup) hperm
        hname hslot⟩
  · by_cases htarget : ∃ crate ∈ crates, made.slotOf? crate.output = some location
    · obtain ⟨crate, hmem, hslot⟩ := htarget
      obtain ⟨place, hplace, hfile, hfile'⟩ := hcrate crate hmem
      obtain rfl := Option.some.inj (hslot.symm.trans hplace)
      rw [hfile, hfile']
    · simp only [not_exists, not_and] at htarget
      rw [hfirst.others location, hsecond.others location]
      · intro output houtput
        obtain ⟨crate, hmem, rfl⟩ | ⟨name, hname, rfl⟩ := mem_outputsOf_iff.mp houtput
        · exact htarget crate (hbuilt.mem_iff.mp hmem)
        · exact hlocation name hname
      · intro output houtput
        obtain ⟨crate, hmem, rfl⟩ | ⟨name, hname, rfl⟩ := mem_outputsOf_iff.mp houtput
        · exact htarget crate hmem
        · exact hlocation name hname

/-- If a run succeeds, a run with its components in another order, which has room for everything,
builds the same crates. With a manifest it succeeds as well, and without one exactly if the path of
the output directory does without what stands at the targets of all its components but the last one.
When it succeeds, it leaves the same files, but for the order of the manifest. -/
theorem run_of_perm (hperm : components.Perm settings.components) (hnames : HasFileNames settings)
    (hfree : StagesFreely tree settings (run tree settings answer medium).2)
    (hsuccess : (run tree settings answer medium).1.fault = none) :
    let other := { settings with components }
    let first := run tree settings answer medium
    let second := run tree other answer
    let made := madeTree tree settings
    ((manifestName? settings).isSome = true → second.1.fault = none) ∧
    (second.1.fault = none ↔
      ∀ name ∈ (fileNames other).dropLast, made.LeadsPast settings.outputDir name) ∧
    first.2.map (·.name) = settings.components ∧ second.2.map (·.name) = components ∧
    second.2.Perm first.2 ∧
    (second.1.fault = none →
      LeavesSame made settings components first.2 first.1.tree second.1.tree) := by
  have hsound := run_eq_sound hsuccess
  rw [hsound] at hfree hsuccess ⊢
  intro other first second made
  obtain ⟨sysroot, hsysroot, hbuilt⟩ := exists_buildAll_of_success hsuccess
  obtain ⟨built, hbuilt', hsame⟩ := PackedCrate.exists_buildAll_of_perm hperm hbuilt
  have hsysroot' : (Pack.sysroot other answer).result = .ok sysroot := hsysroot
  have hcrates : AreCratesOf tree settings sysroot first.2 := PackedCrate.buildAll_eq_ok hbuilt
  have hcrates' : AreCratesOf tree other sysroot built := PackedCrate.buildAll_eq_ok hbuilt'
  have hsecond : second.2 = built := (run_eq_writeAll _ hsysroot' hbuilt').1
  have hnames' : HasFileNames other := hnames.of_perm hperm
  have hfileNames : (fileNames other).Perm (fileNames settings) := fileNames_perm hperm
  have hready (hne : fileNames settings ≠ []) :=
    exists_isReady_of_success hnames hfree hsuccess hne
  obtain ⟨hmanifest, hzero, hmade, hwritten⟩ :=
    (fault_run_eq_none_iff_writeStaged hsysroot hbuilt).mp hsuccess
  have hiff : second.1.fault = none ↔
      ∀ name ∈ (fileNames other).dropLast, made.LeadsPast settings.outputDir name := by
    rw [fault_run_eq_none_iff_writeStaged hsysroot' hbuilt', and_iff_right hmanifest,
      and_iff_right hzero, and_iff_right hmade]
    refine fault_writeStaged_outputsOf_iff hcrates' hnames' fun hne => ?_
    obtain ⟨directory, hdirectory⟩ := hready fun hnil => hne (hnil ▸ hfileNames).eq_nil
    exact ⟨directory, hdirectory.of_perm hfileNames⟩
  refine ⟨fun hsome => hiff.mpr fun name hname => ?_, hiff, hcrates.map_name,
    hsecond ▸ hcrates'.map_name, hsecond ▸ hsame, fun hsuccess' => ?_⟩
  · rw [fault_writeStaged_outputsOf_iff hcrates hnames hready] at hwritten
    exact hwritten name ((mem_dropLast_fileNames_of_perm hperm hsome).mp hname)
  · obtain ⟨hnodup, hplaced⟩ := placed_of_success hnames hfree hsuccess
    have hfree' : StagesFreely tree other second.2 := by
      rw [hsecond, stagesFreely_iff hcrates' hnames']
      intro name hname
      exact (stagesFreely_iff hcrates hnames).mp hfree name (hfileNames.mem_iff.mp hname)
    have hplaced' := (placed_of_success hnames' hfree' hsuccess').2
    exact leavesSame_of_placed hperm (hsecond ▸ hsame) hnames hnodup hcrates
      (hsecond ▸ hcrates') hplaced hplaced'

/-- A tree with a toolchain that has the library crates `a` and `b`. -/
def pairTree : FileTree :=
  { crateTree with
    entries := [("b" :: libraryLocation, .directory), ("src" :: "b" :: libraryLocation, .directory),
      ("lib.rs" :: "src" :: "b" :: libraryLocation, .file "fn b();\n".toUTF8)] ++
        crateTree.entries }

/-- Settings that pack crates of that toolchain with a manifest. -/
def pairSettings (components : List String) : Settings :=
  { crateSettings components with manifest := .string "crates.json" }

/-- Both orders leave the same crates, and manifests that list them in their orders. -/
theorem run_of_perm_pair :
    let settings := pairSettings ["a", "b"]
    let other := pairSettings ["b", "a"]
    HasFileNames settings ∧ StagesFreely pairTree settings (run pairTree settings .missing).2 ∧
      (run pairTree settings .missing).1.fault = none ∧
      (run pairTree other .missing).1.fault = none ∧
      (run pairTree other .missing).2.map (·.name) = ["b", "a"] ∧
      LeavesSame (madeTree pairTree settings) settings ["b", "a"] (run pairTree settings .missing).2
        (run pairTree settings .missing).1.tree (run pairTree other .missing).1.tree := by
  intro settings other
  have hnames : HasFileNames settings := by
    refine ⟨by decide, fun name hname => ?_⟩
    obtain rfl := Option.some.inj hname
    exact ⟨by decide, by decide⟩
  have hfree : StagesFreely pairTree settings (run pairTree settings .missing).2 := by
    unfold StagesFreely
    decide +kernel
  have hsuccess : (run pairTree settings .missing).1.fault = none := by
    decide +kernel
  obtain ⟨hmanifest, -, -, horder, -, hsame⟩ :=
    run_of_perm (.swap "a" "b" []) hnames hfree hsuccess
  have hsuccess' := hmanifest rfl
  exact ⟨hnames, hfree, hsuccess, hsuccess', horder, hsame hsuccess'⟩

/-- The same tree with a link to its root under the name of an output. -/
def linkedPairTree : FileTree :=
  { pairTree with entries := (["fake_a.rs"], .link ".") :: pairTree.entries }

/-- Settings that write through that link. -/
def linkedPairSettings (components : List String) : Settings :=
  { crateSettings components with outputDir := ⟨.relative, ["fake_a.rs"]⟩ }

/-- The link is lost when the file of its name is moved. If that comes last, all is well, and if it
does not, the other file cannot be moved any more. -/
theorem run_of_swapped_pair_behind_link :
    let settings := linkedPairSettings ["b", "a"]
    let other := linkedPairSettings ["a", "b"]
    HasFileNames settings ∧ other.components.Perm settings.components ∧
      settings.components.Nodup ∧
      StagesFreely linkedPairTree settings (run linkedPairTree settings .missing).2 ∧
      (run linkedPairTree settings .missing).1.fault = none ∧
      (run linkedPairTree other .missing).1.fault =
        some (.file ⟨.notDirectory, some ⟨.relative, ["fake_a.rs", "fake_b.rs.tmp"]⟩,
          some ⟨.relative, ["fake_a.rs", "fake_b.rs"]⟩⟩) := by
  intro settings other
  have hfree : StagesFreely linkedPairTree settings (run linkedPairTree settings .missing).2 := by
    unfold StagesFreely
    decide +kernel
  have hnames : HasFileNames settings :=
    ⟨by decide, by simp [manifestName?, settings, linkedPairSettings, crateSettings]⟩
  exact ⟨hnames, .swap "b" "a" [], by decide, hfree, by decide +kernel, by decide +kernel⟩

end Pack

end FlatCrate
