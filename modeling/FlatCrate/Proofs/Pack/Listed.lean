import FlatCrate.Proofs.Pack.Placed

/-!
# The files that the manifest names

The manifest of a run that succeeds has an entry for each component, in their order. An entry names a
file of the output directory, by the last name of the path of its crate. That is where the crate has
been written, unless its component has a slash in it: then the crate is in a directory below, and
the manifest does not say in which one.
-/

namespace FlatCrate.Pack

variable {tree : FileTree} {settings : Settings} {answer : Toolchain.Answer} {medium : Medium}
  {crates : List PackedCrate} {outputs : List Output} {staged : List (Path × Path)}
  {prepared after : FileTree} {sysroot : Path}

/-- The file that the manifest names for a component. -/
def listedFile (settings : Settings) (component : String) : String :=
  (settings.outputDir.child (Toolchain.outputName component)).name

/-- When the output directory is there, no output is staged where the tree has had a link before. -/
def StagesPlainly (tree : FileTree) (settings : Settings) (crates : List PackedCrate) : Prop :=
  ∀ output ∈ outputsOf settings crates, ∀ temporary ∈ stagingPath? output.1,
    ∀ location ∈ (madeTree tree settings).slotOf? temporary,
      ∀ entry ∈ tree.find? location, entry = .directory ∨ entry.isFile = true

/-- Where files are staged plainly, no link stands at their staging names. -/
theorem StagesPlainly.isPlain (h : StagesPlainly tree settings crates)
    (hstaged : Staged (madeTree tree settings) (outputsOf settings crates) staged prepared) :
    IsPlain (madeTree tree settings) staged := by
  intro pair hpair location hlocation target hlink
  obtain ⟨output, houtput, htemporary⟩ := hstaged.exists_output pair hpair
  have hbefore := (makesOnly_madeTree tree settings).find?_of_ne_directory hlink Entry.noConfusion
  obtain hentry | hfile := h output houtput pair.1 htemporary location hlocation _ hbefore
  · exact Entry.noConfusion hentry
  · exact Bool.false_ne_true hfile

/-- A run with a manifest does not succeed unless the manifest is the text of a path. -/
theorem exists_manifestName_of_success (henabled : settings.manifest.isTruthy = true)
    (hsuccess : (run tree settings answer medium).1.fault = none) :
    ∃ name, settings.manifest = .string name ∧ manifestName? settings = some name := by
  obtain ⟨sysroot, hsysroot, hbuilt⟩ := exists_buildAll_of_success hsuccess
  obtain ⟨htext, -⟩ := (fault_run_eq_none_iff_writeStaged hsysroot hbuilt).mp hsuccess
  obtain ⟨name, hname⟩ := htext henabled
  have hne : name ≠ "" := by
    rintro rfl
    rw [hname] at henabled
    exact absurd henabled (by decide)
  exact ⟨name, hname, by simp [manifestName?, hname, hne]⟩

/-- The last name of the path of a crate leads to it exactly if its component has no slash in it. -/
theorem AreCratesOf.child_listedFile_iff
    (h : AreCratesOf tree settings sysroot crates) : ∀ crate ∈ crates,
    settings.outputDir.child (listedFile settings crate.name) = crate.output ↔
      '/' ∉ crate.name.toList := by
  intro crate hcrate
  rw [h.output_eq crate hcrate, listedFile]
  exact Toolchain.child_name_eq_iff settings.outputDir crate.name

/-- The outputs of a run with a manifest are its crates and a list of them. -/
theorem AreCratesOf.outputsOf_eq_append {name : String}
    (h : AreCratesOf tree settings sysroot crates) (hname : manifestName? settings = some name)
    (hnodup : settings.components.Nodup) :
    outputsOf settings crates = crates.map (fun crate => (crate.output, crate.text)) ++
      [(settings.outputDir.child name,
        Manifest.render 2 (settings.components.map fun component =>
          (component, listedFile settings component)) ++ "\n")] := by
  rw [outputsOf, manifestOutput_eq, hname, h.manifestText_eq_of_nodup hnodup]
  rfl

/-- When all outputs have been staged and moved, no component comes twice. -/
theorem AreCratesOf.nodup_of_moves (h : AreCratesOf tree settings sysroot crates)
    (hstaged : Staged (madeTree tree settings) (outputsOf settings crates) staged prepared)
    (hmoves : Moves prepared staged after) : settings.components.Nodup := by
  obtain ⟨places, hplaces, hinto⟩ := exists_movedInto hstaged hmoves h.pairwise_names
  have hslots : ((outputsOf settings crates).map fun output =>
      (madeTree tree settings).slotOf? output.1).Nodup := by
    rw [map_slotOf?_eq hstaged hplaces]
    exact hinto.nodup.map fun place other => Option.some.inj
  exact h.nodup_components hslots

/-- When all outputs have been staged and moved, and no link was where they were staged, they have
arrived. -/
theorem AreCratesOf.arrived_of_moves (h : AreCratesOf tree settings sysroot crates)
    (hstaged : Staged (madeTree tree settings) (outputsOf settings crates) staged prepared)
    (hmoves : Moves prepared staged after) (hplain : StagesPlainly tree settings crates) :
    Arrived (madeTree tree settings) (outputsOf settings crates) after := by
  obtain ⟨places, hplaces, hinto⟩ := exists_movedInto hstaged hmoves h.pairwise_names
  exact arrived_of_movedInto hstaged hplaces hinto (hplain.isPlain hstaged)

/-- The file that is listed for a crate is read with its text. -/
theorem AreCratesOf.readBytes_listedFile (h : AreCratesOf tree settings sysroot crates)
    (harrived : Arrived (madeTree tree settings) (outputsOf settings crates) after) :
    ∀ crate ∈ crates, '/' ∉ crate.name.toList →
      after.slotOf? crate.output = (madeTree tree settings).slotOf? crate.output →
      after.readBytes (settings.outputDir.child (listedFile settings crate.name)) =
        .ok crate.text.toUTF8 := by
  intro crate hcrate hslash hslot
  have hproper : ¬(crate.output.name = "" ∨ crate.output.name = ".") := by
    simpa [Path.isName] using (h.name_output crate hcrate).1.1
  have hmem : (crate.output, crate.text) ∈ outputsOf settings crates :=
    mem_outputsOf_iff.mpr (.inl ⟨crate, hcrate, rfl⟩)
  rw [(h.child_listedFile_iff crate hcrate).mpr hslash]
  exact harrived.readBytes_eq hmem hproper hslot

/-- If a run with a manifest succeeds, on whatever medium, no component comes twice, and the manifest
has an entry for each of them, in their order. The file that an entry names is that of the crate exactly if the component
has no slash in it. If no link stood where files are staged, every crate and the manifest have
arrived at their targets, and the file of an entry is read with the text of its crate, as long as its
path still names its target. -/
theorem manifest_lists_files (henabled : settings.manifest.isTruthy = true)
    (hsuccess : (run tree settings answer medium).1.fault = none) :
    let after := (run tree settings answer medium).1.tree
    let crates := (run tree settings answer medium).2
    let made := madeTree tree settings
    settings.components.Nodup ∧
    (∃ sysroot, (Pack.sysroot settings answer).result = .ok sysroot ∧
      AreCratesOf tree settings sysroot crates) ∧
    (∃ name, settings.manifest = .string name ∧
      outputsOf settings crates = crates.map (fun crate => (crate.output, crate.text)) ++
        [(settings.outputDir.child name,
          Manifest.render 2 (settings.components.map fun component =>
            (component, listedFile settings component)) ++ "\n")]) ∧
    (∀ crate ∈ crates, settings.outputDir.child (listedFile settings crate.name) = crate.output ↔
      '/' ∉ crate.name.toList) ∧
    (StagesPlainly tree settings crates → Arrived made (outputsOf settings crates) after ∧
      ∀ crate ∈ crates, '/' ∉ crate.name.toList →
        after.slotOf? crate.output = made.slotOf? crate.output →
        after.readBytes (settings.outputDir.child (listedFile settings crate.name)) =
          .ok crate.text.toUTF8) := by
  intro after crates made
  obtain ⟨name, hmanifest, hname⟩ := exists_manifestName_of_success henabled hsuccess
  obtain ⟨sysroot, prepared, staged, hsysroot, hcrates, hstaged, hmoves⟩ :=
    exists_of_success hsuccess
  have hnodup := hcrates.nodup_of_moves hstaged hmoves
  refine ⟨hnodup, ⟨sysroot, hsysroot, hcrates⟩,
    ⟨name, hmanifest, hcrates.outputsOf_eq_append hname hnodup⟩, hcrates.child_listedFile_iff,
    fun hplain => ?_⟩
  have harrived := hcrates.arrived_of_moves hstaged hmoves hplain
  exact ⟨harrived, hcrates.readBytes_listedFile harrived⟩

/-- A tree in which a staged file is left in the output directory. -/
def leftoverTree : FileTree :=
  { crateTree with
    entries := (["www"], .directory) :: (["fake_a.rs.tmp", "www"], .file "".toUTF8) ::
      crateTree.entries }

/-- Settings that pack components of that toolchain with a manifest. -/
def listSettings (components : List String) : Settings :=
  { crateSettings components with manifest := .string "crates.json" }

/-- The staged file is written anew, and the crate is read from the file that the manifest names. -/
theorem manifest_lists_files_leftover :
    let settings := listSettings ["a"]
    let outcome := run leftoverTree settings .missing
    settings.manifest.isTruthy = true ∧ outcome.1.fault = none ∧
      StagesPlainly leftoverTree settings outcome.2 ∧ listedFile settings "a" = "fake_a.rs" ∧
      ∃ crate ∈ outcome.2, crate.name = "a" ∧ crate.text = "fn a();\n" ∧
        outcome.1.tree.readBytes (settings.outputDir.child (listedFile settings crate.name)) =
          .ok crate.text.toUTF8 := by
  intro settings outcome
  have henabled : settings.manifest.isTruthy = true := by decide
  have hsuccess : outcome.1.fault = none := by decide +kernel
  have hplain : StagesPlainly leftoverTree settings outcome.2 := by
    unfold StagesPlainly
    decide +kernel
  obtain ⟨crate, hcrate, hname, htext, hslot⟩ : ∃ crate ∈ outcome.2, crate.name = "a" ∧
      crate.text = "fn a();\n" ∧ outcome.1.tree.slotOf? crate.output =
        (madeTree leftoverTree settings).slotOf? crate.output := by
    decide +kernel
  obtain ⟨-, -, -, -, harrived⟩ := manifest_lists_files henabled hsuccess
  have hread := (harrived hplain).2 crate hcrate (by rw [hname]; decide) hslot
  exact ⟨henabled, hsuccess, hplain, by decide, crate, hcrate, hname, htext, hread⟩

/-- A tree that has a toolchain with a crate in a directory below that of the library. -/
def nestedTree : FileTree :=
  { crateTree with
    entries := ("b" :: "a" :: libraryLocation, .directory) ::
      ("src" :: "b" :: "a" :: libraryLocation, .directory) ::
      ("lib.rs" :: "src" :: "b" :: "a" :: libraryLocation, .file "fn b();\n".toUTF8) ::
      (["www"], .directory) :: (["fake_a", "www"], .directory) :: crateTree.entries }

/-- The crate has been written below the output directory, and the manifest names a file that does not
exist. -/
theorem manifest_lists_no_file_nested :
    let settings := listSettings ["a/b"]
    let outcome := run nestedTree settings .missing
    settings.manifest.isTruthy = true ∧ outcome.1.fault = none ∧
      outcome.1.tree.readBytes (settings.outputDir.child "crates.json") =
        .ok (Manifest.render 2 [("a/b", "b.rs")] ++ "\n").toUTF8 ∧
      outcome.1.tree.readBytes (settings.outputDir.child "b.rs") = .error .noEntry ∧
      outcome.1.tree.readBytes (settings.outputDir.child "fake_a/b.rs") =
        .ok "fn b();\n".toUTF8 := by
  intro settings outcome
  have hsuccess : outcome.1.fault = none := by decide +kernel
  refine ⟨by decide, hsuccess, ?_, by decide +kernel, by decide +kernel⟩
  have hplain : StagesPlainly nestedTree settings outcome.2 := by
    unfold StagesPlainly
    decide +kernel
  obtain ⟨sysroot, prepared, staged, -, hcrates, hstaged, hmoves⟩ := exists_of_success hsuccess
  have harrived := hcrates.arrived_of_moves hstaged hmoves hplain
  have hlisted : (settings.components.map fun component =>
      (component, listedFile settings component)) = [("a/b", "b.rs")] := by
    decide +kernel
  refine harrived.readBytes_eq ?_ (by decide) (by decide +kernel)
  rw [hcrates.outputsOf_eq_append rfl (by decide), hlisted]
  exact List.mem_append_right _ List.mem_cons_self

end FlatCrate.Pack
