import FlatCrate.Proofs.Pack.Built
import FlatCrate.Proofs.Pack.Moving

/-!
# What a successful run leaves behind

Every output of a successful run is in its place, and nothing else has changed once the output
directory has been made. No two outputs have the same place.

A move replaces a link that stands at its target. So the path of an output can be lost with the last
move: if the output directory is reached through that link, the output is in its place, but its path
leads nowhere any more.
-/

namespace FlatCrate.Pack

variable {tree made prepared after : FileTree} {outputs : List Output}
  {staged : List (Path × Path)} {places : List Location} {path : Path}

/-! ## Staged files and their targets -/

namespace Staged

/-- Staging leaves the ways of the tree. -/
theorem sameWays (h : Staged tree outputs staged after) : tree.SameWays after := by
  induction h with
  | nil tree => exact .refl tree
  | cons _ hwrite _ ih => exact (FileTree.sameWays_writeBytes hwrite).trans ih

/-- The targets of what is staged are those of the outputs. -/
theorem map_target (h : Staged tree outputs staged after) :
    staged.map (·.2) = outputs.map (·.1) := by
  induction h with
  | nil => rfl
  | cons _ _ _ ih => rw [List.map_cons, List.map_cons, ih]

/-- Everything is staged under the name for its target. -/
theorem stagingPath?_eq (h : Staged tree outputs staged after) :
    ∀ pair ∈ staged, stagingPath? pair.2 = some pair.1 := by
  induction h with
  | nil => simp
  | cons htemporary _ _ ih => exact List.forall_mem_cons.mpr ⟨htemporary, ih⟩

/-- Every output is staged. -/
theorem exists_mem_zip (h : Staged tree outputs staged after) {output : Output}
    (houtput : output ∈ outputs) : ∃ pair, (output, pair) ∈ outputs.zip staged ∧
      pair ∈ staged ∧ pair.2 = output.1 := by
  induction h with
  | nil => simp at houtput
  | cons _ _ _ ih =>
    obtain rfl | hlater := List.mem_cons.mp houtput
    · exact ⟨_, List.mem_cons_self, List.mem_cons_self, rfl⟩
    · obtain ⟨pair, hzip, hpair, heq⟩ := ih hlater
      exact ⟨pair, List.mem_cons_of_mem _ hzip, List.mem_cons_of_mem _ hpair, heq⟩

/-- A path that leads to a file goes on to do so. -/
theorem locate_found (h : Staged tree outputs staged after) {location : Location}
    {content : ByteArray} (hlocate : tree.locate path = .ok (.found location))
    (hfile : tree.find? location = some (.file content)) :
    after.locate path = .ok (.found location) ∧
      ∃ content', after.find? location = some (.file content') := by
  induction h generalizing content with
  | nil => exact ⟨hlocate, content, hfile⟩
  | cons _ hwrite _ ih =>
    obtain ⟨spot, -, hspot, rfl, -, -⟩ := FileTree.exists_spot_of_writeBytes hwrite
    by_cases hsame : location = spot
    · subst hsame
      exact ih (hspot.locate_put hlocate) (FileTree.find?_put_self _ hspot.below _)
    · exact ih (hspot.locate_put hlocate) ((FileTree.find?_put_of_ne _ hsame _).trans hfile)

/-- What has been written under a staging name is a file, also behind a link. -/
theorem exists_file (h : Staged tree outputs staged after) : ∀ pair ∈ staged, ∃ location content,
    after.locate pair.1 = .ok (.found location) ∧
      after.find? location = some (.file content) := by
  induction h with
  | nil => simp
  | cons _ hwrite hrest ih =>
    refine List.forall_mem_cons.mpr ⟨?_, ih⟩
    obtain ⟨spot, arrival, hspot, rfl, hlocate, harrival⟩ :=
      FileTree.exists_spot_of_writeBytes hwrite
    obtain ⟨hfound, content, hfile⟩ := hrest.locate_found (harrival ▸ hspot.locate_put hlocate)
      (FileTree.find?_put_self _ hspot.below _)
    exact ⟨spot, content, hfound, hfile⟩

/-- A link at a target leads to no directory, once its file is staged. -/
theorem areBlind (h : Staged tree outputs staged after) : AreBlind after staged := by
  intro pair hpair name directory target hslot hlink
  obtain ⟨location, content, hlocate, hfile⟩ := h.exists_file pair hpair
  obtain ⟨names, last, hnames, hlast⟩ := stagingPath?_eq_some (h.stagingPath?_eq pair hpair)
  obtain ⟨_, heq, -⟩ := exists_directory_of_slotOf? hslot
  obtain rfl : name = last := by
    rw [(List.cons.inj heq).1, Path.name, hnames, List.getLast?_concat, Option.getD_some]
  exact FileTree.isBlind_of_locate hslot hlink hlast hlocate (by
    simp [FileTree.isDirectoryAt, hfile])

end Staged

/-- Files that have been staged and moved have gone to places of their own. -/
theorem exists_movedInto (hstaged : Staged made outputs staged prepared)
    (hmoves : Moves prepared staged after)
    (hlast : (outputs.map (·.1.name)).Pairwise fun name later => name ≠ later ++ stagingSuffix) :
    ∃ places, Names made staged places ∧ MovedInto prepared places after := by
  have hnames : staged.map (·.2.name) = outputs.map (·.1.name) := by
    have htargets := congrArg (List.map Path.name) hstaged.map_target
    rwa [List.map_map, List.map_map] at htargets
  obtain ⟨places, hplaces, hinto⟩ :=
    hmoves.movedInto hstaged.stagingPath?_eq (hnames ▸ hlast) hstaged.areBlind
  exact ⟨places, hplaces.of_narrows hstaged.sameWays.narrows, hinto⟩

/-! ## What has arrived -/

/-- A path that names a file is read with its content. -/
theorem readBytes_of_slotOf? {location : Location} {content : ByteArray}
    (hname : ¬(path.name = "" ∨ path.name = ".")) (hslot : tree.slotOf? path = some location)
    (hfile : tree.find? location = some (.file content)) : tree.readBytes path = .ok content := by
  have hne : path.names ≠ [] := by
    rintro hnil
    rw [Path.name, hnil] at hname
    exact hname (.inl rfl)
  rw [← Path.entry_parent hne] at hslot ⊢
  obtain ⟨directory, rfl, hleads, hup, hlong, hshort⟩ :=
    FileTree.slotOf?_entry_eq_some_iff.mp hslot
  have hlocate := hleads.locate_entry ⟨hname, hup⟩ hlong hshort (by simp [hfile])
  rw [hfile, Option.isNone_some, if_neg Bool.false_ne_true] at hlocate
  simp only [FileTree.readBytes, FileTree.entryOf, FileTree.locationOf, hlocate, hfile]

/-- What has become of outputs that have been staged where no link was, once all of them have been
moved. Targets are entries of the tree in which the output directory has just been made. -/
structure Arrived (made : FileTree) (outputs : List Output) (after : FileTree) : Prop where
  /-- No entry is the target of two outputs. -/
  nodup : (outputs.map fun output => made.slotOf? output.1).Nodup
  /-- Every target is a file with the text of its output. -/
  isFile : ∀ output ∈ outputs, ∃ location, made.slotOf? output.1 = some location ∧
    after.find? location = some (.file output.2.toUTF8)
  /-- If no link has stood at a target, every path names what it has named. -/
  slotOf?_eq : (∀ output ∈ outputs, ∀ location ∈ made.slotOf? output.1, ∀ target,
      made.find? location ≠ some (.link target)) →
    ∀ other, after.slotOf? other = made.slotOf? other

/-- If the path of an output still names its target, the text is read from it. -/
theorem Arrived.readBytes_eq (h : Arrived made outputs after) {text : String}
    (houtput : (path, text) ∈ outputs) (hname : ¬(path.name = "" ∨ path.name = "."))
    (hslot : after.slotOf? path = made.slotOf? path) :
    after.readBytes path = .ok text.toUTF8 := by
  obtain ⟨location, hlocation, hfile⟩ := h.isFile _ houtput
  exact readBytes_of_slotOf? hname (hslot.trans hlocation) hfile

section Moved

variable (hstaged : Staged made outputs staged prepared)
  (hplaces : Names made staged places) (hinto : MovedInto prepared places after)

include hstaged hplaces

/-- The targets name the places, in their order. -/
theorem map_slotOf?_eq :
    outputs.map (fun output => made.slotOf? output.1) = places.map some := by
  have htargets := congrArg (List.map made.slotOf?) hstaged.map_target
  rw [List.map_map, List.map_map] at htargets
  exact htargets.symm.trans hplaces.target

/-- The target of every output names one of the places. -/
theorem exists_place {output : Output} (houtput : output ∈ outputs) :
    ∃ place ∈ places, made.slotOf? output.1 = some place := by
  obtain ⟨place, hplace, hslot⟩ := List.mem_map.mp
    (map_slotOf?_eq hstaged hplaces ▸ List.mem_map_of_mem houtput)
  exact ⟨place, hplace, hslot.symm⟩

/-- Every place is named by the target of an output. -/
theorem exists_output_of_place {place : Location} (hplace : place ∈ places) :
    ∃ output ∈ outputs, made.slotOf? output.1 = some place :=
  List.mem_map.mp (map_slotOf?_eq hstaged hplaces ▸ List.mem_map_of_mem hplace)

/-- Where an output is staged. -/
theorem slotOf?_staging {output : Output} (houtput : output ∈ outputs) {place : Location}
    (hplace : made.slotOf? output.1 = some place) : ∃ temporary,
    stagingPath? output.1 = some temporary ∧ made.slotOf? temporary = some (stagingSpot place) := by
  obtain ⟨pair, -, hpair, heq⟩ := hstaged.exists_mem_zip houtput
  have htemporary := hstaged.stagingPath?_eq pair hpair
  rw [heq] at htemporary
  obtain ⟨spot, -, hspot⟩ := List.mem_map.mp (hplaces.staging ▸ List.mem_map_of_mem hpair)
  rw [← eq_stagingSpot htemporary hspot.symm hplace]
  exact ⟨pair.1, htemporary, hspot.symm⟩

/-- The staged files hold their texts. -/
theorem find?_stagingSpot (hplain : IsPlain made staged) (hnodup : places.Nodup) {output : Output}
    (houtput : output ∈ outputs) {place : Location}
    (hplace : made.slotOf? output.1 = some place) :
    prepared.find? (stagingSpot place) = some (.file output.2.toUTF8) := by
  have hspots : (staged.map fun pair => made.slotOf? pair.1).Nodup := by
    rw [hplaces.staging]
    exact hnodup.map fun place other heq => stagingSpot_injective (Option.some.inj heq)
  obtain ⟨pair, hzip, hpair, heq⟩ := hstaged.exists_mem_zip houtput
  obtain ⟨spot, hspot, hfile⟩ := hstaged.find?_text hplain hspots _ hzip
  have htemporary := hstaged.stagingPath?_eq pair hpair
  rw [heq] at htemporary
  rwa [eq_stagingSpot htemporary hspot hplace] at hfile

include hinto

/-- When everything has been moved, all outputs have arrived. -/
theorem arrived_of_movedInto (hplain : IsPlain made staged) : Arrived made outputs after := by
  have hfile {output : Output} (houtput : output ∈ outputs) {place : Location}
      (hplace : made.slotOf? output.1 = some place) :=
    find?_stagingSpot hstaged hplaces hplain hinto.nodup houtput hplace
  constructor
  case nodup =>
    rw [map_slotOf?_eq hstaged hplaces]
    exact hinto.nodup.map fun place other => Option.some.inj
  case isFile =>
    intro output houtput
    obtain ⟨place, hmem, hplace⟩ := exists_place hstaged hplaces houtput
    exact ⟨place, hplace, (hinto.arrived place hmem).trans (hfile houtput hplace)⟩
  case slotOf?_eq =>
    intro hlinks other
    have hsame : prepared.SameWays after := by
      refine hinto.sameWays (fun place hplace => ?_) fun place hplace target hlink => ?_
      · obtain ⟨output, houtput, hslot⟩ := exists_output_of_place hstaged hplaces hplace
        exact ⟨_, hfile houtput hslot⟩
      · obtain ⟨output, houtput, hslot⟩ := exists_output_of_place hstaged hplaces hplace
        exact hlinks output houtput place hslot target
          ((hstaged.sameWays.find?_iff _ _ rfl).mp hlink)
    rw [hsame.slotOf?_eq, hstaged.sameWays.slotOf?_eq]

end Moved

/-- What has become of outputs once all of them have been staged and moved. Targets and staging
names are entries of the tree in which the output directory has just been made. -/
structure Placed (made : FileTree) (outputs : List Output) (after : FileTree) : Prop where
  workDir_eq : after.workDir = made.workDir
  /-- No entry is the target of two outputs. -/
  nodup : (outputs.map fun output => made.slotOf? output.1).Nodup
  /-- Every target is a file with the text of its output. -/
  isFile : ∀ output ∈ outputs, ∃ location, made.slotOf? output.1 = some location ∧
    after.find? location = some (.file output.2.toUTF8)
  /-- No staged file is left, unless it is a target. -/
  left : ∀ output ∈ outputs, ∃ temporary location, stagingPath? output.1 = some temporary ∧
    made.slotOf? temporary = some location ∧
    ((∃ other ∈ outputs, made.slotOf? other.1 = some location) ∨ after.find? location = none)
  /-- Nothing but targets has changed. -/
  others : ∀ location, (∀ output ∈ outputs, made.slotOf? output.1 ≠ some location) →
    after.find? location = made.find? location
  /-- If the path of an output still names its target, the text is read from it. -/
  read : ∀ output ∈ outputs, after.slotOf? output.1 = made.slotOf? output.1 →
    after.readBytes output.1 = .ok output.2.toUTF8
  /-- If no link has stood at a target, every path names what it has named. -/
  slotOf?_eq : (∀ output ∈ outputs, ∀ location ∈ made.slotOf? output.1, ∀ target,
      made.find? location ≠ some (.link target)) →
    ∀ other, after.slotOf? other = made.slotOf? other

/-- Outputs that have been staged in free places and moved are placed. -/
theorem placed_of_moves (hstaged : Staged made outputs staged prepared)
    (hmoves : Moves prepared staged after) (hfree : IsFree made outputs)
    (hnames : ∀ output ∈ outputs, ¬(output.1.name = "" ∨ output.1.name = "."))
    (hlast : (outputs.map (·.1.name)).Pairwise fun name later => name ≠ later ++ stagingSuffix) :
    Placed made outputs after := by
  obtain ⟨places, hplaces, hinto⟩ := exists_movedInto hstaged hmoves hlast
  have hplain := hstaged.isPlain hfree
  have harrived := arrived_of_movedInto hstaged hplaces hinto hplain
  have hplace {output : Output} (houtput : output ∈ outputs) :=
    exists_place hstaged hplaces houtput
  constructor
  case workDir_eq => exact hinto.narrows.workDir_eq.trans hstaged.sameWays.workDir_eq
  case nodup => exact harrived.nodup
  case isFile => exact harrived.isFile
  case left =>
    intro output houtput
    obtain ⟨place, hmem, hslot⟩ := hplace houtput
    obtain ⟨temporary, htemporary, hspot⟩ := slotOf?_staging hstaged hplaces houtput hslot
    refine ⟨temporary, _, htemporary, hspot, ?_⟩
    by_cases htarget : stagingSpot place ∈ places
    · exact .inl (exists_output_of_place hstaged hplaces htarget)
    · exact .inr (hinto.left place hmem htarget)
  case others =>
    intro location hlocation
    have hne : ∀ place ∈ places, location ≠ place := by
      rintro place hmem rfl
      obtain ⟨output, houtput, hslot⟩ := exists_output_of_place hstaged hplaces hmem
      exact hlocation output houtput hslot
    by_cases hstaging : ∃ place ∈ places, location = stagingSpot place
    · -- the file is gone again, and nothing was there before
      obtain ⟨place, hmem, rfl⟩ := hstaging
      obtain ⟨pair, hpair, hspot⟩ := hplaces.exists_staging hmem
      obtain ⟨spot, hspot', hnone⟩ := hstaged.find?_eq_none hfree pair hpair
      obtain rfl := Option.some.inj (hspot.symm.trans hspot')
      rw [hinto.left place hmem fun htarget => hne _ htarget rfl, hnone]
    · simp only [not_exists, not_and] at hstaging
      rw [hinto.others location fun place hmem => ⟨hne place hmem, hstaging place hmem⟩]
      refine (hstaged.hasStaged hplain).others location fun pair hpair heq => ?_
      obtain ⟨place, hmem, hspot⟩ :=
        List.mem_map.mp (hplaces.staging ▸ List.mem_map_of_mem hpair)
      exact hstaging place hmem (Option.some.inj (heq.symm.trans hspot.symm))
  case read => exact fun output houtput => harrived.readBytes_eq houtput (hnames output houtput)
  case slotOf?_eq => exact harrived.slotOf?_eq

/-! ## Runs -/

section Run

variable {settings : Settings} {answer : Toolchain.Answer} {medium : Medium} {sysroot : Path}
  {crates : List PackedCrate}

/-- A run that has built its crates succeeds exactly if they can be written. -/
theorem fault_run_eq_none_iff_writeStaged
    (hsysroot : (Pack.sysroot settings answer).result = .ok sysroot)
    (hbuilt : (PackedCrate.buildAll tree settings sysroot settings.components).result =
      .ok crates) :
    (run tree settings answer medium).1.fault = none ↔
      (settings.manifest.isTruthy = true → ∃ name, settings.manifest = .string name) ∧
      settings.outputDir.holdsZero = false ∧
      (tree.makeDirectories settings.outputDir).error = none ∧
      (writeStaged (madeTree tree settings) (outputsOf settings crates) medium).fault = none := by
  rw [(run_eq_writeAll _ hsysroot hbuilt).2.2, ← exists_manifestOutput_iff settings crates]
  cases hmanifest : manifestOutput settings crates with
  | error fault => simp [writeAll, hmanifest]
  | ok manifest =>
    rw [writeAll_eq hmanifest]
    cases settings.outputDir.holdsZero <;>
      cases (tree.makeDirectories settings.outputDir).error <;> simp

/-- A run that succeeds has found the toolchain and built the crates. -/
theorem exists_buildAll_of_success (h : (run tree settings answer medium).1.fault = none) :
    ∃ sysroot, (Pack.sysroot settings answer).result = .ok sysroot ∧
      (PackedCrate.buildAll tree settings sysroot settings.components).result =
        .ok (run tree settings answer medium).2 := by
  have hends := ends_run tree settings answer medium
  rw [h] at hends
  generalize (run tree settings answer medium).1.tree = after at hends
  generalize hfault : (none : Option PackFault) = fault at hends
  cases hends with
  | unwritten | unmade | unstaged => simp at hfault
  | staged hsysroot hbuilt _ => exact ⟨_, hsysroot, hbuilt⟩

/-- A run that succeeds has built all crates, and staged and moved all files. -/
theorem exists_of_success (h : (run tree settings answer medium).1.fault = none) :
    ∃ sysroot prepared staged, (Pack.sysroot settings answer).result = .ok sysroot ∧
      AreCratesOf tree settings sysroot (run tree settings answer medium).2 ∧
      Staged (madeTree tree settings) (outputsOf settings (run tree settings answer medium).2) staged
        prepared ∧
      Moves prepared staged (run tree settings answer medium).1.tree := by
  have hends := ends_run tree settings answer medium
  generalize hfault : (run tree settings answer medium).1.fault = fault at hends
  rw [h] at hfault
  generalize (run tree settings answer medium).1.tree = after at hends
  cases hends with
  | unwritten | unmade | unstaged => simp at hfault
  | @staged sysroot prepared staged hsysroot hbuilt hstage =>
    obtain ⟨added, hadded, hstaged⟩ := staged_of_stage hstage
    obtain rfl : staged = added := hadded
    obtain ⟨moved, rest, rfl, hmoves, -, ⟨rfl, -⟩ | ⟨_, _, _, _, -, -, hblocked⟩⟩ :=
      moves_moveAll prepared staged
    · rw [List.append_nil] at hstaged hmoves ⊢
      exact ⟨sysroot, prepared, moved, hsysroot, PackedCrate.buildAll_eq_ok hbuilt, hstaged, hmoves⟩
    · simp [← hfault] at hblocked

/-- A medium matters to failing runs only: a run that succeeds is that on a sound medium. -/
theorem run_eq_sound (h : (run tree settings answer medium).1.fault = none) :
    run tree settings answer medium = run tree settings answer := by
  obtain ⟨sysroot, hsysroot, hbuilt⟩ := exists_buildAll_of_success h
  obtain ⟨htext, hzero, hmade, hwritten⟩ :=
    (fault_run_eq_none_iff_writeStaged hsysroot hbuilt).mp h
  obtain ⟨manifest, hmanifest⟩ :=
    (exists_manifestOutput_iff settings (run tree settings answer medium).2).mpr htext
  have hall : writeAll tree settings (run tree settings answer medium).2 medium =
      writeAll tree settings (run tree settings answer medium).2 := by
    rw [writeAll_eq hmanifest, writeAll_eq hmanifest, writeStaged_eq_sound hwritten]
  generalize (run tree settings answer medium).2 = crates at hbuilt hall
  simp only [run, hsysroot, hbuilt, hall]

/-- If a run succeeds and nothing but a directory stood where files are staged, all outputs are
placed. -/
theorem placed_of_success (hnames : HasFileNames settings)
    (hfree : StagesFreely tree settings (run tree settings answer medium).2)
    (hsuccess : (run tree settings answer medium).1.fault = none) :
    settings.components.Nodup ∧
      Placed (madeTree tree settings) (outputsOf settings (run tree settings answer medium).2)
        (run tree settings answer medium).1.tree := by
  obtain ⟨sysroot, prepared, staged, -, hcrates, hstaged, hmoves⟩ := exists_of_success hsuccess
  have hproper : ∀ output ∈ outputsOf settings (run tree settings answer medium).2,
      ¬(output.1.name = "" ∨ output.1.name = ".") := by
    rw [hcrates.outputsOf_eq hnames]
    refine List.forall_mem_map.mpr fun file hfile => ?_
    rw [Path.name_entry]
    simpa [Path.isName] using (hcrates.isFileName hnames file hfile).1
  have hplaced := placed_of_moves hstaged hmoves hfree.isFree hproper hcrates.pairwise_names
  exact ⟨hcrates.nodup_components hplaced.nodup, hplaced⟩

/-- If a run succeeds, on whatever medium, and nothing but a directory stood where files are staged,
nothing has changed but the targets, after the output directory has been made. Every target is a
file with its text: for each component that of its crate, and for the manifest the names of all of
them with their files. No two targets are the same entry, so no component comes twice. -/
theorem run_places_outputs (hnames : HasFileNames settings)
    (hfree : StagesFreely tree settings (run tree settings answer medium).2)
    (hsuccess : (run tree settings answer medium).1.fault = none) :
    let after := (run tree settings answer medium).1.tree
    let crates := (run tree settings answer medium).2
    tree.MakesOnly settings.outputDir (madeTree tree settings) ∧
      Placed (madeTree tree settings) (outputsOf settings crates) after ∧
      settings.components.Nodup ∧
      (∃ sysroot, (Pack.sysroot settings answer).result = .ok sysroot ∧
        AreCratesOf tree settings sysroot crates) ∧
      outputsOf settings crates = crates.map (fun crate => (crate.output, crate.text)) ++
        (manifestName? settings).toList.map fun name => (settings.outputDir.child name,
          Manifest.render 2 (settings.components.map fun component =>
            (component, Toolchain.outputName component)) ++ "\n") := by
  intro after crates
  obtain ⟨sysroot, -, -, hsysroot, hcrates, -, -⟩ := exists_of_success hsuccess
  obtain ⟨hcomponents, hplaced⟩ := placed_of_success hnames hfree hsuccess
  refine ⟨makesOnly_madeTree tree settings, hplaced, hcomponents, ⟨sysroot, hsysroot, hcrates⟩, ?_⟩
  rw [outputsOf, manifestOutput_eq, hcrates.manifestText_eq hnames hcomponents]

/-- Settings whose manifest has the name under which the only crate is staged. -/
def aliasSettings : Settings := { crateSettings ["a"] with manifest := .string "fake_a.rs.tmp" }

/-- The crate leaves its staging name before the manifest comes there, so both are placed. -/
theorem run_places_outputs_alias :
    let outcome := (run crateTree aliasSettings .missing).1
    let crates := (run crateTree aliasSettings .missing).2
    HasFileNames aliasSettings ∧ StagesFreely crateTree aliasSettings crates ∧
      outcome.fault = none ∧
      Placed (madeTree crateTree aliasSettings) (outputsOf aliasSettings crates) outcome.tree ∧
      (outputsOf aliasSettings crates).map (·.1) =
        [⟨.relative, ["www", "fake_a.rs"]⟩, ⟨.relative, ["www", "fake_a.rs.tmp"]⟩] := by
  intro outcome crates
  have hnames : HasFileNames aliasSettings := by
    refine ⟨by decide, fun name hname => ?_⟩
    obtain rfl := Option.some.inj hname
    exact ⟨by decide, by decide⟩
  have hfree : StagesFreely crateTree aliasSettings crates := by
    unfold StagesFreely
    decide +kernel
  have hsuccess : outcome.fault = none := by
    decide +kernel
  have hplaced := (run_places_outputs hnames hfree hsuccess).2.1
  exact ⟨hnames, hfree, hsuccess, hplaced, by decide +kernel⟩

/-- A tree whose output directory is a link to the working directory. -/
def selfLinkedTree : FileTree :=
  { crateTree with entries := (["www"], .link ".") :: crateTree.entries }

/-- Settings whose manifest is to be put in the place of that link. -/
def linkSettings : Settings := { crateSettings ["a"] with manifest := .string "www" }

/-- When the manifest has replaced the link, the path of the crate leads nowhere, although the run
has succeeded. -/
theorem output_behind_replaced_link :
    let outcome := (run selfLinkedTree linkSettings .missing).1
    let crates := (run selfLinkedTree linkSettings .missing).2
    HasFileNames linkSettings ∧ StagesFreely selfLinkedTree linkSettings crates ∧
      outcome.fault = none ∧
      ∃ crate ∈ crates, outcome.tree.readBytes crate.output = .error .notDirectory := by
  intro outcome crates
  have hnames : HasFileNames linkSettings := by
    refine ⟨by decide, fun name hname => ?_⟩
    obtain rfl := Option.some.inj hname
    exact ⟨by decide, by decide⟩
  have hfree : StagesFreely selfLinkedTree linkSettings crates := by
    unfold StagesFreely
    decide +kernel
  exact ⟨hnames, hfree, by decide +kernel, by decide +kernel⟩

end Run

end FlatCrate.Pack
