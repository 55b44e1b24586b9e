import FlatCrate.Proofs.Pack.EarlyFault
import FlatCrate.Proofs.Path

/-!
# The files of a run

The crates of a run come in the order of its components. If no name has a slash in it, all outputs
of the run are files of the output directory: one for each crate, and behind them the manifest.
-/

namespace FlatCrate

/-! ## Names of outputs -/

namespace Toolchain

variable {component : String}

/-- The name of an output, character by character. -/
theorem toList_outputName (component : String) :
    (outputName component).toList = "fake_".toList ++ component.toList ++ ".rs".toList := by
  rw [outputName, String.toList_append, String.toList_append]

/-- Every output has a name that begins in the same way. -/
theorem outputName_ne (component : String) {text : String} (h : text.toList.head? ≠ some 'f') :
    outputName component ≠ text := by
  rintro rfl
  exact h (by rw [toList_outputName]; rfl)

/-- Every output has a name that ends in the same way. -/
theorem append_rs_ne (stem : String) {text : String} (h : text.toList.getLast? ≠ some 's') :
    stem ++ ".rs" ≠ text := by
  rintro rfl
  refine h ?_
  rw [String.toList_append, List.getLast?_append_of_ne_nil _ (by decide)]
  rfl

/-- No output of a crate is named like a staged file. -/
theorem append_rs_ne_append (stem other : String) : stem ++ ".rs" ≠ other ++ Pack.stagingSuffix := by
  refine append_rs_ne stem ?_
  rw [String.toList_append, List.getLast?_append_of_ne_nil _ (by decide)]
  decide

/-- Different components have outputs of different names. -/
theorem outputName_injective : Function.Injective outputName := by
  intro component other heq
  have htexts := congrArg String.toList heq
  rw [toList_outputName, toList_outputName, List.append_left_inj, List.append_right_inj] at htexts
  exact String.toList_inj.mp htexts

/-- A stem without a slash makes the name of a file. -/
theorem isFileName_append_rs {stem : String} (h : '/' ∉ stem.toList) :
    Path.IsFileName (stem ++ ".rs") := by
  have hempty : stem ++ ".rs" ≠ "" := append_rs_ne stem (by decide)
  have hdot : stem ++ ".rs" ≠ "." := append_rs_ne stem (by decide)
  exact ⟨by simp [Path.isName, hempty, hdot], by simpa using h⟩

/-- A component without a slash has an output with the name of a file. -/
theorem isFileName_outputName (h : '/' ∉ component.toList) :
    Path.IsFileName (outputName component) :=
  isFileName_append_rs (by simpa using h)

/-- The last slash of a component stands in front of the last name of its output. -/
theorem exists_ofString_outputName_eq (h : '/' ∈ component.toList) : ∃ above stem,
    Path.ofString (outputName component) = ⟨.relative, above ++ [stem ++ ".rs"]⟩ ∧ above ≠ [] ∧
      '/' ∉ stem.toList := by
  obtain ⟨back, front, hreverse, hback⟩ := List.eq_append_cons_of_mem (List.mem_reverse.mpr h)
  have hcomponent : component.toList = front.reverse ++ '/' :: back.reverse := by
    rw [← List.reverse_reverse component.toList, hreverse]
    simp
  have htext : (outputName component).toList = ('f' :: ("ake_".toList ++ front.reverse)) ++
      '/' :: (back.reverse ++ ".rs".toList) := by
    rw [toList_outputName, hcomponent]
    simp
  have hend : '/' ∉ back.reverse ++ ".rs".toList := by simpa using hback
  have hpieces : Text.pieces '/' (outputName component) =
      ((Text.splitAt '/' ('f' :: ("ake_".toList ++ front.reverse))).map String.ofList) ++
        [String.ofList back.reverse ++ ".rs"] := by
    rw [Text.pieces, htext, Text.splitAt_eq_splitOn, List.splitOn_append_cons_self,
      List.splitOn_eq_singleton hend, List.map_append, Text.splitAt_eq_splitOn, List.map_singleton,
      String.ofList_append, String.ofList_toList]
  have hbegin : (outputName component).toList.takeWhile (· == '/') = [] := by
    rw [toList_outputName]
    rfl
  have hslash : '/' ∉ (String.ofList back.reverse).toList := by simpa using hback
  have hof := Path.ofString_append hbegin .relative
  rw [Anchor.text, String.empty_append, hpieces, List.filter_append, List.filter_singleton,
    (isFileName_append_rs hslash).1] at hof
  refine ⟨_, _, hof, fun hnil => ?_, hslash⟩
  -- the piece in front of the first slash begins with a letter
  rw [Text.splitAt_cons, if_neg (by decide)] at hnil
  cases hsplit : Text.splitAt '/' ("ake_".toList ++ front.reverse) with
  | nil => exact absurd hsplit (Text.splitAt_ne_nil _ _)
  | cons piece others =>
    have hfirst : Path.isName (String.ofList ('f' :: piece)) = true := by
      have hempty : String.ofList ('f' :: piece) ≠ "" := by simp
      have hdot : String.ofList ('f' :: piece) ≠ "." := fun heq => by
        simpa using congrArg String.toList heq
      rw [Path.isName, Bool.and_eq_true, bne_iff_ne, bne_iff_ne]
      exact ⟨hempty, hdot⟩
    rw [hsplit] at hnil
    exact List.filter_eq_nil_iff.mp hnil _ (List.mem_map_of_mem List.mem_cons_self) hfirst

/-- The path of an output ends with a proper name. There are other names in front of that one, below
the output directory, exactly if the component has a slash in it. -/
theorem exists_child_outputName_eq (directory : Path) (component : String) : ∃ above stem,
    directory.child (outputName component) =
      ⟨directory.anchor, directory.names ++ above ++ [stem ++ ".rs"]⟩ ∧
    Path.IsFileName (stem ++ ".rs") ∧ (above = [] ↔ '/' ∉ component.toList) := by
  by_cases hslash : '/' ∈ component.toList
  · obtain ⟨above, stem, hof, hne, hstem⟩ := exists_ofString_outputName_eq hslash
    refine ⟨above, stem, ?_, isFileName_append_rs hstem, iff_of_false hne (not_not.mpr hslash)⟩
    rw [Path.child, hof, Path.join_of_relative, List.append_assoc]
  · refine ⟨[], "fake_" ++ component, ?_, isFileName_outputName hslash, by simp [hslash]⟩
    rw [(isFileName_outputName hslash).child_eq, Path.entry, List.append_nil]
    rfl

/-- The last name of the path of an output leads to it from the output directory exactly if the
component has no slash in it. -/
theorem child_name_eq_iff (directory : Path) (component : String) :
    directory.child (directory.child (outputName component)).name =
      directory.child (outputName component) ↔ '/' ∉ component.toList := by
  obtain ⟨above, stem, hchild, hname, hiff⟩ := exists_child_outputName_eq directory component
  have hlast : (directory.child (outputName component)).name = stem ++ ".rs" := by
    rw [hchild, Path.name, List.getLast?_concat, Option.getD_some]
  rw [hlast, hname.child_eq, hchild, ← hiff, Path.entry]
  simp

end Toolchain

/-! ## Crates -/

namespace PackedCrate

variable {tree : FileTree} {settings : Settings} {sysroot : Path} {crate : PackedCrate}
  {crates : List PackedCrate} {components : List String}

/-- A crate of the settings: it has the name of its component and belongs into the output directory,
and its text is what flattening gives, with stubs if these are asked for. -/
structure IsCrateOf (tree : FileTree) (settings : Settings) (sysroot : Path) (component : String)
    (crate : PackedCrate) : Prop where
  name_eq : crate.name = component
  output_eq : crate.output = settings.outputDir.child (Toolchain.outputName component)
  text_eq : ∀ text,
    flatten tree (Toolchain.crateRoot sysroot component) (.limited settings.budget) = .ok text →
    crate.text = if settings.stubbing then Source.stubBodies text else text

/-- What is built for a component is its crate. -/
theorem isCrateOf_build {component : String}
    (h : (build tree (Toolchain.crateRoot sysroot component) component (.limited settings.budget)
      settings.stubbing settings.outputDir).result = .ok crate) :
    IsCrateOf tree settings sysroot component crate := by
  rw [build] at h
  dsimp only at h
  split at h
  · simp at h
  · next hnone =>
    obtain rfl := Except.ok.inj h
    refine ⟨rfl, rfl, fun text htext => ?_⟩
    rw [flatten] at htext
    simp only [hnone, Except.ok.injEq] at htext
    rw [htext]

/-- A crate that can be flattened is built. -/
theorem exists_build {root : Path} {text : String} {budget : Budget} (name : String)
    (stubbing : Bool) (outputDir : Path) (h : flatten tree root budget = .ok text) :
    ∃ crate, (build tree root name budget stubbing outputDir).result = .ok crate := by
  rw [flatten] at h
  split at h
  · next hnone =>
    rw [build]
    simp only [hnone]
    exact ⟨_, rfl⟩
  · simp at h

/-- A crate is not built for the reason for which its root file cannot be flattened. -/
theorem flatten_of_build_eq_error {root directory : Path} {name : String} {budget : Budget}
    {stubbing : Bool} {e : FlattenError}
    (h : (build tree root name budget stubbing directory).result = .error e) :
    flatten tree root budget = .error e := by
  rw [build] at h
  dsimp only at h
  rw [flatten]
  split at h
  · next cause hcause =>
    obtain rfl := Except.error.inj h
    simp only [hcause]
  · simp at h

/-- The crate of a root file has the flat text, with stubs if these are asked for. -/
theorem exists_flatten_of_build {root directory : Path} {name : String} {budget : Budget}
    {stubbing : Bool} (h : (build tree root name budget stubbing directory).result = .ok crate) :
    ∃ text, flatten tree root budget = .ok text ∧
      crate.text = if stubbing then Source.stubBodies text else text := by
  rw [build] at h
  dsimp only at h
  split at h
  · simp at h
  · next hnone =>
    obtain rfl := Except.ok.inj h
    exact ⟨_, by simp only [flatten, hnone], rfl⟩

/-- The crates of some components are built exactly if each of them is. -/
theorem buildAll_eq_ok_iff : (buildAll tree settings sysroot components).result = .ok crates ↔
    List.Forall₂ (fun name crate =>
      (build tree (Toolchain.crateRoot sysroot name) name (.limited settings.budget)
        settings.stubbing settings.outputDir).result = .ok crate) components crates := by
  induction components generalizing crates with
  | nil => simp [buildAll, eq_comm]
  | cons component components ih =>
    rw [buildAll, List.forall₂_cons_left_iff]
    dsimp only
    split
    · next e he => simp [he]
    · next crate hcrate =>
      simp only [hcrate, Except.ok.injEq]
      cases hothers : (buildAll tree settings sysroot components).result with
      | error e => simp [← ih, hothers, Except.map]
      | ok others =>
        simp only [← ih, hothers, Except.map, Except.ok.injEq]
        constructor
        · rintro rfl
          exact ⟨_, _, rfl, rfl, rfl⟩
        · rintro ⟨_, _, rfl, rfl, rfl⟩
          rfl

/-- The crates of some components are built in the order of these. -/
theorem buildAll_eq_ok (h : (buildAll tree settings sysroot components).result = .ok crates) :
    List.Forall₂ (IsCrateOf tree settings sysroot) components crates :=
  (buildAll_eq_ok_iff.mp h).imp fun _ _ => isCrateOf_build

/-- In whatever order the components come, the same crates are built. -/
theorem exists_buildAll_of_perm (hperm : components.Perm settings.components)
    (h : (buildAll tree settings sysroot settings.components).result = .ok crates) : ∃ built,
    (buildAll tree { settings with components } sysroot components).result = .ok built ∧
      built.Perm crates := by
  obtain ⟨built, hbuilt, hsame⟩ := List.perm_comp_forall₂ hperm (buildAll_eq_ok_iff.mp h)
  exact ⟨built, buildAll_eq_ok_iff.mpr hbuilt, hsame⟩

/-- If every component can be flattened, all crates are built. -/
theorem exists_buildAll (h : ∀ component ∈ components, ∃ text,
      flatten tree (Toolchain.crateRoot sysroot component) (.limited settings.budget) = .ok text) :
    ∃ crates, (buildAll tree settings sysroot components).result = .ok crates := by
  induction components with
  | nil => exact ⟨[], by rw [buildAll]⟩
  | cons component components ih =>
    obtain ⟨⟨text, htext⟩, hrest⟩ := List.forall_mem_cons.mp h
    obtain ⟨crate, hcrate⟩ := exists_build component settings.stubbing settings.outputDir htext
    obtain ⟨crates, hcrates⟩ := ih hrest
    rw [buildAll]
    simp only [hcrate, hcrates, Except.map]
    exact ⟨_, rfl⟩

end PackedCrate

/-! ## The manifest -/

namespace Manifest

/-- Crates that are all different are collected as they are. -/
theorem collect_of_nodup {outputs : List (String × String)} (h : (outputs.map (·.1)).Nodup) :
    collect outputs = outputs := by
  -- the crates found so far are generalised: none of them comes again
  suffices ∀ found : List (String × String), ((found ++ outputs).map (·.1)).Nodup →
      outputs.foldl (fun found (output : String × String) =>
        if found.any (·.1 == output.1) then
          found.map fun old => if old.1 == output.1 then (old.1, output.2) else old
        else found ++ [output]) found = found ++ outputs from this [] h
  intro found hfound
  induction outputs generalizing found with
  | nil => exact (List.append_nil found).symm
  | cons output outputs ih =>
    have hnew : found.any (·.1 == output.1) = false := by
      rw [List.map_append, List.nodup_append] at hfound
      simp only [List.any_eq_false, beq_iff_eq]
      intro old hold heq
      exact hfound.2.2 old.1 (List.mem_map_of_mem hold) output.1 (by simp) heq
    rw [List.foldl_cons, hnew, if_neg Bool.false_ne_true, ih, List.append_assoc,
      List.singleton_append]
    · simpa using h.of_cons
    · simpa using hfound

end Manifest

namespace Pack

variable {tree : FileTree} {settings : Settings} {crates : List PackedCrate}

/-- The name of the manifest that settings ask for, if it is a text. -/
def manifestName? (settings : Settings) : Option String :=
  match settings.manifest with
  | .string name => if name = "" then none else some name
  | _ => none

/-- Files with given names and texts in a directory, as outputs. -/
def outputsIn (directory : Path) (files : List (String × String)) : List Output :=
  files.map fun file => (directory.entry file.1, file.2)

/-- The text of the manifest of some crates. -/
def manifestText (crates : List PackedCrate) : String :=
  Manifest.render 2 (Manifest.collect (crates.map fun crate => (crate.name, crate.output.name))) ++
    "\n"

/-- The names and texts of the files that a run writes. -/
def filesOf (settings : Settings) (crates : List PackedCrate) : List (String × String) :=
  crates.map (fun crate => (Toolchain.outputName crate.name, crate.text)) ++
    (manifestName? settings).toList.map fun name => (name, manifestText crates)

/-- The manifest is one output if there is one at all. -/
theorem manifestOutput_eq (settings : Settings) (crates : List PackedCrate) :
    (manifestOutput settings crates).toOption.getD [] =
      (manifestName? settings).toList.map fun name =>
        (settings.outputDir.child name, manifestText crates) := by
  rw [manifestOutput, manifestName?]
  cases hmanifest : settings.manifest with
  | string name =>
    by_cases hempty : name = ""
    · subst hempty
      rfl
    · have htruthy : (Value.string name).isTruthy = true := by
        simp [Value.isTruthy, Value.elements?, hempty]
      simp [htruthy, hempty, manifestText, Except.toOption]
  | _ => cases h : Value.isTruthy _ <;> simp [Except.toOption]

/-- The manifest is no obstacle, whatever the crates are, if it is the text of a path or counts as
false. -/
theorem exists_manifestOutput_iff (settings : Settings) (crates : List PackedCrate) :
    (∃ manifest, manifestOutput settings crates = .ok manifest) ↔
    (settings.manifest.isTruthy = true → ∃ name, settings.manifest = .string name) := by
  rw [manifestOutput]
  cases settings.manifest.isTruthy with
  | false => simp
  | true => cases settings.manifest <;> simp

/-- An output is that of a crate or that of the manifest. -/
theorem mem_outputsOf_iff {output : Output} : output ∈ outputsOf settings crates ↔
    (∃ crate ∈ crates, (crate.output, crate.text) = output) ∨
      ∃ name ∈ manifestName? settings,
        (settings.outputDir.child name, manifestText crates) = output := by
  rw [outputsOf, manifestOutput_eq, List.mem_append, List.mem_map, List.mem_map]
  simp only [Option.mem_toList, Option.mem_def]

/-- If no name has a slash in it, all outputs are files of the output directory. -/
theorem outputsOf_eq (hcrates : ∀ crate ∈ crates, '/' ∉ crate.name.toList ∧
      crate.output = settings.outputDir.child (Toolchain.outputName crate.name))
    (hmanifest : ∀ name ∈ manifestName? settings, Path.IsFileName name) :
    outputsOf settings crates = outputsIn settings.outputDir (filesOf settings crates) := by
  rw [outputsOf, manifestOutput_eq, outputsIn, filesOf, List.map_append, List.map_map, List.map_map]
  congr 1
  · refine List.map_congr_left fun crate hcrate => ?_
    obtain ⟨hslash, houtput⟩ := hcrates crate hcrate
    rw [houtput, (Toolchain.isFileName_outputName hslash).child_eq]
    rfl
  · refine List.map_congr_left fun name hname => ?_
    rw [(hmanifest name (Option.mem_toList.mp hname)).child_eq]
    rfl

/-! ## All crates of a run -/

/-- The names of the files that a run writes. -/
def fileNames (settings : Settings) : List String :=
  settings.components.map Toolchain.outputName ++ (manifestName? settings).toList

/-- All names are single names of a path: those of the components, and that of the manifest if there
is to be one. -/
structure HasFileNames (settings : Settings) : Prop where
  component : ∀ name ∈ settings.components, '/' ∉ name.toList
  manifest : ∀ name ∈ manifestName? settings, Path.IsFileName name

/-- The crates of all components, in their order. -/
def AreCratesOf (tree : FileTree) (settings : Settings) (sysroot : Path)
    (crates : List PackedCrate) : Prop :=
  List.Forall₂ (PackedCrate.IsCrateOf tree settings sysroot) settings.components crates

namespace AreCratesOf

variable {sysroot : Path}

/-- The crates have the names of the components, in their order. -/
theorem map_name (h : AreCratesOf tree settings sysroot crates) :
    crates.map (·.name) = settings.components := by
  rw [AreCratesOf] at h
  generalize settings.components = components at h
  induction h with
  | nil => rfl
  | cons hcrate _ ih => rw [List.map_cons, hcrate.name_eq, ih]

/-- Every component has its crate. -/
theorem exists_crate (h : AreCratesOf tree settings sysroot crates) {name : String}
    (hname : name ∈ settings.components) :
    ∃ crate ∈ crates, PackedCrate.IsCrateOf tree settings sysroot name crate := by
  rw [AreCratesOf] at h
  generalize settings.components = components at h hname
  induction h with
  | nil => simp at hname
  | cons hcrate _ ih =>
    obtain rfl | hlater := List.mem_cons.mp hname
    · exact ⟨_, List.mem_cons_self, hcrate⟩
    · obtain ⟨crate, hmem, hcrate⟩ := ih hlater
      exact ⟨crate, List.mem_cons_of_mem _ hmem, hcrate⟩

/-- Every crate belongs into the output directory, under a name that comes from its own one. -/
theorem output_eq (h : AreCratesOf tree settings sysroot crates) : ∀ crate ∈ crates,
    crate.output = settings.outputDir.child (Toolchain.outputName crate.name) := by
  rw [AreCratesOf] at h
  generalize settings.components = components at h
  induction h with
  | nil => simp
  | cons hcrate _ ih =>
    refine List.forall_mem_cons.mpr ⟨?_, ih⟩
    rw [hcrate.output_eq, hcrate.name_eq]

/-- The outputs are the files of the output directory. -/
theorem outputsOf_eq (h : AreCratesOf tree settings sysroot crates)
    (hnames : HasFileNames settings) :
    outputsOf settings crates = outputsIn settings.outputDir (filesOf settings crates) := by
  refine Pack.outputsOf_eq (fun crate hcrate => ⟨?_, h.output_eq crate hcrate⟩) hnames.manifest
  exact hnames.component crate.name (h.map_name ▸ List.mem_map_of_mem hcrate)

/-- The files of a run have proper names. -/
theorem isFileName (h : AreCratesOf tree settings sysroot crates)
    (hnames : HasFileNames settings) :
    ∀ file ∈ filesOf settings crates, Path.IsFileName file.1 := by
  rw [filesOf]
  refine List.forall_mem_append.mpr ⟨List.forall_mem_map.mpr fun crate hcrate => ?_,
    List.forall_mem_map.mpr fun name hname => hnames.manifest name (Option.mem_toList.mp hname)⟩
  refine Toolchain.isFileName_outputName (hnames.component crate.name ?_)
  exact h.map_name ▸ List.mem_map_of_mem hcrate

/-- The names of the files come from the settings alone. -/
theorem map_fst_filesOf (h : AreCratesOf tree settings sysroot crates) :
    (filesOf settings crates).map (·.1) = fileNames settings := by
  rw [filesOf, fileNames, ← h.map_name]
  simp [Function.comp_def]

/-- The manifest of crates with different names has all of them, each with the last name of its
output. -/
theorem manifestText_eq_of_nodup (h : AreCratesOf tree settings sysroot crates)
    (hnodup : settings.components.Nodup) :
    manifestText crates = Manifest.render 2 (settings.components.map fun name =>
      (name, (settings.outputDir.child (Toolchain.outputName name)).name)) ++ "\n" := by
  have hfiles : crates.map (fun crate => (crate.name, crate.output.name)) =
      settings.components.map fun name =>
        (name, (settings.outputDir.child (Toolchain.outputName name)).name) := by
    rw [← h.map_name, List.map_map]
    refine List.map_congr_left fun crate hcrate => ?_
    rw [h.output_eq crate hcrate]
    rfl
  rw [manifestText, hfiles, Manifest.collect_of_nodup]
  rwa [List.map_map, Function.comp_def, List.map_id']

/-- If no component has a slash in it, these names are whole. -/
theorem manifestText_eq (h : AreCratesOf tree settings sysroot crates)
    (hnames : HasFileNames settings) (hnodup : settings.components.Nodup) :
    manifestText crates = Manifest.render 2
      (settings.components.map fun name => (name, Toolchain.outputName name)) ++ "\n" := by
  have hfiles : (settings.components.map fun name =>
      (name, (settings.outputDir.child (Toolchain.outputName name)).name)) =
      settings.components.map fun name => (name, Toolchain.outputName name) := by
    refine List.map_congr_left fun name hname => ?_
    rw [(Toolchain.isFileName_outputName (hnames.component name hname)).child_eq, Path.name_entry]
  rw [h.manifestText_eq_of_nodup hnodup, hfiles]

/-- The last name of an output is that of a file, and never that of a staged one. -/
theorem name_output (h : AreCratesOf tree settings sysroot crates) :
    ∀ crate ∈ crates, Path.IsFileName crate.output.name ∧
      ∀ other, crate.output.name ≠ other ++ stagingSuffix := by
  intro crate hcrate
  obtain ⟨above, stem, hchild, hname, -⟩ :=
    Toolchain.exists_child_outputName_eq settings.outputDir crate.name
  have hlast : crate.output.name = stem ++ ".rs" := by
    rw [h.output_eq crate hcrate, hchild, Path.name, List.getLast?_concat, Option.getD_some]
  rw [hlast]
  exact ⟨hname, Toolchain.append_rs_ne_append stem⟩

/-- Only the manifest may have the name of a staged file, and it comes last. -/
theorem pairwise_names (h : AreCratesOf tree settings sysroot crates) :
    ((outputsOf settings crates).map (·.1.name)).Pairwise
      fun name later => name ≠ later ++ stagingSuffix := by
  rw [outputsOf, manifestOutput_eq, List.map_append, List.map_map, List.map_map,
    List.pairwise_append]
  refine ⟨List.pairwise_map.mpr (List.pairwise_of_forall_mem_list fun crate hcrate _ _ => ?_), ?_,
    List.forall_mem_map.mpr fun crate hcrate _ _ => ?_⟩
  · exact (h.name_output crate hcrate).2 _
  · cases manifestName? settings <;> simp
  · exact (h.name_output crate hcrate).2 _

/-- If no two outputs have the same place, no component comes twice. -/
theorem nodup_components (h : AreCratesOf tree settings sysroot crates)
    {α : Type*} {placeOf : Path → α}
    (hnodup : ((outputsOf settings crates).map fun output => placeOf output.1).Nodup) :
    settings.components.Nodup := by
  rw [outputsOf, List.map_append, List.map_map] at hnodup
  have hfirst := (List.nodup_append.mp hnodup).1
  have hplaces : crates.map ((fun output : Output => placeOf output.1) ∘
        fun crate => (crate.output, crate.text)) =
      settings.components.map fun component =>
        placeOf (settings.outputDir.child (Toolchain.outputName component)) := by
    rw [← h.map_name, List.map_map]
    exact List.map_congr_left fun crate hcrate => congrArg placeOf (h.output_eq crate hcrate)
  rw [hplaces] at hfirst
  exact hfirst.of_map _

end AreCratesOf

end Pack

end FlatCrate
