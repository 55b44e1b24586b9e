import FlatCrate.Proofs.Pack.Unstaging

/-!
# Runs that end before anything is moved

A run goes through phases: it flattens all crates, makes the output directory, stages the outputs
and moves them into place. What it leaves behind depends on the phase in which it ends. Up to the
moves that is never more than new directories for the outputs, as long as no file or link is in the
way of a staged file and no file is cut off while it is being written.
-/

namespace FlatCrate.Pack

variable {tree : FileTree} {settings : Settings} {answer : Toolchain.Answer} {medium : Medium}
  {crates : List PackedCrate}

/-- The files that a run writes: its crates and their manifest. -/
def outputsOf (settings : Settings) (crates : List PackedCrate) : List Output :=
  crates.map (fun crate => (crate.output, crate.text)) ++
    (manifestOutput settings crates).toOption.getD []

/-- The tree once the output directory has been made, as far as that is possible. -/
def madeTree (tree : FileTree) (settings : Settings) : FileTree :=
  (tree.makeDirectories settings.outputDir).tree

/-- How a run can end that has built some crates: the tree it leaves and its fault, if any. -/
inductive Ends (tree : FileTree) (settings : Settings) (answer : Toolchain.Answer)
    (medium : Medium) (crates : List PackedCrate) : FileTree → Option PackFault → Prop
  /-- Nothing has been written. -/
  | unwritten {fault : PackFault} :
      (∀ e, fault ≠ .file e) → Ends tree settings answer medium crates tree (some fault)
  /-- The output directory could not be made. -/
  | unmade {e : FileError} : (tree.makeDirectories settings.outputDir).error = some e →
      Ends tree settings answer medium crates (madeTree tree settings) (some (.file e))
  /-- Some output could not be staged. -/
  | unstaged {after : FileTree} {fault : PackFault} :
      stage (madeTree tree settings) [] (outputsOf settings crates) medium =
        (after, .error fault) →
      Ends tree settings answer medium crates after (some fault)
  /-- All outputs have been staged. -/
  | staged {sysroot : Path} {prepared : FileTree} {staged : List (Path × Path)} :
      (Pack.sysroot settings answer).result = .ok sysroot →
      (PackedCrate.buildAll tree settings sysroot settings.components).result = .ok crates →
      stage (madeTree tree settings) [] (outputsOf settings crates) medium =
        (prepared, .ok staged) →
      Ends tree settings answer medium crates (moveAll prepared staged).tree
        (moveAll prepared staged).fault

/-- The toolchain is never the cause of a file error. -/
theorem sysroot_ne_file {fault : PackFault} (h : (sysroot settings answer).result = .error fault)
    (e : FileError) : fault ≠ .file e := by
  rw [sysroot] at h
  split at h
  · simp at h
  · split at h
    · next cause _ =>
      obtain rfl := Except.error.inj h
      unfold toolchainFault
      split <;> exact PackFault.noConfusion
    · simp at h

/-- A crate that cannot be flattened is never the cause of a file error. -/
theorem flattenFault_ne_file (e : FlattenError) (e' : FileError) :
    flattenFault e ≠ .file e' := by
  rw [flattenFault]
  split <;> exact PackFault.noConfusion

/-- When the manifest is settled, the outputs are written if the output directory can be made. -/
theorem writeAll_eq {manifest : List Output}
    (hmanifest : manifestOutput settings crates = .ok manifest) :
    writeAll tree settings crates medium =
      if settings.outputDir.holdsZero then { tree, fault := some (.broken .impossibleValue) }
      else match (tree.makeDirectories settings.outputDir).error with
        | some e => { tree := madeTree tree settings, fault := some (.file e) }
        | none => writeStaged (madeTree tree settings) (outputsOf settings crates) medium := by
  have houtputs : outputsOf settings crates =
      crates.map (fun crate => (crate.output, crate.text)) ++ manifest := by
    simp [outputsOf, hmanifest, Except.toOption]
  rw [writeAll, hmanifest, houtputs, madeTree]
  dsimp only
  split
  · rfl
  · cases tree.makeDirectories settings.outputDir with
    | mk made error => cases error <;> rfl

/-- Writing crates that have been built ends in one of these ways. -/
theorem ends_writeAll {sysroot : Path}
    (hsysroot : (Pack.sysroot settings answer).result = .ok sysroot)
    (hbuilt : (PackedCrate.buildAll tree settings sysroot settings.components).result =
      .ok crates) :
    Ends tree settings answer medium crates (writeAll tree settings crates medium).tree
      (writeAll tree settings crates medium).fault := by
  cases hmanifest : manifestOutput settings crates with
  | error fault =>
    rw [writeAll, hmanifest]
    refine .unwritten fun e => ?_
    rintro rfl
    rw [manifestOutput] at hmanifest
    split_ifs at hmanifest
    split at hmanifest <;> simp at hmanifest
  | ok manifest =>
    rw [writeAll_eq hmanifest]
    split_ifs
    · exact .unwritten fun e => PackFault.noConfusion
    · cases hmade : (tree.makeDirectories settings.outputDir).error with
      | some e => exact .unmade hmade
      | none =>
        dsimp only
        rw [writeStaged]
        split
        · next after fault hstage => exact .unstaged hstage
        · next prepared staged hstage => exact .staged hsysroot hbuilt hstage

/-- A run that has built all crates goes on to write them. -/
theorem run_eq_writeAll (medium : Medium) {sysroot : Path}
    (hsysroot : (Pack.sysroot settings answer).result = .ok sysroot)
    (hbuilt : (PackedCrate.buildAll tree settings sysroot settings.components).result =
      .ok crates) :
    (run tree settings answer medium).2 = crates ∧
      (run tree settings answer medium).1.tree = (writeAll tree settings crates medium).tree ∧
      (run tree settings answer medium).1.fault = (writeAll tree settings crates medium).fault := by
  simp only [run, hsysroot, hbuilt, and_self]

/-- Every run ends in one of these ways. -/
theorem ends_run (tree : FileTree) (settings : Settings) (answer : Toolchain.Answer)
    (medium : Medium) :
    Ends tree settings answer medium (run tree settings answer medium).2
      (run tree settings answer medium).1.tree (run tree settings answer medium).1.fault := by
  cases hsysroot : (sysroot settings answer).result with
  | error fault =>
    simp only [run, hsysroot]
    exact .unwritten (sysroot_ne_file hsysroot)
  | ok path =>
    cases hbuilt : (PackedCrate.buildAll tree settings path settings.components).result with
    | error e =>
      simp only [run, hsysroot, hbuilt]
      exact .unwritten (flattenFault_ne_file e)
    | ok crates =>
      obtain ⟨hcrates, htree, hfault⟩ := run_eq_writeAll medium hsysroot hbuilt
      rw [hcrates, htree, hfault]
      exact ends_writeAll hsysroot hbuilt

/-- The output directory is made without any other change. -/
theorem makesOnly_madeTree (tree : FileTree) (settings : Settings) :
    tree.MakesOnly settings.outputDir (madeTree tree settings) :=
  FileTree.makesOnly_makeDirectories tree settings.outputDir

/-- When the output directory is there, no output is staged where the tree has had a file or link
before. -/
def StagesFreely (tree : FileTree) (settings : Settings) (crates : List PackedCrate) : Prop :=
  ∀ output ∈ outputsOf settings crates, ∀ temporary ∈ stagingPath? output.1,
    ∀ location ∈ (madeTree tree settings).slotOf? temporary,
      ∀ entry ∈ tree.find? location, entry = .directory

/-- What may be staged freely finds nothing but directories in its way. -/
theorem StagesFreely.isFree (h : StagesFreely tree settings crates) :
    IsFree (madeTree tree settings) (outputsOf settings crates) := by
  intro output houtput temporary htemporary location hlocation entry hentry
  by_contra hne
  have hbefore := (makesOnly_madeTree tree settings).find?_of_ne_directory hentry hne
  exact hne (h output houtput temporary htemporary location hlocation entry hbefore)

/-- What is left when writing an output has been cut off behind some others, in the tree in which the
output directory has just been made. The bytes in front of the cut stand under the staging name of
that output, unless one of the others has been staged in the same place: then removing that one has
removed them, too. -/
structure IsCutOff (medium : Medium) (made : FileTree) (done : List Output) (output : Output)
    (cut : Cut) (spot : Location) (after : FileTree) : Prop where
  isStaging : ∃ temporary, stagingPath? output.1 = some temporary ∧
    made.slotOf? temporary = some spot ∧
    ∃ now, medium now temporary output.2.toUTF8 = some cut
  stays : (∀ other ∈ done, ∀ temporary ∈ stagingPath? other.1,
      made.slotOf? temporary ≠ some spot) →
    after.find? spot = some (.file (output.2.toUTF8.extract 0 cut.length))
  gone : (∃ other ∈ done, ∃ temporary ∈ stagingPath? other.1,
      made.slotOf? temporary = some spot) → after.find? spot = none

/-- What staging leaves when it is cut off, if nothing but a directory stood where files are staged:
nothing but the part of the file that was cut off is new. -/
theorem isCutOff_of_stage {made now written : FileTree} {done : List Output}
    {staged : List (Path × Path)} {target temporary : Path} {text : String} {e : FileError}
    (hstaged : Staged made done staged now) (hfree : IsFree made done)
    (hfree' : IsFree made [(target, text)]) (htemporary : stagingPath? target = some temporary)
    (hwrite : now.writeOn medium temporary text = .cut written e) :
    ∃ cut spot, e = cut.error ∧
      IsCutOff medium made done (target, text) cut spot (unstage written staged) ∧
      (unstage written staged).workDir = made.workDir ∧ spot ≠ [] ∧
      ∀ location, ((unstage written staged).erase spot).find? location = made.find? location := by
  obtain ⟨cut, hcut, rfl, hbytes⟩ := FileTree.exists_cut_of_writeOn hwrite
  have hways := (hstaged.hasStaged (hstaged.isPlain hfree)).ways
  have hplain : IsPlain now [(temporary, target)] := by
    refine IsPlain.of_sameWays (fun pair hpair location hlocation name hlink => ?_) hways
    obtain rfl := List.mem_singleton.mp hpair
    exact Entry.noConfusion
      (hfree' _ List.mem_cons_self temporary htemporary location hlocation _ hlink)
  obtain ⟨hways', spot, hslot, hpart, hothers⟩ :=
    written_of_stagingPath? htemporary hbytes (hplain _ List.mem_cons_self)
  rw [hways.slotOf?_eq] at hslot
  have hbelow := FileTree.slotOf?_ne_nil hslot
  have hvacant : made.find? spot = none := by
    refine Option.eq_none_iff_forall_ne_some.mpr fun entry hentry => ?_
    obtain rfl := hfree' _ List.mem_cons_self temporary htemporary spot hslot entry hentry
    exact Bool.false_ne_true ((hways.trans hways').isFile_of_find? hentry hpart rfl)
  have hspot : made.IsFileSpot spot := ⟨hbelow, by simp [hvacant]⟩
  obtain ⟨hworkDir, hfind, hgone, hstays⟩ :=
    hstaged.find?_unstage_cut hfree hspot hways' hpart hothers
  refine ⟨cut, spot, rfl, ⟨⟨temporary, htemporary, hslot, now, hcut⟩, fun hapart => hstays ?_,
    fun hsame => hgone ?_⟩, hworkDir, hbelow, fun location => ?_⟩
  · intro pair hpair
    obtain ⟨other, hother, hpath⟩ := hstaged.exists_output pair hpair
    exact hapart other hother pair.1 hpath
  · obtain ⟨other, hother, path, hpath, hsame⟩ := hsame
    obtain ⟨pair, hpair, heq⟩ := List.mem_map.mp
      (hstaged.map_staging ▸ List.mem_map_of_mem hother)
    obtain rfl := Option.some.inj (heq.trans hpath)
    exact ⟨pair, hpair, hsame⟩
  · by_cases hlocation : location = spot
    · rw [hlocation, FileTree.find?_erase_self _ hbelow, hvacant]
    · rw [FileTree.find?_erase_of_ne _ hlocation, hfind location hlocation]

/-- What staging leaves when it fails at a file: nothing but new directories if the error names a
path, and besides these the part of a file that was cut off if it does not. -/
theorem makesOnly_of_stage {after : FileTree} {e : FileError}
    (hstage : stage (madeTree tree settings) [] (outputsOf settings crates) medium =
      (after, .error (.file e)))
    (hfreely : StagesFreely tree settings crates) :
    (e.path ≠ none → tree.MakesOnly settings.outputDir after) ∧
      (e.path = none → ∃ done output rest cut spot,
        outputsOf settings crates = done ++ output :: rest ∧ e = cut.error ∧
        IsCutOff medium (madeTree tree settings) done output cut spot after ∧
        tree.MakesOnly settings.outputDir (after.erase spot)) := by
  have hmade := makesOnly_madeTree tree settings
  obtain ⟨done, output, rest, now, staged, houtputs, hdone, hstuck⟩ := stage_eq_error_iff.mp hstage
  obtain ⟨added, hadded, hstaged⟩ := staged_of_stage hdone
  obtain rfl : staged = added := hadded
  have hfree : IsFree (madeTree tree settings) (done ++ output :: rest) := houtputs ▸ hfreely.isFree
  have hdone : IsFree (madeTree tree settings) done := fun other hother =>
    hfree other (List.mem_append_left _ hother)
  -- an output without a staging name is no fault of a file, so a write has failed
  cases hstuck with
  | refused htemporary hwrite =>
    obtain ⟨hworkDir, hfind⟩ := hstaged.find?_unstage hdone
    exact ⟨fun _ => hmade.of_find?_eq hworkDir hfind, fun hpath => by simp at hpath⟩
  | @cut target temporary text written e htemporary hwrite =>
    obtain ⟨cut, spot, rfl, hcutOff, hworkDir, hbelow, hfind⟩ :=
      isCutOff_of_stage hstaged hdone
        (fun other hother => hfree other (by simp [List.mem_singleton.mp hother])) htemporary hwrite
    exact ⟨fun hpath => absurd rfl hpath, fun _ => ⟨done, (target, text), rest, cut, spot,
      houtputs, rfl, hcutOff, hmade.of_find?_eq hworkDir hfind⟩⟩

/-- A run that ends with a fault of the toolchain or of a crate has written nothing. -/
theorem Ends.tree_eq {after : FileTree} {fault : PackFault}
    (h : Ends tree settings answer medium crates after (some fault))
    (hkind : (∃ e, fault = .flatten e) ∨ ∃ compiler cause, fault = .toolchain compiler cause) :
    after = tree := by
  generalize hsome : some fault = ended at h
  cases h with
  | unwritten => rfl
  | unmade =>
    obtain rfl := Option.some.inj hsome
    simp at hkind
  | unstaged hstage =>
    obtain rfl := Option.some.inj hsome
    obtain ⟨_, _, _, _, _, -, -, hstuck⟩ := stage_eq_error_iff.mp hstage
    cases hstuck <;> simp at hkind
  | @staged sysroot prepared staged =>
    obtain ⟨-, -, -, -, -, ⟨-, hnone⟩ | ⟨_, _, _, _, -, -, hmove⟩⟩ := moves_moveAll prepared staged
    · simp [hnone] at hsome
    · obtain rfl := Option.some.inj (hsome.trans hmove)
      simp at hkind

/-- If a run fails to find the toolchain or to flatten a crate, the tree stays as it is.

If a file operation fails that is not a move, which would name two paths, and nothing but a directory
stood where files are staged, then it depends on whether a file had been opened. If not, the error
names a path, and nothing but directories for the outputs is new. An error without a path comes from
writing an output that the medium has cut off: nobody removes the part of it that has been written,
and without that part nothing but directories is new. -/
theorem tree_run_of_early_fault (tree : FileTree) (settings : Settings)
    (answer : Toolchain.Answer) (medium : Medium) :
    let outcome := (run tree settings answer medium).1
    let crates := (run tree settings answer medium).2
    (∀ fault, outcome.fault = some fault →
      (∃ e, fault = .flatten e) ∨ (∃ compiler cause, fault = .toolchain compiler cause) →
      outcome.tree = tree) ∧
    ∀ e, outcome.fault = some (.file e) → e.target = none → StagesFreely tree settings crates →
      (e.path ≠ none → tree.MakesOnly settings.outputDir outcome.tree) ∧
      (e.path = none → ∃ done output rest cut spot,
        outputsOf settings crates = done ++ output :: rest ∧ e = cut.error ∧
        IsCutOff medium (madeTree tree settings) done output cut spot outcome.tree ∧
        tree.MakesOnly settings.outputDir (outcome.tree.erase spot)) := by
  intro outcome crates
  have hends : Ends tree settings answer medium crates outcome.tree outcome.fault :=
    ends_run tree settings answer medium
  refine ⟨fun fault hfault hkind => (hfault ▸ hends).tree_eq hkind, fun e he htarget hfreely => ?_⟩
  generalize outcome.tree = after at hends
  rw [he] at hends
  generalize hsome : some (PackFault.file e) = ended at hends
  cases hends with
  | unwritten hfault => exact absurd (Option.some.inj hsome).symm (hfault e)
  | unmade hunmade =>
    obtain rfl := PackFault.file.inj (Option.some.inj hsome)
    exact ⟨fun _ => makesOnly_madeTree tree settings,
      fun hpath => absurd hpath (FileTree.path_error_makeDirectories hunmade)⟩
  | unstaged hstage =>
    obtain rfl := Option.some.inj hsome
    exact makesOnly_of_stage hstage hfreely
  | @staged sysroot prepared staged =>
    obtain ⟨-, -, -, -, -, ⟨-, hnone⟩ | ⟨_, _, _, _, -, -, hmove⟩⟩ := moves_moveAll prepared staged
    · simp [hnone] at hsome
    · obtain rfl := PackFault.file.inj (Option.some.inj (hsome.trans hmove))
      simp at htarget

/-- Where a toolchain in the root directory has its library crates. -/
def libraryLocation : Location := ["library", "rust", "src", "rustlib", "lib"]

/-- A tree with a toolchain that has the single library crate `a`. -/
def crateTree : FileTree where
  workDir := []
  entries := (libraryLocation.tails.filter (· != [])).map (·, .directory) ++
    [("a" :: libraryLocation, .directory), ("src" :: "a" :: libraryLocation, .directory),
      ("lib.rs" :: "src" :: "a" :: libraryLocation, .file "fn a();\n".toUTF8)]

/-- Settings that pack some components of that toolchain, without a manifest. -/
def crateSettings (components : List String) : Settings :=
  { sysroot := some {}, components, manifest := .null }

/-- The second crate is missing, so nothing is written. The output of the second one belongs into a
directory that does not exist, so the first one is unstaged and only `www` is new. The only output is
too long for the medium, so the beginning of it is new as well. -/
theorem tree_run_missing_directory :
    let absent := (run crateTree (crateSettings ["a", "b"]) .missing).1
    let split := run crateTree (crateSettings ["a", "a/."]) .missing
    let short := run crateTree (crateSettings ["a"]) .missing (.limited 4)
    absent.fault = some (.flatten (.splice ⟨.unreadable,
      "lib/rustlib/src/rust/library/b/src/lib.rs", []⟩)) ∧
    absent.tree = crateTree ∧
    split.1.fault =
      some (.file ⟨.noEntry, some ⟨.relative, ["www", "fake_a", "..rs.tmp"]⟩, none⟩) ∧
    StagesFreely crateTree (crateSettings ["a", "a/."]) split.2 ∧
    crateTree.MakesOnly ⟨.relative, ["www"]⟩ split.1.tree ∧
    short.1.fault = some (.file ⟨.system 27 "File too large", none, none⟩) ∧
    StagesFreely crateTree (crateSettings ["a"]) short.2 ∧
    ∃ spot, crateTree.MakesOnly ⟨.relative, ["www"]⟩ (short.1.tree.erase spot) := by
  intro absent split short
  have habsent : absent.fault = some (.flatten (.splice ⟨.unreadable,
      "lib/rustlib/src/rust/library/b/src/lib.rs", []⟩)) := by
    decide +kernel
  have hsplit : split.1.fault =
      some (.file ⟨.noEntry, some ⟨.relative, ["www", "fake_a", "..rs.tmp"]⟩, none⟩) := by
    decide +kernel
  have hshort : short.1.fault = some (.file ⟨.system 27 "File too large", none, none⟩) := by
    decide +kernel
  have hfree : StagesFreely crateTree (crateSettings ["a", "a/."]) split.2 := by
    unfold StagesFreely
    decide +kernel
  have hfree' : StagesFreely crateTree (crateSettings ["a"]) short.2 := by
    unfold StagesFreely
    decide +kernel
  obtain ⟨hunwritten, -⟩ :=
    tree_run_of_early_fault crateTree (crateSettings ["a", "b"]) .missing .sound
  obtain ⟨-, hopened⟩ :=
    tree_run_of_early_fault crateTree (crateSettings ["a", "a/."]) .missing .sound
  obtain ⟨-, hcut⟩ := tree_run_of_early_fault crateTree (crateSettings ["a"]) .missing (.limited 4)
  obtain ⟨-, -, -, -, spot, -, -, -, hmakes⟩ := (hcut _ hshort rfl hfree').2 rfl
  exact ⟨habsent, hunwritten _ habsent (.inl ⟨_, rfl⟩), hsplit, hfree,
    (hopened _ hsplit rfl hfree).1 (by simp), hshort, hfree', spot, hmakes⟩

/-- A toolchain with two library crates, and an output directory in which the second one cannot be
staged: a directory is in its way. Under the staging name of the first one there is a file. -/
def crowdedTree : FileTree :=
  { crateTree with entries := [("b" :: libraryLocation, .directory),
      ("src" :: "b" :: libraryLocation, .directory),
      ("lib.rs" :: "src" :: "b" :: libraryLocation, .file "fn b();\n".toUTF8),
      (["www"], .directory), (["fake_b.rs.tmp", "www"], .directory),
      (["fake_a.rs.tmp", "www"], .file "old\n".toUTF8)] ++ crateTree.entries }

/-- Settings that get to that directory past a directory that is still to be made, and whose manifest
has the name under which the first crate is staged. -/
def detourSettings : Settings :=
  { crateSettings ["a", "b"] with
    outputDir := ⟨.relative, ["new", "..", "www"]⟩
    manifest := .string "fake_a.rs.tmp" }

/-- On a medium with room for four bytes, the first four bytes of the only output stay where it was
staged, although nothing has been there before and the run has failed.

And even on a sound medium a target may get lost: no path under which a file is staged names anything
at the beginning, since the way to all of them is still to be made. But then the first file is
staged over the old one, which is the target of the manifest, and removed. -/
theorem cut_output_stays :
    (let outcome := (run crateTree (crateSettings ["a"]) .missing (.limited 4)).1
    let crates := (run crateTree (crateSettings ["a"]) .missing (.limited 4)).2
    outcome.fault = some (.file ⟨.system 27 "File too large", none, none⟩) ∧
    StagesFreely crateTree (crateSettings ["a"]) crates ∧
    outcome.tree.find? ["fake_a.rs.tmp", "www"] = some (.file "fn a".toUTF8) ∧
    ¬ crateTree.MakesOnly ⟨.relative, ["www"]⟩ outcome.tree) ∧
    let outcome := (run crowdedTree detourSettings .missing).1
    let crates := (run crowdedTree detourSettings .missing).2
    outcome.fault = some (.file ⟨.isDirectory,
      some ⟨.relative, ["new", "..", "www", "fake_b.rs.tmp"]⟩, none⟩) ∧
    (∀ output ∈ outputsOf detourSettings crates, ∀ temporary ∈ stagingPath? output.1,
      crowdedTree.slotOf? temporary = none) ∧
    (∃ output ∈ outputsOf detourSettings crates,
      outcome.tree.slotOf? output.1 = some ["fake_a.rs.tmp", "www"]) ∧
    crowdedTree.find? ["fake_a.rs.tmp", "www"] = some (.file "old\n".toUTF8) ∧
    outcome.tree.find? ["fake_a.rs.tmp", "www"] = none := by
  refine ⟨?_, by decide +kernel⟩
  intro outcome crates
  have hpart : outcome.tree.find? ["fake_a.rs.tmp", "www"] = some (.file "fn a".toUTF8) := by
    decide +kernel
  refine ⟨by decide +kernel, by unfold StagesFreely; decide +kernel, hpart, fun hmakes => ?_⟩
  have hbefore := hmakes.find?_of_ne_directory hpart Entry.noConfusion
  revert hbefore
  decide +kernel

end FlatCrate.Pack
