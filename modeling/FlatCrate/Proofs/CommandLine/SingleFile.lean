import FlatCrate.Proofs.CommandLine.Setup
import FlatCrate.Proofs.FileTree.Written
import FlatCrate.Proofs.Pack.Built

/-!
# Flattening the crate of one file

A run with a root file writes the flat text to one place: to the file that the output option names,
or else to the first stream. It changes nothing else, and it does not write anything before it is
clear that there is a flat text. If the file cannot take all of the text, the beginning of it stays
there.

This is so as long as the file option has a text. An empty text, or the mark, leaves it without one,
and the run packs the crates of the toolchain as if no file had been given.
-/

namespace FlatCrate

/-! ## Flat texts -/

/-- The text of a crate of some settings: its flat text, with stubs if these are asked for. -/
def Settings.stubbed (settings : Settings) (text : String) : String :=
  if settings.stubbing then Source.stubBodies text else text

/-- A tree that differs from another one at most at the file to which a path leads. This file is
there and holds some bytes. -/
structure FileTree.HoldsOnly (tree : FileTree) (target : Path) (content : ByteArray)
    (after : FileTree) : Prop where
  workDir_eq : after.workDir = tree.workDir
  readBytes_eq : after.readBytes target = .ok content
  others : ∃ spot, after.locationOf target = .ok spot ∧
    ∀ location, location ≠ spot → after.find? location = tree.find? location

/-- Writing changes nothing but the file that is written. -/
theorem FileTree.holdsOnly_writeBytes {tree after : FileTree} {target : Path} {content : ByteArray}
    (h : tree.writeBytes target content = .ok after) : tree.HoldsOnly target content after := by
  have hread := readBytes_writeBytes h
  obtain ⟨spot, arrival, hspot, rfl, hlocate, harrival⟩ := exists_spot_of_writeBytes h
  refine ⟨rfl, hread, spot, ?_, fun location hne => find?_put_of_ne tree hne _⟩
  rw [locationOf, hspot.locate_put hlocate, harrival]

namespace CommandLine

variable {arguments : Arguments} {settings : Settings} {tree : FileTree} {file text : String}
  {answer : Toolchain.Answer} {medium : Medium} {words : List String}

/-! ## Transcripts -/

namespace Transcript

/-- What two transcripts have shown on the first stream comes in a row. -/
@[simp] theorem output_append (a b : Transcript) : (a ++ b).output = a.output ++ b.output := rfl

/-- The log does not go to the first stream. -/
@[simp] theorem output_ofLog (level : LogLevel) (log : List LogRecord) :
    (ofLog level log).output = [] := rfl

/-- A note does not go to the first stream. -/
@[simp] theorem output_note (text : String) : (note text).output = [] := rfl

end Transcript

/-- A run that ends with an error: the exit code is one, and the last note says what went wrong. -/
structure Run.Reports (run : Run) : Prop where
  ending_eq : run.ending = .exit 1
  note : ∃ cause, run.transcript.notes.getLast? = some ("Error: " ++ cause ++ "\n") ∨
    run.transcript.notes.getLast? = some ("Error writing output: " ++ cause ++ "\n")

/-- A failure with an error is reported. -/
theorem reports_failed (tree : FileTree) (shown : Transcript) (cause : String) :
    (failed tree shown ("Error: " ++ cause)).Reports :=
  ⟨rfl, cause, .inl List.getLast?_concat⟩

/-- A file operation that failed is reported. -/
theorem reports_failed_fileNote (tree : FileTree) (shown : Transcript) (e : FileError) :
    (failed tree shown (fileNote e)).Reports :=
  ⟨rfl, e.message, .inr List.getLast?_concat⟩

/-- That a root file is not there is reported. -/
theorem reports_notAFile (tree : FileTree) (file : String) :
    (failed tree {} ("Error: '" ++ file ++ "' is not a file")).Reports := by
  have hreports := reports_failed tree {} ("'" ++ file ++ "' is not a file")
  rwa [← String.append_assoc, ← String.append_assoc] at hreports

/-- Nothing but the flat text of a crate is shown on the first stream. -/
theorem output_present (arguments : Arguments) (tree : FileTree) (shown : Transcript)
    (crate : PackedCrate) :
    (present arguments tree shown crate).transcript.output = shown.output ++ [crate.text] := by
  rw [present]
  cases arguments.report? tree crate <;> simp

/-- What ends a run without settings: a breakdown, or a note about the failure. -/
inductive SetupEnds (tree : FileTree) (fault : SetupFault) : Run → Prop
  | broken {breakdown : Breakdown} : fault.breakdown? = some breakdown →
      SetupEnds tree fault ⟨tree, {}, .broken breakdown⟩
  | failed {run : Run} : fault.breakdown? = none → run.Reports → run.tree = tree →
      run.transcript.output = [] → SetupEnds tree fault run

/-- Without settings a run ends as their fault says. -/
theorem setupEnds_failedSetup (tree : FileTree) (fault : SetupFault) :
    SetupEnds tree fault (failedSetup tree fault) := by
  cases fault with
  | load fault =>
    cases h : fault.breakdown? with
    | none =>
      simp only [failedSetup, h]
      exact .failed h (reports_failed _ _ _) rfl rfl
    | some breakdown =>
      simp only [failedSetup, h]
      exact .broken h
  | override fault =>
    cases h : fault.overrideBreakdown? with
    | none =>
      simp only [failedSetup, h]
      exact .failed h (reports_failed _ _ _) rfl rfl
    | some breakdown =>
      simp only [failedSetup, h]
      exact .broken h

/-! ## Runs with a root file -/

/-- There is a flat text, and it can be written where it belongs. -/
structure FileSucceeds (arguments : Arguments) (settings : Settings) (tree : FileTree)
    (medium : Medium) (file text : String) : Prop where
  isFile : findsFile tree (.ofString file) = .ok true
  flatten_eq : flatten tree (.ofString file) (.limited settings.budget) = .ok text
  isWritable : ∀ target ∈ nonempty? arguments.output, (Path.ofString target).holdsZero = false ∧
    ∃ after, tree.writeOn medium (.ofString target) (settings.stubbed text) = .done after

/-- How flattening the crate of a root file breaks off: a path that has to be asked for has a zero
in it. -/
inductive FileBreaksOff (arguments : Arguments) (settings : Settings) (tree : FileTree)
    (file : String) : Prop
  /-- It is that of a file to be flattened. -/
  | source {e : FlattenError} : findsFile tree (.ofString file) = .ok true →
      flatten tree (.ofString file) (.limited settings.budget) = .error e →
      e.namesZero = true → FileBreaksOff arguments settings tree file
  /-- It is that of the file to be written, when the text for it is there. -/
  | target {text target : String} : findsFile tree (.ofString file) = .ok true →
      flatten tree (.ofString file) (.limited settings.budget) = .ok text →
      nonempty? arguments.output = some target → (Path.ofString target).holdsZero = true →
      FileBreaksOff arguments settings tree file

/-- A run does not both succeed and break off. -/
theorem FileSucceeds.not_breaksOff (h : FileSucceeds arguments settings tree medium file text) :
    ¬ FileBreaksOff arguments settings tree file := by
  rintro (⟨-, herror, -⟩ | ⟨-, -, houtput, hzero⟩)
  · simp [h.flatten_eq] at herror
  · simp [(h.isWritable _ houtput).1] at hzero

/-- Writing the flat text has broken off: the bytes in front of the cut are all that has changed. -/
def IsCutOff (arguments : Arguments) (settings : Settings) (tree : FileTree) (medium : Medium)
    (file : String) (after : FileTree) : Prop :=
  ∃ text target cut,
    flatten tree (.ofString file) (.limited settings.budget) = .ok text ∧
    nonempty? arguments.output = some target ∧
    medium tree (.ofString target) (settings.stubbed text).toUTF8 = some cut ∧
    tree.HoldsOnly (.ofString target) ((settings.stubbed text).toUTF8.extract 0 cut.length) after

/-- How a run with a root file ends. -/
inductive FileEnds (arguments : Arguments) (settings : Settings) (tree : FileTree)
    (medium : Medium) (file : String) : Run → Prop
  | broken {run : Run} : FileBreaksOff arguments settings tree file →
      run.ending = .broken .impossibleValue → FileEnds arguments settings tree medium file run
  | failed {run : Run} : run.Reports → run.transcript.output = [] →
      (run.tree = tree ∨ IsCutOff arguments settings tree medium file run.tree) →
      (∀ text, ¬ FileSucceeds arguments settings tree medium file text) →
      ¬ FileBreaksOff arguments settings tree file →
      FileEnds arguments settings tree medium file run
  | shown {run : Run} {text : String} : FileSucceeds arguments settings tree medium file text →
      nonempty? arguments.output = none → run.ending = .exit 0 → run.tree = tree →
      run.transcript.output = [settings.stubbed text] →
      FileEnds arguments settings tree medium file run
  | saved {run : Run} {text target : String} :
      FileSucceeds arguments settings tree medium file text →
      nonempty? arguments.output = some target → run.ending = .exit 0 →
      tree.writeText (.ofString target) (settings.stubbed text) = .ok run.tree →
      FileEnds arguments settings tree medium file run

/-- A run whose root file is not there fails. -/
theorem FileEnds.of_findsFile {run : Run} (hreports : run.Reports) (htree : run.tree = tree)
    (houtput : run.transcript.output = []) (hfile : findsFile tree (.ofString file) ≠ .ok true) :
    FileEnds arguments settings tree medium file run := by
  refine .failed hreports houtput (.inl htree) (fun text h => hfile h.isFile) ?_
  rintro (⟨h, -, -⟩ | ⟨h, -, -, -⟩) <;> exact hfile h

/-- Writing the flat text to a file ends the run, one way or another. -/
theorem fileEnds_save {crate : PackedCrate} {target : String} (log : List LogRecord)
    (hfile : findsFile tree (.ofString file) = .ok true)
    (htext : flatten tree (.ofString file) (.limited settings.budget) = .ok text)
    (hcrate : crate.text = settings.stubbed text) (houtput : nonempty? arguments.output = some target) :
    FileEnds arguments settings tree medium file
      (save arguments tree (.ofLog arguments.level log) crate (.ofString target) medium) := by
  rw [save, hcrate]
  cases hzero : (Path.ofString target).holdsZero with
  | true =>
    rw [if_pos rfl]
    exact .broken (.target hfile htext houtput hzero) rfl
  | false =>
    rw [if_neg Bool.false_ne_true]
    have hplain : ¬ FileBreaksOff arguments settings tree file := by
      rintro (⟨-, herror, -⟩ | ⟨-, -, hother, hzero'⟩)
      · simp [htext] at herror
      · obtain rfl := Option.some.inj (houtput.symm.trans hother)
        simp [hzero] at hzero'
    have hfails (hne : ∀ after,
        tree.writeOn medium (.ofString target) (settings.stubbed text) ≠ .done after)
        (other : String) : ¬ FileSucceeds arguments settings tree medium file other := by
      intro h
      obtain rfl := Except.ok.inj (htext.symm.trans h.flatten_eq)
      obtain ⟨-, after, hafter⟩ := h.isWritable target houtput
      exact hne after hafter
    cases hwrite : tree.writeOn medium (.ofString target) (settings.stubbed text) with
    | refused fault =>
      exact .failed (reports_failed_fileNote _ _ _) rfl (.inl rfl) (hfails (by simp [hwrite])) hplain
    | cut written e =>
      obtain ⟨cut, hcut, rfl, hbytes⟩ := FileTree.exists_cut_of_writeOn hwrite
      exact .failed (reports_failed_fileNote _ _ _) rfl
        (.inr ⟨text, target, cut, htext, houtput, hcut, FileTree.holdsOnly_writeBytes hbytes⟩)
        (hfails (by simp [hwrite])) hplain
    | done after =>
      refine .saved ⟨hfile, htext, ?_⟩ houtput rfl (FileTree.writeText_of_writeOn hwrite)
      rintro other hother
      obtain rfl := Option.some.inj (houtput.symm.trans hother)
      exact ⟨hzero, after, hwrite⟩

/-- Flattening the crate of one file ends in one of these ways. -/
theorem fileEnds_runFile (arguments : Arguments) (settings : Settings) (tree : FileTree)
    (medium : Medium) (file : String) :
    FileEnds arguments settings tree medium file
      (runFile arguments settings tree file medium) := by
  unfold runFile
  cases hfile : findsFile tree (.ofString file) with
  | error fault =>
    simp only [hfile]
    exact .of_findsFile (reports_failed_fileNote _ _ _) rfl rfl (by simp [hfile])
  | ok isFile =>
    cases isFile with
    | false =>
      simp only [hfile]
      exact .of_findsFile (reports_notAFile tree file) rfl rfl (by simp [hfile])
    | true =>
      simp only [hfile]
      cases hresult : (PackedCrate.build tree (.ofString file) (Path.ofString file).stem
          (.limited settings.budget) settings.stubbing {}).result with
      | error e =>
        have hflatten := PackedCrate.flatten_of_build_eq_error hresult
        cases hzero : e.namesZero with
        | true =>
          simp only [hzero, if_true]
          exact .broken (.source hfile hflatten hzero) rfl
        | false =>
          simp only [hzero, Bool.false_eq_true, if_false]
          refine .failed (reports_failed _ _ _) rfl (.inl rfl) (fun text h => ?_) ?_
          · simpa [hflatten] using h.flatten_eq
          · rintro (⟨-, herror, hzero'⟩ | ⟨-, htext, -, -⟩)
            · obtain rfl := Except.error.inj (hflatten.symm.trans herror)
              simp [hzero] at hzero'
            · simp [hflatten] at htext
      | ok crate =>
        obtain ⟨text, htext, hcrate⟩ := PackedCrate.exists_flatten_of_build hresult
        rw [← Settings.stubbed] at hcrate
        cases houtput : nonempty? arguments.output with
        | none =>
          refine .shown ⟨hfile, htext, by simp [houtput]⟩ houtput rfl rfl ?_
          simp only [output_present, Transcript.output_ofLog, List.nil_append, hcrate]
        | some target => exact fileEnds_save _ hfile htext hcrate houtput

/-- A run with a root file changes nothing but the file that the output option names. If it ends
well, the flat text, with stubs if these are asked for, is the content of this file, or else exactly
what is shown on the first stream. If it does not end well, nothing is shown on the first stream, and
the tree stays as it is unless the medium has cut that file off: then the beginning of the text stays
there. The reports and the log never get in the way. -/
theorem run_of_file (hparse : Arguments.parse words = .ok arguments)
    (hfile : arguments.file = some (.value file)) (hne : file ≠ "") {code : Nat}
    (hending : (run words tree answer medium).ending = .exit code) :
    let after := (run words tree answer medium).tree
    let shown := String.join (run words tree answer medium).transcript.output
    (code ≠ 0 → code = 1 ∧ shown = "" ∧ (after = tree ∨
      ∃ settings, arguments.settings tree = .ok settings ∧
        IsCutOff arguments settings tree medium file after)) ∧
    (code = 0 → ∃ settings text, arguments.settings tree = .ok settings ∧
      flatten tree (.ofString file) (.limited settings.budget) = .ok text ∧
      (nonempty? arguments.output = none → after = tree ∧ shown = settings.stubbed text) ∧
      ∀ target, nonempty? arguments.output = some target →
        tree.HoldsOnly (.ofString target) (settings.stubbed text).toUTF8 after) := by
  have hnonempty : nonempty? arguments.file = some file := by
    rw [hfile, nonempty?, if_neg hne]
  have hrun : run words tree answer medium = runArguments arguments tree answer medium := by
    rw [run, hparse]
  rw [hrun] at hending ⊢
  cases hsettings : arguments.settings tree with
  | error fault =>
    simp only [runArguments, hsettings] at hending ⊢
    have hends := setupEnds_failedSetup tree fault
    generalize failedSetup tree fault = ended at hends hending ⊢
    cases hends with
    | broken _ => simp at hending
    | failed _ hreports htree houtput =>
      obtain rfl := Ending.exit.inj (hending.symm.trans hreports.ending_eq)
      exact ⟨fun _ => ⟨rfl, by rw [houtput]; rfl, .inl htree⟩, by simp⟩
  | ok settings =>
    simp only [runArguments, hsettings, hnonempty] at hending ⊢
    have hends := fileEnds_runFile arguments settings tree medium file
    generalize runFile arguments settings tree file medium = ended at hends hending ⊢
    cases hends with
    | broken _ hbroken => simp [hbroken] at hending
    | failed hreports houtput htree _ _ =>
      obtain rfl := Ending.exit.inj (hending.symm.trans hreports.ending_eq)
      exact ⟨fun _ => ⟨rfl, by rw [houtput]; rfl, htree.imp_right fun h => ⟨settings, rfl, h⟩⟩,
        by simp⟩
    | @shown text h hnone hzero htree houtput =>
      obtain rfl := Ending.exit.inj (hending.symm.trans hzero)
      refine ⟨by simp, fun _ => ⟨settings, text, rfl, h.flatten_eq, fun _ => ?_, ?_⟩⟩
      · exact ⟨htree, by simp [houtput, String.join]⟩
      · simp [hnone]
    | @saved text target h houtput hzero hwrite =>
      obtain rfl := Ending.exit.inj (hending.symm.trans hzero)
      refine ⟨by simp, fun _ => ⟨settings, text, rfl, h.flatten_eq, by simp [houtput], ?_⟩⟩
      rintro other hother
      obtain rfl := Option.some.inj (houtput.symm.trans hother)
      exact FileTree.holdsOnly_writeBytes hwrite

/-- The root file of the single crate of a toolchain. -/
def rootText : String := "lib/rustlib/src/rust/library/a/src/lib.rs"

/-- The flat text is written, and the report does not get into it. -/
theorem run_of_file_saved :
    let done := run ["--file", rootText, "-o", "a.rs", "--report", "ascii"] Pack.crateTree .missing
    done.ending = .exit 0 ∧
      Pack.crateTree.HoldsOnly (.ofString "a.rs") "fn a();\n".toUTF8 done.tree := by
  intro done
  let arguments : Arguments :=
    { file := some (.value rootText), output := some (.value "a.rs")
      report := some (.value .drawing) }
  have hparse : Arguments.parse ["--file", rootText, "-o", "a.rs", "--report", "ascii"] =
      .ok arguments := by decide +kernel
  have hending : done.ending = .exit 0 := by decide +kernel
  obtain ⟨-, hzero⟩ := run_of_file hparse rfl (by decide) hending
  obtain ⟨settings, text, hsettings, htext, -, hsaved⟩ := hzero rfl
  obtain rfl : {} = settings := Except.ok.inj hsettings
  have hflat : flatten Pack.crateTree (.ofString rootText) (.limited Budget.standard) =
      .ok "fn a();\n" := by decide +kernel
  obtain rfl := Except.ok.inj (hflat.symm.trans htext)
  exact ⟨hending, hsaved "a.rs" rfl⟩

/-- With an empty text the file option is overlooked: the crates of the toolchain are packed,
although no output has been named, and nothing is shown. -/
theorem run_of_empty_file :
    let words := ["--file", "", "--sysroot", ".", "--components", "a", "--no-manifest"]
    let done := run words Pack.crateTree .missing
    (Arguments.parse words).toOption.bind (·.file) = some (.value "") ∧
    (Arguments.parse words).toOption.bind (·.output) = none ∧
    done.ending = .exit 0 ∧ done.transcript.output = [] ∧
    Pack.crateTree.find? ["fake_a.rs", "www"] = none ∧
    done.tree.find? ["fake_a.rs", "www"] = some (.file "fn a();\n".toUTF8) := by
  decide +kernel

end CommandLine

end FlatCrate
