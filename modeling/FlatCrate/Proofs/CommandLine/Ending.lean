import FlatCrate.Proofs.CommandLine.SingleFile
import FlatCrate.Proofs.Pack.Breakdown

/-!
# How a run ends

A run that is not refused ends well, with a note about an error, or with a breakdown. The breakdowns
are listed here. They come from values of the settings that nothing has checked in time, from paths
for which nobody can ask, from a compiler that is no program or prints no text, and from the mark in
the place of a path. Streams that fail and calls that are nested too deep are left out.
-/

namespace FlatCrate.CommandLine

variable {arguments : Arguments} {settings : Settings} {tree : FileTree} {words : List String}
  {answer : Toolchain.Answer} {medium : Medium} {breakdown : Breakdown}

/-- How a run breaks off. -/
inductive BreaksOff (arguments : Arguments) (tree : FileTree) (answer : Toolchain.Answer)
    (medium : Medium) : Breakdown → Prop
  | setup {breakdown : Breakdown} : SetupBreaksOff arguments tree breakdown →
      BreaksOff arguments tree answer medium breakdown
  | file {settings : Settings} {file : String} : arguments.settings tree = .ok settings →
      nonempty? arguments.file = some file → FileBreaksOff arguments settings tree file →
      BreaksOff arguments tree answer medium .impossibleValue
  | pack {settings : Settings} {breakdown : Breakdown} :
      arguments.settings tree = .ok settings → nonempty? arguments.file = none →
      Pack.BreaksOff tree settings answer medium breakdown →
      BreaksOff arguments tree answer medium breakdown

/-- Nothing fails: there are settings, and the crate of the root file can be flattened and written,
or the crates of the toolchain can be packed. -/
inductive Succeeds (arguments : Arguments) (tree : FileTree) (answer : Toolchain.Answer)
    (medium : Medium) : Prop
  | file {settings : Settings} {file text : String} : arguments.settings tree = .ok settings →
      nonempty? arguments.file = some file →
      FileSucceeds arguments settings tree medium file text →
      Succeeds arguments tree answer medium
  | pack {settings : Settings} : arguments.settings tree = .ok settings →
      nonempty? arguments.file = none → (Pack.run tree settings answer medium).1.fault = none →
      Succeeds arguments tree answer medium

/-- A run ends as it has to: with the exit code zero exactly if nothing fails, with a breakdown
exactly in the listed cases, and otherwise with a note about an error. -/
structure EndsProperly (arguments : Arguments) (tree : FileTree) (answer : Toolchain.Answer)
    (medium : Medium) (done : Run) : Prop where
  zero_iff : done.ending = .exit 0 ↔ Succeeds arguments tree answer medium
  broken_iff : ∀ breakdown,
    done.ending = .broken breakdown ↔ BreaksOff arguments tree answer medium breakdown
  reports : ¬ Succeeds arguments tree answer medium →
    (∀ breakdown, ¬ BreaksOff arguments tree answer medium breakdown) → done.Reports

/-! ## Runs without settings -/

/-- Without settings, a run breaks off as the fault of its settings does. -/
theorem breaksOff_iff_of_error (hbudget : arguments.HasShowableBudget)
    (hpaired : arguments.IsPaired tree) {fault : SetupFault} (hsettings : arguments.settings tree = .error fault) :
    BreaksOff arguments tree answer medium breakdown ↔ fault.breakdown? = some breakdown := by
  constructor
  · rintro (hsetup | ⟨hok, -, -⟩ | ⟨hok, -, -⟩)
    · obtain ⟨cause, hcause, hbreak⟩ := (settings_breaksOff_iff hbudget hpaired).mpr hsetup
      rwa [Except.error.inj (hsettings.symm.trans hcause)]
    all_goals simp [hsettings] at hok
  · intro hbreak
    exact .setup ((settings_breaksOff_iff hbudget hpaired).mp ⟨fault, hsettings, hbreak⟩)

/-- Without settings, nothing succeeds. -/
theorem not_succeeds_of_error {fault : SetupFault}
    (hsettings : arguments.settings tree = .error fault) :
    ¬ Succeeds arguments tree answer medium := by
  rintro (⟨hok, -, -⟩ | ⟨hok, -, -⟩) <;> simp [hsettings] at hok

/-- A run without settings ends as it has to. -/
theorem endsProperly_failedSetup (hbudget : arguments.HasShowableBudget)
    (hpaired : arguments.IsPaired tree) {fault : SetupFault}
    (hsettings : arguments.settings tree = .error fault) :
    EndsProperly arguments tree answer medium (failedSetup tree fault) := by
  have hfails : ¬ Succeeds arguments tree answer medium := not_succeeds_of_error hsettings
  have hbreaks (breakdown : Breakdown) :
      BreaksOff arguments tree answer medium breakdown ↔ fault.breakdown? = some breakdown :=
    breaksOff_iff_of_error hbudget hpaired hsettings
  have hends := setupEnds_failedSetup tree fault
  generalize failedSetup tree fault = ended at hends
  cases hends with
  | broken hbreak => constructor <;> simp [hfails, hbreaks, hbreak]
  | failed hnone hreports _ _ =>
    constructor <;> simp [hfails, hbreaks, hnone, hreports, hreports.ending_eq]

/-! ## Runs with settings -/

/-- With a root file, a run breaks off as flattening its crate does. -/
theorem breaksOff_iff_of_file (hbudget : arguments.HasShowableBudget)
    (hsettings : arguments.settings tree = .ok settings) {file : String}
    (hfile : nonempty? arguments.file = some file) :
    BreaksOff arguments tree answer medium breakdown ↔
      breakdown = .impossibleValue ∧ FileBreaksOff arguments settings tree file := by
  constructor
  · rintro (hsetup | ⟨hok, hsome, hbreak⟩ | ⟨-, hnone, -⟩)
    · obtain ⟨cause, hcause, -⟩ := (settings_breaksOff_iff hbudget (.of_settings hsettings)).mpr hsetup
      simp [hsettings] at hcause
    · obtain rfl := Except.ok.inj (hsettings.symm.trans hok)
      obtain rfl := Option.some.inj (hfile.symm.trans hsome)
      exact ⟨rfl, hbreak⟩
    · simp [hfile] at hnone
  · rintro ⟨rfl, hbreak⟩
    exact .file hsettings hfile hbreak

/-- Without a root file, a run breaks off as packing does. -/
theorem breaksOff_iff_of_pack (hbudget : arguments.HasShowableBudget)
    (hsettings : arguments.settings tree = .ok settings)
    (hfile : nonempty? arguments.file = none) :
    BreaksOff arguments tree answer medium breakdown ↔
      Pack.BreaksOff tree settings answer medium breakdown := by
  constructor
  · rintro (hsetup | ⟨-, hsome, -⟩ | ⟨hok, -, hpack⟩)
    · obtain ⟨cause, hcause, -⟩ := (settings_breaksOff_iff hbudget (.of_settings hsettings)).mpr hsetup
      simp [hsettings] at hcause
    · simp [hfile] at hsome
    · rwa [Except.ok.inj (hsettings.symm.trans hok)]
  · exact .pack hsettings hfile

/-- With a root file, a run succeeds as flattening its crate does. -/
theorem succeeds_iff_of_file (hsettings : arguments.settings tree = .ok settings) {file : String}
    (hfile : nonempty? arguments.file = some file) :
    Succeeds arguments tree answer medium ↔
      ∃ text, FileSucceeds arguments settings tree medium file text := by
  constructor
  · rintro (⟨hok, hsome, h⟩ | ⟨-, hnone, -⟩)
    · obtain rfl := Except.ok.inj (hsettings.symm.trans hok)
      obtain rfl := Option.some.inj (hfile.symm.trans hsome)
      exact ⟨_, h⟩
    · simp [hfile] at hnone
  · rintro ⟨text, h⟩
    exact .file hsettings hfile h

/-- Without a root file, a run succeeds as packing does. -/
theorem succeeds_iff_of_pack (hsettings : arguments.settings tree = .ok settings)
    (hfile : nonempty? arguments.file = none) :
    Succeeds arguments tree answer medium ↔
      (Pack.run tree settings answer medium).1.fault = none := by
  constructor
  · rintro (⟨-, hsome, -⟩ | ⟨hok, -, h⟩)
    · simp [hfile] at hsome
    · rwa [Except.ok.inj (hsettings.symm.trans hok)]
  · exact .pack hsettings hfile

/-- A run with a root file ends as it has to. -/
theorem endsProperly_runFile (hbudget : arguments.HasShowableBudget)
    (hsettings : arguments.settings tree = .ok settings) {file : String}
    (hfile : nonempty? arguments.file = some file) :
    EndsProperly arguments tree answer medium (runFile arguments settings tree file medium) := by
  have hsucceeds : Succeeds arguments tree answer medium ↔
      ∃ text, FileSucceeds arguments settings tree medium file text :=
    succeeds_iff_of_file hsettings hfile
  have hbreaks (breakdown : Breakdown) : BreaksOff arguments tree answer medium breakdown ↔
      breakdown = .impossibleValue ∧ FileBreaksOff arguments settings tree file :=
    breaksOff_iff_of_file hbudget hsettings hfile
  have hends := fileEnds_runFile arguments settings tree medium file
  -- the ways to end exclude each other, so each of them settles all three fields
  generalize runFile arguments settings tree file medium = ended at hends
  cases hends with
  | broken hbreak hbroken =>
    have hfails : ∀ text, ¬ FileSucceeds arguments settings tree medium file text :=
      fun text h => h.not_breaksOff hbreak
    constructor <;> simp [hsucceeds, hbreaks, hbroken, hbreak, hfails, eq_comm]
  | failed hreports _ _ hfails hplain =>
    constructor <;> simp [hsucceeds, hbreaks, hreports, hreports.ending_eq, hfails, hplain]
  | shown h _ hzero _ _ | saved h _ hzero _ =>
    have hsome := Exists.intro _ h
    constructor <;> simp [hsucceeds, hbreaks, hzero, hsome, h.not_breaksOff]

/-- That the toolchain was not found is reported. -/
theorem reports_failed_toolchainNote (tree : FileTree) (shown : Transcript) (compiler : String)
    (fault : Toolchain.Fault) : (failed tree shown (toolchainNote compiler fault)).Reports := by
  cases fault with
  | refused reason => exact ⟨rfl, reason, .inr List.getLast?_concat⟩
  | _ => exact reports_failed _ _ _

/-- Packing ends as its fault says. -/
theorem ending_runPack (arguments : Arguments) (settings : Settings) (tree : FileTree)
    (answer : Toolchain.Answer) (medium : Medium) :
    let ended := runPack arguments settings tree answer medium
    let fault := (Pack.run tree settings answer medium).1.fault
    (ended.ending = .exit 0 ∧ fault = none) ∨
    (ended.Reports ∧ fault ≠ none ∧ ∀ breakdown, fault ≠ some (.broken breakdown)) ∨
    ∃ breakdown, ended.ending = .broken breakdown ∧ fault = some (.broken breakdown) := by
  unfold runPack
  cases hfault : (Pack.run tree settings answer medium).1.fault with
  | none =>
    simp only [hfault]
    exact .inl ⟨trivial, trivial⟩
  | some fault =>
    simp only [hfault]
    cases fault with
    | flatten e => exact .inr (.inl ⟨reports_failed _ _ _, by simp, by simp⟩)
    | toolchain compiler cause =>
      exact .inr (.inl ⟨reports_failed_toolchainNote _ _ _ _, by simp, by simp⟩)
    | file e => exact .inr (.inl ⟨reports_failed_fileNote _ _ _, by simp, by simp⟩)
    | broken breakdown => exact .inr (.inr ⟨breakdown, rfl, rfl⟩)

/-- A run without a root file ends as it has to. -/
theorem endsProperly_runPack (hbudget : arguments.HasShowableBudget)
    (hsettings : arguments.settings tree = .ok settings)
    (hfile : nonempty? arguments.file = none) :
    EndsProperly arguments tree answer medium (runPack arguments settings tree answer medium) := by
  have hsucceeds : Succeeds arguments tree answer medium ↔
      (Pack.run tree settings answer medium).1.fault = none :=
    succeeds_iff_of_pack hsettings hfile
  have hbreaks (breakdown : Breakdown) : BreaksOff arguments tree answer medium breakdown ↔
      (Pack.run tree settings answer medium).1.fault = some (.broken breakdown) := by
    rw [breaksOff_iff_of_pack hbudget hsettings hfile, Pack.fault_run_eq_broken_iff]
  obtain ⟨hzero, hnone⟩ | ⟨hreports, hsome, hplain⟩ | ⟨cause, hbroken, hfault⟩ :=
    ending_runPack arguments settings tree answer medium
  · constructor <;> simp [hsucceeds, hbreaks, hzero, hnone]
  · constructor <;> simp [hsucceeds, hbreaks, hreports, hreports.ending_eq, hsome, hplain]
  · constructor <;> simp [hsucceeds, hbreaks, hbroken, hfault]

/-- A command line that has been read ends as it has to. -/
theorem endsProperly_runArguments (hbudget : arguments.HasShowableBudget)
    (hpaired : arguments.IsPaired tree) (answer : Toolchain.Answer) (medium : Medium) :
    EndsProperly arguments tree answer medium (runArguments arguments tree answer medium) := by
  rw [runArguments]
  cases hsettings : arguments.settings tree with
  | error fault => exact endsProperly_failedSetup hbudget hpaired hsettings
  | ok settings =>
    cases hfile : nonempty? arguments.file with
    | some file => exact endsProperly_runFile hbudget hsettings hfile
    | none => exact endsProperly_runPack hbudget hsettings hfile

/-- How a command line ends that is not refused and whose settings file, if any, has no half of a
surrogate pair alone. Its exit code is zero exactly if nothing fails. It breaks off exactly in the
listed cases. In all other cases its exit code is one, and the last note tells the error. Among the
listed cases are all those in which the compiler has to be asked and is not the name of a program,
whatever a system answers then. -/
theorem ending_run (hparse : Arguments.parse words = .ok arguments)
    (hpaired : arguments.IsPaired tree) (answer : Toolchain.Answer) (medium : Medium) :
    let done := run words tree answer medium
    (done.ending = .exit 0 ↔ Succeeds arguments tree answer medium) ∧
    (∀ breakdown,
      done.ending = .broken breakdown ↔ BreaksOff arguments tree answer medium breakdown) ∧
    (¬ Succeeds arguments tree answer medium →
      (∀ breakdown, ¬ BreaksOff arguments tree answer medium breakdown) → done.Reports) ∧
    ∀ settings breakdown, arguments.settings tree = .ok settings →
      nonempty? arguments.file = none → settings.sysroot = none →
      settings.compiler.runBreakdown? = some breakdown →
      answer.IsPossible settings.compiler → done.ending = .broken breakdown := by
  intro done
  have hends : EndsProperly arguments tree answer medium done := by
    simp only [done, run, hparse]
    exact endsProperly_runArguments (.of_parse hparse) hpaired answer medium
  refine ⟨hends.zero_iff, hends.broken_iff, hends.reports,
    fun settings breakdown hsettings hfile hnone hbreak hpossible => ?_⟩
  have hpack : Pack.BreaksOff tree settings answer medium breakdown :=
    Pack.breaksOff_of_runBreakdown? hnone hpossible hbreak
  exact (hends.broken_iff breakdown).mpr (.pack hsettings hfile hpack)

/-- A directory with a settings file that gives a number as the compiler. -/
def numberedTree : FileTree := ⟨[], [(["five.yaml"], .file "rustc: 5\n".toUTF8)]⟩

/-- The command line that names that file. -/
def numberedArguments : Arguments := { config := some (.value "five.yaml") }

/-- A root file that is not there is reported. A compiler that is a number breaks the run off. -/
theorem ending_run_missing_file :
    let words := ["--file", "main.rs", "--budget", "3"]
    let arguments : Arguments := { file := some (.value "main.rs"), budget := some (.value 3) }
    let done := run words Pack.crateTree .missing
    let later := run ["--config", "five.yaml"] numberedTree (.broken .wrongKind)
    Arguments.parse words = .ok arguments ∧ done.ending = .exit 1 ∧
      ¬ Succeeds arguments Pack.crateTree .missing .sound ∧
      (∀ breakdown, ¬ BreaksOff arguments Pack.crateTree .missing .sound breakdown) ∧
      done.Reports ∧ later.ending = .broken .wrongKind := by
  intro words arguments done later
  have hparse : Arguments.parse words = .ok arguments := by decide +kernel
  have hpaired : arguments.IsPaired Pack.crateTree := .of_loaded rfl
  have hending : done.ending = .exit 1 := by decide +kernel
  obtain ⟨hzero, hbroken, hreports, -⟩ := ending_run hparse hpaired .missing .sound
  have hfails : ¬ Succeeds arguments Pack.crateTree .missing .sound := fun h => by
    simpa using hending.symm.trans (hzero.mpr h)
  have hplain : ∀ breakdown, ¬ BreaksOff arguments Pack.crateTree .missing .sound breakdown :=
    fun breakdown h => by simpa using hending.symm.trans ((hbroken breakdown).mpr h)
  refine ⟨hparse, hending, hfails, hplain, hreports hfails hplain, ?_⟩
  have hparse' : Arguments.parse ["--config", "five.yaml"] = .ok numberedArguments := by
    decide +kernel
  have hnumber : ((numberedArguments.settings numberedTree).toOption.any fun settings =>
      settings.sysroot = none ∧ settings.compiler.runBreakdown? = some .wrongKind) = true := by
    decide +kernel
  cases hsettings : numberedArguments.settings numberedTree with
  | error fault => simp [hsettings, Except.toOption] at hnumber
  | ok settings =>
    replace hnumber : settings.sysroot = none ∧
        settings.compiler.runBreakdown? = some .wrongKind := by
      simpa [hsettings, Except.toOption] using hnumber
    have hpossible : (Toolchain.Answer.broken .wrongKind).IsPossible settings.compiler := by
      rw [Toolchain.Answer.IsPossible, hnumber.2]
    exact (ending_run hparse' (.of_settings hsettings) (.broken .wrongKind) .sound).2.2.2 settings
      .wrongKind hsettings rfl hnumber.1 hnumber.2 hpossible

/-- A toolchain beside two settings files: one with a number as a key, one with a number as the
manifest. -/
def settingsTree : FileTree where
  workDir := []
  entries := (["keys.yaml"], .file "1: 2\n".toUTF8) ::
    (["number.yaml"], .file "manifest: 5\n".toUTF8) :: Pack.crateTree.entries

/-- Both settings files break the run off, the second one when all crates have been flattened. -/
theorem run_settingsTree_broken :
    let words := ["--config", "keys.yaml"]
    let later := ["--config", "number.yaml", "--sysroot", ".", "--components", "a"]
    (Arguments.parse words).isOk = true ∧ (Arguments.parse later).isOk = true ∧
    (run words settingsTree .missing).ending = .broken .wrongKind ∧
    (run later settingsTree .missing).ending = .broken .wrongKind := by
  decide +kernel

end FlatCrate.CommandLine
