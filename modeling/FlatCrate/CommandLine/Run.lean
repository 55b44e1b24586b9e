import FlatCrate.CommandLine.Arguments
import FlatCrate.Graph.Drawing
import FlatCrate.Graph.Report
import FlatCrate.Pack
import FlatCrate.Settings.Load

/-!
# Running the command line

A run either flattens the crate of one root file or packs the library crates of a toolchain. What it
shows goes to two streams: results to the first, log records and notes to the second. Reports go to
the first stream, too, unless that already holds a flat text.

Every failure that a user can cause ends the run with a note and the exit code one. A breakdown ends
it without an exit code. Both streams take whatever they are given.
-/

namespace FlatCrate.CommandLine

/-- What a run has shown, piece by piece. -/
structure Transcript where
  output : List String := []
  notes : List String := []
  deriving DecidableEq, Repr

namespace Transcript

/-- A line of the first stream. -/
def print (text : String) : Transcript := { output := [text ++ "\n"] }

/-- A line of the second stream. -/
def note (text : String) : Transcript := { notes := [text ++ "\n"] }

/-- One transcript behind another one. -/
def append (a b : Transcript) : Transcript := ⟨a.output ++ b.output, a.notes ++ b.notes⟩

instance : Append Transcript := ⟨append⟩

/-- The log records that are shown at a level. -/
def ofLog (level : LogLevel) (log : List LogRecord) : Transcript :=
  { notes := (LogRecord.atLeast level log).map fun record => record.render ++ "\n" }

/-- Transcripts one behind the other. -/
def concat (parts : List Transcript) : Transcript := parts.foldl append {}

end Transcript

/-- How a run ends. -/
inductive Ending
  | exit (code : Nat)
  | broken (breakdown : Breakdown)
  deriving DecidableEq, Repr

/-- A run: the tree it leaves, what it has shown, and how it ends. -/
structure Run where
  tree : FileTree
  transcript : Transcript
  ending : Ending

/-- A run that ends with a note. -/
def failed (tree : FileTree) (transcript : Transcript) (text : String) : Run :=
  ⟨tree, transcript ++ .note text, .exit 1⟩

/-- The note about a file operation that failed. -/
def fileNote (e : FileError) : String := "Error writing output: " ++ e.message

/-- The level from which on log records are shown. -/
def Arguments.level (arguments : Arguments) : LogLevel :=
  if arguments.verbose then .debug else if arguments.quiet then .warning else .info

/-- What an option was given as a value of settings; no value at all is an empty list. -/
def Given.asValue {α : Type} (make : α → Value) : Option (Given α) → Value
  | none => .null
  | some (.value a) => make a
  | some .nothing => .list []

/-- The fields of settings that the command line gives anew. -/
def Arguments.changes (arguments : Arguments) : List (String × Value) :=
  [("sysroot", Given.asValue .string arguments.sysroot),
   ("rustc", Given.asValue .string arguments.compiler),
   ("output_dir", Given.asValue .string arguments.outputDir),
   ("components",
     (arguments.components.map fun names => Value.list (names.map .string)).getD .null),
   ("budget", Given.asValue .integer arguments.budget),
   ("strip_bodies", if arguments.stubbing then .bool true else .null)]

/-- The text that an option was given, unless it is empty. -/
def nonempty? : Option (Given String) → Option String
  | some (.value text) => if text = "" then none else some text
  | _ => none

/-- Why there are no settings to run with. -/
inductive SetupFault
  | load (fault : LoadFault)
  | override (fault : SettingsFault)

/-- The settings of a command line. -/
def Arguments.settings (arguments : Arguments) (tree : FileTree) : Except SetupFault Settings := do
  let base ← match nonempty? arguments.config with
    | none => .ok {}
    | some file => (Settings.load tree (.ofString file)).mapError .load
  let settings ← (base.override arguments.changes).mapError .override
  return if arguments.noManifest then { settings with manifest := .null } else settings

/-- The run that ends because there are no settings. -/
def failedSetup (tree : FileTree) : SetupFault → Run
  | .load fault =>
    match fault.breakdown? with
    | some breakdown => ⟨tree, {}, .broken breakdown⟩
    | none => failed tree {} ("Error: " ++ fault.message)
  | .override fault =>
    match fault.overrideBreakdown? with
    | some breakdown => ⟨tree, {}, .broken breakdown⟩
    | none => failed tree {} ("Error: " ++ fault.message)

/-- The cells of the drawings that a command line asks for. -/
def Arguments.cells (arguments : Arguments) : ModuleGraph.Style :=
  if arguments.drawing = .value .ascii then .ascii else .lines

/-- The report of a crate in a given form. -/
def reportOf (tree : FileTree) (form : ReportForm) (style : ModuleGraph.Style)
    (crate : PackedCrate) : String :=
  let view := ModuleGraph.Viewpoint.of crate.source.parent none
  match form with
  | .drawing => crate.graph.draw tree view style true
  | .document => crate.graph.report tree view 2 true

/-- The report that a command line asks for. -/
def Arguments.report? (arguments : Arguments) (tree : FileTree) (crate : PackedCrate) :
    Option String :=
  match arguments.report with
  | some (.value form) => some (reportOf tree form arguments.cells crate)
  | _ => none

/-- The text that names a file that has been written. -/
def writtenNote (path : Path) : Transcript := .note ("Output written to: " ++ path.toString)

/-- Shows a flat crate on the first stream and its report on the second one. -/
def present (arguments : Arguments) (tree : FileTree) (shown : Transcript)
    (crate : PackedCrate) : Run :=
  let report := match arguments.report? tree crate with
    | none => {}
    | some report => Transcript.note report
  ⟨tree, shown ++ { output := [crate.text] } ++ report, .exit 0⟩

/-- Writes a flat crate to a file and its report to the first stream. When writing breaks off, what
there is of the file stays. -/
def save (arguments : Arguments) (tree : FileTree) (shown : Transcript) (crate : PackedCrate)
    (target : Path) (medium : Medium := .sound) : Run :=
  if target.holdsZero then ⟨tree, shown, .broken .impossibleValue⟩
  else
    match tree.writeOn medium target crate.text with
    | .refused fault => failed tree shown (fileNote ⟨fault, target, none⟩)
    | .cut tree e => failed tree shown (fileNote e)
    | .done tree =>
      let report := match arguments.report? tree crate with
        | none => {}
        | some report => Transcript.print report
      ⟨tree, shown ++ writtenNote target ++ report, .exit 0⟩

/-- Whether a path leads to a file. No file has a path that cannot be asked for. -/
def findsFile (tree : FileTree) (path : Path) : Except Fault Bool :=
  if path.holdsZero then .ok false else tree.isFile path

/-- Flattens the crate of one root file. -/
def runFile (arguments : Arguments) (settings : Settings) (tree : FileTree) (file : String)
    (medium : Medium := .sound) : Run :=
  let root := Path.ofString file
  match findsFile tree root with
  | .error fault => failed tree {} (fileNote ⟨fault, root, none⟩)
  | .ok false => failed tree {} ("Error: '" ++ file ++ "' is not a file")
  | .ok true =>
    let built :=
      PackedCrate.build tree root root.stem (.limited settings.budget) settings.stubbing {}
    let shown := Transcript.ofLog arguments.level built.log
    match built.result with
    | .error e =>
      if e.namesZero then ⟨tree, shown, .broken .impossibleValue⟩
      else failed tree shown ("Error: " ++ e.message)
    | .ok crate =>
      match nonempty? arguments.output with
      | none => present arguments tree shown crate
      | some target => save arguments tree shown crate (.ofString target) medium

/-- Shows which file holds a packed crate, and its report. -/
def showPacked (arguments : Arguments) (tree : FileTree) (crate : PackedCrate) : Transcript :=
  writtenNote crate.output ++
    match arguments.report? tree crate with
    | none => {}
    | some report => .print report

/-- The note about a toolchain that was not found. That the system does not run the compiler is
reported like a file operation that failed. -/
def toolchainNote (compiler : String) (fault : Toolchain.Fault) : String :=
  match fault with
  | .refused _ => "Error writing output: " ++ fault.message compiler
  | _ => "Error: " ++ fault.message compiler

/-- Packs the library crates of a toolchain. -/
def runPack (arguments : Arguments) (settings : Settings) (tree : FileTree)
    (answer : Toolchain.Answer) (medium : Medium := .sound) : Run :=
  let (outcome, crates) := Pack.run tree settings answer medium
  let shown := Transcript.ofLog arguments.level outcome.log
  match outcome.fault with
  | none =>
    ⟨outcome.tree, .concat (shown :: crates.map (showPacked arguments outcome.tree)), .exit 0⟩
  | some (.flatten e) => failed outcome.tree shown ("Error: " ++ e.message)
  | some (.toolchain compiler fault) =>
    failed outcome.tree shown (toolchainNote compiler fault)
  | some (.file e) => failed outcome.tree shown (fileNote e)
  | some (.broken breakdown) => ⟨outcome.tree, shown, .broken breakdown⟩

/-- Runs a command line that has been read. -/
def runArguments (arguments : Arguments) (tree : FileTree) (answer : Toolchain.Answer)
    (medium : Medium := .sound) : Run :=
  match arguments.settings tree with
  | .error fault => failedSetup tree fault
  | .ok settings =>
    match nonempty? arguments.file with
    | some file => runFile arguments settings tree file medium
    | none => runPack arguments settings tree answer medium

/-- The name of the program. -/
def programName : String := "crate-flatten"

/-- The note about a command line that is refused. -/
def usageNote (fault : ArgumentFault) : String := programName ++ ": error: " ++ fault.message

/-- Runs a command line. A refused one ends with the exit code two. -/
def run (words : List String) (tree : FileTree) (answer : Toolchain.Answer)
    (medium : Medium := .sound) : Run :=
  match Arguments.parse words with
  | .ok arguments => runArguments arguments tree answer medium
  | .error .help => ⟨tree, {}, .exit 0⟩
  | .error fault => ⟨tree, .note (usageNote fault), .exit 2⟩

end FlatCrate.CommandLine
