import FlatCrate.FileTree.Medium
import FlatCrate.Manifest
import FlatCrate.Settings.Basic
import FlatCrate.Source.Stub
import FlatCrate.Toolchain

/-!
# Packing crates

All crates are flattened before anything is written. The outputs are then written under staging
names, and only when all of them are there, they are moved into place one by one. If a file cannot
be staged, those staged before it are removed again. If moving fails, what has not been moved stays
staged.

A file counts as staged when all of it has been written. So when writing one breaks off in the
middle, what there is of it stays.
-/

namespace FlatCrate

/-- A flat crate, ready to be written. -/
structure PackedCrate where
  name : String
  source : Path
  output : Path
  text : String
  graph : ModuleGraph
  deriving DecidableEq, Repr

/-- Why packing ended. -/
inductive PackFault
  | flatten (e : FlattenError)
  | toolchain (compiler : String) (fault : Toolchain.Fault)
  | file (e : FileError)
  | broken (breakdown : Breakdown)
  deriving DecidableEq, Repr

/-- A result together with what was logged on the way to it. -/
structure Logged (α : Type) where
  log : List LogRecord
  result : α

namespace PackedCrate

/-- The record that says what came of a crate. -/
def flattenedRecord (crate : PackedCrate) : LogRecord :=
  ⟨.info, "Flattened " ++ crate.name ++ ": " ++ toString crate.graph.moduleCount ++
    " modules, " ++ toString crate.text.length ++ " bytes"⟩

/-- The crate of a root file. It is opened by its equation only: unfolding it would run the
flattener. -/
@[irreducible] def build (tree : FileTree) (source : Path) (name : String) (budget : Budget)
    (stubbing : Bool) (outputDir : Path) : Logged (Except FlattenError PackedCrate) :=
  let expansion := Expansion.ofRoot tree source budget
  let log := expansion.log source 0
  match expansion.error? source with
  | some e => ⟨log, .error e⟩
  | none =>
    let crate : PackedCrate :=
      { name, source
        output := outputDir.child (Toolchain.outputName name)
        text := if stubbing then Source.stubBodies expansion.text else expansion.text
        graph := expansion.record source (({} : ModuleGraph).setRoot source) }
    ⟨log ++ [crate.flattenedRecord], .ok crate⟩

/-- The record that says that a crate is about to be flattened. -/
def startRecord (name : String) (source : Path) : LogRecord :=
  ⟨.info, "Flattening " ++ name ++ " from " ++ source.toString⟩

/-- The crates of some components, up to the first one that fails. -/
def buildAll (tree : FileTree) (settings : Settings) (sysroot : Path) :
    List String → Logged (Except FlattenError (List PackedCrate))
  | [] => ⟨[], .ok []⟩
  | name :: rest =>
    let source := Toolchain.crateRoot sysroot name
    let built :=
      build tree source name (.limited settings.budget) settings.stubbing settings.outputDir
    match built.result with
    | .error e => ⟨startRecord name source :: built.log, .error e⟩
    | .ok crate =>
      let others := buildAll tree settings sysroot rest
      ⟨startRecord name source :: built.log ++ others.log, others.result.map (crate :: ·)⟩

end PackedCrate

namespace Pack

/-- A file to be written: its place and its text. -/
abbrev Output := Path × String

/-- The ending of staging names. -/
def stagingSuffix : String := ".tmp"

/-- The staging name of a file. A path without a name has none, and neither has one that no file
operation takes. -/
def stagingPath? (target : Path) : Option Path :=
  if target.holdsZero then none else target.withName? (target.name ++ stagingSuffix)

/-- A tree with what was logged while it was changed and the fault that ended the change. -/
structure Outcome where
  tree : FileTree
  log : List LogRecord := []
  fault : Option PackFault := none

/-- The tree without some staged files; what cannot be removed stays. -/
def unstage (tree : FileTree) (staged : List (Path × Path)) : FileTree :=
  staged.foldl
    (fun tree (temporary, _) =>
      match tree.remove temporary with
      | .ok cleared => cleared
      | .error _ => tree)
    tree

/-- Writes files under their staging names, behind those staged already; gives the staged files with
their targets. -/
def stage (tree : FileTree) (staged : List (Path × Path)) (outputs : List Output)
    (medium : Medium := .sound) : FileTree × Except PackFault (List (Path × Path)) :=
  match outputs with
  | [] => (tree, .ok staged)
  | (target, text) :: rest =>
    match stagingPath? target with
    | none => (tree, .error (.broken .impossibleValue))
    | some temporary =>
      match tree.writeOn medium temporary text with
      | .done written => stage written (staged ++ [(temporary, target)]) rest medium
      -- the file that is cut off is not among the staged ones, so nobody removes it
      | .cut written e => (unstage written staged, .error (.file e))
      | .refused fault => (unstage tree staged, .error (.file ⟨fault, temporary, none⟩))

/-- The record that says that a file is in place. -/
def wroteRecord (target : Path) : LogRecord := ⟨.info, "Wrote " ++ target.toString⟩

/-- Moves staged files into place, up to the first one that cannot be moved. -/
def moveAll (tree : FileTree) : List (Path × Path) → Outcome
  | [] => { tree }
  | (temporary, target) :: rest =>
    match tree.move temporary target with
    | .error fault => { tree, fault := some (.file ⟨fault, temporary, some target⟩) }
    | .ok moved =>
      let others := moveAll moved rest
      { others with log := wroteRecord target :: others.log }

/-- Writes files by staging and moving them. -/
def writeStaged (tree : FileTree) (outputs : List Output) (medium : Medium := .sound) : Outcome :=
  match stage tree [] outputs medium with
  | (tree, .error fault) => { tree, fault := some fault }
  | (tree, .ok staged) => moveAll tree staged

/-- The manifest of packed crates as a file to be written; any manifest that counts as true has to
be the text of a path. -/
def manifestOutput (settings : Settings) (crates : List PackedCrate) :
    Except PackFault (List Output) :=
  if !settings.manifest.isTruthy then .ok []
  else match settings.manifest with
    | .string name =>
      let outputs := Manifest.collect (crates.map fun crate => (crate.name, crate.output.name))
      .ok [(settings.outputDir.child name, Manifest.render 2 outputs ++ "\n")]
    | _ => .error (.broken .wrongKind)

/-- Writes packed crates and their manifest. -/
def writeAll (tree : FileTree) (settings : Settings) (crates : List PackedCrate)
    (medium : Medium := .sound) : Outcome :=
  match manifestOutput settings crates with
  | .error fault => { tree, fault := some fault }
  | .ok manifest =>
    if settings.outputDir.holdsZero then { tree, fault := some (.broken .impossibleValue) }
    else
      match tree.makeDirectories settings.outputDir with
      | ⟨tree, some e⟩ => { tree, fault := some (.file e) }
      | ⟨tree, none⟩ =>
        writeStaged tree (crates.map (fun crate => (crate.output, crate.text)) ++ manifest) medium

/-- The fault of a toolchain with a given compiler, which the message has to show. -/
def toolchainFault (compiler : Value) (fault : Toolchain.Fault) : PackFault :=
  match fault, compiler.text? with
  | .broken breakdown, _ => .broken breakdown
  | _, some name => .toolchain name fault
  | _, none => .broken .impossibleValue

/-- The fault of a crate that cannot be flattened. -/
def flattenFault (e : FlattenError) : PackFault :=
  if e.namesZero then .broken .impossibleValue else .flatten e

/-- Where the toolchain of some settings is. The answer is what came of running their compiler, so
that it is a possible one (`Toolchain.Answer.IsPossible`) is up to the caller. -/
def sysroot (settings : Settings) (answer : Toolchain.Answer) : Logged (Except PackFault Path) :=
  match settings.sysroot with
  | some path => ⟨[], .ok path⟩
  | none =>
    match Toolchain.place answer with
    | .error fault => ⟨[], .error (toolchainFault settings.compiler fault)⟩
    | .ok place => ⟨[Toolchain.placeRecord place], .ok (.ofString place)⟩

/-- Flattens the components of some settings and writes them. -/
def run (tree : FileTree) (settings : Settings) (answer : Toolchain.Answer)
    (medium : Medium := .sound) : Outcome × List PackedCrate :=
  let found := sysroot settings answer
  match found.result with
  | .error fault => ({ tree, log := found.log, fault := some fault }, [])
  | .ok path =>
    let built := PackedCrate.buildAll tree settings path settings.components
    match built.result with
    | .error e => ({ tree, log := found.log ++ built.log, fault := some (flattenFault e) }, [])
    | .ok crates =>
      let outcome := writeAll tree settings crates medium
      ({ outcome with log := found.log ++ built.log ++ outcome.log }, crates)

end Pack

end FlatCrate
