import FlatCrate.CommandLine.Run

/-!
# The program

The files that a command line may reach are loaded into a file tree: those below the working
directory, those that its words name, and those of the toolchain and the output directory of its
settings. The run is then computed, what it has shown is printed, and what it has changed in the
tree is written back. No compiler is asked for its toolchain here.
-/

namespace FlatCrate

/-- The location of an absolute path. -/
def Location.ofText (text : String) : Location := (Path.ofString text).names.reverse

/-- A location as an absolute path. -/
def Location.text (location : Location) : String := "/" ++ String.intercalate "/" location.reverse

/-- The tree with a location and those above it as directories, where it has nothing yet. -/
def FileTree.withDirectories (tree : FileTree) : Location → FileTree
  | [] => tree
  | name :: directory =>
    let tree := tree.withDirectories directory
    if (tree.find? (name :: directory)).isSome then tree
    else tree.put (name :: directory) .directory

/-- The tree with what stands at a place and below it, as deep as the fuel allows. -/
def FileTree.load : Nat → IO.FS.DirEntry → FileTree → IO FileTree
  | 0, _, tree => return tree
  | fuel + 1, place, tree => do
    let location := Location.ofText place.path.toString
    match (← place.path.symlinkMetadata).type with
    | .dir => do
      let inner ← place.path.readDir
      inner.foldlM (fun tree place => FileTree.load fuel place tree) (tree.put location .directory)
    | .file => return tree.put location (.file (← IO.FS.readBinFile place.path))
    | .symlink =>
      let target ← IO.FS.realPath place.path
      return tree.put location (.link target.toString)
    | .other => return tree

/-- The tree with what a path leads to, if there is anything and it can be read. -/
def FileTree.loadPath (text : String) (tree : FileTree) : IO FileTree := do
  if text.isEmpty then return tree
  try
    let real ← IO.FS.realPath text
    let location := Location.ofText real.toString
    FileTree.load 256 ⟨"/", real.toString⟩ (tree.withDirectories location.tail)
  catch _ => return tree

/-- The texts in a word of a command line that may be paths. -/
def pathsOfWord (word : String) : List String :=
  let behind := String.ofList ((word.toList.dropWhile (· != '=')).drop 1)
  if word.startsWith "-" then [behind] else [word]

/-- The paths that the settings of a command line name. -/
def pathsOfSettings (words : List String) (tree : FileTree) : List String :=
  match CommandLine.Arguments.parse words with
  | .error _ => []
  | .ok arguments =>
    match arguments.settings tree with
    | .error _ => []
    | .ok settings =>
      let library := settings.sysroot.map fun sysroot => sysroot.join Toolchain.libraryPath
      (library.map Path.toString).toList ++ [settings.outputDir.toString]

/-- Writes an entry of a tree, unless the other tree has the same. -/
def writeEntry (before : FileTree) : Location × Entry → IO Unit
  | (location, entry) => do
    if before.find? location == some entry then return ()
    match entry with
    | .directory => IO.FS.createDirAll location.text
    | .file content => IO.FS.writeBinFile location.text content
    | .link _ => return ()

/-- Writes the difference between two trees: directories first, then files. -/
def writeBack (before now : FileTree) : IO Unit := do
  let (files, directories) := now.entries.partition fun e => e.2.isFile
  directories.forM (writeEntry before)
  files.forM (writeEntry before)
  before.entries.forM fun (location, entry) => do
    if entry != .directory && (now.find? location).isNone then IO.FS.removeFile location.text

/-- Runs a command line. -/
def runProgram (words : List String) : IO UInt32 := do
  let workDir := (← IO.currentDir).toString
  let start ← FileTree.loadPath workDir ⟨Location.ofText workDir, []⟩
  let named ← (words.flatMap pathsOfWord).foldlM (fun tree text => tree.loadPath text) start
  let tree ← (pathsOfSettings words named).foldlM (fun tree text => tree.loadPath text) named
  let run := CommandLine.run words tree .missing
  writeBack tree run.tree
  run.transcript.output.forM IO.print
  run.transcript.notes.forM IO.eprint
  match run.ending with
  | .exit code => return code.toUInt32
  | .broken _ => return 1

end FlatCrate

/-- The program. -/
def main (words : List String) : IO UInt32 := FlatCrate.runProgram words
