import FlatCrate.Source.Declaration
import FlatCrate.Path

/-!
# Why flattening stops

An error of splicing names the file that could not be spliced and the chain of files in which it was
met, from the file with the declaration out to the root.

A path with a zero character in it is never that of a file, so flattening ends with an error that
names it. To ask for it breaks off, though, and so there is no report of that error.
-/

namespace FlatCrate

/-- What went wrong with the file of a module. -/
inductive SpliceFault
  /-- Some fault with a module file. -/
  | plain
  /-- The file cannot be read. -/
  | unreadable
  /-- There is no file for the declaration. -/
  | unresolved
  /-- The file is being spliced already. -/
  | cycle
  deriving DecidableEq, Repr

/-- How the message of a fault begins. -/
def SpliceFault.text : SpliceFault → String
  | .plain => "module file"
  | .unreadable => "cannot read module file"
  | .unresolved => "cannot resolve module"
  | .cycle => "module cycle through"

/-- A fault with the text of the path it is about and the files in which it was met. -/
structure SpliceError where
  fault : SpliceFault
  file : String
  stack : List String := []
  deriving DecidableEq, Repr

namespace SpliceError

/-- The error seen from one more enclosing file. -/
def push (e : SpliceError) (file : Path) : SpliceError :=
  { e with stack := e.stack ++ [file.toString] }

/-- The message of a splicing error. -/
def message (e : SpliceError) : String :=
  let head := e.fault.text ++ ": " ++ e.file
  if e.stack.isEmpty then head
  else head ++ " (included from " ++ String.intercalate " <- " e.stack ++ ")"

end SpliceError

/-- What may end a run of the flattener. -/
inductive FlattenError
  | splice (e : SpliceError)
  | visibility (e : Source.UnsupportedVisibility)
  deriving DecidableEq, Repr

namespace FlattenError

/-- The error seen from one more enclosing file; only splicing errors keep the files. -/
def push (e : FlattenError) (file : Path) : FlattenError :=
  match e with
  | .splice e => .splice (e.push file)
  | .visibility e => .visibility e

/-- The message of an error. -/
def message : FlattenError → String
  | .splice e => e.message
  | .visibility e => e.message

/-- Whether the error is about a path with a zero character in it, for which nobody can ask. -/
def namesZero : FlattenError → Bool
  | .splice e => e.file.toList.contains '\x00'
  | .visibility _ => false

end FlattenError

end FlatCrate
