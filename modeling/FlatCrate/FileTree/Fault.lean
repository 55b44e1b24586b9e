import FlatCrate.FileTree.Basic
import FlatCrate.Text.Quoted

/-!
# Faults of file operations

Every file operation that cannot be done has a cause with a number and a text. An error adds the
path that was asked for, and the second one if a file was to be moved. Only an error in the middle of
writing a file comes without a path.

Permissions are left out: every file may be read and every directory may be changed.
-/

namespace FlatCrate

/-- Why a file operation cannot be done. -/
inductive Fault
  | noEntry
  | busy
  | exists
  | notDirectory
  | isDirectory
  | nameTooLong
  | tooManyLinks
  /-- Any other cause that the system gives, such as a medium without room. -/
  | system (number : Nat) (text : String)
  deriving DecidableEq, Repr

/-- The number of a fault. -/
def Fault.number : Fault → Nat
  | .noEntry => 2
  | .busy => 16
  | .exists => 17
  | .notDirectory => 20
  | .isDirectory => 21
  | .nameTooLong => 36
  | .tooManyLinks => 40
  | .system number _ => number

/-- The text of a fault. -/
def Fault.text : Fault → String
  | .noEntry => "No such file or directory"
  | .busy => "Device or resource busy"
  | .exists => "File exists"
  | .notDirectory => "Not a directory"
  | .isDirectory => "Is a directory"
  | .nameTooLong => "File name too long"
  | .tooManyLinks => "Too many levels of symbolic links"
  | .system _ text => text

/-- The faults that mean that nothing is there. -/
def Fault.meansAbsent : Fault → Bool
  | .noEntry | .notDirectory | .tooManyLinks => true
  | _ => false

/-- A fault with the paths of the operation that failed. -/
structure FileError where
  fault : Fault
  /-- The path that was asked for, unless the file had been opened already. -/
  path : Option Path
  target : Option Path := none
  deriving DecidableEq, Repr

/-- The message of a failed file operation. -/
def FileError.message (e : FileError) : String :=
  let paths := match e.path, e.target with
    | none, _ => ""
    | some path, none => ": " ++ Text.quoted path.toString
    | some path, some target =>
      ": " ++ Text.quoted path.toString ++ " -> " ++ Text.quoted target.toString
  "[Errno " ++ toString e.fault.number ++ "] " ++ e.fault.text ++ paths

end FlatCrate
