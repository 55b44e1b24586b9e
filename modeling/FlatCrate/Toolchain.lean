import FlatCrate.Log
import FlatCrate.Path
import FlatCrate.Text.Blank
import FlatCrate.Value.Basic
import FlatCrate.Value.Fault

/-!
# The toolchain and its library crates

Where the toolchain is can be asked of its compiler, which prints the directory. The library crates
have their sources at a fixed place below that directory.

Running the compiler is up to the system, so what came of it is given. It may be of no use: the
system may refuse to run the compiler, or the run breaks off, since the compiler is not the name of a
program or what it prints is no text. Which of these can come of a compiler depends on what kind of
value it is.
-/

namespace FlatCrate

/-- How running a value as a program breaks off before the system is asked, if it does: only a text
or bytes name a program, and there must be no zero among them. -/
def Value.runBreakdown? : Value → Option Breakdown
  | .string name => if name.toList.contains '\x00' then some .impossibleValue else none
  | .bytes name => if name.contains 0 then some .impossibleValue else none
  | _ => some .wrongKind

namespace Toolchain

/-- What came of running the compiler. -/
inductive Answer
  /-- There is no such compiler. -/
  | missing
  /-- The system does not run the compiler and gives the reason. -/
  | refused (reason : String)
  /-- The compiler ended with a code; zero means that all went well. -/
  | ended (code : Int) (output complaint : String)
  /-- The compiler cannot be run, or what it printed cannot be read. -/
  | broken (breakdown : Breakdown)
  deriving DecidableEq, Repr

/-- Whether an answer can come of running a value as the compiler. If the system runs it, then only
an output that is no text breaks that off. -/
def Answer.IsPossible (compiler : Value) (answer : Answer) : Prop :=
  match compiler.runBreakdown? with
  | some breakdown => answer = .broken breakdown
  | none => ∀ breakdown, answer = .broken breakdown → breakdown = .impossibleValue

/-- Why the toolchain was not found. -/
inductive Fault
  | missing
  | refused (reason : String)
  | failed (complaint : String)
  | silent
  | broken (breakdown : Breakdown)
  deriving DecidableEq, Repr

/-- The message of a fault with a given compiler; a breakdown has none. -/
def Fault.message (compiler : String) : Fault → String
  | .missing => "'" ++ compiler ++ "' not found; pass --sysroot explicitly"
  | .refused reason => reason
  | .failed complaint => "'" ++ compiler ++ " --print sysroot' failed: " ++ complaint
  | .silent => "'" ++ compiler ++ " --print sysroot' printed no path"
  | .broken _ => ""

/-- A text without the blanks at its ends. -/
def trimmed (text : String) : String := String.ofList (Text.trim text.toList)

/-- The place of the toolchain that the compiler printed. -/
def place (answer : Answer) : Except Fault String :=
  match answer with
  | .missing => .error .missing
  | .refused reason => .error (.refused reason)
  | .broken breakdown => .error (.broken breakdown)
  | .ended code output complaint =>
    if code != 0 then .error (.failed (trimmed complaint))
    else if trimmed output = "" then .error .silent
    else .ok (trimmed output)

/-- The record that says which place is used. -/
def placeRecord (place : String) : LogRecord := ⟨.info, "Using sysroot " ++ place⟩

/-- Where the library crates are below a toolchain. -/
def libraryPath : Path := ⟨.relative, ["lib", "rustlib", "src", "rust", "library"]⟩

/-- The root file of a library crate. -/
def crateRoot (sysroot : Path) (component : String) : Path :=
  (((sysroot.join libraryPath).child component).child "src").child "lib.rs"

/-- The name of the file that holds a flat crate. -/
def outputName (component : String) : String := "fake_" ++ component ++ ".rs"

/-- Only a run of the compiler that breaks off leaves the place of the toolchain broken off. -/
theorem place_eq_broken_iff {answer : Answer} {breakdown : Breakdown} :
    place answer = .error (.broken breakdown) ↔ answer = .broken breakdown := by
  cases answer with
  | missing | refused | broken => simp [place]
  | ended code output complaint =>
    simp only [place]
    split
    · simp
    · split <;> simp

end Toolchain

end FlatCrate
