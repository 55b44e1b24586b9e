/-!
# Options of the command line

Every option has one or two spellings and takes no argument, one, or several. A long option may be
shortened as long as it stays unambiguous.
-/

namespace FlatCrate.CommandLine

/-- The options. -/
inductive Opt
  | help
  | sysroot
  | compiler
  | outputDir
  | components
  | noManifest
  | config
  | file
  | output
  | budget
  | stubbing
  | report
  | drawing
  | verbose
  | quiet
  deriving DecidableEq, Repr

/-- How many arguments an option takes. -/
inductive Arity
  | none
  | one
  | several
  deriving DecidableEq, Repr

namespace Opt

/-- The spellings of all options. -/
def spellings : List (String × Opt) := [
  ("-h", help), ("--help", help),
  ("--sysroot", sysroot),
  ("--rustc", compiler),
  ("--output-dir", outputDir),
  ("--components", components),
  ("--no-manifest", noManifest),
  ("--config", config),
  ("--file", file),
  ("-o", output), ("--output", output),
  ("--budget", budget),
  ("--strip-bodies", stubbing),
  ("--report", report),
  ("--ascii-style", drawing),
  ("-v", verbose), ("--verbose", verbose),
  ("-q", quiet), ("--quiet", quiet)]

/-- The arity of an option. -/
def arity : Opt → Arity
  | help | noManifest | stubbing | verbose | quiet => .none
  | components => .several
  | _ => .one

/-- An option as errors name it: all its spellings. -/
def name (opt : Opt) : String :=
  String.intercalate "/" ((spellings.filter fun spelling => spelling.2 == opt).map (·.1))

/-- The values that an option may have, if they are limited. -/
def choices : Opt → List String
  | report => ["ascii", "json"]
  | drawing => ["tree", "ascii"]
  | _ => []

end Opt

end FlatCrate.CommandLine
