import FlatCrate.Flatten.Error
import FlatCrate.Graph.Basic
import FlatCrate.Log

/-!
# Expansions

An expansion is what flattening does to one file, line by line: lines are copied, declarations are
kept or give way to the expansion of another file, and the first failure ends everything. The flat
text, the log, the recorded graph and the error are all read off the expansion.
-/

namespace FlatCrate

/-- What becomes of a file. -/
inductive Expansion
  /-- The file itself cannot be read. -/
  | unreadable
  /-- The end of the file. -/
  | finished
  /-- A line that is not a declaration. -/
  | copied (line : String) (rest : Expansion)
  /-- A declaration beyond the budget. -/
  | kept (decl : Source.ModuleDecl) (line : String) (rest : Expansion)
  /-- A declaration whose file is spliced in. -/
  | spliced (decl : Source.ModuleDecl) (line : String) (child : Path) (body rest : Expansion)
  /-- A declaration whose file cannot be expanded. -/
  | broken (decl : Source.ModuleDecl) (line : String) (child : Path) (body : Expansion)
  /-- A declaration for which there is no file to splice in. -/
  | refused (decl : Source.ModuleDecl) (line : String) (fault : SpliceFault) (target : Path)
  /-- A declaration with a visibility that is not supported. -/
  | unsupported (error : Source.UnsupportedVisibility)
  deriving Repr

namespace Expansion

/-- The line that closes the block of a spliced file. -/
def closingLine : String := "\x7d"

/-- The lines of the flat text. -/
def lines : Expansion → List String
  | copied line rest => line :: rest.lines
  | kept _ line rest => line :: rest.lines
  | spliced decl _ _ body rest => decl.header :: (body.lines ++ closingLine :: rest.lines)
  | _ => []

/-- The flat text. -/
def text (expansion : Expansion) : String := Text.unlines expansion.lines

/-- The error that ends the expansion of a file. -/
def error? (file : Path) : Expansion → Option FlattenError
  | unreadable => some (.splice ⟨.unreadable, file.toString, []⟩)
  | finished => none
  | copied _ rest => rest.error? file
  | kept _ _ rest => rest.error? file
  | spliced _ _ _ _ rest => rest.error? file
  | broken _ _ child body => (body.error? child).map (·.push file)
  | refused _ _ fault target => some (.splice ⟨fault, target.toString, [file.toString]⟩)
  | unsupported e => some (.visibility e)

/-- Whether nothing ended the expansion before the end of the file. -/
def isComplete : Expansion → Bool
  | finished => true
  | copied _ rest => rest.isComplete
  | kept _ _ rest => rest.isComplete
  | spliced _ _ _ _ rest => rest.isComplete
  | _ => false

/-- The record that a declaration was found, under a number of enclosing files. -/
def foundRecords (depth : Nat) (decl : Source.ModuleDecl) (line : String) : List LogRecord :=
  let found := String.ofList (List.replicate depth '>') ++ " mod found: " ++ line
  ⟨.debug, found⟩ ::
    match decl.override with
    | none => []
    | some path => [⟨.debug, "explicit path found: " ++ path⟩]

/-- The record that a declaration was kept. -/
def keptRecord (file : Path) (line : String) : LogRecord :=
  ⟨.warning, "Expansion budget exhausted in " ++ file.toString ++ ", keeping: " ++ line⟩

/-- What is logged while a file is expanded under a number of enclosing files. -/
def log (file : Path) (depth : Nat) : Expansion → List LogRecord
  | copied _ rest => rest.log file depth
  | kept _ line rest => keptRecord file line :: rest.log file depth
  | spliced decl line child body rest =>
    foundRecords depth decl line ++ (body.log child (depth + 1) ++ rest.log file depth)
  | broken decl line child body => foundRecords depth decl line ++ body.log child (depth + 1)
  | refused decl line _ _ => foundRecords depth decl line
  | _ => []

/-- Whether the file itself could be read. -/
def isReadable : Expansion → Bool
  | unreadable => false
  | _ => true

/-- Records a file by `recordLines`, unless it cannot be read or has been claimed before. -/
def claimed (expansion : Expansion) (file : Path) (recordLines : ModuleGraph → ModuleGraph)
    (graph : ModuleGraph) : ModuleGraph :=
  if expansion.isReadable && !graph.isClaimed file then recordLines (graph.claim file) else graph

/-- Records the declarations of a file that has been claimed. -/
def recordLines (file : Path) : Expansion → ModuleGraph → ModuleGraph
  | copied _ rest, graph => rest.recordLines file graph
  | kept decl _ rest, graph => rest.recordLines file (graph.addUnexpanded file decl.name)
  | spliced decl _ child body rest, graph =>
    rest.recordLines file
      (body.claimed child (body.recordLines child) (graph.addModule file decl.name child))
  | broken decl _ child body, graph =>
    body.claimed child (body.recordLines child) (graph.addModule file decl.name child)
  | _, graph => graph

/-- Records a file and everything that is spliced into it. -/
def record (expansion : Expansion) (file : Path) (graph : ModuleGraph) : ModuleGraph :=
  expansion.claimed file (expansion.recordLines file) graph

/-- A complete expansion was ended by no error. -/
theorem error?_of_isComplete {expansion : Expansion} (h : expansion.isComplete = true)
    (file : Path) : expansion.error? file = none := by
  induction expansion with
  | finished => rfl
  | copied _ rest ih => exact ih h
  | kept _ _ rest ih => exact ih h
  | spliced _ _ _ _ rest _ ih => exact ih h
  | _ => exact absurd h Bool.false_ne_true

end Expansion

end FlatCrate
