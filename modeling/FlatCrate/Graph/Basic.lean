import FlatCrate.Graph.Grouped
import FlatCrate.Path

/-!
# Module graphs

A module graph records which file was spliced into which other one under which module name, in the
order of the declarations, and which declarations stayed unexpanded. A file that is spliced from
several places is recorded once: it is claimed before its declarations are recorded.
-/

namespace FlatCrate

/-- A record of module files. -/
structure ModuleGraph where
  root : Option Path := none
  /-- The files of the graph, each once. -/
  nodes : List Path := []
  /-- The modules spliced into each file, with their files. -/
  edges : Grouped Path (String × Path) := {}
  /-- The modules left unexpanded in each file. -/
  unexpanded : Grouped Path String := {}
  /-- The files whose declarations have been claimed. -/
  claimed : List Path := []
  deriving DecidableEq, Repr

namespace ModuleGraph

/-- The list with an element, if it is not in it yet, at the end. -/
def insertNew (path : Path) (paths : List Path) : List Path :=
  if path ∈ paths then paths else paths ++ [path]

/-- The graph with a file. -/
def addNode (graph : ModuleGraph) (path : Path) : ModuleGraph :=
  { graph with nodes := insertNew path graph.nodes }

/-- The graph with a root file. -/
def setRoot (graph : ModuleGraph) (path : Path) : ModuleGraph :=
  { graph.addNode path with root := some path }

/-- The graph with a module that was spliced from `target` into `source`. -/
def addModule (graph : ModuleGraph) (source : Path) (name : String) (target : Path) :
    ModuleGraph :=
  { (graph.addNode source).addNode target with edges := graph.edges.add source (name, target) }

/-- The graph with a declaration that was left as it is. -/
def addUnexpanded (graph : ModuleGraph) (source : Path) (name : String) : ModuleGraph :=
  { graph.addNode source with unexpanded := graph.unexpanded.add source name }

/-- Whether a file has been claimed. -/
def isClaimed (graph : ModuleGraph) (source : Path) : Bool := source ∈ graph.claimed

/-- The graph in which a file is claimed. -/
def claim (graph : ModuleGraph) (source : Path) : ModuleGraph :=
  if graph.isClaimed source then graph
  else { graph.addNode source with claimed := source :: graph.claimed }

/-- Whether a file is in the graph. -/
def contains (graph : ModuleGraph) (path : Path) : Bool := path ∈ graph.nodes

/-- The modules spliced into a file, with their files. -/
def children (graph : ModuleGraph) (source : Path) : List (String × Path) := graph.edges.get source

/-- The modules left unexpanded in a file. -/
def unexpandedOf (graph : ModuleGraph) (source : Path) : List String := graph.unexpanded.get source

/-- Whether a declaration was left unexpanded. -/
def hasUnexpanded (graph : ModuleGraph) : Bool := !graph.unexpanded.groups.isEmpty

/-- All modules as declaring file, name and file. -/
def modules (graph : ModuleGraph) : List (Path × String × Path) := graph.edges.toList

/-- All unexpanded declarations as declaring file and name. -/
def unexpandedModules (graph : ModuleGraph) : List (Path × String) := graph.unexpanded.toList

/-- How many modules were spliced. -/
def moduleCount (graph : ModuleGraph) : Nat := graph.edges.count

/-- How many files the graph has. -/
def size (graph : ModuleGraph) : Nat := graph.nodes.length

/-- The graph in one line. -/
def summary (graph : ModuleGraph) : String :=
  "ModuleGraph(nodes=" ++ toString graph.size ++ ", modules=" ++ toString graph.moduleCount ++
    ", unexpanded=" ++ toString graph.unexpanded.count ++ ")"

end ModuleGraph

end FlatCrate
