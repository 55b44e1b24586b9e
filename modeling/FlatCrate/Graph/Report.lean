import FlatCrate.Graph.Display
import FlatCrate.Json.Render

/-!
# Reporting a graph as JSON

The report holds the root file, the sorted files, and the edges: first the spliced modules, then,
if wanted, the unexpanded ones.
-/

namespace FlatCrate.ModuleGraph

/-- A spliced module as an edge. -/
def edgeDocument (shown : Path → String) (edge : Path × String × Path) : Json :=
  .object [("source", .string (shown edge.1)), ("module", .string edge.2.1),
    ("target", .string (shown edge.2.2))]

/-- An unexpanded module as an edge. -/
def unexpandedDocument (shown : Path → String) (edge : Path × String) : Json :=
  .object [("source", .string (shown edge.1)), ("module", .string edge.2),
    ("unexpanded", .bool true)]

/-- The report of a graph as a document. -/
def document (graph : ModuleGraph) (shown : Path → String) (withUnexpanded : Bool) : Json :=
  .object [
    ("root", .stringOrNull (graph.root.map shown)),
    ("nodes", .strings ((graph.nodes.map shown).mergeSort fun a b => a ≤ b)),
    ("edges", .array (graph.modules.map (edgeDocument shown) ++
      if withUnexpanded then graph.unexpandedModules.map (unexpandedDocument shown) else []))]

/-- The report of a graph. -/
def report (graph : ModuleGraph) (tree : FileTree) (view : Viewpoint) (indent : Nat)
    (withUnexpanded : Bool) : String :=
  (graph.document (label tree view) withUnexpanded).render indent

end FlatCrate.ModuleGraph
