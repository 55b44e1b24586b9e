import FlatCrate.Graph.Display

/-!
# Drawing a graph as a tree

The drawing begins with the root file. Below a file stand the modules spliced into it and then,
if wanted, its unexpanded ones, each on a line of its own. A file that is on its own branch already
is marked and not drawn again.

The files of a branch are pairwise different files of the graph, so no branch is longer than the
graph has files; that bounds the recursion.
-/

namespace FlatCrate.ModuleGraph

/-- The four column cells of a drawing. -/
structure Style where
  branch : String
  last : String
  vertical : String
  space : String
  deriving DecidableEq, Repr

/-- Cells made of line drawing characters. -/
def Style.lines : Style := ⟨"├── ", "└── ", "│   ", "    "⟩

/-- Cells made of ASCII characters. -/
def Style.ascii : Style := ⟨"|-- ", "\\-- ", "|   ", "    "⟩

/-- What stands below a file. -/
inductive Item
  | module (name : String) (file : Path)
  | unexpanded (name : String)
  deriving DecidableEq, Repr

/-- The items below a file, in order. -/
def items (graph : ModuleGraph) (withUnexpanded : Bool) (source : Path) : List Item :=
  (graph.children source).map (fun (name, file) => .module name file) ++
    if withUnexpanded then (graph.unexpandedOf source).map .unexpanded else []

/-- The text of an item; `branch` holds the files above it. -/
def Item.text (shown : Path → String) (branch : List Path) : Item → String
  | .module name file =>
    "mod " ++ name ++ " (" ++ shown file ++ ")" ++ if file ∈ branch then " [*]" else ""
  | .unexpanded name => "mod " ++ name ++ " [NOT EXPANDED]"

/-- The lines of items that stand below one file; `below` draws what stands below an item. -/
def drawItems (style : Style) (indent : String) (text : Item → String)
    (below : String → Item → List String) : List Item → List String
  | [] => []
  | item :: rest =>
    let isLast := rest.isEmpty
    (indent ++ (if isLast then style.last else style.branch) ++ text item) ::
      (below (indent ++ if isLast then style.space else style.vertical) item ++
        drawItems style indent text below rest)

/-- The lines below a file, at most `depth` levels of them. -/
def drawBelow (graph : ModuleGraph) (style : Style) (withUnexpanded : Bool)
    (shown : Path → String) : Nat → List Path → String → Path → List String
  | 0, _, _, _ => []
  | depth + 1, branch, indent, source =>
    drawItems style indent (Item.text shown branch)
      (fun indent item =>
        match item with
        | .module _ file =>
          if file ∈ branch then []
          else drawBelow graph style withUnexpanded shown depth (file :: branch) indent file
        | .unexpanded _ => [])
      (graph.items withUnexpanded source)

/-- The drawing of a graph, empty if it has no root. -/
def draw (graph : ModuleGraph) (tree : FileTree) (view : Viewpoint) (style : Style)
    (withUnexpanded : Bool) : String :=
  match graph.root with
  | none => ""
  | some root =>
    let shown := label tree view
    String.intercalate "\n"
      (shown root :: drawBelow graph style withUnexpanded shown (graph.size + 1) [root] "" root)

end FlatCrate.ModuleGraph
