import FlatCrate.FileTree.RealPath
import FlatCrate.Graph.Basic

/-!
# Showing the files of a graph

A file is shown by its real location as seen from a base directory or, if it lies outside of that,
from a second directory. A file outside of both is shown by the path under which it was recorded.
Every backslash is shown as a slash.
-/

namespace FlatCrate.ModuleGraph

/-- The directories from which files are seen. -/
structure Viewpoint where
  base : Path
  root : Path

/-- The viewpoint of a root directory and, if given, another base. -/
def Viewpoint.of (root : Path) (base : Option Path) : Viewpoint := ⟨base.getD root, root⟩

/-- A path below the real location of a directory, if it lies there. Nothing is taken to
lie below a path whose links lead in a circle. -/
def seenFrom? (tree : FileTree) (path directory : Path) : Option Path :=
  match tree.realLocation path, tree.realLocation directory with
  | some location, some base => Path.below? base.reverse location.reverse
  | _, _ => none

/-- The path by which a file is shown. -/
def shownPath (tree : FileTree) (view : Viewpoint) (path : Path) : Path :=
  match seenFrom? tree path view.base with
  | some seen => seen
  | none => (seenFrom? tree path view.root).getD path

/-- The text by which a file is shown. -/
def label (tree : FileTree) (view : Viewpoint) (path : Path) : String :=
  (shownPath tree view path).toString.map fun c => if c == '\\' then '/' else c

end FlatCrate.ModuleGraph
