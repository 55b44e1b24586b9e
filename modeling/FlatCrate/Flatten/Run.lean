import FlatCrate.FileTree.RealPath
import FlatCrate.Flatten.Expansion
import FlatCrate.Layout
import FlatCrate.Source.Scan

/-!
# Flattening a crate

A crate is flattened from its root file. The declarations of the root are expanded as long as the
budget lasts; every other file has a large budget of its own. Which files are being spliced is
known by their real locations, so a file that would be spliced into itself is found out under any
of its names.

Files that are spliced into each other are pairwise different, so a tree of `n` regular files needs
no more than `n` of them inside each other. One more than that bounds the recursion. How deep a
program may nest its calls is left out.
-/

namespace FlatCrate

/-- How many declarations of a file may be expanded. -/
inductive Budget
  | limited (count : Nat)
  | unlimited
  deriving DecidableEq, Repr

namespace Budget

/-- The budget that a number stands for: a negative one never ends. -/
def ofInt : Int → Budget
  | .ofNat count => .limited count
  | .negSucc _ => .unlimited

/-- The budget of a crate root when none is given. -/
def standard : Nat := 4000

/-- The budget of every other file. -/
def ofChildren : Budget := .limited 10000

/-- The budget after one more declaration, unless it has ended. -/
def spend? : Budget → Option Budget
  | .limited 0 => none
  | .limited (count + 1) => some (.limited count)
  | .unlimited => some .unlimited

end Budget

namespace Expansion

/-- The text of the file to which a path leads. -/
def sourceOf? (tree : FileTree) (file : Path) : Option String :=
  match tree.readBytes file with
  | .ok bytes => Text.ofBytes? bytes
  | .error _ => none

/-- The file that takes the place of a declaration, or why there is none. -/
def target (tree : FileTree) (active : List Location) (file : Path) (decl : Source.ModuleDecl) :
    Except (SpliceFault × Path) Path :=
  match Layout.moduleFile? tree file decl with
  | none => .error (.unresolved, Layout.folderFile file decl.name)
  | some child =>
    match tree.realLocation child with
    | none => .error (.unreadable, child)
    | some location => if location ∈ active then .error (.cycle, child) else .ok child

/-- The expansion of the lines of a file; `enter` expands the file of a module. -/
def ofLines (tree : FileTree) (active : List Location) (file : Path) (enter : Path → Expansion) :
    Source.ScanState → Budget → List String → Expansion
  | _, _, [] => finished
  | state, budget, line :: rest =>
    match Source.scanLine state line.toList with
    | .error e => unsupported e
    | .ok (state, none) => copied line (ofLines tree active file enter state budget rest)
    | .ok (state, some decl) =>
      match budget.spend? with
      | none => kept decl line (ofLines tree active file enter state budget rest)
      | some budget =>
        match target tree active file decl with
        | .error (fault, path) => refused decl line fault path
        | .ok child =>
          let body := enter child
          if body.isComplete then
            spliced decl line child body (ofLines tree active file enter state budget rest)
          else broken decl line child body

/-- The expansion of a file inside the files that are being spliced, at most `depth` deep. -/
def ofFile (tree : FileTree) : Nat → List Location → Path → Budget → Expansion
  | 0, _, _, _ => unreadable
  | depth + 1, active, file, budget =>
    match sourceOf? tree file, tree.realLocation file with
    | some source, some location =>
      ofLines tree (location :: active) file
        (fun child => ofFile tree depth (location :: active) child .ofChildren)
        .idle budget (Text.sourceLines source)
    | _, _ => unreadable

/-- The expansion of a crate root. -/
def ofRoot (tree : FileTree) (root : Path) (budget : Budget) : Expansion :=
  ofFile tree (tree.fileCount + 1) [] root budget

end Expansion

/-- The flat text of a crate. -/
def flatten (tree : FileTree) (root : Path) (budget : Budget) : Except FlattenError String :=
  let expansion := Expansion.ofRoot tree root budget
  match expansion.error? root with
  | none => .ok expansion.text
  | some e => .error e

end FlatCrate
