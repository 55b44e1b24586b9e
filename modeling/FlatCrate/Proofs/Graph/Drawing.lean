import FlatCrate.Proofs.Graph.Changes
import FlatCrate.Proofs.Graph.Unfolding
import FlatCrate.Proofs.Text.Lines

/-!
# Drawing graphs with cycles

The unfolding of a graph is cut off at every module whose file is on its own branch already. Each
file of the graph comes only once on a branch, so what is left is finite. The drawing has a line for
the root file and one for each item that is left, in preorder: a cell for each item above it, which
tells whether others follow that one below its file, then the item's own cell, and its text.
-/

namespace FlatCrate

/-! ## The rows of an unfolding -/

namespace ModuleGraph

/-- An item, and whether others come behind it below the same file. -/
structure Place where
  item : Item
  hasLater : Bool
  deriving DecidableEq, Repr

/-- An item at its place and the items above it, the outermost one first. -/
structure Row where
  above : List Place
  place : Place
  deriving DecidableEq, Repr

/-- The file of a module. -/
def Item.file? : Item → Option Path
  | .module _ file => some file
  | .unexpanded _ => none

/-- The files above an item, from the root on. -/
def branchOf (root : Path) (above : List Place) : List Path :=
  root :: above.filterMap (·.item.file?)

/-- The cells of the items above: a bar for each one that others come behind. -/
def Style.cells (style : Style) (above : List Place) : List String :=
  above.map fun place => if place.hasLater then style.vertical else style.space

/-- What stands in front of an item and its connector. -/
def Style.indent (style : Style) (above : List Place) : String := String.join (style.cells above)

/-- The line of a row. An item has the last connector if no others come behind it, and it is marked
if its file is above it. -/
def Row.line (style : Style) (shown : Path → String) (root : Path) (row : Row) : String :=
  style.indent row.above ++ (if row.place.hasLater then style.branch else style.last) ++
    row.place.item.text shown (branchOf root row.above)

end ModuleGraph

/-- The items of a tree in preorder, below some others. -/
def ModuleTree.rows (above : List ModuleGraph.Place) : ModuleTree → List ModuleGraph.Row
  | done => []
  | module name file below rest =>
    let place : ModuleGraph.Place := ⟨.module name file, !rest.isDone⟩
    ⟨above, place⟩ :: (below.rows (above ++ [place]) ++ rest.rows above)
  | unexpanded name rest => ⟨above, ⟨.unexpanded name, !rest.isDone⟩⟩ :: rest.rows above

namespace ModuleGraph

variable {graph : ModuleGraph} {withUnexpanded : Bool} {root file : Path} {branch : List Path}
  {items : List Item} {unfolded : ModuleTree} {style : Style} {shown : Path → String}
  {above : List Place} {depth : Nat}

/-- Items are unfolded to a tree by what the graph has below their files, but for modules whose file
is on the branch: nothing stands below these. -/
inductive UnfoldsAlong (graph : ModuleGraph) (withUnexpanded : Bool) :
    List Path → List Item → ModuleTree → Prop
  | done {branch : List Path} : UnfoldsAlong graph withUnexpanded branch [] .done
  | module {branch : List Path} {name : String} {file : Path} {items : List Item}
      {below rest : ModuleTree} : file ∉ branch →
      UnfoldsAlong graph withUnexpanded (file :: branch) (graph.items withUnexpanded file) below →
      UnfoldsAlong graph withUnexpanded branch items rest →
      UnfoldsAlong graph withUnexpanded branch (.module name file :: items)
        (.module name file below rest)
  | marked {branch : List Path} {name : String} {file : Path} {items : List Item}
      {rest : ModuleTree} : file ∈ branch →
      UnfoldsAlong graph withUnexpanded branch items rest →
      UnfoldsAlong graph withUnexpanded branch (.module name file :: items)
        (.module name file .done rest)
  | unexpanded {branch : List Path} {name : String} {items : List Item} {rest : ModuleTree} :
      UnfoldsAlong graph withUnexpanded branch items rest →
      UnfoldsAlong graph withUnexpanded branch (.unexpanded name :: items) (.unexpanded name rest)

/-! ## Cut unfoldings are finite -/

namespace UnfoldsAlong

/-- An unfolding is at its end exactly if no items are left. -/
theorem isDone_eq (h : graph.UnfoldsAlong withUnexpanded branch items unfolded) :
    unfolded.isDone = items.isEmpty := by
  cases h <;> rfl

/-- A graph has one unfolding at most. -/
theorem unique {other : ModuleTree} (h : graph.UnfoldsAlong withUnexpanded branch items unfolded)
    (hother : graph.UnfoldsAlong withUnexpanded branch items other) : other = unfolded := by
  induction h generalizing other with
  | done => cases hother; rfl
  | module hnot _ _ ihBelow ihRest =>
    cases hother with
    | module _ hbelow hrest => rw [ihBelow hbelow, ihRest hrest]
    | marked hmem _ => exact absurd hmem hnot
  | marked hmem _ ih =>
    cases hother with
    | module hnot _ _ => exact absurd hmem hnot
    | marked _ hrest => rw [ih hrest]
  | unexpanded _ ih =>
    cases hother with
    | unexpanded hrest => rw [ih hrest]

/-- What holds of all items of a graph holds of all items of an unfolding. -/
theorem forall_rows {P : Item → Prop}
    (hgraph : ∀ source, ∀ item ∈ graph.items withUnexpanded source, P item)
    (h : graph.UnfoldsAlong withUnexpanded branch items unfolded)
    (hitems : ∀ item ∈ items, P item) (above : List Place) :
    ∀ row ∈ unfolded.rows above, P row.place.item := by
  induction h generalizing above with
  | done => simp [ModuleTree.rows]
  | module _ _ _ ihBelow ihRest =>
    rw [List.forall_mem_cons] at hitems
    rw [ModuleTree.rows, List.forall_mem_cons, List.forall_mem_append]
    exact ⟨hitems.1, ihBelow (hgraph _) _, ihRest hitems.2 _⟩
  | marked _ _ ih =>
    rw [List.forall_mem_cons] at hitems
    rw [ModuleTree.rows, List.forall_mem_cons]
    exact ⟨hitems.1, ih hitems.2 _⟩
  | unexpanded _ ih =>
    rw [List.forall_mem_cons] at hitems
    rw [ModuleTree.rows, List.forall_mem_cons]
    exact ⟨hitems.1, ih hitems.2 _⟩

end UnfoldsAlong

/-- Items can be unfolded if what stands below each of them can. -/
theorem exists_unfoldsAlong_items
    (hbelow : ∀ name file, Item.module name file ∈ items → file ∉ branch → ∃ below,
      graph.UnfoldsAlong withUnexpanded (file :: branch) (graph.items withUnexpanded file) below) :
    ∃ unfolded, graph.UnfoldsAlong withUnexpanded branch items unfolded := by
  induction items with
  | nil => exact ⟨_, .done⟩
  | cons item items ih =>
    obtain ⟨rest, hrest⟩ := ih fun name file hmem => hbelow name file (List.mem_cons_of_mem _ hmem)
    cases item with
    | module name file =>
      by_cases hmem : file ∈ branch
      · exact ⟨_, .marked hmem hrest⟩
      · obtain ⟨below, hfile⟩ := hbelow name file List.mem_cons_self hmem
        exact ⟨_, .module hmem hfile hrest⟩
    | unexpanded name => exact ⟨_, .unexpanded hrest⟩

/-- A branch can be followed to its end, as there is no room on it for more than the files of the
graph. -/
theorem IsBranch.exists_unfoldsAlong {branch : List Path} {file : Path}
    (hbranch : graph.IsBranch branch file) (htargets : graph.TargetsAreNodes)
    (withUnexpanded : Bool) : ∃ unfolded,
      graph.UnfoldsAlong withUnexpanded branch (graph.items withUnexpanded file) unfolded := by
  refine exists_unfoldsAlong_items fun name child hmem hnot => ?_
  have hedge : graph.HasEdge child file := (hasEdge_iff withUnexpanded).mpr ⟨name, hmem⟩
  have hnext := hbranch.cons hedge (htargets child file hedge) hnot
  have hroom := hnext.length_le
  exact hnext.exists_unfoldsAlong htargets withUnexpanded
termination_by graph.size - branch.length
decreasing_by
  simp only [List.length_cons] at hroom ⊢
  omega

/-! ## Drawings -/

/-- The branch behind a module is that in front of it and the file of the module. -/
theorem mem_branchOf_concat {other : Path} {name : String} {later : Bool} :
    other ∈ branchOf root (above ++ [⟨.module name file, later⟩]) ↔
      other = file ∨ other ∈ branchOf root above := by
  simp [branchOf, Item.file?, or_comm, or_left_comm]

/-- One place more indents by one cell more. -/
theorem indent_concat (style : Style) (above : List Place) (place : Place) :
    style.indent (above ++ [place]) =
      style.indent above ++ if place.hasLater then style.vertical else style.space := by
  simp [Style.indent, Style.cells]

/-- The text of an item depends only on which files are above it. -/
theorem Item.text_congr {branch other : List Path} (h : ∀ file, file ∈ branch ↔ file ∈ other)
    (item : Item) : item.text shown branch = item.text shown other := by
  cases item with
  | module name file => simp only [Item.text, h]
  | unexpanded name => rfl

/-- The line of the first item is drawn, then what stands below it, then the other items. -/
theorem drawItems_cons (hbranch : ∀ file, file ∈ branch ↔ file ∈ branchOf root above)
    (below : String → Item → List String) (item : Item) (items : List Item) :
    let place : Place := ⟨item, !items.isEmpty⟩
    drawItems style (style.indent above) (Item.text shown branch) below
        (item :: items) =
      Row.line style shown root ⟨above, place⟩ ::
        (below (style.indent (above ++ [place])) item ++
          drawItems style (style.indent above) (Item.text shown branch) below items) := by
  intro place
  rw [drawItems, indent_concat, item.text_congr hbranch]
  cases hempty : items.isEmpty <;> simp [Row.line, place, hempty]

/-- Items are drawn row by row if what stands below them is. -/
theorem UnfoldsAlong.drawItems_eq {below : String → Item → List String}
    (h : graph.UnfoldsAlong withUnexpanded branch items unfolded)
    (hbranch : ∀ file, file ∈ branch ↔ file ∈ branchOf root above)
    (hmodule : ∀ name file later inner, Item.module name file ∈ items → file ∉ branch →
      graph.UnfoldsAlong withUnexpanded (file :: branch) (graph.items withUnexpanded file) inner →
      let inside := above ++ [⟨.module name file, later⟩]
      below (style.indent inside) (.module name file) =
        (inner.rows inside).map (Row.line style shown root))
    (hmarked : ∀ indent name file, file ∈ branch → below indent (.module name file) = [])
    (hunexpanded : ∀ indent name, below indent (.unexpanded name) = []) :
    drawItems style (style.indent above) (Item.text shown branch) below items =
      (unfolded.rows above).map (Row.line style shown root) := by
  induction items generalizing unfolded with
  | nil =>
    cases h with
    | done => rfl
  | cons item items ih =>
    have hrest {rest : ModuleTree} (h : graph.UnfoldsAlong withUnexpanded branch items rest) :=
      ih h fun name file later inner hmem => hmodule name file later inner (.tail item hmem)
    rw [drawItems_cons hbranch]
    cases h with
    | module hnot hinner hothers =>
      rw [hrest hothers, ← hothers.isDone_eq, hmodule _ _ _ _ List.mem_cons_self hnot hinner,
        ModuleTree.rows, List.map_cons, List.map_append]
    | marked hmem hothers =>
      rw [hrest hothers, ← hothers.isDone_eq, hmarked _ _ _ hmem]
      rfl
    | unexpanded hothers =>
      rw [hrest hothers, ← hothers.isDone_eq, hunexpanded]
      rfl

/-- What stands below a file is drawn row by row, if there is room for the other files of the graph
below it. -/
theorem UnfoldsAlong.drawBelow_eq
    (h : graph.UnfoldsAlong withUnexpanded branch (graph.items withUnexpanded file) unfolded)
    (htargets : graph.TargetsAreNodes) (hbranch : graph.IsBranch branch file)
    (habove : ∀ other, other ∈ branch ↔ other ∈ branchOf root above)
    (hdepth : graph.size < depth + branch.length) :
    drawBelow graph style withUnexpanded shown depth branch (style.indent above) file =
      (unfolded.rows above).map (Row.line style shown root) := by
  induction depth generalizing file branch unfolded above with
  | zero =>
    have := hbranch.length_le
    omega
  | succ depth ih =>
    rw [drawBelow]
    refine h.drawItems_eq habove (fun name child later inner hmem hnot hinner => ?_)
      (fun _ _ _ hmem => if_pos hmem) fun _ _ => rfl
    have hedge : graph.HasEdge child file := (hasEdge_iff withUnexpanded).mpr ⟨name, hmem⟩
    have hroom : graph.size < depth + (child :: branch).length := by
      rw [List.length_cons]
      omega
    refine (if_neg hnot).trans (ih hinner (hbranch.cons hedge (htargets child file hedge) hnot)
      (fun other => ?_) hroom)
    rw [mem_branchOf_concat, List.mem_cons, habove]

/-! ## Columns and lines -/

/-- Cells of four columns each, without line ends, that can be told apart. -/
structure Style.IsAligned (style : Style) : Prop where
  length : ∀ cell ∈ [style.branch, style.last, style.vertical, style.space],
    cell.length = 4 ∧ '\n' ∉ cell.toList
  vertical_ne_space : style.vertical ≠ style.space
  last_ne_branch : style.last ≠ style.branch

/-- The cells of lines have one width. -/
theorem Style.isAligned_lines : Style.lines.IsAligned := ⟨by decide, by decide, by decide⟩

/-- The cells of ASCII have one width. -/
theorem Style.isAligned_ascii : Style.ascii.IsAligned := ⟨by decide, by decide, by decide⟩

/-- The columns of a line: four for each item above, with a bar exactly if others come behind that
one, then four for the item itself, with the last connector exactly if no others come behind it. -/
def Row.HasColumns (style : Style) (row : Row) (line : String) : Prop :=
  (∀ k (_ : k < row.above.length), (line.toList.drop (4 * k)).take 4 = style.vertical.toList ↔
    row.above[k].hasLater = true) ∧
  ((line.toList.drop (4 * row.above.length)).take 4 = style.last.toList ↔
    row.place.hasLater = false)

/-- Cells of one width make columns of that width. -/
theorem take_drop_flatten {cells : List (List Char)} {width : Nat}
    (hwidth : ∀ cell ∈ cells, cell.length = width) (rest : List Char) {k : Nat}
    (hk : k < cells.length) :
    ((cells.flatten ++ rest).drop (width * k)).take width = cells[k] := by
  induction cells generalizing k with
  | nil => simp at hk
  | cons cell cells ih =>
    rw [List.forall_mem_cons] at hwidth
    cases k with
    | zero => simp [hwidth.1]
    | succ k =>
      rw [List.length_cons] at hk
      rw [List.flatten_cons, List.append_assoc, Nat.mul_succ, Nat.add_comm, ← List.drop_drop,
        List.drop_left' hwidth.1, ih hwidth.2 (Nat.lt_of_succ_lt_succ hk), List.getElem_cons_succ]

/-- The cells of a row: those of the items above it and its own. -/
def Row.cells (style : Style) (row : Row) : List String :=
  style.cells row.above ++ [if row.place.hasLater then style.branch else style.last]

/-- A row is its cells and the text of its item behind them. -/
theorem Row.toList_line (style : Style) (shown : Path → String) (root : Path) (row : Row) :
    (row.line style shown root).toList = ((row.cells style).map String.toList).flatten ++
      (row.place.item.text shown (branchOf root row.above)).toList := by
  simp [Row.line, Style.indent, Row.cells, List.flatMap_def]

/-- Every cell of a row is one of the four of its style. -/
theorem Style.IsAligned.mem_cells (row : Row) {cell : String} (hcell : cell ∈ row.cells style) :
    cell ∈ [style.branch, style.last, style.vertical, style.space] := by
  rw [Row.cells, Style.cells, List.mem_append, List.mem_map, List.mem_singleton] at hcell
  obtain ⟨place, -, rfl⟩ | rfl := hcell
  · split <;> simp
  · split <;> simp

/-- With cells of one width, a row has its columns in their places. -/
theorem Style.IsAligned.hasColumns (h : style.IsAligned) (shown : Path → String) (root : Path)
    (row : Row) : row.HasColumns style (row.line style shown root) := by
  have hwidth : ∀ cell ∈ (row.cells style).map String.toList, cell.length = 4 := by
    simpa [String.length_toList] using fun cell hcell => (h.length cell (mem_cells row hcell)).1
  have hcolumn {k : Nat} (hk : k < (row.cells style).length) :
      ((row.line style shown root).toList.drop (4 * k)).take 4 = (row.cells style)[k].toList := by
    rw [Row.toList_line, take_drop_flatten hwidth _ (by simpa using hk), List.getElem_map]
  have hlength : (row.cells style).length = row.above.length + 1 := by
    simp [Row.cells, Style.cells]
  constructor
  · intro k hk
    rw [hcolumn (by omega), String.toList_inj]
    cases hlater : row.above[k].hasLater <;>
      simp [Row.cells, Style.cells, hk, hlater, h.vertical_ne_space.symm]
  · rw [hcolumn (by omega), String.toList_inj]
    cases hlater : row.place.hasLater <;>
      simp [Row.cells, Style.cells, hlater, h.last_ne_branch.symm]

/-- There are no line ends in the names of a graph and in the texts that show its files. -/
structure HasPlainTexts (graph : ModuleGraph) (shown : Path → String) : Prop where
  files : ∀ path ∈ graph.nodes, '\n' ∉ (shown path).toList
  modules : ∀ edge ∈ graph.modules, '\n' ∉ edge.2.1.toList
  unexpanded : ∀ edge ∈ graph.unexpandedModules, '\n' ∉ edge.2.toList

/-- The text of an item has no line end if none of its parts has. -/
theorem HasPlainTexts.notMem_text (h : graph.HasPlainTexts shown) (hclosed : graph.IsClosed)
    {source : Path} {item : Item} (hitem : item ∈ graph.items withUnexpanded source)
    (branch : List Path) : '\n' ∉ (item.text shown branch).toList := by
  rw [items, List.mem_append, List.mem_map] at hitem
  obtain ⟨⟨name, file⟩, hchild, rfl⟩ | hitem := hitem
  · have hedge : (source, name, file) ∈ graph.modules := Grouped.mem_toList_of_mem_get hchild
    have hname := h.modules _ hedge
    have hfile := h.files file (hclosed.target _ hedge)
    by_cases hmem : file ∈ branch <;> simp [Item.text, hmem, hname, hfile]
  · split_ifs at hitem
    · obtain ⟨name, hname, rfl⟩ := List.mem_map.mp hitem
      have hedge : (source, name) ∈ graph.unexpandedModules := Grouped.mem_toList_of_mem_get hname
      have hname := h.unexpanded _ hedge
      simp [Item.text, hname]
    · cases hitem

/-- A row has no line end if the text of its item has none. -/
theorem Style.IsAligned.notMem_line (h : style.IsAligned) {row : Row}
    (htext : '\n' ∉ (row.place.item.text shown (branchOf root row.above)).toList) :
    '\n' ∉ (row.line style shown root).toList := by
  rw [Row.toList_line, List.mem_append, not_or]
  refine ⟨?_, htext⟩
  simpa using fun cell hcell => (h.length cell (mem_cells row hcell)).2

/-! ## The drawing of a graph -/

/-- A closed graph has the targets of its modules among its nodes. -/
theorem IsClosed.targetsAreNodes (h : graph.IsClosed) : graph.TargetsAreNodes :=
  fun child source ⟨name, hedge⟩ => h.target (source, name, child)
    (Grouped.mem_toList_of_mem_get hedge)

/-- The root of a closed graph is a branch by itself. -/
theorem IsClosed.isBranch_root (h : graph.IsClosed) (hroot : graph.root = some root) :
    graph.IsBranch [root] root :=
  ⟨by simp, by simpa using h.root root hroot, by simpa using Relation.ReflTransGen.refl⟩

/-- The drawing of a graph that came about by changes. From its root the graph has one unfolding
that is cut off at the files that are on their own branch already. The drawing has a line for the
root file and one for each item of that unfolding, in preorder. If there are no line ends in the
names, these are the lines of the text. The columns of each line tell of each item above and of the
item itself whether others come behind it. -/
theorem draw_walks_unfolding (changes : List Change) (hroot : (ofChanges changes).root = some root)
    (withUnexpanded : Bool) :
    let graph := ofChanges changes
    let items := graph.items withUnexpanded root
    ∃ unfolded, graph.UnfoldsAlong withUnexpanded [root] items unfolded ∧
      (∀ other, graph.UnfoldsAlong withUnexpanded [root] items other → other = unfolded) ∧
      ∀ tree view style, style = .lines ∨ style = .ascii →
        let shown := label tree view
        let rows := unfolded.rows []
        let lines := shown root :: rows.map (Row.line style shown root)
        graph.draw tree view style withUnexpanded = String.intercalate "\n" lines ∧
        (graph.HasPlainTexts shown →
          Text.pieces '\n' (graph.draw tree view style withUnexpanded) = lines) ∧
        ∀ row ∈ rows, row.HasColumns style (row.line style shown root) := by
  intro graph items
  have hclosed : graph.IsClosed := isClosed_ofChanges changes
  have hbranch : graph.IsBranch [root] root := hclosed.isBranch_root hroot
  obtain ⟨unfolded, hunfolded⟩ := hbranch.exists_unfoldsAlong hclosed.targetsAreNodes withUnexpanded
  refine ⟨unfolded, hunfolded, fun _ => hunfolded.unique, fun tree view style hstyle => ?_⟩
  have haligned : style.IsAligned := by
    obtain rfl | rfl := hstyle
    · exact Style.isAligned_lines
    · exact Style.isAligned_ascii
  intro shown rows lines
  have hdraw : graph.draw tree view style withUnexpanded = String.intercalate "\n" lines := by
    have hbelow : drawBelow graph style withUnexpanded shown (graph.size + 1) [root]
        (style.indent []) root = rows.map (Row.line style shown root) :=
      hunfolded.drawBelow_eq hclosed.targetsAreNodes hbranch (fun _ => Iff.rfl)
        (Nat.lt_add_right _ (Nat.lt_succ_self _))
    rw [draw, hroot]
    exact congrArg (fun below => String.intercalate "\n" (shown root :: below)) hbelow
  refine ⟨hdraw, fun hplain => ?_, fun row _ => haligned.hasColumns shown root row⟩
  rw [hdraw]
  refine Text.pieces_intercalate rfl (List.cons_ne_nil _ _) (List.forall_mem_cons.mpr ⟨?_, ?_⟩)
  · exact hplain.files root (hclosed.root root hroot)
  · refine List.forall_mem_map.mpr fun row hrow => haligned.notMem_line ?_
    let IsPlain (item : Item) : Prop := ∀ branch, '\n' ∉ (item.text shown branch).toList
    have hitems : ∀ source, ∀ item ∈ graph.items withUnexpanded source, IsPlain item :=
      fun _ _ hitem => hplain.notMem_text hclosed hitem
    exact hunfolded.forall_rows hitems (hitems root) [] row hrow _

/-- A root that has one file below it twice; below that file are the file itself, the root and an
unexpanded declaration. -/
def tangledChanges : List Change :=
  let root : Path := ⟨.relative, ["lib.rs"]⟩
  let file : Path := ⟨.relative, ["a.rs"]⟩
  [.setRoot root, .addModule root "a" file, .addUnexpanded file "kept", .addModule file "a" file,
    .addModule file "up" root, .addModule root "b" file]

/-- Both cycles are marked where they close, and the file that is below the root twice has the same
lines below it at both places. -/
theorem draw_tangledChanges :
    let root : Path := ⟨.relative, ["lib.rs"]⟩
    let file : Path := ⟨.relative, ["a.rs"]⟩
    let graph := ofChanges tangledChanges
    let below : ModuleTree :=
      .module "a" file .done (.module "up" root .done (.unexpanded "kept" .done))
    let tree : FileTree := { workDir := [], entries := [] }
    let view : Viewpoint := .of ⟨.relative, []⟩ none
    graph.root = some root ∧
      graph.UnfoldsAlong true [root] (graph.items true root)
        (.module "a" file below (.module "b" file below .done)) ∧
      graph.HasPlainTexts (label tree view) ∧
      Text.pieces '\n' (graph.draw tree view .ascii true) =
        ["lib.rs",
          "|-- mod a (a.rs)",
          "|   |-- mod a (a.rs) [*]",
          "|   |-- mod up (lib.rs) [*]",
          "|   \\-- mod kept [NOT EXPANDED]",
          "\\-- mod b (a.rs)",
          "    |-- mod a (a.rs) [*]",
          "    |-- mod up (lib.rs) [*]",
          "    \\-- mod kept [NOT EXPANDED]"] := by
  intro root file graph below tree view
  have hroot : graph.root = some root := by decide +kernel
  have hfile : graph.items true file =
      [.module "a" file, .module "up" root, .unexpanded "kept"] := by decide +kernel
  have hitems : graph.items true root = [.module "a" file, .module "b" file] := by decide +kernel
  have hbelow : graph.UnfoldsAlong true [file, root] (graph.items true file) below := by
    rw [hfile]
    exact .marked (by simp) (.marked (by simp) (.unexpanded .done))
  have hunfolded : graph.UnfoldsAlong true [root] (graph.items true root)
      (.module "a" file below (.module "b" file below .done)) := by
    rw [hitems]
    exact .module (by decide) hbelow (.module (by decide) hbelow .done)
  have hplain : graph.HasPlainTexts (label tree view) :=
    ⟨by decide +kernel, by decide +kernel, by decide +kernel⟩
  obtain ⟨_, -, hunique, hdraw⟩ := draw_walks_unfolding tangledChanges hroot true
  obtain rfl := hunique _ hunfolded
  refine ⟨hroot, hunfolded, hplain, ((hdraw tree view .ascii (.inr rfl)).2.1 hplain).trans ?_⟩
  decide +kernel

end ModuleGraph

end FlatCrate
