import FlatCrate.Graph.Drawing
import FlatCrate.Proofs.Graph.Growth
import Mathlib.Data.List.Perm.Subperm
import Mathlib.Logic.Relation

/-!
# Unfolding a graph

A graph is unfolded from a file by putting below each item what the graph has below its file, over
and over again. If this comes to an end, the graph has no cycle that leads through the file: what
stands below a file would be smaller than itself. The drawing of such a graph is the drawing of its
unfolding, line by line, and no file in it is marked.
-/

namespace FlatCrate

/-- Items in order, each module with the items below its file. -/
inductive ModuleTree
  | done
  | module (name : String) (file : Path) (below rest : ModuleTree)
  | unexpanded (name : String) (rest : ModuleTree)
  deriving DecidableEq, Repr

namespace ModuleTree

/-- How many items there are, at all depths. -/
def count : ModuleTree → Nat
  | done => 0
  | module _ _ below rest => below.count + rest.count + 1
  | unexpanded _ rest => rest.count + 1

/-- Whether no item is left. -/
def isDone : ModuleTree → Bool
  | done => true
  | _ => false

/-- The lines of the items, without marks. -/
def draw (style : ModuleGraph.Style) (shown : Path → String) : String → ModuleTree → List String
  | _, done => []
  | indent, module name file below rest =>
    (indent ++ (if rest.isDone then style.last else style.branch) ++
        ("mod " ++ name ++ " (" ++ shown file ++ ")")) ::
      (below.draw style shown (indent ++ if rest.isDone then style.space else style.vertical) ++
        rest.draw style shown indent)
  | indent, unexpanded name rest =>
    (indent ++ (if rest.isDone then style.last else style.branch) ++
        ("mod " ++ name ++ " [NOT EXPANDED]")) ::
      rest.draw style shown indent

/-- Each item has a line of its own. -/
theorem length_draw (style : ModuleGraph.Style) (shown : Path → String) (indent : String)
    (items : ModuleTree) : (items.draw style shown indent).length = items.count := by
  induction items generalizing indent with
  | done => rfl
  | module name file below rest ihBelow ihRest =>
    rw [draw, List.length_cons, List.length_append, ihBelow, ihRest, count]
  | unexpanded name rest ih => rw [draw, List.length_cons, ih, count]

end ModuleTree

namespace ModuleGraph

variable {graph : ModuleGraph} {withUnexpanded : Bool} {file child : Path} {items : List Item}
  {unfolded below : ModuleTree}

/-- Items are unfolded to a tree by what the graph has below their files. -/
inductive Unfolds (graph : ModuleGraph) (withUnexpanded : Bool) : List Item → ModuleTree → Prop
  | done : Unfolds graph withUnexpanded [] .done
  | module {name : String} {file : Path} {items : List Item} {below rest : ModuleTree} :
      Unfolds graph withUnexpanded (graph.items withUnexpanded file) below →
      Unfolds graph withUnexpanded items rest →
      Unfolds graph withUnexpanded (.module name file :: items) (.module name file below rest)
  | unexpanded {name : String} {items : List Item} {rest : ModuleTree} :
      Unfolds graph withUnexpanded items rest →
      Unfolds graph withUnexpanded (.unexpanded name :: items) (.unexpanded name rest)

/-- An edge is a module among the items of a file. -/
theorem hasEdge_iff (withUnexpanded : Bool) :
    graph.HasEdge child file ↔
      ∃ name, Item.module name child ∈ graph.items withUnexpanded file := by
  cases withUnexpanded <;> simp [HasEdge, items]

/-! ## Finite unfoldings have no cycles -/

/-- Items have one unfolding only. -/
theorem Unfolds.unique {other : ModuleTree} (h : graph.Unfolds withUnexpanded items unfolded)
    (hother : graph.Unfolds withUnexpanded items other) : unfolded = other := by
  induction h generalizing other with
  | done => cases hother; rfl
  | module _ _ ihBelow ihRest =>
    cases hother with
    | module hbelow hrest => rw [ihBelow hbelow, ihRest hrest]
  | unexpanded _ ih =>
    cases hother with
    | unexpanded hrest => rw [ih hrest]

/-- What stands below one of some items is smaller than all of them. -/
theorem Unfolds.exists_below {name : String} (h : graph.Unfolds withUnexpanded items unfolded)
    (hmem : Item.module name child ∈ items) : ∃ below,
      graph.Unfolds withUnexpanded (graph.items withUnexpanded child) below ∧
        below.count < unfolded.count := by
  induction h with
  | done => simp at hmem
  | @module _ _ _ below rest hbelow _ _ ih =>
    rw [ModuleTree.count]
    rcases List.mem_cons.mp hmem with heq | hmem
    · obtain ⟨rfl, rfl⟩ := Item.module.inj heq
      exact ⟨below, hbelow, by omega⟩
    · obtain ⟨inner, hinner, hlt⟩ := ih hmem
      exact ⟨inner, hinner, by omega⟩
  | unexpanded _ ih =>
    rw [ModuleTree.count]
    obtain ⟨inner, hinner, hlt⟩ := ih ((List.mem_cons.mp hmem).resolve_left (by simp))
    exact ⟨inner, hinner, by omega⟩

/-- The unfolding ends where the items end. -/
theorem Unfolds.isDone_eq (h : graph.Unfolds withUnexpanded items unfolded) :
    unfolded.isDone = items.isEmpty := by
  cases h <;> rfl

/-- Every file below an unfolded one has a smaller unfolding. -/
theorem Unfolds.of_transGen
    (h : graph.Unfolds withUnexpanded (graph.items withUnexpanded file) unfolded)
    (hbelow : Relation.TransGen graph.HasEdge child file) : ∃ below,
      graph.Unfolds withUnexpanded (graph.items withUnexpanded child) below ∧
        below.count < unfolded.count := by
  induction hbelow using Relation.TransGen.head_induction_on with
  | single hedge =>
    obtain ⟨name, hmem⟩ := (hasEdge_iff withUnexpanded).mp hedge
    exact h.exists_below hmem
  | head hedge _ ih =>
    obtain ⟨middle, hmiddle, hlt⟩ := ih
    obtain ⟨name, hmem⟩ := (hasEdge_iff withUnexpanded).mp hedge
    obtain ⟨below, hbelow, hlt'⟩ := hmiddle.exists_below hmem
    exact ⟨below, hbelow, Nat.lt_trans hlt' hlt⟩

/-- No file stands below itself if the graph can be unfolded from it. -/
theorem Unfolds.not_transGen
    (h : graph.Unfolds withUnexpanded (graph.items withUnexpanded file) unfolded) :
    ¬Relation.TransGen graph.HasEdge file file := by
  intro hcycle
  obtain ⟨below, hbelow, hlt⟩ := h.of_transGen hcycle
  rw [hbelow.unique h] at hlt
  exact Nat.lt_irrefl _ hlt

/-! ## Drawing a finite unfolding -/

/-- The files of a branch, the innermost one first: different files of the graph, and the innermost
one stands below all of them. -/
structure IsBranch (graph : ModuleGraph) (branch : List Path) (file : Path) : Prop where
  nodup : branch.Nodup
  isNode : ∀ other ∈ branch, other ∈ graph.nodes
  isBelow : ∀ other ∈ branch, Relation.ReflTransGen graph.HasEdge file other

namespace IsBranch

variable {branch : List Path}

/-- A branch is no longer than the graph is large. -/
theorem length_le (h : graph.IsBranch branch file) : branch.length ≤ graph.size :=
  (h.nodup.subperm h.isNode).length_le

/-- A file below a branch is not on it if the graph has no cycles. -/
theorem notMem (h : graph.IsBranch branch file) (hedge : graph.HasEdge child file)
    (hacyclic : ∀ other, ¬Relation.TransGen graph.HasEdge other other) : child ∉ branch :=
  fun hmem => hacyclic child (Relation.TransGen.head' hedge (h.isBelow child hmem))

/-- A branch can be continued by an edge to a node that is not on it. -/
theorem cons (h : graph.IsBranch branch file) (hedge : graph.HasEdge child file)
    (hnode : child ∈ graph.nodes) (hnot : child ∉ branch) :
    graph.IsBranch (child :: branch) child := by
  refine ⟨List.nodup_cons.mpr ⟨hnot, h.nodup⟩, ?_, ?_⟩
  · exact List.forall_mem_cons.mpr ⟨hnode, h.isNode⟩
  · exact List.forall_mem_cons.mpr ⟨.refl, fun other hother => .head hedge (h.isBelow other hother)⟩

end IsBranch

/-- All files of the modules of a graph are files of the graph. -/
def TargetsAreNodes (graph : ModuleGraph) : Prop :=
  ∀ child file, graph.HasEdge child file → child ∈ graph.nodes

/-- Items are drawn like their unfolding if each of them is, and none is marked. -/
theorem Unfolds.drawItems_eq {style : Style} {shown : Path → String} {branch : List Path}
    {below : String → Item → List String} (h : graph.Unfolds withUnexpanded items unfolded)
    (hmodule : ∀ name file, Item.module name file ∈ items → file ∉ branch ∧
      ∀ indent unfolded, graph.Unfolds withUnexpanded (graph.items withUnexpanded file) unfolded →
        below indent (.module name file) = unfolded.draw style shown indent)
    (hunexpanded : ∀ indent name, below indent (.unexpanded name) = []) (indent : String) :
    drawItems style indent (Item.text shown branch) below items =
      unfolded.draw style shown indent := by
  induction h with
  | done => rfl
  | @module name child items inner rest hinner hrest _ ihRest =>
    obtain ⟨hnot, hbelow⟩ := hmodule name child List.mem_cons_self
    have hothers := ihRest fun name file hfile => hmodule name file (List.mem_cons_of_mem _ hfile)
    simp only [drawItems, ModuleTree.draw, hothers, hrest.isDone_eq, hbelow _ _ hinner, Item.text,
      if_neg hnot, String.append_empty]
  | @unexpanded name items rest hrest ihRest =>
    have hothers := ihRest fun name file hfile => hmodule name file (List.mem_cons_of_mem _ hfile)
    simp only [drawItems, ModuleTree.draw, hothers, hrest.isDone_eq, hunexpanded, Item.text,
      List.nil_append]

/-- What stands below a file is drawn like its unfolding, if there is room for the other files of
the graph below it. -/
theorem Unfolds.drawBelow_eq {style : Style} {shown : Path → String} {branch : List Path}
    {depth : Nat} (h : graph.Unfolds withUnexpanded (graph.items withUnexpanded file) unfolded)
    (hacyclic : ∀ other, ¬Relation.TransGen graph.HasEdge other other)
    (htargets : graph.TargetsAreNodes) (hbranch : graph.IsBranch branch file)
    (hdepth : graph.size < depth + branch.length) (indent : String) :
    drawBelow graph style withUnexpanded shown depth branch indent file =
      unfolded.draw style shown indent := by
  induction depth generalizing file branch unfolded indent with
  | zero =>
    have := hbranch.length_le
    omega
  | succ depth ih =>
    rw [drawBelow]
    refine h.drawItems_eq (fun name child hmem => ?_) (fun _ _ => rfl) indent
    have hedge : graph.HasEdge child file := (hasEdge_iff withUnexpanded).mpr ⟨name, hmem⟩
    have hnot : child ∉ branch := hbranch.notMem hedge hacyclic
    refine ⟨hnot, fun indent inner hinner => ?_⟩
    have hroom : graph.size < depth + (child :: branch).length := by
      rw [List.length_cons]
      omega
    exact (if_neg hnot).trans
      (ih hinner (hbranch.cons hedge (htargets child file hedge) hnot) hroom indent)

/-- A graph without cycles is drawn like its unfolding from the root. -/
theorem Unfolds.draw_eq {root : Path} (h : graph.Unfolds withUnexpanded
      (graph.items withUnexpanded root) unfolded) (hroot : graph.root = some root)
    (hnode : root ∈ graph.nodes) (htargets : graph.TargetsAreNodes)
    (hacyclic : ∀ other, ¬Relation.TransGen graph.HasEdge other other) (tree : FileTree)
    (view : Viewpoint) (style : Style) :
    graph.draw tree view style withUnexpanded = String.intercalate "\n"
      (label tree view root :: unfolded.draw style (label tree view) "") := by
  have hbranch : graph.IsBranch [root] root :=
    ⟨by simp, by simpa using hnode, by simpa using Relation.ReflTransGen.refl⟩
  have hdepth : graph.size < graph.size + 1 + [root].length := by omega
  simp only [draw, hroot, h.drawBelow_eq hacyclic htargets hbranch hdepth]

end ModuleGraph

end FlatCrate
