import FlatCrate.Graph.Report
import FlatCrate.Proofs.Graph.Changes
import FlatCrate.Proofs.Json.RoundTrip

/-!
# Reports lose nothing

The report of a graph is read back as the document it was written from, and in that document every
file is listed that is named: the root file and both ends of every edge.
-/

namespace FlatCrate.ModuleGraph

variable {graph : ModuleGraph}

/-- The texts under which files are listed, in order. -/
def nodeTexts (graph : ModuleGraph) (shown : Path → String) : List String :=
  (graph.nodes.map shown).mergeSort fun a b => a ≤ b

/-- The texts of the nodes are sorted, and otherwise those of the nodes. -/
theorem nodeTexts_perm (graph : ModuleGraph) (shown : Path → String) :
    (graph.nodeTexts shown).Perm (graph.nodes.map shown) :=
  List.mergeSort_perm _ _

/-- The texts of the nodes come in order. -/
theorem nodeTexts_sorted (graph : ModuleGraph) (shown : Path → String) :
    (graph.nodeTexts shown).Pairwise (· ≤ ·) := by
  have hsorted : (graph.nodeTexts shown).Pairwise fun a b => decide (a ≤ b) = true :=
    List.pairwise_mergeSort (by simpa using fun _ _ _ => String.le_trans)
      (by simpa using String.le_total) _
  simpa using hsorted

/-- Every node has its text. -/
theorem mem_nodeTexts {path : Path} (h : path ∈ graph.nodes) (shown : Path → String) :
    shown path ∈ graph.nodeTexts shown :=
  (graph.nodeTexts_perm shown).mem_iff.mpr (List.mem_map_of_mem h)

/-- The document of an edge has no number in it. -/
theorem isPlain_edgeDocument (shown : Path → String) (edge : Path × String × Path) :
    (edgeDocument shown edge).IsPlain :=
  .object (by simp) (by simp [Json.IsPlain.string])

/-- The document of an unexpanded module has no number in it. -/
theorem isPlain_unexpandedDocument (shown : Path → String) (edge : Path × String) :
    (unexpandedDocument shown edge).IsPlain :=
  .object (by simp) (by simp [Json.IsPlain.string, Json.IsPlain.bool])

/-- The document of a graph has no number in it. -/
theorem isPlain_document (graph : ModuleGraph) (shown : Path → String) (withUnexpanded : Bool) :
    (graph.document shown withUnexpanded).IsPlain := by
  have hedges : ∀ edge ∈ graph.modules.map (edgeDocument shown) ++
      (if withUnexpanded then graph.unexpandedModules.map (unexpandedDocument shown) else []),
      edge.IsPlain := by
    intro edge hedge
    obtain hedge | hedge := List.mem_append.mp hedge
    · obtain ⟨edge, -, rfl⟩ := List.mem_map.mp hedge
      exact isPlain_edgeDocument shown edge
    · split at hedge
      · obtain ⟨edge, -, rfl⟩ := List.mem_map.mp hedge
        exact isPlain_unexpandedDocument shown edge
      · cases hedge
  refine .object (by simp) ?_
  simpa using ⟨Json.isPlain_stringOrNull _, Json.isPlain_strings _, Json.IsPlain.array hedges⟩

/-- A report is read back as the document it was written from. -/
theorem read_report (graph : ModuleGraph) (tree : FileTree) (view : Viewpoint) (indent : Nat)
    (withUnexpanded : Bool) : Json.read (graph.report tree view indent withUnexpanded) =
      .ok (graph.document (label tree view) withUnexpanded) := by
  rw [report, (graph.isPlain_document _ withUnexpanded).read_render]

/-- The files of a report are the texts under which they are listed. -/
theorem exists_read_report (graph : ModuleGraph) (tree : FileTree) (view : Viewpoint) (indent : Nat)
    (withUnexpanded : Bool) : ∃ root edges,
      Json.read (graph.report tree view indent withUnexpanded) = .ok (.object [
        ("root", root), ("nodes", .strings (graph.nodeTexts (label tree view))),
        ("edges", edges)]) := by
  rw [read_report]
  exact ⟨_, _, rfl⟩

/-- The report of a graph with a root, without its unexpanded declarations. -/
theorem read_report_of_root {root : Path} (h : graph.root = some root) (tree : FileTree)
    (view : Viewpoint) (indent : Nat) :
    let shown := label tree view
    Json.read (graph.report tree view indent false) = .ok (.object [
      ("root", .string (shown root)), ("nodes", .strings (graph.nodeTexts shown)),
      ("edges", .array (graph.modules.map (edgeDocument shown)))]) := by
  rw [read_report, document, h, if_neg Bool.false_ne_true, List.append_nil]
  rfl

/-- The report of a graph that came about by changes is read back as its root file, the sorted list
of its files, and its edges in their order. Its files are listed once for every file, and the root
file and both ends of every edge are among them. -/
theorem report_is_read_back_and_closed (changes : List Change) (tree : FileTree) (view : Viewpoint)
    (indent : Nat) (withUnexpanded : Bool) :
    let graph := ofChanges changes
    let shown := label tree view
    let nodes := graph.nodeTexts shown
    Json.read (graph.report tree view indent withUnexpanded) = .ok (.object [
        ("root", .stringOrNull (graph.root.map shown)),
        ("nodes", .strings nodes),
        ("edges", .array (graph.modules.map (edgeDocument shown) ++
          if withUnexpanded then graph.unexpandedModules.map (unexpandedDocument shown)
          else []))]) ∧
      nodes.Perm (graph.nodes.map shown) ∧ graph.nodes.Nodup ∧ nodes.Pairwise (· ≤ ·) ∧
      (∀ path ∈ graph.root, shown path ∈ nodes) ∧
      (∀ edge ∈ graph.modules, shown edge.1 ∈ nodes ∧ shown edge.2.2 ∈ nodes) ∧
      ∀ edge ∈ graph.unexpandedModules, shown edge.1 ∈ nodes := by
  intro graph shown nodes
  have hclosed : graph.IsClosed := isClosed_ofChanges changes
  refine ⟨?_, graph.nodeTexts_perm shown, hclosed.nodup, graph.nodeTexts_sorted shown, ?_, ?_, ?_⟩
  · rw [read_report]
    rfl
  · exact fun path hpath => mem_nodeTexts (hclosed.root path hpath) shown
  · exact fun edge hedge => ⟨mem_nodeTexts (hclosed.source edge hedge) shown,
      mem_nodeTexts (hclosed.target edge hedge) shown⟩
  · exact fun edge hedge => mem_nodeTexts (hclosed.unexpanded edge hedge) shown

end FlatCrate.ModuleGraph
