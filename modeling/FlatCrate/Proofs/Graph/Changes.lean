import FlatCrate.Proofs.Graph.Grouped
import FlatCrate.Proofs.Graph.Growth
import Mathlib.Data.List.Induction

/-!
# Graphs that come about by changes

A graph is changed in four ways: by setting its root, adding a module or an unexpanded declaration,
and claiming a file. Every file that is named in a change becomes a file of the graph, so the files
of a graph include its root and both ends of each of its modules and unexpanded declarations. What
is new comes behind what is there.
-/

namespace FlatCrate.ModuleGraph

variable {graph : ModuleGraph} {path other : Path} {name : String}

/-- A change of a graph. -/
inductive Change
  | setRoot (path : Path)
  | addModule (source : Path) (name : String) (target : Path)
  | addUnexpanded (source : Path) (name : String)
  | claim (path : Path)
  deriving DecidableEq, Repr

/-- The graph after a change. -/
def apply (graph : ModuleGraph) : Change → ModuleGraph
  | .setRoot path => graph.setRoot path
  | .addModule source name target => graph.addModule source name target
  | .addUnexpanded source name => graph.addUnexpanded source name
  | .claim path => graph.claim path

/-- The graph after some changes of an empty one. -/
def ofChanges (changes : List Change) : ModuleGraph := changes.foldl apply {}

/-- The last of some changes is applied to what the others make. -/
theorem ofChanges_concat (changes : List Change) (change : Change) :
    ofChanges (changes ++ [change]) = (ofChanges changes).apply change := by
  simp [ofChanges]

/-! ## Files that are named -/

/-- A graph in which no file comes twice and every file that is named is one of its files. -/
structure IsClosed (graph : ModuleGraph) : Prop where
  nodup : graph.nodes.Nodup
  root : ∀ path ∈ graph.root, path ∈ graph.nodes
  source : ∀ edge ∈ graph.modules, edge.1 ∈ graph.nodes
  target : ∀ edge ∈ graph.modules, edge.2.2 ∈ graph.nodes
  unexpanded : ∀ edge ∈ graph.unexpandedModules, edge.1 ∈ graph.nodes

/-- No file is listed twice when one is added that may be there. -/
theorem nodup_insertNew {paths : List Path} (h : paths.Nodup) (path : Path) :
    (insertNew path paths).Nodup := by
  rw [insertNew]
  split
  · exact h
  · next hnot => exact List.nodup_append.mpr ⟨h, by simp, by grind⟩

namespace IsClosed

/-- The empty graph is closed. -/
theorem empty : ({} : ModuleGraph).IsClosed := by
  constructor <;> simp [modules, unexpandedModules, Grouped.toList]

/-- A node more leaves a graph closed. -/
theorem addNode (h : graph.IsClosed) (path : Path) : (graph.addNode path).IsClosed where
  nodup := nodup_insertNew h.nodup path
  root := fun other hother => mem_insertNew.mpr (.inr (h.root other hother))
  source := fun edge hedge => mem_insertNew.mpr (.inr (h.source edge hedge))
  target := fun edge hedge => mem_insertNew.mpr (.inr (h.target edge hedge))
  unexpanded := fun edge hedge => mem_insertNew.mpr (.inr (h.unexpanded edge hedge))

/-- Setting the root leaves a graph closed. -/
theorem setRoot (h : graph.IsClosed) (path : Path) : (graph.setRoot path).IsClosed where
  nodup := (h.addNode path).nodup
  root := fun _ hpath => mem_insertNew.mpr (.inl (Option.some.inj hpath).symm)
  source := (h.addNode path).source
  target := (h.addNode path).target
  unexpanded := (h.addNode path).unexpanded

/-- A module leaves a graph closed. -/
theorem addModule (h : graph.IsClosed) (source : Path) (name : String) (target : Path) :
    (graph.addModule source name target).IsClosed := by
  have hnodes := (h.addNode source).addNode target
  refine ⟨hnodes.nodup, hnodes.root, fun edge hedge => ?_, fun edge hedge => ?_,
    hnodes.unexpanded⟩
  · obtain hedge | rfl := Grouped.mem_toList_add.mp hedge
    · exact hnodes.source edge hedge
    · simp
  · obtain hedge | rfl := Grouped.mem_toList_add.mp hedge
    · exact hnodes.target edge hedge
    · simp

/-- An unexpanded module leaves a graph closed. -/
theorem addUnexpanded (h : graph.IsClosed) (source : Path) (name : String) :
    (graph.addUnexpanded source name).IsClosed := by
  have hnodes := h.addNode source
  refine ⟨hnodes.nodup, hnodes.root, hnodes.source, hnodes.target, fun edge hedge => ?_⟩
  obtain hedge | rfl := Grouped.mem_toList_add.mp hedge
  · exact hnodes.unexpanded edge hedge
  · exact mem_insertNew.mpr (.inl rfl)

/-- Claiming a file leaves a graph closed. -/
theorem claim (h : graph.IsClosed) (path : Path) : (graph.claim path).IsClosed := by
  rw [ModuleGraph.claim]
  split
  · exact h
  · have hnodes := h.addNode path
    exact ⟨hnodes.nodup, hnodes.root, hnodes.source, hnodes.target, hnodes.unexpanded⟩

/-- Every change keeps the files that are named among the files. -/
theorem apply (h : graph.IsClosed) (change : Change) : (graph.apply change).IsClosed := by
  cases change with
  | setRoot path => exact h.setRoot path
  | addModule source name target => exact h.addModule source name target
  | addUnexpanded source name => exact h.addUnexpanded source name
  | claim path => exact h.claim path

end IsClosed

/-- A graph that came about by changes is closed. -/
theorem isClosed_ofChanges (changes : List Change) : (ofChanges changes).IsClosed := by
  induction changes using List.reverseRecOn with
  | nil => exact .empty
  | append_singleton changes change ih =>
    rw [ofChanges_concat]
    exact ih.apply change

/-! ## Graphs that are recorded -/

/-- One graph becomes another one by some changes. -/
def Becomes (graph later : ModuleGraph) : Prop :=
  ∃ changes : List Change, later = changes.foldl apply graph

variable {next later : ModuleGraph}

namespace Becomes

/-- A graph becomes itself by no changes. -/
theorem refl (graph : ModuleGraph) : graph.Becomes graph := ⟨[], rfl⟩

/-- What a graph becomes in two runs of changes, it becomes in one. -/
theorem trans (hnext : graph.Becomes next) (hlater : next.Becomes later) : graph.Becomes later := by
  obtain ⟨first, rfl⟩ := hnext
  obtain ⟨second, rfl⟩ := hlater
  exact ⟨first ++ second, List.foldl_append.symm⟩

/-- A graph becomes what one change makes of it. -/
theorem apply (graph : ModuleGraph) (change : Change) : graph.Becomes (graph.apply change) :=
  ⟨[change], rfl⟩

end Becomes

/-! ## Graphs that grow at their ends -/

/-- A later graph has the files of an earlier one, and the modules and the unexpanded declarations
of each file go on where they ended. -/
structure Continues (graph later : ModuleGraph) : Prop where
  nodes : graph.nodes <+: later.nodes
  children : ∀ source, graph.children source <+: later.children source
  unexpandedOf : ∀ source, graph.unexpandedOf source <+: later.unexpandedOf source

/-- A file that is added comes behind the others, if it is new. -/
theorem prefix_insertNew (path : Path) (paths : List Path) : paths <+: insertNew path paths := by
  rw [insertNew]
  split
  · exact List.prefix_refl paths
  · exact List.prefix_append paths [path]

namespace Continues

/-- A graph continues itself. -/
theorem refl (graph : ModuleGraph) : graph.Continues graph :=
  ⟨List.prefix_refl _, fun _ => List.prefix_refl _, fun _ => List.prefix_refl _⟩

/-- Continuing carries over from one graph to the next. -/
theorem trans (hnext : graph.Continues next) (hlater : next.Continues later) :
    graph.Continues later where
  nodes := hnext.nodes.trans hlater.nodes
  children := fun source => (hnext.children source).trans (hlater.children source)
  unexpandedOf := fun source => (hnext.unexpandedOf source).trans (hlater.unexpandedOf source)

/-- A graph with a node more continues it. -/
theorem addNode (graph : ModuleGraph) (path : Path) : graph.Continues (graph.addNode path) :=
  ⟨prefix_insertNew path graph.nodes, fun _ => List.prefix_refl _, fun _ => List.prefix_refl _⟩

/-- Every change puts what is new behind what is there. -/
theorem apply (graph : ModuleGraph) (change : Change) : graph.Continues (graph.apply change) := by
  cases change with
  | setRoot path =>
    have hnode := addNode graph path
    exact ⟨hnode.nodes, hnode.children, hnode.unexpandedOf⟩
  | addModule source name target =>
    have hnodes := (addNode graph source).trans (addNode _ target)
    refine ⟨hnodes.nodes, fun other => ?_, hnodes.unexpandedOf⟩
    rw [ModuleGraph.apply, children_addModule]
    exact List.prefix_append _ _
  | addUnexpanded source name =>
    have hnode := addNode graph source
    refine ⟨hnode.nodes, hnode.children, fun other => ?_⟩
    rw [ModuleGraph.apply, unexpandedOf_addUnexpanded]
    exact List.prefix_append _ _
  | claim path =>
    rw [ModuleGraph.apply, claim]
    split
    · exact refl graph
    · have hnode := addNode graph path
      exact ⟨hnode.nodes, hnode.children, hnode.unexpandedOf⟩

end Continues

/-- What a graph becomes continues it. -/
theorem Becomes.continues (h : graph.Becomes later) : graph.Continues later := by
  obtain ⟨changes, rfl⟩ := h
  induction changes generalizing graph with
  | nil => exact .refl graph
  | cons change changes ih => exact (Continues.apply graph change).trans ih

end ModuleGraph

namespace Expansion

variable {graph : ModuleGraph}

/-- Recording a file changes a graph, if recording its lines does. -/
theorem becomes_claimed (expansion : Expansion) {file : Path}
    {recordLines : ModuleGraph → ModuleGraph}
    (hlines : (graph.claim file).Becomes (recordLines (graph.claim file))) :
    graph.Becomes (expansion.claimed file recordLines graph) := by
  rw [claimed]
  split
  · exact (ModuleGraph.Becomes.apply graph (.claim file)).trans hlines
  · exact .refl graph

/-- The lines of a file are recorded by changes of the graph. -/
theorem becomes_recordLines (expansion : Expansion) (file : Path) (graph : ModuleGraph) :
    graph.Becomes (expansion.recordLines file graph) := by
  induction expansion generalizing file graph with
  | copied _ _ ih => exact ih file graph
  | kept decl _ _ ih =>
    exact (ModuleGraph.Becomes.apply graph (.addUnexpanded file decl.name)).trans (ih file _)
  | spliced decl _ child body _ ihBody ihRest =>
    have hlinked := ModuleGraph.Becomes.apply graph (.addModule file decl.name child)
    exact hlinked.trans ((body.becomes_claimed (ihBody child _)).trans (ihRest file _))
  | broken decl _ child body ihBody =>
    have hlinked := ModuleGraph.Becomes.apply graph (.addModule file decl.name child)
    exact hlinked.trans (body.becomes_claimed (ihBody child _))
  | _ => exact .refl graph

/-- A run that is recorded in a graph changes it. -/
theorem becomes_record (run : Expansion) (root : Path) (graph : ModuleGraph) :
    graph.Becomes (run.record root (graph.setRoot root)) :=
  (ModuleGraph.Becomes.apply graph (.setRoot root)).trans
    (run.becomes_claimed (run.becomes_recordLines root _))

/-- What a run records in an empty graph comes about by changes. -/
theorem exists_changes_record (run : Expansion) (root : Path) :
    ∃ changes, run.record root (({} : ModuleGraph).setRoot root) =
      ModuleGraph.ofChanges changes :=
  run.becomes_record root {}

/-- The graph that a run records is closed. -/
theorem isClosed_record (run : Expansion) (root : Path) :
    (run.record root (({} : ModuleGraph).setRoot root)).IsClosed := by
  obtain ⟨changes, hchanges⟩ := run.exists_changes_record root
  rw [hchanges]
  exact ModuleGraph.isClosed_ofChanges changes

end Expansion

end FlatCrate
