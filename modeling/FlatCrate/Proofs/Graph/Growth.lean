import FlatCrate.Flatten.Expansion

/-!
# Graphs grow

While an expansion is recorded, its graph only grows: files stay claimed, and the modules below a
file stay where they are. What a finished file has put into the graph is still there at the end.
-/

namespace FlatCrate

namespace ModuleGraph

variable {graph next later : ModuleGraph}

/-- A list with a file added has that file and those it had. -/
@[simp] theorem mem_insertNew {file other : Path} {files : List Path} :
    file ∈ insertNew other files ↔ file = other ∨ file ∈ files := by
  rw [insertNew]
  split
  · next hmem => exact (or_iff_right_of_imp fun heq => heq ▸ hmem).symm
  · rw [List.mem_append, List.mem_singleton, or_comm]

/-- A node that is there is not added again. -/
theorem addNode_of_mem {file : Path} (h : file ∈ graph.nodes) : graph.addNode file = graph := by
  rw [addNode, insertNew, if_pos h]

/-- A module adds its file and its target to the nodes. -/
@[simp] theorem mem_nodes_addModule {file child other : Path} {name : String} :
    other ∈ (graph.addModule file name child).nodes ↔
      other = child ∨ other = file ∨ other ∈ graph.nodes := by
  simp [addModule, addNode]

/-- A module that is added comes last below its declaring file. -/
theorem children_addModule (graph : ModuleGraph) (file source target : Path) (name : String) :
    (graph.addModule file name target).children source =
      graph.children source ++ if source = file then [(name, target)] else [] :=
  graph.edges.get_add file source (name, target)

/-- A declaration that is left as it is comes last below its file. -/
theorem unexpandedOf_addUnexpanded (graph : ModuleGraph) (file source : Path) (name : String) :
    (graph.addUnexpanded file name).unexpandedOf source =
      graph.unexpandedOf source ++ if source = file then [name] else [] :=
  graph.unexpanded.get_add file source name

/-- Claiming a file changes no modules. -/
@[simp] theorem children_claim (graph : ModuleGraph) (file source : Path) :
    (graph.claim file).children source = graph.children source := by
  rw [claim]
  split <;> rfl

/-- Claiming a file changes no edges. -/
theorem edges_claim (graph : ModuleGraph) (file : Path) :
    (graph.claim file).edges = graph.edges := by
  rw [claim]
  split <;> rfl

/-- Claiming a file changes nothing that is unexpanded. -/
theorem unexpanded_claim (graph : ModuleGraph) (file : Path) :
    (graph.claim file).unexpanded = graph.unexpanded := by
  rw [claim]
  split <;> rfl

/-- Setting the root claims no file. -/
@[simp] theorem claimed_setRoot (graph : ModuleGraph) (root : Path) :
    (graph.setRoot root).claimed = graph.claimed :=
  rfl

/-- A file is claimed when it has just been claimed or was before. -/
@[simp] theorem mem_claimed_claim {file other : Path} :
    other ∈ (graph.claim file).claimed ↔ other = file ∨ other ∈ graph.claimed := by
  rw [claim, isClaimed]
  by_cases h : file ∈ graph.claimed
  · rw [if_pos (by simpa using h)]
    exact (or_iff_right_of_imp fun heq => heq ▸ h).symm
  · rw [if_neg (by simpa using h), List.mem_cons]

/-- A file has been recorded below another one. -/
def HasEdge (graph : ModuleGraph) (child file : Path) : Prop :=
  ∃ name, (name, child) ∈ graph.children file

/-- A later graph has what an earlier one has. -/
structure Grows (graph later : ModuleGraph) : Prop where
  claimed : ∀ file ∈ graph.claimed, file ∈ later.claimed
  children : ∀ source, ∀ edge ∈ graph.children source, edge ∈ later.children source

namespace Grows

/-- A graph grows by nothing. -/
theorem refl (graph : ModuleGraph) : graph.Grows graph := ⟨fun _ h => h, fun _ _ h => h⟩

/-- Growing carries over from one graph to the next. -/
theorem trans (hnext : graph.Grows next) (hlater : next.Grows later) : graph.Grows later :=
  ⟨fun file h => hlater.claimed file (hnext.claimed file h),
    fun source edge h => hlater.children source edge (hnext.children source edge h)⟩

/-- A graph grows when a file is claimed. -/
theorem claim (graph : ModuleGraph) (file : Path) : graph.Grows (graph.claim file) :=
  ⟨fun _ h => mem_claimed_claim.mpr (.inr h), fun source edge h => by rwa [children_claim]⟩

/-- A graph grows by an unexpanded module. -/
theorem addUnexpanded (graph : ModuleGraph) (file : Path) (name : String) :
    graph.Grows (graph.addUnexpanded file name) :=
  ⟨fun _ h => h, fun _ _ h => h⟩

/-- A graph grows by a module. -/
theorem addModule (graph : ModuleGraph) (file target : Path) (name : String) :
    graph.Grows (graph.addModule file name target) :=
  ⟨fun _ h => h, fun source edge h => by
    rw [children_addModule]
    exact List.mem_append_left _ h⟩

end Grows

end ModuleGraph

namespace Expansion

/-- Recording the lines of a file makes a graph grow. -/
theorem grows_recordLines (expansion : Expansion) (file : Path) (graph : ModuleGraph) :
    graph.Grows (expansion.recordLines file graph) := by
  have enter {body : Expansion} {child : Path} {graph : ModuleGraph}
      (hbody : (graph.claim child).Grows (body.recordLines child (graph.claim child))) :
      graph.Grows (body.claimed child (body.recordLines child) graph) := by
    rw [claimed]
    split
    · exact (ModuleGraph.Grows.claim graph child).trans hbody
    · exact .refl graph
  induction expansion generalizing file graph with
  | copied _ _ ih => exact ih file graph
  | kept decl _ _ ih =>
    exact (ModuleGraph.Grows.addUnexpanded graph file decl.name).trans (ih _ _)
  | spliced decl _ child _ _ ihBody ihRest =>
    exact (ModuleGraph.Grows.addModule graph file child decl.name).trans
      ((enter (ihBody _ _)).trans (ihRest _ _))
  | broken decl _ child _ ihBody =>
    exact (ModuleGraph.Grows.addModule graph file child decl.name).trans (enter (ihBody _ _))
  | _ => exact .refl graph

/-- What is complete has been read. -/
theorem isReadable_of_isComplete {expansion : Expansion} (h : expansion.isComplete = true) :
    expansion.isReadable = true := by
  cases expansion with
  | unreadable => exact h
  | _ => rfl

/-- A file that has been claimed is not recorded again. -/
theorem record_of_mem_claimed {expansion : Expansion} {file : Path} {graph : ModuleGraph}
    (h : file ∈ graph.claimed) : expansion.record file graph = graph := by
  simp [record, claimed, ModuleGraph.isClaimed, h]

/-- A file that is not claimed yet is claimed and its lines are recorded. -/
theorem record_of_notMem_claimed {expansion : Expansion} {file : Path} {graph : ModuleGraph}
    (hreadable : expansion.isReadable = true) (h : file ∉ graph.claimed) :
    expansion.record file graph = expansion.recordLines file (graph.claim file) := by
  simp [record, claimed, ModuleGraph.isClaimed, h, hreadable]

/-- Recording a file makes a graph grow. -/
theorem grows_record (expansion : Expansion) (file : Path) (graph : ModuleGraph) :
    graph.Grows (expansion.record file graph) := by
  rw [record, claimed]
  split
  · exact (ModuleGraph.Grows.claim graph file).trans (expansion.grows_recordLines file _)
  · exact .refl graph

end Expansion

end FlatCrate
