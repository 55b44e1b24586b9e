import FlatCrate.Proofs.Graph.Changes

/-!
# What a graph keeps of its changes

Everything that a graph says can be read off the list of the changes it came about by. Its files are
the ones that the changes name, each once. The modules and the unexpanded declarations of a file
come in the order in which they were added; the list of all of them goes file by file, in the order
in which the files were first used. A file counts as claimed from the first claim on.
-/

namespace FlatCrate.ModuleGraph

variable {graph : ModuleGraph} {changes : List Change}

namespace Change

/-- The files that a change names. -/
def files : Change → List Path
  | .setRoot path => [path]
  | .addModule source _ target => [source, target]
  | .addUnexpanded source _ => [source]
  | .claim path => [path]

/-- The module that a change adds, behind the file that declares it. -/
def module? : Change → Option (Path × String × Path)
  | .addModule source name target => some (source, name, target)
  | _ => none

/-- The unexpanded declaration that a change adds, behind its file. -/
def unexpanded? : Change → Option (Path × String)
  | .addUnexpanded source name => some (source, name)
  | _ => none

end Change

/-- A graph holds what some changes have put into it, and nothing else. -/
structure IsRecordOf (graph : ModuleGraph) (changes : List Change) : Prop where
  nodup : graph.nodes.Nodup
  nodes : ∀ path, path ∈ graph.nodes ↔ ∃ change ∈ changes, path ∈ change.files
  edges : graph.edges = .ofList (changes.filterMap Change.module?)
  unexpanded : graph.unexpanded = .ofList (changes.filterMap Change.unexpanded?)
  claimed : ∀ path, path ∈ graph.claimed ↔ .claim path ∈ changes

namespace IsRecordOf

/-- The empty graph is the record of no changes. -/
theorem empty : ({} : ModuleGraph).IsRecordOf [] := by
  constructor <;> simp [Grouped.ofList, Grouped.addAll]

/-- One more change adds at most one value to the ones that are read off the changes. -/
theorem ofList_filterMap_concat {α : Type} (read : Change → Option (Path × α))
    (changes : List Change) (change : Change) :
    Grouped.ofList ((changes ++ [change]).filterMap read) =
      match read change with
      | none => .ofList (changes.filterMap read)
      | some (source, value) => (Grouped.ofList (changes.filterMap read)).add source value := by
  cases hread : read change with
  | none => simp [hread]
  | some pair =>
    have hconcat : (changes ++ [change]).filterMap read = changes.filterMap read ++ [pair] := by
      simp [hread]
    rw [hconcat, Grouped.ofList_concat]

/-- The files of some changes are those of all but the last, and those of the last. -/
theorem mem_files_concat {path : Path} {change : Change} :
    (∃ other ∈ changes ++ [change], path ∈ other.files) ↔
      (∃ other ∈ changes, path ∈ other.files) ∨ path ∈ change.files := by
  simp [or_and_right, exists_or]

/-- Setting the root keeps the record. -/
theorem setRoot (h : graph.IsRecordOf changes) (path : Path) :
    (graph.setRoot path).IsRecordOf (changes ++ [.setRoot path]) where
  nodup := nodup_insertNew h.nodup path
  nodes := fun other => by
    rw [mem_files_concat, ← h.nodes, or_comm]
    simp [ModuleGraph.setRoot, addNode, Change.files]
  edges := by
    rw [ofList_filterMap_concat]
    exact h.edges
  unexpanded := by
    rw [ofList_filterMap_concat]
    exact h.unexpanded
  claimed := fun other => (h.claimed other).trans (by simp)

/-- A module keeps the record. -/
theorem addModule (h : graph.IsRecordOf changes) (source : Path) (name : String) (target : Path) :
    (graph.addModule source name target).IsRecordOf
      (changes ++ [.addModule source name target]) where
  nodup := nodup_insertNew (nodup_insertNew h.nodup source) target
  nodes := fun other => by
    rw [mem_files_concat, ← h.nodes, mem_nodes_addModule]
    simp only [Change.files, List.mem_cons, List.not_mem_nil, or_false]
    tauto
  edges := by
    rw [ofList_filterMap_concat]
    exact congrArg (·.add source (name, target)) h.edges
  unexpanded := by
    rw [ofList_filterMap_concat]
    exact h.unexpanded
  claimed := fun other => (h.claimed other).trans (by simp)

/-- An unexpanded module keeps the record. -/
theorem addUnexpanded (h : graph.IsRecordOf changes) (source : Path) (name : String) :
    (graph.addUnexpanded source name).IsRecordOf (changes ++ [.addUnexpanded source name]) where
  nodup := nodup_insertNew h.nodup source
  nodes := fun other => by
    rw [mem_files_concat, ← h.nodes, or_comm]
    simp [ModuleGraph.addUnexpanded, addNode, Change.files]
  edges := by
    rw [ofList_filterMap_concat]
    exact h.edges
  unexpanded := by
    rw [ofList_filterMap_concat]
    exact congrArg (·.add source name) h.unexpanded
  claimed := fun other => (h.claimed other).trans (by simp)

/-- Claiming a file keeps the record. -/
theorem claim (h : graph.IsRecordOf changes) (path : Path) :
    (graph.claim path).IsRecordOf (changes ++ [.claim path]) where
  nodup := by
    rw [ModuleGraph.claim]
    split
    · exact h.nodup
    · exact nodup_insertNew h.nodup path
  nodes := fun other => by
    rw [mem_files_concat, ← h.nodes, ModuleGraph.claim]
    split
    · next hclaimed =>
      -- the claim that was made before has named the file
      have hmem : path ∈ graph.nodes :=
        (h.nodes path).mpr ⟨.claim path, (h.claimed path).mp (by simpa [isClaimed] using hclaimed),
          by simp [Change.files]⟩
      simp only [Change.files, List.mem_singleton]
      exact (or_iff_left_of_imp fun heq => heq ▸ hmem).symm
    · rw [or_comm]
      simp [addNode, Change.files]
  edges := by
    rw [edges_claim, ofList_filterMap_concat]
    exact h.edges
  unexpanded := by
    rw [unexpanded_claim, ofList_filterMap_concat]
    exact h.unexpanded
  claimed := fun other => by
    rw [mem_claimed_claim, h.claimed, or_comm]
    simp

/-- Every change is recorded behind those that were made before. -/
theorem apply (h : graph.IsRecordOf changes) (change : Change) :
    (graph.apply change).IsRecordOf (changes ++ [change]) := by
  cases change with
  | setRoot path => exact h.setRoot path
  | addModule source name target => exact h.addModule source name target
  | addUnexpanded source name => exact h.addUnexpanded source name
  | claim path => exact h.claim path

end IsRecordOf

/-- A graph records the changes by which it came about. -/
theorem isRecordOf_ofChanges (changes : List Change) :
    (ofChanges changes).IsRecordOf changes := by
  induction changes using List.reverseRecOn with
  | nil => exact .empty
  | append_singleton changes change ih =>
    rw [ofChanges_concat]
    exact ih.apply change

/-- Whatever the changes are and in whatever order they come: the files of the graph are the ones
that were named, each once; the modules and the unexpanded declarations of a file are those that were
added to it, in their order; all of them are listed file by file, in the order of the first use of
the files; their counts are those of the changes; and a file is claimed exactly if it was claimed
before, so only its first claim is answered with success. -/
theorem ofChanges_refines_log (changes : List Change) :
    let graph := ofChanges changes
    let added := changes.filterMap Change.module?
    let left := changes.filterMap Change.unexpanded?
    (graph.nodes.Nodup ∧
      ∀ path, path ∈ graph.nodes ↔ ∃ change ∈ changes, path ∈ change.files) ∧
    (∀ source, graph.children source = (added.filter (·.1 = source)).map (·.2) ∧
      graph.unexpandedOf source = (left.filter (·.1 = source)).map (·.2)) ∧
    (graph.modules =
      (added.map (·.1)).eraseDups.flatMap fun source => added.filter (·.1 = source)) ∧
    (graph.unexpandedModules =
      (left.map (·.1)).eraseDups.flatMap fun source => left.filter (·.1 = source)) ∧
    (graph.moduleCount = added.length ∧ graph.modules.length = added.length) ∧
    (graph.hasUnexpanded = true ↔ ∃ source name, .addUnexpanded source name ∈ changes) ∧
    ∀ path, graph.isClaimed path = false ↔ .claim path ∉ changes := by
  intro graph added left
  have hrecord : graph.IsRecordOf changes := isRecordOf_ofChanges changes
  have hcount : graph.edges.count = added.length := by rw [hrecord.edges, Grouped.count_ofList]
  refine ⟨⟨hrecord.nodup, hrecord.nodes⟩, fun source => ⟨?_, ?_⟩, ?_, ?_, ⟨hcount, hcount⟩, ?_,
    fun path => ?_⟩
  · rw [children, hrecord.edges, Grouped.get_ofList]
  · rw [unexpandedOf, hrecord.unexpanded, Grouped.get_ofList]
  · rw [modules, hrecord.edges, Grouped.toList_ofList]
  · rw [unexpandedModules, hrecord.unexpanded, Grouped.toList_ofList]
  · have hleft : left = [] ↔ ¬∃ source name, .addUnexpanded source name ∈ changes := by
      rw [List.filterMap_eq_nil_iff]
      constructor
      · rintro hnone ⟨source, name, hmem⟩
        exact absurd (hnone _ hmem) (by simp [Change.unexpanded?])
      · intro hnone change hchange
        cases change with
        | addUnexpanded source name => exact absurd ⟨source, name, hchange⟩ hnone
        | _ => rfl
    rw [hasUnexpanded, Bool.not_eq_true', List.isEmpty_eq_false_iff, hrecord.unexpanded, ne_eq,
      Grouped.groups_ofList_eq_nil_iff, hleft, not_not]
  · rw [isClaimed, decide_eq_false_iff_not, hrecord.claimed]

end FlatCrate.ModuleGraph
