import FlatCrate.Proofs.Flatten.Faithful
import FlatCrate.Proofs.Graph.Unfolding

/-!
# The recorded graph is the expansion

A complete run records a graph that is unfolded from the crate root to the tree of its expansion: at
every place where a file has been spliced, the graph has the modules and the unexpanded declarations
that the run has met there, in the order of the lines. The lines of a file are recorded only once.
That is enough, since a file that is spliced again expands to the same once more: the files around
it can only end a run, and the root, which has a budget of its own, is never spliced.
-/

namespace FlatCrate

open Source (ScanState)

variable {tree : FileTree} {root file child other : Path} {budget left : Budget}
  {graph later : ModuleGraph} {files : List Path} {active base : List Location}
  {state : ScanState} {lines : List String} {expansion : Expansion} {withUnexpanded : Bool}

namespace Expansion

/-- What the lines of a file declare, in the order of the lines. -/
def items (withUnexpanded : Bool) : Expansion → List ModuleGraph.Item
  | copied _ rest => rest.items withUnexpanded
  | kept decl _ rest =>
    if withUnexpanded then .unexpanded decl.name :: rest.items withUnexpanded
    else rest.items withUnexpanded
  | spliced decl _ child _ rest => .module decl.name child :: rest.items withUnexpanded
  | _ => []

/-- The tree of an expansion: what the lines of a file declare, in the order of the lines, and below
each spliced module the tree of its file at this place. -/
def moduleTree (withUnexpanded : Bool) : Expansion → ModuleTree
  | copied _ rest => rest.moduleTree withUnexpanded
  | kept decl _ rest =>
    if withUnexpanded then .unexpanded decl.name (rest.moduleTree withUnexpanded)
    else rest.moduleTree withUnexpanded
  | spliced decl _ child body rest =>
    .module decl.name child (body.moduleTree withUnexpanded) (rest.moduleTree withUnexpanded)
  | _ => .done

/-- How many blocks of spliced files the flat text has, at all depths. -/
def blockCount : Expansion → Nat
  | copied _ rest => rest.blockCount
  | kept _ _ rest => rest.blockCount
  | spliced _ _ _ body rest => body.blockCount + rest.blockCount + 1
  | _ => 0

/-- How many unexpanded declarations the flat text has, at all depths. -/
def keptCount : Expansion → Nat
  | copied _ rest => rest.keptCount
  | kept _ _ rest => rest.keptCount + 1
  | spliced _ _ _ body rest => body.keptCount + rest.keptCount
  | _ => 0

/-- The items of the tree are the blocks and the unexpanded declarations of the flat text. -/
theorem count_moduleTree (withUnexpanded : Bool) (expansion : Expansion) :
    (expansion.moduleTree withUnexpanded).count =
      expansion.blockCount + if withUnexpanded then expansion.keptCount else 0 := by
  induction expansion with
  | copied _ _ ih => exact ih
  | kept decl _ rest ih =>
    cases withUnexpanded with
    | false => exact ih
    | true =>
      simp only [if_true] at ih ⊢
      rw [moduleTree, if_pos rfl, ModuleTree.count, ih, blockCount, keptCount, Nat.add_assoc]
  | spliced _ _ _ body rest ihBody ihRest =>
    rw [moduleTree, ModuleTree.count, ihBody, ihRest, blockCount, keptCount]
    split_ifs <;> omega
  | _ => cases withUnexpanded <;> rfl

end Expansion

/-! ## The order of the lines -/

/-- When the budget has ended, no more files are spliced. -/
theorem Yields.modules_eq_nil (h : Yields tree active (.lines file state left lines) expansion)
    (hspend : left.spend? = none) : expansion.modules = [] := by
  induction lines generalizing state expansion with
  | nil => cases h; rfl
  | cons line lines ih =>
    cases h with
    | copied _ hrest => exact (ih hrest :)
    | kept _ _ hrest => exact (ih hrest :)
    | spliced _ hspend' _ _ _ _ => simp [hspend] at hspend'
    | _ => rfl

/-- On the lines of a file, all spliced modules stand in front of all unexpanded ones. -/
theorem Yields.items_eq (h : Yields tree active (.lines file state left lines) expansion)
    (withUnexpanded : Bool) : expansion.items withUnexpanded =
      expansion.modules.map (fun (name, file) => .module name file) ++
        if withUnexpanded then expansion.keptNames.map .unexpanded else [] := by
  induction lines generalizing state left expansion with
  | nil => cases h; cases withUnexpanded <;> rfl
  | cons line lines ih =>
    cases h with
    | copied _ hrest => exact (ih hrest :)
    | kept _ hspend hrest =>
      have hmodules := hrest.modules_eq_nil hspend
      have hitems := ih hrest
      rw [hmodules] at hitems
      rw [Expansion.items, hitems, Expansion.modules, hmodules, Expansion.keptNames]
      cases withUnexpanded <;> rfl
    | spliced _ _ _ _ _ hrest =>
      rw [Expansion.items, ih hrest, Expansion.modules, Expansion.keptNames]
      rfl
    | _ => cases withUnexpanded <;> rfl

/-! ## Unfolding what has been recorded -/

/-- What a graph has under a file is what its expansion has at its first level. -/
theorem ModuleGraph.Holds.items_eq (h : graph.Holds file expansion)
    (hyields : Yields tree active (.lines file state left lines) expansion)
    (withUnexpanded : Bool) :
    graph.items withUnexpanded file = expansion.items withUnexpanded := by
  rw [ModuleGraph.items, h.children, h.unexpandedOf, hyields.items_eq]

/-- The lines of a complete file are unfolded to their tree, if all files but the root are recorded
as they are expanded inside of the root. The root is not spliced there. -/
theorem Yields.unfolds (h : Yields tree active (.lines file state left lines) expansion)
    (hcomplete : expansion.isComplete = true) (hbase : base ⊆ active)
    (hroot : ∀ location, tree.realLocation root = some location → location ∈ base)
    (hwritten : ∀ other ∈ graph.claimed, other ≠ root → IsWritten tree base graph other)
    (hclaimed : ∀ name child, (name, child) ∈ expansion.modules → child ∈ graph.claimed) :
    graph.Unfolds withUnexpanded (expansion.items withUnexpanded)
      (expansion.moduleTree withUnexpanded) := by
  induction expansion generalizing active file state left lines with
  | finished => exact .done
  | copied line rest ih =>
    cases h with
    | copied _ hrest => exact ih hrest hcomplete hbase hclaimed
  | kept decl line rest ih =>
    cases h with
    | kept _ _ hrest =>
      have hunfolds := ih hrest hcomplete hbase hclaimed
      cases withUnexpanded with
      | false => exact hunfolds
      | true => exact .unexpanded hunfolds
  | spliced decl line child body rest ihBody ihRest =>
    cases h with
    | spliced _ _ htarget hbody hdone hrest =>
      have hchild := hclaimed decl.name child List.mem_cons_self
      have hne : child ≠ root := by
        rintro rfl
        obtain ⟨-, location, hlocation, hnot⟩ := target_eq_ok_iff.mp htarget
        exact hnot (hbase (hroot location hlocation))
      -- the file expands here to the same as where it has been recorded
      obtain ⟨recorded, hyields, -, hholds⟩ := hwritten child hchild hne
      obtain rfl := hyields.unique (hbody.of_subset hdone hbase)
      have hunfolds := ihRest hrest hcomplete hbase fun name target hmem =>
        hclaimed name target (List.mem_cons_of_mem _ hmem)
      obtain ⟨_, _, -, -, hlines⟩ := hbody.exists_lines hdone
      have hbelow := ihBody hlines hdone (List.subset_cons_of_subset _ hbase) hholds.claimed
      rw [← hholds.items_eq hlines] at hbelow
      exact .module hbelow hunfolds
  | _ => simp [Expansion.isComplete] at hcomplete

/-- A file that has been recorded completely can be unfolded. -/
theorem IsWritten.exists_unfolds (h : IsWritten tree base graph file)
    (hroot : ∀ location, tree.realLocation root = some location → location ∈ base)
    (hwritten : ∀ other ∈ graph.claimed, other ≠ root → IsWritten tree base graph other)
    (withUnexpanded : Bool) :
    ∃ unfolded, graph.Unfolds withUnexpanded (graph.items withUnexpanded file) unfolded := by
  obtain ⟨expansion, hyields, hcomplete, hholds⟩ := h
  obtain ⟨_, _, -, -, hlines⟩ := hyields.exists_lines hcomplete
  refine ⟨expansion.moduleTree withUnexpanded, ?_⟩
  rw [hholds.items_eq hlines]
  exact hlines.unfolds hcomplete (List.subset_cons_self _ _) hroot hwritten hholds.claimed

/-- Only files that are claimed have files below them, and if all of these can be unfolded then no
file stands below itself. -/
theorem IsFaithful.not_transGen (h : IsFaithful tree base graph files)
    (hunfolds : ∀ file ∈ graph.claimed, ∃ unfolded,
      graph.Unfolds withUnexpanded (graph.items withUnexpanded file) unfolded) (file : Path) :
    ¬Relation.TransGen graph.HasEdge file file := by
  intro hcycle
  obtain ⟨_, -, name, hedge⟩ := Relation.TransGen.tail'_iff.mp hcycle
  by_cases hfile : file ∈ graph.claimed
  · obtain ⟨_, hunfolded⟩ := hunfolds file hfile
    exact hunfolded.not_transGen hcycle
  · simp [(h.untouched file hfile).1] at hedge

/-! ## The files of the graph -/

/-- All files of a graph are reached from its root, and they include the ones that are claimed. -/
structure ModuleGraph.IsRooted (graph : ModuleGraph) (root : Path) : Prop where
  root_eq : graph.root = some root
  root_mem : root ∈ graph.nodes
  claimed : ∀ file ∈ graph.claimed, file ∈ graph.nodes
  targets : graph.TargetsAreNodes
  reaches : ∀ file ∈ graph.nodes, Relation.ReflTransGen graph.HasEdge file root

/-- A recorded module adds one edge. -/
theorem ModuleGraph.hasEdge_addModule {name : String} :
    (graph.addModule file name child).HasEdge other root ↔
      graph.HasEdge other root ∨ root = file ∧ other = child := by
  simp only [HasEdge, children_addModule, List.mem_append]
  by_cases heq : root = file <;> simp [heq, exists_or]

namespace ModuleGraph.IsRooted

/-- A graph with a root alone is rooted. -/
theorem setRoot (root : Path) : (({} : ModuleGraph).setRoot root).IsRooted root where
  root_eq := rfl
  root_mem := List.mem_singleton_self root
  claimed := by simp
  targets := fun _ _ ⟨_, hedge⟩ => absurd hedge List.not_mem_nil
  reaches := fun file hfile => List.mem_singleton.mp hfile ▸ .refl

/-- A change of other parts than the files and the modules. -/
theorem of_eq (h : graph.IsRooted root) (hroot : later.root = graph.root)
    (hnodes : later.nodes = graph.nodes) (hedges : later.edges = graph.edges)
    (hclaimed : ∀ file ∈ later.claimed, file ∈ graph.nodes) : later.IsRooted root := by
  have hasEdge : later.HasEdge = graph.HasEdge := by
    funext child file
    rw [HasEdge, HasEdge, children, children, hedges]
  refine ⟨hroot.trans h.root_eq, hnodes ▸ h.root_mem, hnodes ▸ hclaimed, ?_, ?_⟩
  · rw [TargetsAreNodes, hasEdge, hnodes]
    exact h.targets
  · rw [hasEdge, hnodes]
    exact h.reaches

/-- Claiming a file leaves a graph rooted. -/
theorem claim (h : graph.IsRooted root) (hfile : file ∈ graph.nodes) :
    (graph.claim file).IsRooted root := by
  have hclaimed : ∀ other ∈ (graph.claim file).claimed, other ∈ graph.nodes := fun other hother =>
    (mem_claimed_claim.mp hother).elim (fun heq => heq ▸ hfile) (h.claimed other)
  refine h.of_eq ?_ ?_ ?_ hclaimed <;>
    rw [ModuleGraph.claim, addNode_of_mem hfile] <;> split <;> rfl

/-- An unexpanded module of a node leaves a graph rooted. -/
theorem addUnexpanded (h : graph.IsRooted root) (hfile : file ∈ graph.nodes) (name : String) :
    (graph.addUnexpanded file name).IsRooted root := by
  rw [ModuleGraph.addUnexpanded, addNode_of_mem hfile]
  exact h.of_eq rfl rfl rfl h.claimed

/-- A module of a node leaves a graph rooted. -/
theorem addModule (h : graph.IsRooted root) (hfile : file ∈ graph.nodes) (name : String)
    (child : Path) : (graph.addModule file name child).IsRooted root := by
  have hnodes (other : Path) : other ∈ (graph.addModule file name child).nodes ↔
      other = child ∨ other ∈ graph.nodes := by
    rw [mem_nodes_addModule]
    exact or_congr_right (or_iff_right_of_imp fun heq => heq ▸ hfile)
  have hmono {lower upper : Path} (hreaches : Relation.ReflTransGen graph.HasEdge lower upper) :
      Relation.ReflTransGen (graph.addModule file name child).HasEdge lower upper :=
    Relation.ReflTransGen.mono (fun _ _ hedge => hasEdge_addModule.mpr (.inl hedge)) _ _ hreaches
  have hlink : (graph.addModule file name child).HasEdge child file :=
    hasEdge_addModule.mpr (.inr ⟨rfl, rfl⟩)
  refine ⟨h.root_eq, (hnodes root).mpr (.inr h.root_mem),
    fun other hother => (hnodes other).mpr (.inr (h.claimed other hother)),
    fun lower upper hedge => (hnodes lower).mpr ?_, fun other hother => ?_⟩
  · exact (hasEdge_addModule.mp hedge).symm.imp (·.2) (h.targets lower upper)
  · rcases (hnodes other).mp hother with rfl | hother
    · exact .head hlink (hmono (h.reaches file hfile))
    · exact hmono (h.reaches other hother)

end ModuleGraph.IsRooted

/-- A file of a graph that is recorded adds only what its lines add. -/
theorem Expansion.isRooted_claimed (expansion : Expansion)
    {recordLines : ModuleGraph → ModuleGraph} (h : graph.IsRooted root) (hfile : file ∈ graph.nodes)
    (hlines : (graph.claim file).IsRooted root → file ∈ (graph.claim file).claimed →
      (recordLines (graph.claim file)).IsRooted root) :
    (expansion.claimed file recordLines graph).IsRooted root := by
  rw [claimed]
  split
  · exact hlines (h.claim hfile) (by simp)
  · exact h

/-- Recording the lines of a claimed file adds only files that are reached from there. -/
theorem Expansion.isRooted_recordLines (expansion : Expansion) (h : graph.IsRooted root)
    (hfile : file ∈ graph.claimed) : (expansion.recordLines file graph).IsRooted root := by
  induction expansion generalizing file graph with
  | copied _ _ ih => exact ih h hfile
  | kept decl _ _ ih => exact ih (h.addUnexpanded (h.claimed file hfile) decl.name) hfile
  | spliced decl _ child body _ ihBody ihRest =>
    have hlinked := h.addModule (h.claimed file hfile) decl.name child
    have hinside : (body.record child (graph.addModule file decl.name child)).IsRooted root :=
      body.isRooted_claimed hlinked (by simp) fun h hmem => ihBody h hmem
    exact ihRest hinside ((body.grows_record child _).claimed file hfile)
  | broken decl _ child body ihBody =>
    have hlinked := h.addModule (h.claimed file hfile) decl.name child
    exact body.isRooted_claimed hlinked (by simp) fun h hmem => ihBody h hmem
  | _ => exact h

/-- Recording a file of a graph adds only files that are reached from there. -/
theorem Expansion.isRooted_record (expansion : Expansion) (h : graph.IsRooted root)
    (hfile : file ∈ graph.nodes) : (expansion.record file graph).IsRooted root :=
  expansion.isRooted_claimed h hfile fun h hmem => expansion.isRooted_recordLines h hmem

/-! ## Complete runs -/

/-- What a run that succeeds has recorded: a graph without cycles, all of whose files are reached
from the root. It is unfolded from the root to the tree of the run, and it is drawn with one line
for the root, one for each block of a spliced file in the flat text, and one for each declaration
that has been kept there; no file is marked in it. -/
theorem flatten_records_expansion {text : String} (h : flatten tree root budget = .ok text) :
    let run := Expansion.ofRoot tree root budget
    let graph := run.recorded root
    text = run.text ∧
    (∀ file, ¬Relation.TransGen graph.HasEdge file file) ∧
    (∀ file ∈ graph.nodes, Relation.ReflTransGen graph.HasEdge file root) ∧
    (∀ withUnexpanded, graph.Unfolds withUnexpanded (graph.items withUnexpanded root)
      (run.moduleTree withUnexpanded)) ∧
    ∀ view style withUnexpanded, ∃ rows,
      graph.draw tree view style withUnexpanded =
        String.intercalate "\n" (ModuleGraph.label tree view root :: rows) ∧
      rows = (run.moduleTree withUnexpanded).draw style (ModuleGraph.label tree view) "" ∧
      rows.length = run.blockCount + if withUnexpanded then run.keptCount else 0 := by
  intro run graph
  obtain ⟨hcomplete, rfl⟩ := flatten_eq_ok_iff.mp h
  have hrun : Yields tree [] (.file root budget) run := yields_ofRoot tree root budget
  have hempty := ModuleGraph.IsRooted.setRoot root
  have hrooted : graph.IsRooted root := run.isRooted_record hempty hempty.root_mem
  obtain ⟨_, location, -, hlocation, hlines⟩ := hrun.exists_lines hcomplete
  obtain ⟨hfaithful, hholds⟩ := hlines.faithful_recorded hcomplete
  have hroot : ∀ place, tree.realLocation root = some place → place ∈ [location] := by
    simp [hlocation]
  have hwritten : ∀ other ∈ graph.claimed, other ≠ root →
      IsWritten tree [location] graph other := fun other hother hne =>
    hfaithful.written other hother (by simpa using hne)
  have hunfolds (withUnexpanded : Bool) : graph.Unfolds withUnexpanded
      (graph.items withUnexpanded root) (run.moduleTree withUnexpanded) := by
    rw [hholds.items_eq hlines]
    exact hlines.unfolds hcomplete (List.Subset.refl _) hroot hwritten hholds.claimed
  have hclaimed : ∀ file ∈ graph.claimed, ∃ unfolded,
      graph.Unfolds true (graph.items true file) unfolded := by
    intro file hfile
    by_cases heq : file = root
    · exact ⟨_, heq ▸ hunfolds true⟩
    · exact (hwritten file hfile heq).exists_unfolds hroot hwritten true
  have hacyclic := hfaithful.not_transGen hclaimed
  refine ⟨rfl, hacyclic, hrooted.reaches, hunfolds, fun view style withUnexpanded =>
    ⟨_, ?_, rfl, ?_⟩⟩
  · exact (hunfolds withUnexpanded).draw_eq hrooted.root_eq hrooted.root_mem hrooted.targets
      hacyclic tree view style
  · rw [ModuleTree.length_draw, Expansion.count_moduleTree]

/-- A root that splices one file twice and keeps a declaration; the file splices another one. -/
def sharedTree : FileTree where
  workDir := []
  entries := [(["lib.rs"], .file "mod a;\n#[path = \"a.rs\"]\nmod b;\nmod c;\n".toUTF8),
    (["a.rs"], .file "mod d;\n".toUTF8), (["a"], .directory), (["d.rs", "a"], .file "".toUTF8)]

/-- The tree of that crate: the file that is spliced again has the same below it. -/
def sharedModuleTree : ModuleTree :=
  .module "a" ⟨.relative, ["a.rs"]⟩ (.module "d" ⟨.relative, ["a", "d.rs"]⟩ .done .done)
    (.module "b" ⟨.relative, ["a.rs"]⟩ (.module "d" ⟨.relative, ["a", "d.rs"]⟩ .done .done)
      (.unexpanded "c" .done))

/-- The file that is recorded once is unfolded at both places, and each of the four blocks has a line
of its own in the drawing, like the declaration that has been kept. -/
theorem flatten_sharedTree_records :
    let root : Path := ⟨.relative, ["lib.rs"]⟩
    let run := Expansion.ofRoot sharedTree root (.limited 2)
    let graph := run.recorded root
    flatten sharedTree root (.limited 2) = .ok run.text ∧
      (∀ file, ¬Relation.TransGen graph.HasEdge file file) ∧
      (∀ file ∈ graph.nodes, Relation.ReflTransGen graph.HasEdge file root) ∧
      graph.Unfolds true (graph.items true root) sharedModuleTree ∧
      ∀ view, ∃ rows, rows.length = 5 ∧ graph.draw sharedTree view .lines true =
        String.intercalate "\n" (ModuleGraph.label sharedTree view root :: rows) := by
  intro root run graph
  have hflatten : flatten sharedTree root (.limited 2) = .ok run.text :=
    flatten_eq_ok_iff.mpr ⟨by decide +kernel, rfl⟩
  obtain ⟨-, hacyclic, hreaches, hunfolds, hdraw⟩ := flatten_records_expansion hflatten
  have htree : run.moduleTree true = sharedModuleTree := by decide +kernel
  refine ⟨hflatten, hacyclic, hreaches, htree ▸ hunfolds true, fun view => ?_⟩
  obtain ⟨rows, hrows, -, hlength⟩ := hdraw view .lines true
  exact ⟨rows, hlength.trans (by decide +kernel), hrows⟩

end FlatCrate
