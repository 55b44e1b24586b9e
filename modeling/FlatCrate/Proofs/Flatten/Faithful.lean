import FlatCrate.Proofs.Flatten.Composition
import FlatCrate.Proofs.Flatten.Recorded

/-!
# Faithful records

A file is recorded where it is spliced for the first time. While its lines are recorded, whatever is
recorded for other files leaves it alone, so in the end the graph has below it just what the lines
of the file declare. Every file of the graph of a complete run is recorded in this way, as it is
expanded inside of the crate root; the root itself has a budget of its own.
-/

namespace FlatCrate

open Source (ScanState)

variable {tree : FileTree} {root file child other : Path} {budget left : Budget}
  {graph later : ModuleGraph} {files : List Path} {active base : List Location}
  {state : ScanState} {lines : List String} {expansion body : Expansion}

namespace Expansion

/-- The modules that are spliced into the lines of a file, in order. -/
def modules : Expansion → List (String × Path)
  | copied _ rest => rest.modules
  | kept _ _ rest => rest.modules
  | spliced decl _ child _ rest => (decl.name, child) :: rest.modules
  | _ => []

/-- The modules that are left unexpanded on the lines of a file, in order. -/
def keptNames : Expansion → List String
  | copied _ rest => rest.keptNames
  | kept decl _ rest => decl.name :: rest.keptNames
  | spliced _ _ _ _ rest => rest.keptNames
  | _ => []

end Expansion

/-! ## What recording leaves alone -/

/-- A later graph has the same below a file. -/
structure ModuleGraph.Agrees (graph later : ModuleGraph) (file : Path) : Prop where
  children : later.children file = graph.children file
  unexpandedOf : later.unexpandedOf file = graph.unexpandedOf file

namespace ModuleGraph.Agrees

variable {next : ModuleGraph}

/-- A graph agrees with itself. -/
theorem refl (graph : ModuleGraph) (file : Path) : graph.Agrees graph file := ⟨rfl, rfl⟩

/-- Agreeing carries over from one graph to the next. -/
theorem trans (hnext : graph.Agrees next file) (hlater : next.Agrees later file) :
    graph.Agrees later file :=
  ⟨hlater.children.trans hnext.children, hlater.unexpandedOf.trans hnext.unexpandedOf⟩

/-- Claiming a file changes nothing that is recorded. -/
theorem claim (graph : ModuleGraph) (file other : Path) :
    graph.Agrees (graph.claim other) file := by
  rw [ModuleGraph.claim]
  split <;> exact ⟨rfl, rfl⟩

/-- A module recorded under one file changes nothing under another. -/
theorem addModule (hne : other ≠ file) (graph : ModuleGraph) (child : Path) (name : String) :
    graph.Agrees (graph.addModule file name child) other :=
  ⟨by rw [children_addModule, if_neg hne, List.append_nil], rfl⟩

/-- An unexpanded module recorded under one file changes nothing under another. -/
theorem addUnexpanded (hne : other ≠ file) (graph : ModuleGraph) (name : String) :
    graph.Agrees (graph.addUnexpanded file name) other :=
  ⟨rfl, by rw [unexpandedOf_addUnexpanded, if_neg hne, List.append_nil]⟩

end ModuleGraph.Agrees

/-- A file is recorded only if it has not been claimed, so it is none of the claimed ones. -/
theorem Expansion.agrees_claimed (expansion : Expansion) {recordLines : ModuleGraph → ModuleGraph}
    (hother : other ∈ graph.claimed)
    (hlines : other ≠ file → (graph.claim file).Agrees (recordLines (graph.claim file)) other) :
    graph.Agrees (expansion.claimed file recordLines graph) other := by
  rw [claimed]
  split
  · next hfresh =>
    rw [Bool.and_eq_true] at hfresh
    have hnot : file ∉ graph.claimed := by simpa [ModuleGraph.isClaimed] using hfresh.2
    exact (ModuleGraph.Agrees.claim graph other file).trans (hlines fun heq => hnot (heq ▸ hother))
  · exact .refl graph other

/-- Recording the lines of a file leaves alone what is below the other files that are claimed. -/
theorem Expansion.agrees_recordLines (expansion : Expansion) (hother : other ∈ graph.claimed)
    (hne : other ≠ file) : graph.Agrees (expansion.recordLines file graph) other := by
  induction expansion generalizing file graph with
  | copied _ _ ih => exact ih hother hne
  | kept decl _ _ ih =>
    exact (ModuleGraph.Agrees.addUnexpanded hne graph decl.name).trans (ih hother hne)
  | spliced decl _ child body _ ihBody ihRest =>
    let linked := graph.addModule file decl.name child
    have hinside : linked.Agrees (body.record child linked) other :=
      body.agrees_claimed hother (ihBody (ModuleGraph.mem_claimed_claim.mpr (.inr hother)))
    have hclaimed := (body.grows_record child linked).claimed other hother
    exact (ModuleGraph.Agrees.addModule hne graph child decl.name).trans
      (hinside.trans (ihRest hclaimed hne))
  | broken decl _ child body ihBody =>
    exact (ModuleGraph.Agrees.addModule hne graph child decl.name).trans
      (body.agrees_claimed hother (ihBody (ModuleGraph.mem_claimed_claim.mpr (.inr hother))))
  | _ => exact .refl graph other

/-- Recording a file leaves alone what is below the files that are claimed. -/
theorem Expansion.agrees_record (expansion : Expansion) (file : Path)
    (hother : other ∈ graph.claimed) : graph.Agrees (expansion.record file graph) other :=
  expansion.agrees_claimed hother
    (expansion.agrees_recordLines (ModuleGraph.mem_claimed_claim.mpr (.inr hother)))

/-! ## What has been recorded below a file -/

/-- What a graph has below a file is what the lines of an expansion declare. -/
structure ModuleGraph.Holds (graph : ModuleGraph) (file : Path) (expansion : Expansion) : Prop where
  children : graph.children file = expansion.modules
  unexpandedOf : graph.unexpandedOf file = expansion.keptNames
  claimed : ∀ name child, (name, child) ∈ expansion.modules → child ∈ graph.claimed

/-- What a later graph has below a file is what an earlier one had, followed by what the lines of an
expansion declare. -/
structure ModuleGraph.Gains (graph later : ModuleGraph) (file : Path) (expansion : Expansion) :
    Prop where
  children : later.children file = graph.children file ++ expansion.modules
  unexpandedOf : later.unexpandedOf file = graph.unexpandedOf file ++ expansion.keptNames
  claimed : ∀ name child, (name, child) ∈ expansion.modules → child ∈ later.claimed

/-- A file has been recorded completely, as it is expanded while some files are being spliced. -/
def IsWritten (tree : FileTree) (base : List Location) (graph : ModuleGraph) (file : Path) : Prop :=
  ∃ expansion, Yields tree base (.file file .ofChildren) expansion ∧
    expansion.isComplete = true ∧ graph.Holds file expansion

/-- What has been written of a file stays as long as later graphs agree about it. -/
theorem IsWritten.of_agrees (h : IsWritten tree base graph file) (hagrees : graph.Agrees later file)
    (hclaimed : ∀ other ∈ graph.claimed, other ∈ later.claimed) :
    IsWritten tree base later file := by
  obtain ⟨expansion, hyields, hcomplete, hholds⟩ := h
  exact ⟨expansion, hyields, hcomplete, hagrees.children.trans hholds.children,
    hagrees.unexpandedOf.trans hholds.unexpandedOf,
    fun name child hmem => hclaimed child (hholds.claimed name child hmem)⟩

/-- Every file has been recorded completely or not at all, but for some that are still open. -/
structure IsFaithful (tree : FileTree) (base : List Location) (graph : ModuleGraph)
    (files : List Path) : Prop where
  untouched : ∀ file, file ∉ graph.claimed →
    graph.children file = [] ∧ graph.unexpandedOf file = []
  written : ∀ file ∈ graph.claimed, file ∉ files → IsWritten tree base graph file

namespace IsFaithful

/-- A change below an open file alone. -/
theorem of_agrees (h : IsFaithful tree base graph files) (hfile : file ∈ files)
    (hopen : file ∈ graph.claimed) (hclaimed : later.claimed = graph.claimed)
    (hagrees : ∀ other, other ≠ file → graph.Agrees later other) :
    IsFaithful tree base later files := by
  refine ⟨fun other hother => ?_, fun other hother hnot => ?_⟩
  · rw [hclaimed] at hother
    have hne : other ≠ file := fun heq => hother (heq ▸ hopen)
    rw [(hagrees other hne).children, (hagrees other hne).unexpandedOf]
    exact h.untouched other hother
  · rw [hclaimed] at hother
    have hne : other ≠ file := fun heq => hnot (heq ▸ hfile)
    exact (h.written other hother hnot).of_agrees (hagrees other hne) (by simp [hclaimed])

/-- A file that is claimed is open. -/
theorem claim (h : IsFaithful tree base graph files) (file : Path) :
    IsFaithful tree base (graph.claim file) (file :: files) := by
  refine ⟨fun other hother => ?_, fun other hother hnot => ?_⟩
  · rw [ModuleGraph.mem_claimed_claim, not_or] at hother
    have hagrees := ModuleGraph.Agrees.claim graph other file
    rw [hagrees.children, hagrees.unexpandedOf]
    exact h.untouched other hother.2
  · rw [List.mem_cons, not_or] at hnot
    have hclaimed := (ModuleGraph.mem_claimed_claim.mp hother).resolve_left hnot.1
    exact (h.written other hclaimed hnot.2).of_agrees (.claim graph other file)
      fun _ h => ModuleGraph.mem_claimed_claim.mpr (.inr h)

/-- A file that has been recorded completely is no longer open. -/
theorem close (h : IsFaithful tree base graph (file :: files))
    (hfile : IsWritten tree base graph file) : IsFaithful tree base graph files := by
  refine ⟨h.untouched, fun other hother hnot => ?_⟩
  by_cases heq : other = file
  · exact heq ▸ hfile
  · exact h.written other hother (by simp [heq, hnot])

end IsFaithful

/-- A file has been recorded completely once it has been recorded, unless it was open before. -/
private theorem faithful_record
    (hyields : Yields tree base (.file child .ofChildren) body) (hcomplete : body.isComplete = true)
    (hlines : ∀ graph, child ∈ graph.claimed → IsFaithful tree base graph (child :: files) →
      IsFaithful tree base (body.recordLines child graph) (child :: files) ∧
        graph.Gains (body.recordLines child graph) child body)
    (hgraph : IsFaithful tree base graph files) :
    IsFaithful tree base (body.record child graph) files ∧
      child ∈ (body.record child graph).claimed := by
  by_cases hclaimed : child ∈ graph.claimed
  · rw [Expansion.record_of_mem_claimed hclaimed]
    exact ⟨hgraph, hclaimed⟩
  · rw [Expansion.record_of_notMem_claimed (Expansion.isReadable_of_isComplete hcomplete) hclaimed]
    have hfirst : child ∈ (graph.claim child).claimed := by simp
    obtain ⟨hfaithful, hgains⟩ := hlines _ hfirst (hgraph.claim child)
    -- nothing had been recorded below the file before it was claimed
    obtain ⟨hchildren, hunexpanded⟩ := hgraph.untouched child hclaimed
    have hagrees := ModuleGraph.Agrees.claim graph child child
    refine ⟨hfaithful.close ⟨body, hyields, hcomplete, ?_, ?_, hgains.claimed⟩, ?_⟩
    · rw [hgains.children, hagrees.children, hchildren, List.nil_append]
    · rw [hgains.unexpandedOf, hagrees.unexpandedOf, hunexpanded, List.nil_append]
    · exact (body.grows_recordLines child _).claimed child hfirst

/-- Recording the lines of a complete file puts what they declare below the file, and leaves no file
/-- Recording the lines of a file that is expanded to its end leaves a faithful graph. -/
open that was not open before. -/
theorem Yields.faithful_recordLines
    (h : Yields tree active (.lines file state left lines) expansion)
    (hcomplete : expansion.isComplete = true) (hbase : base ⊆ active) (hfile : file ∈ files)
    (hclaimed : file ∈ graph.claimed) (hgraph : IsFaithful tree base graph files) :
    IsFaithful tree base (expansion.recordLines file graph) files ∧
      graph.Gains (expansion.recordLines file graph) file expansion := by
  induction expansion generalizing active file state left lines graph files with
  | finished =>
    exact ⟨hgraph, (List.append_nil _).symm, (List.append_nil _).symm, by simp [Expansion.modules]⟩
  | copied line rest ih =>
    cases h with
    | copied _ hrest =>
      obtain ⟨hfaithful, hgains⟩ := ih hrest hcomplete hbase hfile hclaimed hgraph
      exact ⟨hfaithful, hgains.children, hgains.unexpandedOf, hgains.claimed⟩
  | kept decl line rest ih =>
    cases h with
    | kept _ _ hrest =>
      let added := graph.addUnexpanded file decl.name
      have hadded : IsFaithful tree base added files :=
        hgraph.of_agrees hfile hclaimed rfl fun other hne => .addUnexpanded hne graph decl.name
      have hopen : file ∈ added.claimed := hclaimed
      obtain ⟨hfaithful, hgains⟩ := ih hrest hcomplete hbase hfile hopen hadded
      refine ⟨hfaithful, hgains.children, ?_, hgains.claimed⟩
      have hname : added.unexpandedOf file = graph.unexpandedOf file ++ [decl.name] := by
        simp [added, ModuleGraph.unexpandedOf_addUnexpanded]
      exact hgains.unexpandedOf.trans (by rw [hname, List.append_assoc]; rfl)
  | spliced decl line child body rest ihBody ihRest =>
    cases h with
    | spliced _ _ _ hbody hdone hrest =>
      let linked := graph.addModule file decl.name child
      let inside := body.record child linked
      have hlinked : IsFaithful tree base linked files :=
        hgraph.of_agrees hfile hclaimed rfl fun other hne => .addModule hne graph child decl.name
      have hinside : IsFaithful tree base inside files ∧ child ∈ inside.claimed := by
        refine faithful_record (hbody.of_subset hdone hbase) hdone (fun graph hchild hgraph => ?_)
          hlinked
        obtain ⟨_, _, -, -, hlines⟩ := hbody.exists_lines hdone
        exact ihBody hlines hdone (List.subset_cons_of_subset _ hbase) List.mem_cons_self hchild
          hgraph
      have hopen : file ∈ inside.claimed := (body.grows_record child linked).claimed file hclaimed
      obtain ⟨hfaithful, hgains⟩ := ihRest hrest hcomplete hbase hfile hopen hinside.1
      have hagrees : linked.Agrees inside file := body.agrees_record child hclaimed
      refine ⟨hfaithful, ?_, ?_, ?_⟩
      · have hname : linked.children file = graph.children file ++ [(decl.name, child)] := by
          simp [linked, ModuleGraph.children_addModule]
        refine hgains.children.trans ?_
        rw [hagrees.children, hname, List.append_assoc]
        rfl
      · exact hgains.unexpandedOf.trans (congrArg (· ++ rest.keptNames) hagrees.unexpandedOf)
      · refine fun name target hmem => ?_
        rcases List.mem_cons.mp hmem with heq | hmem
        · obtain ⟨-, rfl⟩ := Prod.mk.inj heq
          exact (rest.grows_recordLines file inside).claimed target hinside.2
        · exact hgains.claimed name target hmem
  | _ => simp [Expansion.isComplete] at hcomplete

/-- The graph of a complete run: the root has what the run has met in it, and every other file has
been recorded completely or not at all. -/
theorem Yields.faithful_recorded {run : Expansion} {location : Location}
    (h : Yields tree [location] (.lines root state budget lines) run)
    (hcomplete : run.isComplete = true) :
    IsFaithful tree [location] (run.recorded root) [root] ∧ (run.recorded root).Holds root run := by
  let started := (({} : ModuleGraph).setRoot root).claim root
  have hstarted : IsFaithful tree [location] started [root] :=
    IsFaithful.claim ⟨fun _ _ => ⟨rfl, rfl⟩, by simp⟩ root
  have hclaimed : root ∈ started.claimed := by simp [started]
  have hrecorded : run.recorded root = run.recordLines root started :=
    Expansion.record_of_notMem_claimed (Expansion.isReadable_of_isComplete hcomplete) (by simp)
  obtain ⟨hfaithful, hgains⟩ := h.faithful_recordLines hcomplete (List.Subset.refl _)
    (List.mem_singleton_self root) hclaimed hstarted
  rw [hrecorded]
  exact ⟨hfaithful, hgains.children, hgains.unexpandedOf, hgains.claimed⟩

end FlatCrate
