import FlatCrate.Proofs.Flatten.Course
import FlatCrate.Proofs.Graph.Growth
import Mathlib.Data.List.Chain

/-!
# What has been recorded

A file is recorded where it is spliced for the first time; after that its lines are not recorded
again. Nothing is lost by that: a file that was claimed before and is not being spliced any more is
settled, all of its expanded modules are in the graph and their files are claimed in turn. So the
files that are spliced into each other are linked in the graph at any point of a run.
-/

namespace FlatCrate

open Expansion (sourceOf?)
open Source (ScanState ModuleDecl scanLine scanLines)

variable {tree : FileTree} {root : Path} {budget : Budget} {graph later : ModuleGraph}
  {files : List Path}

/-! ## Settled files -/

/-- A module is recorded below a file, and its own file is claimed. -/
def ModuleGraph.HasModule (graph : ModuleGraph) (file : Path) (name : String) (child : Path) :
    Prop :=
  (name, child) ∈ graph.children file ∧ child ∈ graph.claimed

/-- A module stays in a graph that grows. -/
theorem ModuleGraph.HasModule.of_grows {file child : Path} {name : String}
    (h : graph.HasModule file name child) (hgrows : graph.Grows later) :
    later.HasModule file name child :=
  ⟨hgrows.children file _ h.1, hgrows.claimed child h.2⟩

/-- All expanded modules of a file are recorded. -/
def IsSettled (tree : FileTree) (graph : ModuleGraph) (file : Path) : Prop :=
  ∀ decl child, IsExpanded tree file .ofChildren decl →
    Layout.moduleFile? tree file decl = some child → graph.HasModule file decl.name child

/-- All claimed files are settled, but for some that are still open. -/
def SettledBut (tree : FileTree) (graph : ModuleGraph) (files : List Path) : Prop :=
  ∀ file ∈ graph.claimed, file ∉ files → IsSettled tree graph file

namespace SettledBut

/-- Files that are settled stay settled while the graph grows and no other file is claimed. -/
theorem of_grows (h : SettledBut tree graph files) (hgrows : graph.Grows later)
    (hclaimed : ∀ file ∈ later.claimed, file ∈ graph.claimed) : SettledBut tree later files :=
  fun file hfile hnot decl child hdecl hchild =>
    (h file (hclaimed file hfile) hnot decl child hdecl hchild).of_grows hgrows

/-- Recording an unexpanded module leaves settled what was settled. -/
theorem addUnexpanded (h : SettledBut tree graph files) (file : Path) (name : String) :
    SettledBut tree (graph.addUnexpanded file name) files :=
  h.of_grows (.addUnexpanded graph file name) fun _ hfile => hfile

/-- Recording a module leaves settled what was settled. -/
theorem addModule (h : SettledBut tree graph files) (file child : Path) (name : String) :
    SettledBut tree (graph.addModule file name child) files :=
  h.of_grows (.addModule graph file child name) fun _ hfile => hfile

/-- A file that is claimed is open. -/
theorem claim (h : SettledBut tree graph files) (file : Path) :
    SettledBut tree (graph.claim file) (file :: files) := by
  intro other hother hnot decl child hdecl hchild
  rw [List.mem_cons, not_or] at hnot
  have hother' := (ModuleGraph.mem_claimed_claim.mp hother).resolve_left hnot.1
  exact (h other hother' hnot.2 decl child hdecl hchild).of_grows (.claim graph file)

/-- A file that is settled is no longer open. -/
theorem close {file : Path} (h : SettledBut tree graph (file :: files))
    (hfile : IsSettled tree graph file) : SettledBut tree graph files := by
  intro other hother hnot
  by_cases heq : other = file
  · exact heq ▸ hfile
  · exact h other hother (by simp [heq, hnot])

end SettledBut

/-! ## Recording a complete file -/

/-- All modules expanded in some lines of a file are recorded. -/
def LinesSettled (tree : FileTree) (graph : ModuleGraph) (file : Path) (state : ScanState)
    (left : Budget) (lines : List String) : Prop :=
  ∀ first rest last found decl child, lines = first ++ rest →
    scanLines state first = .ok (last, found) → some decl ∈ left.grant found →
    Layout.moduleFile? tree file decl = some child → graph.HasModule file decl.name child

namespace LinesSettled

variable {file : Path} {state next : ScanState} {left : Budget} {line : String}
  {lines : List String}

/-- No lines are always settled. -/
theorem nil : LinesSettled tree graph file state left [] := by
  intro first rest last found decl child hlines hscan hmem
  obtain ⟨rfl, rfl⟩ := List.append_eq_nil_iff.mp hlines.symm
  obtain ⟨rfl, rfl⟩ := Prod.mk.inj (Except.ok.inj hscan)
  simp [Budget.grant] at hmem

/-- A line is settled if its module is in the graph and the lines behind it are settled. -/
theorem cons {found : Option ModuleDecl} (hscan : scanLine state line.toList = .ok (next, found))
    (hrest : LinesSettled tree graph file next (left.behind [found]) lines)
    (hline : ∀ decl child, some decl ∈ left.grant [found] →
      Layout.moduleFile? tree file decl = some child → graph.HasModule file decl.name child) :
    LinesSettled tree graph file state left (line :: lines) := by
  intro first rest last all decl child hlines hfirst hmem hchild
  cases first with
  | nil =>
    obtain ⟨rfl, rfl⟩ := Prod.mk.inj (Except.ok.inj hfirst)
    simp [Budget.grant] at hmem
  | cons _ first =>
    obtain ⟨rfl, rfl⟩ := List.cons_eq_cons.mp hlines
    obtain ⟨next', found', behind, hscan', hbehind, rfl⟩ := Source.scanLines_cons_eq_ok hfirst
    obtain ⟨rfl, rfl⟩ := Prod.mk.inj (Except.ok.inj (hscan.symm.trans hscan'))
    rw [← List.singleton_append, Budget.grant_append, List.mem_append] at hmem
    rcases hmem with hmem | hmem
    · exact hline decl child hmem hchild
    · exact hrest first rest last behind decl child rfl hbehind hmem hchild

end LinesSettled

/-- A file is claimed and settled once its lines have been recorded. -/
private theorem settledBut_record {child : Path} {source : String} {body : Expansion}
    (hsource : sourceOf? tree child = some source) (hreadable : body.isReadable = true)
    (hlines : ∀ graph files, SettledBut tree graph files →
      SettledBut tree (body.recordLines child graph) files ∧
      LinesSettled tree (body.recordLines child graph) child .idle .ofChildren
        (Text.sourceLines source))
    (h : SettledBut tree graph files) :
    SettledBut tree (body.record child graph) files ∧
      child ∈ (body.record child graph).claimed := by
  by_cases hclaimed : child ∈ graph.claimed
  · rw [Expansion.record_of_mem_claimed hclaimed]
    exact ⟨h, hclaimed⟩
  · rw [Expansion.record_of_notMem_claimed hreadable hclaimed]
    obtain ⟨hsettled, hdone⟩ := hlines _ _ (h.claim child)
    refine ⟨hsettled.close ?_, (body.grows_recordLines child _).claimed child (by simp)⟩
    rintro decl target ⟨source', first, rest, last, found, hsource', hfirst, hscan, hmem⟩ htarget
    obtain rfl := Option.some.inj (hsource.symm.trans hsource')
    exact hdone first rest last found decl target hfirst hscan hmem htarget

/-- Recording the lines of a complete file records all modules expanded in them, and leaves no
file open that was not open before. -/
theorem Yields.settled_recordLines {active : List Location} {file : Path} {state : ScanState}
    {left : Budget} {lines : List String} {expansion : Expansion}
    (h : Yields tree active (.lines file state left lines) expansion)
    (hcomplete : expansion.isComplete = true) (hgraph : SettledBut tree graph files) :
    SettledBut tree (expansion.recordLines file graph) files ∧
      LinesSettled tree (expansion.recordLines file graph) file state left lines := by
  induction expansion generalizing active file state left lines graph files with
  | finished =>
    cases h with
    | finished => exact ⟨hgraph, .nil⟩
  | copied line rest ih =>
    cases h with
    | copied hscan hrest =>
      obtain ⟨hsettled, hdone⟩ := ih hrest hcomplete hgraph
      exact ⟨hsettled, hdone.cons hscan (by simp [Budget.grant])⟩
  | kept decl line rest ih =>
    cases h with
    | kept hscan hspend hrest =>
      obtain ⟨hsettled, hdone⟩ := ih hrest hcomplete (hgraph.addUnexpanded file decl.name)
      refine ⟨hsettled, .cons hscan ?_ (by simp [Budget.grant, hspend])⟩
      rwa [Budget.behind, hspend]
  | spliced decl line child body rest ihBody ihRest =>
    cases h with
    | spliced hscan hspend htarget hbody hdone hrest =>
      cases hbody with
      | unreadable _ => simp [Expansion.isComplete] at hdone
      | read hsource _ hlines =>
        have hreadable : body.isReadable = true := Expansion.isReadable_of_isComplete hdone
        obtain ⟨hentered, hclaimed⟩ := settledBut_record hsource hreadable
          (fun _ _ hgraph => ihBody hlines hdone hgraph)
          (hgraph.addModule file child decl.name)
        obtain ⟨hsettled, hbehind⟩ := ihRest hrest hcomplete hentered
        refine ⟨hsettled, .cons hscan ?_ fun other target hmem hother => ?_⟩
        · rwa [Budget.behind, hspend]
        · -- the declaration on this line is the one that has just been recorded
          rw [Budget.grant_cons_of_spend?_some hspend, Budget.grant, List.mem_singleton] at hmem
          obtain rfl := Option.some.inj hmem
          obtain rfl := Option.some.inj ((target_eq_ok_iff.mp htarget).1.symm.trans hother)
          have hadded : (other.name, child) ∈
              (graph.addModule file other.name child).children file := by
            simp [ModuleGraph.children_addModule]
          have hentry : (body.record child (graph.addModule file other.name child)).HasModule file
              other.name child :=
            ⟨(body.grows_record child _).children file _ hadded, hclaimed⟩
          exact hentry.of_grows (rest.grows_recordLines file _)
  | _ => simp [Expansion.isComplete] at hcomplete

/-- Recording a complete file settles it. -/
theorem Yields.settledBut_record {active : List Location} {child : Path} {body : Expansion}
    (h : Yields tree active (.file child .ofChildren) body) (hcomplete : body.isComplete = true)
    (hgraph : SettledBut tree graph files) : SettledBut tree (body.record child graph) files := by
  cases h with
  | unreadable _ => simp [Expansion.isComplete] at hcomplete
  | read hsource _ hlines =>
    have hreadable : body.isReadable = true := Expansion.isReadable_of_isComplete hcomplete
    exact (FlatCrate.settledBut_record hsource hreadable
      (fun _ _ hgraph => hlines.settled_recordLines hcomplete hgraph) hgraph).1

/-! ## At every point of a run -/

/-- A chain of edges stays one while the graph grows. -/
theorem isChain_of_grows (hgrows : graph.Grows later) (h : files.IsChain graph.HasEdge) :
    files.IsChain later.HasEdge :=
  h.imp fun _ file ⟨name, hedge⟩ => ⟨name, hgrows.children file _ hedge⟩

/-- How the graph of a run came about, at a point where some files are being spliced. Either the
lines of the innermost file are being recorded, or one of the files had been claimed before it was
entered; the ones that were open at that time are further outside. -/
inductive RecordedAt (tree : FileTree) (final : ModuleGraph) (file : Path) (outer : List Path)
    (point : Expansion) : Prop
  | now {graph : ModuleGraph} : SettledBut tree graph (file :: outer) →
      (file :: outer).IsChain graph.HasEdge → (point.recordLines file graph).Grows final →
      RecordedAt tree final file outer point
  | before {graph : ModuleGraph} {files : List Path} : SettledBut tree graph files →
      files ⊆ outer → outer ≠ [] → file ∈ graph.claimed →
      (file :: outer).IsChain graph.HasEdge → graph.Grows final →
      RecordedAt tree final file outer point

namespace RecordedAt

variable {final : ModuleGraph} {file child : Path} {outer : List Path} {point next body : Expansion}
  {decl : ModuleDecl}

/-- The files around a recorded place are a chain of edges. -/
theorem isChain (h : RecordedAt tree final file outer point) :
    (file :: outer).IsChain final.HasEdge := by
  cases h with
  | now _ hchain hgrows =>
    exact isChain_of_grows ((point.grows_recordLines file _).trans hgrows) hchain
  | before _ _ _ _ hchain hgrows => exact isChain_of_grows hgrows hchain

/-- The run goes on in the same file. -/
theorem advance (h : RecordedAt tree final file outer point) {step : ModuleGraph → ModuleGraph}
    (hstep : ∀ graph, SettledBut tree graph (file :: outer) →
      graph.Grows (step graph) ∧ SettledBut tree (step graph) (file :: outer))
    (hrecord : ∀ graph, point.recordLines file graph = next.recordLines file (step graph)) :
    RecordedAt tree final file outer next := by
  cases h with
  | @now graph hsettled hchain hgrows =>
    obtain ⟨hlater, hnext⟩ := hstep graph hsettled
    exact .now hnext (isChain_of_grows hlater hchain) (hrecord graph ▸ hgrows)
  | before hsettled hfiles houter hclaimed hchain hgrows =>
    exact .before hsettled hfiles houter hclaimed hchain hgrows

/-- The run enters the file of an expanded declaration. -/
theorem enter (h : RecordedAt tree final file outer point) (hnot : file ∉ outer)
    (hdecl : IsExpanded tree file (budget.inside outer) decl)
    (hchild : Layout.moduleFile? tree file decl = some child)
    (hreadable : body.isReadable = true)
    (hrecord : ∀ graph, (body.record child (graph.addModule file decl.name child)).Grows
      (point.recordLines file graph)) :
    RecordedAt tree final child (file :: outer) body := by
  cases h with
  | @now graph hsettled hchain hgrows =>
    let linked := graph.addModule file decl.name child
    have hlinked : SettledBut tree linked (file :: outer) := hsettled.addModule file child decl.name
    have hedge : linked.HasEdge child file :=
      ⟨decl.name, by simp [linked, ModuleGraph.children_addModule]⟩
    have hnext : (child :: file :: outer).IsChain linked.HasEdge :=
      .cons_cons hedge (isChain_of_grows (.addModule graph file child decl.name) hchain)
    have hfinal : (body.record child linked).Grows final := (hrecord graph).trans hgrows
    by_cases hclaimed : child ∈ linked.claimed
    · rw [Expansion.record_of_mem_claimed hclaimed] at hfinal
      exact .before hlinked (List.Subset.refl _) (List.cons_ne_nil _ _) hclaimed hnext hfinal
    · rw [Expansion.record_of_notMem_claimed hreadable hclaimed] at hfinal
      exact .now (hlinked.claim child) (isChain_of_grows (.claim linked child) hnext) hfinal
  | @before graph files hsettled hfiles houter hclaimed hchain hgrows =>
    -- the file was left again before it was entered here, so it is settled
    have hinside : budget.inside outer = .ofChildren := by
      cases outer with
      | nil => exact absurd rfl houter
      | cons _ _ => rfl
    have hmodule := hsettled file hclaimed (fun hfile => hnot (hfiles hfile)) decl child
      (hinside ▸ hdecl) hchild
    exact .before hsettled (List.subset_cons_of_subset _ hfiles) (List.cons_ne_nil _ _) hmodule.2
      (.cons_cons ⟨decl.name, hmodule.1⟩ hchain) hgrows

end RecordedAt

/-- The graph that a run records, if it begins with an empty one. -/
def Expansion.recorded (run : Expansion) (root : Path) : ModuleGraph :=
  run.record root (({} : ModuleGraph).setRoot root)

/-- At every point that a run comes by, the files that are being spliced are linked in the graph
that the run records. -/
theorem Reaches.recordedAt {point : Expansion}
    (h : Reaches root (Expansion.ofRoot tree root budget) files point) {file : Path}
    {outer : List Path} (hfiles : files = file :: outer) :
    RecordedAt tree ((Expansion.ofRoot tree root budget).recorded root) file outer point := by
  induction h generalizing file outer with
  | start hreadable =>
    obtain ⟨rfl, rfl⟩ := List.cons_eq_cons.mp hfiles
    have hsettled : SettledBut tree (({} : ModuleGraph).setRoot root) [] := by
      intro file hfile
      simp at hfile
    refine .now (hsettled.claim root) (.singleton root) ?_
    rw [Expansion.recorded, Expansion.record_of_notMem_claimed hreadable (by simp)]
    exact .refl _
  | copied _ ih => exact (ih hfiles).advance (fun graph h => ⟨.refl graph, h⟩) fun _ => rfl
  | @kept _ decl _ _ _ ih =>
    exact (ih hfiles).advance
      (fun graph h => ⟨.addUnexpanded graph file decl.name, h.addUnexpanded file decl.name⟩)
      fun _ => rfl
  | @past _ decl _ child body _ hbefore ih =>
    obtain ⟨_, _, _, _, _, _, -, -, hyields⟩ := hbefore.stands
    cases hyields with
    | spliced _ _ _ hbody hcomplete _ =>
      refine (ih hfiles).advance (fun graph h => ⟨?_, ?_⟩) fun _ => rfl
      · exact (ModuleGraph.Grows.addModule graph file child decl.name).trans
          (body.grows_record child _)
      · exact hbody.settledBut_record hcomplete (h.addModule file child decl.name)
  | @into _ decl _ _ body rest hbefore hreadable ih =>
    obtain ⟨file, outer, _, _, _, _, rfl, hstands, hyields⟩ := hbefore.stands
    obtain ⟨rfl, rfl⟩ := List.cons_eq_cons.mp hfiles
    cases hyields with
    | spliced hscan hspend htarget _ _ _ =>
      exact (ih rfl).enter hstands.notMem (hstands.isExpanded hscan hspend)
        (target_eq_ok_iff.mp htarget).1 hreadable fun _ => rest.grows_recordLines file _
  | @down _ decl _ _ body hbefore hreadable ih =>
    obtain ⟨file, outer, _, _, _, _, rfl, hstands, hyields⟩ := hbefore.stands
    obtain ⟨rfl, rfl⟩ := List.cons_eq_cons.mp hfiles
    cases hyields with
    | broken hscan hspend htarget _ _ =>
      exact (ih rfl).enter hstands.notMem (hstands.isExpanded hscan hspend)
        (target_eq_ok_iff.mp htarget).1 hreadable fun _ => .refl _

end FlatCrate
