import FlatCrate.Proofs.Flatten.Unfolding
import FlatCrate.Proofs.Graph.Grouped
import FlatCrate.Proofs.Graph.Report

/-!
# The order of the recorded modules

The headers of the flat text come in the order in which a run meets the declarations: the headers of
a spliced file stand inside of its block, in front of the next header of the file around it. The
graph lists its modules file by file instead. If no file is spliced twice, both lists hold the same
modules, and they are in the same order exactly if a file with modules of its own is spliced only
behind all other modules of its declaring file.
-/

namespace FlatCrate

open Source (ScanState)

variable {tree : FileTree} {root file : Path} {budget left : Budget} {graph : ModuleGraph}
  {active base : List Location} {state : ScanState} {lines : List String} {expansion : Expansion}

namespace Expansion

/-- The lines of the flat text, each header with the module that it opens: the declaring file, the
name and the file that is spliced. -/
def markedLines (file : Path) : Expansion → List (String × Option (Path × String × Path))
  | copied line rest => (line, none) :: rest.markedLines file
  | kept _ line rest => (line, none) :: rest.markedLines file
  | spliced decl _ child body rest =>
    (decl.header, some (file, decl.name, child)) ::
      (body.markedLines child ++ (closingLine, none) :: rest.markedLines file)
  | _ => []

/-- The modules that are opened by the headers of the flat text, in order. -/
def opened (expansion : Expansion) (file : Path) : List (Path × String × Path) :=
  (expansion.markedLines file).filterMap (·.2)

/-- The files that are spliced, in the order of the headers. -/
def openedFiles (expansion : Expansion) (file : Path) : List Path :=
  (expansion.opened file).map (·.2.2)

/-- Whether a file with modules of its own is spliced only behind all other modules of its
declaring file. -/
def nestsLast : Expansion → Bool
  | copied _ rest => rest.nestsLast
  | kept _ _ rest => rest.nestsLast
  | spliced _ _ _ body rest =>
    (body.modules.isEmpty || rest.modules.isEmpty) && body.nestsLast && rest.nestsLast
  | _ => true

/-- The marked lines are the lines of the flat text. -/
theorem map_fst_markedLines (expansion : Expansion) (file : Path) :
    (expansion.markedLines file).map (·.1) = expansion.lines := by
  induction expansion generalizing file with
  | copied line _ ih => exact congrArg (line :: ·) (ih file)
  | kept _ line _ ih => exact congrArg (line :: ·) (ih file)
  | spliced decl _ child body rest ihBody ihRest =>
    simp only [markedLines, lines, List.map_cons, List.map_append, ihBody child, ihRest file]
  | _ => rfl

/-- Behind a declaration come the files opened in its body, and then those of the rest. -/
theorem opened_spliced (decl : Source.ModuleDecl) (line : String) (child : Path)
    (body rest : Expansion) (file : Path) : (spliced decl line child body rest).opened file =
      (file, decl.name, child) :: (body.opened child ++ rest.opened file) := by
  simp [opened, markedLines]

/-- The same for the files alone. -/
theorem openedFiles_spliced (decl : Source.ModuleDecl) (line : String) (child : Path)
    (body rest : Expansion) (file : Path) : (spliced decl line child body rest).openedFiles file =
      child :: (body.openedFiles child ++ rest.openedFiles file) := by
  simp [openedFiles, opened_spliced]

/-- Nothing is opened exactly if no module is spliced in. -/
theorem opened_eq_nil_iff : expansion.opened file = [] ↔ expansion.modules = [] := by
  induction expansion with
  | copied _ _ ih => exact ih
  | kept _ _ _ ih => exact ih
  | spliced decl line child body rest => simp [opened_spliced, modules]
  | _ => exact iff_of_true rfl rfl

/-- The first module that is opened in a file is one of its own. -/
theorem source_of_mem_head? {edge : Path × String × Path}
    (h : edge ∈ (expansion.opened file).head?) : edge.1 = file := by
  induction expansion with
  | copied _ _ ih => exact ih h
  | kept _ _ _ ih => exact ih h
  | spliced decl line child body rest =>
    rw [opened_spliced] at h
    exact congrArg Prod.fst (Option.some.inj h).symm
  | _ => cases h

/-- A module is opened in the file itself or in one that is spliced into it. -/
theorem source_of_mem_opened {edge : Path × String × Path} (h : edge ∈ expansion.opened file) :
    edge.1 = file ∨ edge.1 ∈ expansion.openedFiles file := by
  induction expansion generalizing file with
  | copied _ _ ih => exact ih h
  | kept _ _ _ ih => exact ih h
  | spliced decl line child body rest ihBody ihRest =>
    rw [openedFiles_spliced]
    rw [opened_spliced] at h
    obtain rfl | h := List.mem_cons.mp h
    · exact .inl rfl
    · obtain h | h := List.mem_append.mp h
      · have := ihBody h
        grind
      · have := ihRest h
        grind
  | _ => simp [opened, markedLines] at h

/-! ## One file after the other -/

/-- If no file is spliced twice, listing the modules file by file keeps the order of the headers
exactly if files with modules of their own are spliced last. -/
theorem toList_opened_eq_iff (honce : (file :: expansion.openedFiles file).Nodup) :
    (Grouped.ofList (expansion.opened file)).toList = expansion.opened file ↔
      expansion.nestsLast = true := by
  induction expansion generalizing file with
  | copied _ _ ih => exact ih honce
  | kept _ _ _ ih => exact ih honce
  | spliced decl line child body rest ihBody ihRest =>
    rw [openedFiles_spliced] at honce
    have hbody : (child :: body.openedFiles child).Nodup := by grind
    have hrest : (file :: rest.openedFiles file).Nodup := by grind
    have hinside : ∀ edge ∈ body.opened child, edge.1 ≠ file := by
      intro edge hedge
      have := source_of_mem_opened hedge
      grind
    have hapart : ∀ edge ∈ body.opened child, ∀ other ∈ rest.opened file, other.1 ≠ edge.1 := by
      intro edge hedge other hother
      have hbelow := source_of_mem_opened hedge
      have hbehind := source_of_mem_opened hother
      grind
    rw [opened_spliced, Grouped.toList_ofList_eq_self_iff hinside
      (fun edge hedge => source_of_mem_head? hedge) hapart, ihBody hbody, ihRest hrest,
      opened_eq_nil_iff, opened_eq_nil_iff]
    simp [nestsLast, and_assoc]
  | _ => simp [opened, markedLines, nestsLast]

end Expansion

/-! ## What is recorded -/

/-- Recording the lines of a complete file adds the modules that they open, in the order of the
headers, if the files that are spliced are different and have not been claimed. -/
theorem Yields.edges_recordLines (h : Yields tree active (.lines file state left lines) expansion)
    (hcomplete : expansion.isComplete = true) (honce : (expansion.openedFiles file).Nodup)
    (hfresh : ∀ child ∈ expansion.openedFiles file, child ∉ graph.claimed) :
    (expansion.recordLines file graph).edges.groups =
        Grouped.addAll graph.edges.groups (expansion.opened file) ∧
      ∀ other ∈ (expansion.recordLines file graph).claimed,
        other ∈ graph.claimed ∨ other ∈ expansion.openedFiles file := by
  induction expansion generalizing active file state left lines graph with
  | finished => exact ⟨rfl, fun other hother => .inl hother⟩
  | copied line rest ih =>
    cases h with
    | copied _ hrest => exact ih hrest hcomplete honce hfresh
  | kept decl line rest ih =>
    cases h with
    | kept _ _ hrest =>
      have hadded : ∀ child ∈ rest.openedFiles file,
          child ∉ (graph.addUnexpanded file decl.name).claimed := hfresh
      exact ih hrest hcomplete honce hadded
  | spliced decl line child body rest ihBody ihRest =>
    cases h with
    | spliced _ _ _ hbody hdone hrest =>
      let linked := graph.addModule file decl.name child
      rw [Expansion.openedFiles_spliced] at honce hfresh ⊢
      have hchild : child ∉ linked.claimed := hfresh child List.mem_cons_self
      have hrecord := Expansion.record_of_notMem_claimed
        (Expansion.isReadable_of_isComplete hdone) hchild
      have hbelow : ∀ other ∈ body.openedFiles child, other ∉ (linked.claim child).claimed := by
        intro other hother
        rw [ModuleGraph.mem_claimed_claim, not_or]
        exact ⟨by grind, hfresh other (by grind)⟩
      obtain ⟨_, _, -, -, hlines⟩ := hbody.exists_lines hdone
      obtain ⟨hinside, hclaimed⟩ := ihBody hlines hdone (by grind) hbelow
      rw [← hrecord, ModuleGraph.edges_claim] at hinside
      rw [← hrecord] at hclaimed
      -- behind the block, only files that were spliced inside of it have been claimed as well
      have hbefore : ∀ other ∈ (body.record child linked).claimed,
          other ∈ graph.claimed ∨ other ∈ child :: body.openedFiles child := by
        intro other hother
        obtain hother | hother := hclaimed other hother
        · obtain rfl | hother := ModuleGraph.mem_claimed_claim.mp hother
          · exact .inr List.mem_cons_self
          · exact .inl hother
        · exact .inr (List.mem_cons_of_mem _ hother)
      have hrestFresh : ∀ other ∈ rest.openedFiles file,
          other ∉ (body.record child linked).claimed := by
        intro other hother hmem
        have := hbefore other hmem
        grind
      obtain ⟨hbehind, hlater⟩ := ihRest hrest hcomplete (by grind) hrestFresh
      refine ⟨hbehind.trans ?_, fun other hother => ?_⟩
      · rw [hinside, Expansion.opened_spliced]
        simp only [Grouped.addAll, List.foldl_cons, List.foldl_append]
        rfl
      · have := hlater other hother
        have := hbefore other
        grind
  | _ => simp [Expansion.isComplete] at hcomplete

/-- The crate root is not spliced. -/
theorem Yields.root_notMem_openedFiles
    (h : Yields tree active (.lines file state left lines) expansion)
    (hcomplete : expansion.isComplete = true)
    (hroot : ∀ location, tree.realLocation root = some location → location ∈ active) :
    root ∉ expansion.openedFiles file := by
  induction expansion generalizing active file state left lines with
  | copied line rest ih =>
    cases h with
    | copied _ hrest => exact ih hrest hcomplete hroot
  | kept decl line rest ih =>
    cases h with
    | kept _ _ hrest => exact ih hrest hcomplete hroot
  | spliced decl line child body rest ihBody ihRest =>
    cases h with
    | spliced _ _ htarget hbody hdone hrest =>
      have hne : root ≠ child := by
        rintro rfl
        obtain ⟨-, location, hlocation, hnot⟩ := target_eq_ok_iff.mp htarget
        exact hnot (hroot location hlocation)
      obtain ⟨_, _, -, -, hlines⟩ := hbody.exists_lines hdone
      have hinside := ihBody hlines hdone fun location hlocation =>
        List.mem_cons_of_mem _ (hroot location hlocation)
      have hbehind := ihRest hrest hcomplete hroot
      simp [Expansion.openedFiles_spliced, hne, hinside, hbehind]
  | _ => exact List.not_mem_nil

/-- A complete run records the modules that the headers open, grouped by their declaring files. -/
theorem Yields.modules_recorded (h : Yields tree active (.lines root state budget lines) expansion)
    (hcomplete : expansion.isComplete = true) (hroot : root ∉ expansion.openedFiles root)
    (honce : (expansion.openedFiles root).Nodup) :
    (expansion.recorded root).modules = (Grouped.ofList (expansion.opened root)).toList := by
  let started := (({} : ModuleGraph).setRoot root).claim root
  have hrecorded : expansion.recorded root = expansion.recordLines root started :=
    Expansion.record_of_notMem_claimed (Expansion.isReadable_of_isComplete hcomplete) (by simp)
  have hfresh : ∀ child ∈ expansion.openedFiles root, child ∉ started.claimed :=
    fun child hchild => by simp [started, ne_of_mem_of_not_mem hchild hroot]
  have hgroups := (h.edges_recordLines hcomplete honce hfresh).1
  rw [← hrecorded] at hgroups
  have hedges : (expansion.recorded root).edges = Grouped.ofList (expansion.opened root) :=
    congrArg Grouped.mk hgroups
  rw [ModuleGraph.modules, hedges]

/-- The modules that a complete run records and reports, if no file is spliced twice: the ones that
the headers of the flat text open, but file by file. The files come in the order of their first
headers, and the modules of each file in the order of its lines. That is the order of all headers
exactly if a file with modules of its own is spliced only behind all other modules of its declaring
file. -/
theorem flatten_records_modules_by_file {text : String} (h : flatten tree root budget = .ok text)
    (honce : ((Expansion.ofRoot tree root budget).openedFiles root).Nodup) :
    let run := Expansion.ofRoot tree root budget
    let graph := run.recorded root
    let opened := run.opened root
    text = Text.unlines ((run.markedLines root).map (·.1)) ∧
      opened = (run.markedLines root).filterMap (·.2) ∧
      graph.modules = (opened.map (·.1)).eraseDups.flatMap (fun file =>
        opened.filter (·.1 = file)) ∧
      graph.modules.Perm opened ∧
      (graph.modules = opened ↔ run.nestsLast = true) ∧
      ∀ view indent, ∃ nodes, Json.read (graph.report tree view indent false) = .ok (.object [
        ("root", .string (ModuleGraph.label tree view root)), ("nodes", nodes),
        ("edges", .array (graph.modules.map
          (ModuleGraph.edgeDocument (ModuleGraph.label tree view))))]) := by
  intro run graph opened
  obtain ⟨hcomplete, rfl⟩ := flatten_eq_ok_iff.mp h
  have hrun : Yields tree [] (.file root budget) run := yields_ofRoot tree root budget
  obtain ⟨_, location, -, hlocation, hlines⟩ := hrun.exists_lines hcomplete
  have hroot : root ∉ run.openedFiles root :=
    hlines.root_notMem_openedFiles hcomplete fun place hplace => by simp_all
  have hmodules : graph.modules = (Grouped.ofList opened).toList :=
    hlines.modules_recorded hcomplete hroot honce
  have hempty := ModuleGraph.IsRooted.setRoot root
  have hrooted : graph.IsRooted root := run.isRooted_record hempty hempty.root_mem
  refine ⟨?_, rfl, ?_, ?_, ?_, fun view indent =>
    ⟨_, ModuleGraph.read_report_of_root hrooted.root_eq tree view indent⟩⟩
  · rw [Expansion.map_fst_markedLines]
    rfl
  · rw [hmodules, Grouped.toList_ofList]
  · rw [hmodules]
    exact Grouped.toList_ofList_perm opened
  · rw [hmodules]
    exact Expansion.toList_opened_eq_iff (List.nodup_cons.mpr ⟨hroot, honce⟩)

/-- A crate of four files, one of which has a module of its own; `source` is its root. -/
def branchingTree (source : String) : FileTree where
  workDir := []
  entries := [(["lib.rs"], .file source.toUTF8), (["a.rs"], .file "mod c;\n".toUTF8),
    (["a"], .directory), (["c.rs", "a"], .file "".toUTF8), (["b.rs"], .file "".toUTF8)]

/-- If the file with a module of its own comes last, the modules are in the order of the headers. -/
theorem flatten_records_modules_in_order :
    let tree := branchingTree "mod b;\nmod a;\n"
    let root : Path := ⟨.relative, ["lib.rs"]⟩
    let run := Expansion.ofRoot tree root (.limited 9)
    flatten tree root (.limited 9) = .ok run.text ∧
      (run.openedFiles root).Nodup ∧ (run.recorded root).modules = run.opened root ∧
      (run.opened root).map (·.2.1) = ["b", "a", "c"] := by
  intro tree root run
  have hflatten : flatten tree root (.limited 9) = .ok run.text :=
    flatten_eq_ok_iff.mpr ⟨by decide +kernel, rfl⟩
  have honce : (run.openedFiles root).Nodup := by decide +kernel
  obtain ⟨-, -, -, -, horder, -⟩ := flatten_records_modules_by_file hflatten honce
  exact ⟨hflatten, honce, horder.mpr (by decide +kernel), by decide +kernel⟩

/-- If it comes first, its module is recorded behind all modules of the root, although the header of
that module comes second. -/
theorem flatten_records_nested_module_last :
    let tree := branchingTree "mod a;\nmod b;\n"
    let root : Path := ⟨.relative, ["lib.rs"]⟩
    let run := Expansion.ofRoot tree root (.limited 9)
    flatten tree root (.limited 9) = .ok "mod a \x7b\nmod c \x7b\n\x7d\n\x7d\nmod b \x7b\n\x7d\n" ∧
      (run.openedFiles root).Nodup ∧ (run.opened root).map (·.2.1) = ["a", "c", "b"] ∧
      (run.recorded root).modules.map (·.2.1) = ["a", "b", "c"] :=
  ⟨flatten_eq_ok_iff.mpr ⟨by decide +kernel, by decide +kernel⟩, by decide +kernel,
    by decide +kernel, by decide +kernel⟩

end FlatCrate
