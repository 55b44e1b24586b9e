import FlatCrate.Proofs.Flatten.Stop

/-!
# Cycles

Every run comes to an end: the files that are being spliced inside of each other are different
regular files of the tree, however their paths are written. A declaration is refused for a cycle
exactly if its path leads to one of these files; what was spliced elsewhere does not matter.
-/

namespace FlatCrate

open Expansion (target)
open Source (ModuleDecl)

variable {tree : FileTree} {root : Path} {budget : Budget}

/-- A declaration leads back to one of the files that are being spliced. -/
def LeadsBack (tree : FileTree) (files : List Path) (file : Path) (decl : ModuleDecl) : Prop :=
  ∃ child location, Layout.moduleFile? tree file decl = some child ∧
    tree.realLocation child = some location ∧
    ∃ other ∈ files, tree.realLocation other = some location

/-- Whether a declaration is refused because of a cycle. -/
def Expansion.isCycle : Expansion → Bool
  | refused _ _ .cycle _ => true
  | _ => false

/-- The target of a declaration is a cycle if it is at the place of a file that is being spliced. -/
theorem target_eq_cycle_iff {active : List Location} {file : Path} {decl : ModuleDecl} :
    (∃ path, target tree active file decl = .error (.cycle, path)) ↔
      ∃ child location, Layout.moduleFile? tree file decl = some child ∧
        tree.realLocation child = some location ∧ location ∈ active := by
  constructor
  · rintro ⟨path, htarget⟩
    have hcycle := htarget ▸ targets_target tree active file decl
    cases hcycle with
    | cycle hfile hlocation hactive => exact ⟨_, _, hfile, hlocation, hactive⟩
  · rintro ⟨child, location, hfile, hlocation, hactive⟩
    refine ⟨child, ?_⟩
    simp only [target, hfile, hlocation, if_pos hactive]

namespace Stands

variable {file : Path} {outer : List Path} {active : List Location} {state : Source.ScanState}
  {left : Budget} {remaining : List String}

/-- A declaration leads back exactly if following it is refused as a cycle. -/
theorem leadsBack_iff (h : Stands tree root budget file outer active state left remaining)
    {decl : ModuleDecl} : LeadsBack tree (file :: outer) file decl ↔
      ∃ path, target tree active file decl = .error (.cycle, path) := by
  simp only [target_eq_cycle_iff, LeadsBack, h.mem_active_iff]

end Stands

/-- A declaration that is being expanded is refused for a cycle exactly if it leads back. -/
theorem Reaches.isCycle_iff {file : Path} {outer : List Path} {point : Expansion}
    {decl : ModuleDecl}
    (h : Reaches root (Expansion.ofRoot tree root budget) (file :: outer) point)
    (hdecl : point.expanding? = some decl) :
    point.isCycle = true ↔ LeadsBack tree (file :: outer) file decl := by
  obtain ⟨active, _, _, _, hstands, hyields⟩ := h.stands_cons
  rw [hstands.leadsBack_iff]
  cases hyields with
  | spliced _ _ htarget _ _ _ =>
    obtain rfl := Option.some.inj hdecl
    simp [Expansion.isCycle, htarget]
  | broken _ _ htarget _ _ =>
    obtain rfl := Option.some.inj hdecl
    simp [Expansion.isCycle, htarget]
  | @refused _ _ _ _ _ _ _ _ _ _ fault _ _ htarget =>
    obtain rfl := Option.some.inj hdecl
    cases fault <;> simp [Expansion.isCycle, htarget]
  | _ => simp [Expansion.expanding?] at hdecl

/-- Flattening ends with a cycle exactly if the run comes by a declaration that leads back. -/
theorem flatten_cycle_iff :
    (∃ e, flatten tree root budget = .error (.splice e) ∧ e.fault = .cycle) ↔
      ∃ file outer point decl,
        Reaches root (Expansion.ofRoot tree root budget) (file :: outer) point ∧
        point.expanding? = some decl ∧ LeadsBack tree (file :: outer) file decl := by
  simp only [flatten_eq_error_splice_iff]
  constructor
  · rintro ⟨e, hstops, hcycle⟩
    cases hstops with
    | refused hreaches =>
      obtain rfl := hcycle
      exact ⟨_, _, _, _, hreaches, rfl, (hreaches.isCycle_iff rfl).mp rfl⟩
    | unreadable _ => simp at hcycle
    | lost _ => simp at hcycle
  · rintro ⟨file, outer, point, decl, hreaches, hdecl, hback⟩
    have hcycle := (hreaches.isCycle_iff hdecl).mpr hback
    cases point with
    | refused decl line fault path =>
      cases fault with
      | cycle => exact ⟨_, .refused hreaches, rfl⟩
      | _ => simp [Expansion.isCycle] at hcycle
    | _ => simp [Expansion.isCycle] at hcycle

/-- Flattening ends for every tree, root and budget. A run needs no bound for its recursion, and any
bound above the number of regular files gives the same run. The files that are being spliced at any
point of it are different regular files, so they are never more than the tree has. A declaration is
refused for a cycle exactly if it leads back to one of them, and that is when flattening ends with a
cycle. -/
theorem flatten_ends_and_finds_cycles (tree : FileTree) (root : Path) (budget : Budget) :
    let run := Expansion.ofRoot tree root budget
    (Yields tree [] (.file root budget) run ∧
      ∀ depth, tree.fileCount < depth → Expansion.ofFile tree depth [] root budget = run) ∧
    (∀ files point, Reaches root run files point →
      (files.map tree.realLocation).Nodup ∧ files.length ≤ tree.fileCount ∧
      ∀ file ∈ files, ∃ location content, tree.realLocation file = some location ∧
        tree.find? location = some (.file content)) ∧
    (∀ file outer point decl, Reaches root run (file :: outer) point →
      point.expanding? = some decl →
      (point.isCycle = true ↔ LeadsBack tree (file :: outer) file decl)) ∧
    ((∃ e, flatten tree root budget = .error (.splice e) ∧ e.fault = .cycle) ↔
      ∃ file outer point decl, Reaches root run (file :: outer) point ∧
        point.expanding? = some decl ∧ LeadsBack tree (file :: outer) file decl) := by
  intro run
  have hrun : Yields tree [] (.file root budget) run := yields_ofRoot tree root budget
  refine ⟨⟨hrun, fun depth hdepth => ?_⟩, fun files point hreaches => ?_,
    fun file outer point decl hreaches hdecl => hreaches.isCycle_iff hdecl, flatten_cycle_iff⟩
  · exact (yields_ofFile .nil (by simpa using hdepth) (by simp) budget).unique hrun
  · obtain ⟨file, outer, _, _, _, _, rfl, hstands, -⟩ := hreaches.stands
    exact ⟨hstands.nodup, hstands.length_le, fun other hother => hstands.isFile hother⟩

/-- A root that splices one file twice and then reaches itself by a link. -/
def linkedTree : FileTree where
  workDir := []
  entries := [(["lib.rs"], .file "mod a;\n#[path = \"a.rs\"]\nmod b;\nmod c;\n".toUTF8),
    (["a.rs"], .file "fn a();\n".toUTF8), (["c.rs"], .link "lib.rs")]

/-- The link is found out, although its path is not the one of the root; the file that is spliced
twice is no cycle. -/
theorem flatten_linkedTree :
    flatten linkedTree ⟨.relative, ["lib.rs"]⟩ .unlimited =
      .error (.splice ⟨.cycle, "c.rs", ["lib.rs"]⟩) ∧
    ∃ file outer point decl,
      Reaches ⟨.relative, ["lib.rs"]⟩
        (Expansion.ofRoot linkedTree ⟨.relative, ["lib.rs"]⟩ .unlimited) (file :: outer) point ∧
      point.expanding? = some decl ∧ LeadsBack linkedTree (file :: outer) file decl := by
  have herror : flatten linkedTree ⟨.relative, ["lib.rs"]⟩ .unlimited =
      .error (.splice ⟨.cycle, "c.rs", ["lib.rs"]⟩) :=
    flatten_eq_error_iff.mpr (by decide +kernel)
  obtain ⟨-, -, -, hcycle⟩ :=
    flatten_ends_and_finds_cycles linkedTree ⟨.relative, ["lib.rs"]⟩ .unlimited
  exact ⟨herror, hcycle.mp ⟨_, herror, rfl⟩⟩

end FlatCrate
