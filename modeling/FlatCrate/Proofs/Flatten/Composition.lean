import FlatCrate.Proofs.Flatten.Grant
import FlatCrate.Proofs.Flatten.Yields
import FlatCrate.Proofs.Source.Scan
import Mathlib.Data.List.Forall2

/-!
# Flat texts are made of flat texts

The flat text of a crate is put together line by line, and a declaration that is expanded gives
exactly the flat text that its file has as a crate root of its own. The enclosing files can only end
a run: what is complete inside of them is what comes out without them.
-/

namespace FlatCrate

open Expansion (sourceOf?)
open Source (ScanState ModuleDecl scanLines)

variable {tree : FileTree}

/-! ## Complete runs -/

/-- A run that meets no error is complete. -/
theorem Yields.isComplete {active : List Location} {task : Task} {expansion : Expansion}
    (h : Yields tree active task expansion) {file : Path} (herror : expansion.error? file = none) :
    expansion.isComplete = true := by
  induction h generalizing file with
  | unreadable _ => simp [Expansion.error?] at herror
  | read _ _ _ ih => exact ih herror
  | finished => rfl
  | unsupported _ => simp [Expansion.error?] at herror
  | copied _ _ ih => exact ih herror
  | kept _ _ _ ih => exact ih herror
  | refused _ _ _ => simp [Expansion.error?] at herror
  | spliced _ _ _ _ _ _ _ ihRest => exact ihRest herror
  | broken _ _ _ _ hbroken ih =>
    rw [Expansion.error?, Option.map_eq_none_iff] at herror
    rw [ih herror] at hbroken
    simp at hbroken

/-- Flattening succeeds with the text of a complete expansion. -/
theorem flatten_eq_ok_iff {root : Path} {budget : Budget} {text : String} :
    flatten tree root budget = .ok text ↔ (Expansion.ofRoot tree root budget).isComplete = true ∧
      (Expansion.ofRoot tree root budget).text = text := by
  rw [flatten]
  cases herror : (Expansion.ofRoot tree root budget).error? root with
  | none =>
    have hcomplete := (yields_ofRoot tree root budget).isComplete herror
    simp only [Except.ok.injEq, hcomplete, true_and]
  | some e =>
    simp only [reduceCtorEq, false_iff, not_and]
    intro hcomplete
    rw [Expansion.error?_of_isComplete hcomplete] at herror
    simp at herror

/-- What is complete inside of some files comes out the same inside of fewer of them. -/
theorem Yields.of_subset {active fewer : List Location} {task : Task} {expansion : Expansion}
    (h : Yields tree active task expansion) (hcomplete : expansion.isComplete = true)
    (hfewer : fewer ⊆ active) : Yields tree fewer task expansion := by
  induction h generalizing fewer with
  | unreadable hsource => exact .unreadable hsource
  | read hsource hlocation _ ih =>
    exact .read hsource hlocation (ih hcomplete (List.cons_subset_cons _ hfewer))
  | finished => exact .finished
  | copied hscan _ ih => exact .copied hscan (ih hcomplete hfewer)
  | kept hscan hspend _ ih => exact .kept hscan hspend (ih hcomplete hfewer)
  | spliced hscan hspend htarget _ hbody _ ihBody ihRest =>
    obtain ⟨hfile, location, hlocation, hnot⟩ := target_eq_ok_iff.mp htarget
    have htarget' := target_eq_ok_iff.mpr ⟨hfile, location, hlocation, fun h => hnot (hfewer h)⟩
    exact .spliced hscan hspend htarget' (ihBody hbody hfewer) hbody (ihRest hcomplete hfewer)
  | unsupported _ => simp [Expansion.isComplete] at hcomplete
  | refused _ _ _ => simp [Expansion.isComplete] at hcomplete
  | broken _ _ _ _ _ => simp [Expansion.isComplete] at hcomplete

/-- A complete file has been read, and its lines are complete. -/
theorem Yields.exists_lines {active : List Location} {file : Path} {budget : Budget}
    {expansion : Expansion} (h : Yields tree active (.file file budget) expansion)
    (hcomplete : expansion.isComplete = true) :
    ∃ source location, sourceOf? tree file = some source ∧
      tree.realLocation file = some location ∧
      Yields tree (location :: active) (.lines file .idle budget (Text.sourceLines source))
        expansion := by
  cases h with
  | unreadable _ => simp [Expansion.isComplete] at hcomplete
  | read hsource hlocation hlines => exact ⟨_, _, hsource, hlocation, hlines⟩

/-- A complete file inside of others is flattened to the same text as a crate root. -/
theorem Yields.flatten_eq_ok {active : List Location} {file : Path} {budget : Budget}
    {expansion : Expansion} (h : Yields tree active (.file file budget) expansion)
    (hcomplete : expansion.isComplete = true) :
    flatten tree file budget = .ok expansion.text := by
  have halone := (h.of_subset hcomplete (List.nil_subset _)).unique (yields_ofRoot tree file budget)
  rw [flatten_eq_ok_iff, ← halone]
  exact ⟨hcomplete, rfl⟩

/-! ## Line by line -/

/-- The text that a line of a file gives. The line of a declaration that is expanded gives the
header of the module, the flat text of the file of the module on its own, and a closing line. -/
inductive IsChunk (tree : FileTree) (file : Path) : String → Option ModuleDecl → String → Prop
  | plain (line : String) : IsChunk tree file line none (line ++ "\n")
  | block (line : String) {decl : ModuleDecl} {child : Path} {text : String} :
      Layout.moduleFile? tree file decl = some child →
      flatten tree child .ofChildren = .ok text →
      IsChunk tree file line (some decl) (decl.header ++ "\n" ++ text ++ "\x7d\n")

/-- The lines of a complete file are scanned to their end, and each of them gives its chunk. -/
theorem Yields.chunks {active : List Location} {file : Path} {state : ScanState} {budget : Budget}
    {lines : List String} {expansion : Expansion}
    (h : Yields tree active (.lines file state budget lines) expansion)
    (hcomplete : expansion.isComplete = true) :
    ∃ last found chunks, scanLines state lines = .ok (last, found) ∧
      expansion.text = String.join chunks ∧
      List.Forall₂ (fun entry chunk => IsChunk tree file entry.1 entry.2 chunk)
        (lines.zip (budget.grant found)) chunks := by
  induction lines generalizing state budget expansion with
  | nil =>
    cases h with
    | finished => exact ⟨state, [], [], rfl, by simp [Expansion.text, Expansion.lines], .nil⟩
  | cons line lines ih =>
    cases h with
    | copied hscan hrest =>
      obtain ⟨last, found, chunks, hlast, htext, hchunks⟩ := ih hrest hcomplete
      refine ⟨last, none :: found, (line ++ "\n") :: chunks,
        Source.scanLines_cons_of_ok hscan hlast, ?_, .cons (.plain line) hchunks⟩
      rw [String.join_cons, ← htext, Expansion.text, Expansion.lines, Text.unlines_cons]
      rfl
    | @kept _ _ _ _ _ _ _ decl _ hscan hspend hrest =>
      obtain ⟨last, found, chunks, hlast, htext, hchunks⟩ := ih hrest hcomplete
      refine ⟨last, some decl :: found, (line ++ "\n") :: chunks,
        Source.scanLines_cons_of_ok hscan hlast, ?_, ?_⟩
      · rw [String.join_cons, ← htext, Expansion.text, Expansion.lines, Text.unlines_cons]
        rfl
      · rw [Budget.grant_cons_of_spend?_none hspend]
        exact .cons (.plain line) hchunks
    | @spliced _ _ child _ _ _ _ _ _ decl body _ hscan hspend htarget hbody hdone hrest =>
      obtain ⟨last, found, chunks, hlast, htext, hchunks⟩ := ih hrest hcomplete
      refine ⟨last, some decl :: found,
        (decl.header ++ "\n" ++ body.text ++ "\x7d\n") :: chunks,
        Source.scanLines_cons_of_ok hscan hlast, ?_, ?_⟩
      · rw [String.join_cons, ← htext, Expansion.text, Expansion.lines, Text.unlines_cons,
          Text.unlines_append, Text.unlines_cons]
        simp only [Expansion.text, String.append_assoc]
        rfl
      · rw [Budget.grant_cons_of_spend?_some hspend]
        have hchild := (target_eq_ok_iff.mp htarget).1
        exact .cons (.block line hchild (hbody.flatten_eq_ok hdone)) hchunks
    | unsupported _ => simp [Expansion.isComplete] at hcomplete
    | refused _ _ _ => simp [Expansion.isComplete] at hcomplete
    | broken _ _ _ _ _ => simp [Expansion.isComplete] at hcomplete

/-- The flat text of a crate consists of one chunk for each line of its root file. Which lines are
declarations is known from scanning the lines of the root alone, and the ones within the budget give
the flat texts of the files of their modules, which can all be flattened on their own. -/
theorem flatten_eq_join_chunks {root : Path} {budget : Budget} {text : String}
    (h : flatten tree root budget = .ok text) :
    ∃ source last found chunks, sourceOf? tree root = some source ∧
      scanLines .idle (Text.sourceLines source) = .ok (last, found) ∧
      text = String.join chunks ∧ chunks.length = (Text.sourceLines source).length ∧
      List.Forall₂ (fun entry chunk => IsChunk tree root entry.1 entry.2 chunk)
        ((Text.sourceLines source).zip (budget.grant found)) chunks := by
  obtain ⟨hcomplete, rfl⟩ := flatten_eq_ok_iff.mp h
  have hroot := yields_ofRoot tree root budget
  generalize Expansion.ofRoot tree root budget = expansion at hroot hcomplete
  cases hroot with
  | unreadable _ => simp [Expansion.isComplete] at hcomplete
  | read hsource _ hlines =>
    obtain ⟨last, found, chunks, hscan, htext, hchunks⟩ := hlines.chunks hcomplete
    refine ⟨_, last, found, chunks, hsource, hscan, htext, ?_, hchunks⟩
    rw [← hchunks.length_eq, List.length_zip, Budget.length_grant,
      Source.length_of_scanLines hscan, Nat.min_self]

/-- A root that declares two modules; the file of the first one ends inside of an attribute. -/
def openEndedTree : FileTree where
  workDir := []
  entries := [(["lib.rs"], .file "mod a;\nmod b;\n".toUTF8), (["b.rs"], .file "fn b();".toUTF8),
    (["a.rs"], .file "mod c;\n#[cfg(\n".toUTF8), (["a"], .directory),
    (["c.rs", "a"], .file "".toUTF8)]

/-- The flat text of that crate. -/
def openEndedText : String :=
  "mod a \x7b\nmod c \x7b\n\x7d\n#[cfg(\n\x7d\nmod b \x7b\nfn b();\n\x7d\n"

/-- The flat text of the tree with an attribute that is left open. -/
theorem flatten_openEndedTree :
    flatten openEndedTree ⟨.relative, ["lib.rs"]⟩ .unlimited = .ok openEndedText :=
  flatten_eq_ok_iff.mpr ⟨by decide +kernel, by decide +kernel⟩

/-- The attribute that is left open in one file does not reach the declaration behind it. -/
theorem flatten_openEndedTree_chunks :
    flatten openEndedTree ⟨.relative, ["lib.rs"]⟩ .unlimited = .ok openEndedText ∧
      ∃ source last found chunks,
        sourceOf? openEndedTree ⟨.relative, ["lib.rs"]⟩ = some source ∧
        scanLines .idle (Text.sourceLines source) = .ok (last, found) ∧
        openEndedText = String.join chunks ∧
        chunks.length = (Text.sourceLines source).length ∧
        List.Forall₂
          (fun entry chunk => IsChunk openEndedTree ⟨.relative, ["lib.rs"]⟩ entry.1 entry.2 chunk)
          ((Text.sourceLines source).zip (Budget.unlimited.grant found)) chunks :=
  ⟨flatten_openEndedTree, flatten_eq_join_chunks flatten_openEndedTree⟩

end FlatCrate
