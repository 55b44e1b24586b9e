import FlatCrate.Proofs.FileTree.Written
import FlatCrate.Proofs.Flatten.Composition
import FlatCrate.Proofs.Source.Header
import Mathlib.Data.List.Basic

/-!
# Flat texts stay as they are

A flat text in which nothing was left unexpanded is itself a source without declarations, so
flattening a file that holds it gives the same text again.

When the flat text is scanned as a whole, the scanner does not start anew in each file. It may be
inside of an attribute where the run was not, since a file may end inside of one, but never the
other way round: the first line of a file and the line behind a declaration are scanned outside of
attributes during the run. So the second scan finds even less than the first one.
-/

namespace FlatCrate

open Expansion (sourceOf?)
open Source (ScanState ModuleDecl scanLine scanLines)
open Text (IsPlainLine sourceLines unlines)

variable {tree : FileTree}

/-- Whether every declaration that was found has been expanded. -/
def Expansion.keepsNone : Expansion → Bool
  | copied _ rest => rest.keepsNone
  | kept _ _ _ => false
  | spliced _ _ _ body rest => body.keepsNone && rest.keepsNone
  | broken _ _ _ body => body.keepsNone
  | _ => true

/-! ## Scanning a flat text -/

/-- The state in which the scan of a task begins. -/
def Task.state : Task → ScanState
  | .file _ _ => .idle
  | .lines _ state _ _ => state

/-- Whether the lines of a task are such as a file can have. -/
def Task.IsPlain : Task → Prop
  | .file _ _ => True
  | .lines _ _ _ remaining => ∀ line ∈ remaining, IsPlainLine line.toList

/-- The lines of a file that is read have no line ends in them. -/
theorem isPlainLine_of_sourceOf? {file : Path} {source : String}
    (h : sourceOf? tree file = some source) :
    ∀ line ∈ sourceLines source, IsPlainLine line.toList := by
  rw [sourceOf?] at h
  split at h
  · intro line hline
    exact Text.isPlainLine_of_mem_sourceLines (Text.notMem_of_ofBytes? h) hline
  · simp at h

/-- The name of a declaration that was found on a plain line is an identifier. -/
theorem isIdentifier_of_scanLine {state next : ScanState} {line : List Char} {decl : ModuleDecl}
    (h : scanLine state line = .ok (next, some decl)) (hline : IsPlainLine line) :
    Source.isIdentifier decl.name.toList = true :=
  Source.isIdentifier_of_parse (Source.scanLine_eq_some h).2.2 fun hfeed =>
    hline.1 (Source.mem_of_mem_stripComment hfeed)

/-- The lines of a flat text are such as a file can have. -/
theorem Yields.isPlainLine {active : List Location} {task : Task} {expansion : Expansion}
    (h : Yields tree active task expansion) (hplain : task.IsPlain) :
    ∀ line ∈ expansion.lines, IsPlainLine line.toList := by
  induction h with
  | read hsource _ _ ih => exact ih (isPlainLine_of_sourceOf? hsource)
  | copied _ _ ih =>
    intro line hline
    rcases List.mem_cons.mp hline with rfl | hline
    · exact hplain _ List.mem_cons_self
    · exact ih (fun l hl => hplain l (List.mem_cons_of_mem _ hl)) line hline
  | kept _ _ _ ih =>
    intro line hline
    rcases List.mem_cons.mp hline with rfl | hline
    · exact hplain _ List.mem_cons_self
    · exact ih (fun l hl => hplain l (List.mem_cons_of_mem _ hl)) line hline
  | spliced hscan _ _ _ _ _ ihBody ihRest =>
    have hname := isIdentifier_of_scanLine hscan (hplain _ List.mem_cons_self)
    intro line hline
    rw [Expansion.lines, List.mem_cons, List.mem_append, List.mem_cons] at hline
    rcases hline with rfl | hline | rfl | hline
    · exact Source.isPlainLine_header hname
    · exact ihBody trivial line hline
    · rw [Expansion.closingLine]
      exact ⟨by decide, by decide⟩
    · exact ihRest (fun l hl => hplain l (List.mem_cons_of_mem _ hl)) line hline
  | _ => simp [Expansion.lines]

/-- A flat text without declarations left is scanned without finding any, from every state that is
inside of an attribute if the run was. -/
theorem Yields.scanLines_lines {active : List Location} {task : Task} {expansion : Expansion}
    (h : Yields tree active task expansion) (hplain : task.IsPlain)
    (hcomplete : expansion.isComplete = true) (hkeeps : expansion.keepsNone = true)
    (state : ScanState) (hopen : task.state.isOpen = true → state.isOpen = true) :
    ∃ last, scanLines state expansion.lines =
      .ok (last, List.replicate expansion.lines.length none) := by
  induction h generalizing state with
  | read hsource _ _ ih => exact ih (isPlainLine_of_sourceOf? hsource) hcomplete hkeeps state hopen
  | finished => exact ⟨state, rfl⟩
  | copied hscan _ ih =>
    obtain ⟨next, hnext, hopen'⟩ := Source.scanLine_of_isOpen_imp hopen hscan
    obtain ⟨last, hlast⟩ :=
      ih (fun l hl => hplain l (List.mem_cons_of_mem _ hl)) hcomplete hkeeps next hopen'
    exact ⟨last, Source.scanLines_cons_of_ok hnext hlast⟩
  | @spliced _ _ _ _ _ _ _ _ _ decl body rest hscan _ _ _ hbody _ ihBody ihRest =>
    have hname := isIdentifier_of_scanLine hscan (hplain _ List.mem_cons_self)
    obtain ⟨-, rfl, -⟩ := Source.scanLine_eq_some hscan
    rw [Expansion.keepsNone, Bool.and_eq_true] at hkeeps
    -- Inside of the module and behind it the run is outside of attributes, so nothing is to show.
    obtain ⟨first, hfirst⟩ := Source.scanLine_header hname state
    obtain ⟨inner, hinner⟩ := ihBody trivial hbody hkeeps.1 first (by simp [Task.state])
    obtain ⟨closed, hclosed⟩ : ∃ closed,
        scanLine inner Expansion.closingLine.toList = .ok (closed, none) :=
      Source.scanLine_of_getLast?_ne (by decide) inner
    obtain ⟨last, hlast⟩ :=
      ihRest (fun l hl => hplain l (List.mem_cons_of_mem _ hl)) hcomplete hkeeps.2 closed
        (by simp [Task.state])
    have hall := Source.scanLines_cons_of_ok hfirst
      (Source.scanLines_append hinner (Source.scanLines_cons_of_ok hclosed hlast))
    refine ⟨last, hall.trans ?_⟩
    simp only [Expansion.lines, List.length_cons, List.length_append, List.replicate_succ,
      List.replicate_add]
  | kept _ _ _ _ => simp [Expansion.keepsNone] at hkeeps
  | _ => simp [Expansion.isComplete] at hcomplete

/-! ## Flattening a text without declarations -/

/-- The expansion in which all lines are copied. -/
def Expansion.copyAll (lines : List String) : Expansion := lines.foldr .copied .finished

/-- Lines without a declaration are copied. -/
theorem yields_copyAll {active : List Location} {file : Path} {budget : Budget}
    {lines : List String} {state last : ScanState}
    (h : scanLines state lines = .ok (last, List.replicate lines.length none)) :
    Yields tree active (.lines file state budget lines) (.copyAll lines) := by
  induction lines generalizing state with
  | nil => exact .finished
  | cons line lines ih =>
    obtain ⟨next, decl, others, hline, hrest, hfound⟩ := Source.scanLines_cons_eq_ok h
    rw [List.length_cons, List.replicate_succ, List.cons.injEq] at hfound
    obtain ⟨rfl, rfl⟩ := hfound
    exact .copied hline (ih hrest)

/-- Copying comes to an end. -/
theorem isComplete_copyAll (lines : List String) :
    (Expansion.copyAll lines).isComplete = true := by
  induction lines with
  | nil => rfl
  | cons line lines ih => exact ih

/-- The text of copied lines is these lines. -/
theorem text_copyAll (lines : List String) : (Expansion.copyAll lines).text = unlines lines := by
  have hlines : (Expansion.copyAll lines).lines = lines := by
    induction lines with
    | nil => rfl
    | cons line lines ih => exact congrArg (line :: ·) ih
  rw [Expansion.text, hlines]

/-- A file without declarations is flattened to its lines. -/
theorem flatten_of_scanLines {file : Path} {source : String} {last : ScanState}
    (hsource : sourceOf? tree file = some source)
    (hscan : scanLines .idle (sourceLines source) =
      .ok (last, List.replicate (sourceLines source).length none)) (budget : Budget) :
    flatten tree file budget = .ok (unlines (sourceLines source)) := by
  obtain ⟨location, -, hlocation, -⟩ := realLocation_of_sourceOf? hsource
  have hfile : Yields tree [] (.file file budget) (.copyAll (sourceLines source)) :=
    .read hsource hlocation (yields_copyAll hscan)
  rw [hfile.flatten_eq_ok (isComplete_copyAll _), text_copyAll]

/-- A text without carriage returns that was written to a file is read from it. -/
theorem sourceOf?_of_writeText {before after : FileTree} {file : Path} {text : String}
    (h : before.writeText file text = .ok after) (hreturn : '\r' ∉ text.toList) :
    sourceOf? after file = some text := by
  rw [sourceOf?, FileTree.readBytes_writeBytes h]
  exact Text.ofBytes?_toUTF8 hreturn

/-- Lines without returns make a text without returns. -/
theorem notMem_unlines {lines : List String} (h : ∀ line ∈ lines, IsPlainLine line.toList) :
    '\r' ∉ (unlines lines).toList := by
  induction lines with
  | nil => simp
  | cons line lines ih =>
    have hline := (h line List.mem_cons_self).2
    have hlines := ih fun l hl => h l (List.mem_cons_of_mem _ hl)
    simp [hline, hlines]

/-- A flat text with nothing left unexpanded holds no declarations, and it is its own flat text:
written to any file of any tree, it comes out unchanged for every budget. -/
theorem flatten_flatten {root : Path} {budget : Budget} {text : String}
    (h : flatten tree root budget = .ok text)
    (hkeeps : (Expansion.ofRoot tree root budget).keepsNone = true) :
    (∃ last, scanLines .idle (sourceLines text) =
      .ok (last, List.replicate (sourceLines text).length none)) ∧
    ∀ (before after : FileTree) (file : Path) (again : Budget),
      before.writeText file text = .ok after → flatten after file again = .ok text := by
  obtain ⟨hcomplete, rfl⟩ := flatten_eq_ok_iff.mp h
  have hroot := yields_ofRoot tree root budget
  have hplain := hroot.isPlainLine trivial
  obtain ⟨last, hlast⟩ := hroot.scanLines_lines trivial hcomplete hkeeps .idle id
  have hlines : sourceLines (Expansion.ofRoot tree root budget).text =
      (Expansion.ofRoot tree root budget).lines := Text.sourceLines_unlines hplain
  rw [← hlines] at hlast
  refine ⟨⟨last, hlast⟩, fun before after file again hwrite => ?_⟩
  have hsource := sourceOf?_of_writeText hwrite (notMem_unlines hplain)
  rw [flatten_of_scanLines hsource hlast again, hlines]
  rfl

/-- The flat text of a crate with an attribute that is left open, written next to it. -/
theorem flatten_flatten_openEndedTree :
    flatten openEndedTree ⟨.relative, ["lib.rs"]⟩ .unlimited = .ok openEndedText ∧
      (Expansion.ofRoot openEndedTree ⟨.relative, ["lib.rs"]⟩ .unlimited).keepsNone = true ∧
      (∃ last, scanLines .idle (sourceLines openEndedText) =
        .ok (last, List.replicate (sourceLines openEndedText).length none)) ∧
      ∃ after, openEndedTree.writeText ⟨.relative, ["flat.rs"]⟩ openEndedText = .ok after ∧
        flatten after ⟨.relative, ["flat.rs"]⟩ (.limited 0) = .ok openEndedText := by
  have hkeeps : (Expansion.ofRoot openEndedTree ⟨.relative, ["lib.rs"]⟩ .unlimited).keepsNone =
      true := by decide +kernel
  have hwrite : openEndedTree.writeText ⟨.relative, ["flat.rs"]⟩ openEndedText =
      .ok (openEndedTree.put ["flat.rs"] (.file openEndedText.toUTF8)) := by rfl
  obtain ⟨hscan, hagain⟩ := flatten_flatten flatten_openEndedTree hkeeps
  exact ⟨flatten_openEndedTree, hkeeps, hscan, _, hwrite, hagain _ _ _ _ hwrite⟩

end FlatCrate
