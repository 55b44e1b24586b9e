import FlatCrate.Proofs.Flatten.Recorded
import FlatCrate.Proofs.Flatten.Stop
import FlatCrate.Proofs.Path
import Mathlib.Data.List.Nodup

/-!
# What an error tells

The files in an error of splicing are the ones that were being spliced when the run stopped, from
the file with the failing declaration out to the crate root. The path in it is the one that this
declaration leads to. No files are in it only if the crate root itself cannot be read.
-/

namespace FlatCrate

open Expansion (sourceOf?)
open Source (ModuleDecl)

variable {tree : FileTree} {root : Path} {budget : Budget}

/-- What is wrong with a declaration in a file while some files are being spliced, and the path to
which it leads. -/
inductive IsBlamed (tree : FileTree) (files : List Path) (file : Path) (decl : ModuleDecl) :
    SpliceFault → Path → Prop
  | unresolved : Layout.moduleFile? tree file decl = none →
      IsBlamed tree files file decl .unresolved (Layout.folderFile file decl.name)
  | unreadable {child : Path} : Layout.moduleFile? tree file decl = some child →
      sourceOf? tree child = none → IsBlamed tree files file decl .unreadable child
  | cycle {child other : Path} {location : Location} :
      Layout.moduleFile? tree file decl = some child → tree.realLocation child = some location →
      other ∈ files → tree.realLocation other = some location →
      IsBlamed tree files file decl .cycle child

/-- The files of an error are the chain from the file with the failing declaration out to the root.
They are different files, and linked in a graph. -/
structure IsTrace (tree : FileTree) (root : Path) (budget : Budget) (graph : ModuleGraph)
    (e : SpliceError) (file : Path) (outer : List Path) (decl : ModuleDecl) (target : Path) :
    Prop where
  stack : e.stack = (file :: outer).map Path.toString
  last : e.stack.getLast? = some root.toString
  nested : Nested tree root budget (file :: outer)
  nodup : ((file :: outer).map tree.realLocation).Nodup
  nodup_stack : root.IsNormal → e.stack.Nodup
  isExpanded : IsExpanded tree file (budget.inside outer) decl
  isBlamed : IsBlamed tree (file :: outer) file decl e.fault target
  names : e.file = target.toString
  isChain : (file :: outer).IsChain graph.HasEdge

namespace Nested

variable {files : List Path}

/-- The last of the files inside each other is the root. -/
theorem getLast?_eq (h : Nested tree root budget files) : files.getLast? = some root := by
  induction h with
  | root => rfl
  | inner _ _ _ ih => rw [List.getLast?_cons_cons, ih]

/-- Files that are spliced inside of a root with a normal path have normal paths. -/
theorem isNormal (h : Nested tree root budget files) (hroot : root.IsNormal) :
    ∀ file ∈ files, file.IsNormal := by
  induction h with
  | root => simpa using hroot
  | inner _ _ hchild ih =>
    intro file hfile
    rcases List.mem_cons.mp hfile with rfl | hfile
    · exact Layout.isNormal_of_moduleFile? (ih _ List.mem_cons_self) hchild
    · exact ih file hfile

/-- Different files with normal paths are written differently. -/
theorem nodup_map_toString (h : Nested tree root budget files) (hroot : root.IsNormal)
    (hnodup : (files.map tree.realLocation).Nodup) : (files.map Path.toString).Nodup := by
  apply List.Nodup.map_on _ (List.Nodup.of_map _ hnodup)
  intro file hfile other hother heq
  exact (Path.toString_inj (h.isNormal hroot file hfile) (h.isNormal hroot other hother)).mp heq

end Nested

/-- A file without a real location cannot be read. -/
theorem sourceOf?_eq_none {file : Path} (h : tree.realLocation file = none) :
    sourceOf? tree file = none := by
  cases hsource : sourceOf? tree file with
  | none => rfl
  | some source =>
    obtain ⟨location, _, hlocation, -⟩ := realLocation_of_sourceOf? hsource
    rw [h] at hlocation
    simp at hlocation

/-- A declaration without a target is to blame. -/
theorem Stands.isBlamed {file path : Path} {outer : List Path} {active : List Location}
    {state : Source.ScanState} {left : Budget} {remaining : List String} {decl : ModuleDecl}
    {fault : SpliceFault} (h : Stands tree root budget file outer active state left remaining)
    (htarget : Expansion.target tree active file decl = .error (fault, path)) :
    IsBlamed tree (file :: outer) file decl fault path := by
  have hrefused := htarget ▸ targets_target tree active file decl
  cases hrefused with
  | missing hchild => exact .unresolved hchild
  | lost hchild hlocation => exact .unreadable hchild (sourceOf?_eq_none hlocation)
  | cycle hchild hlocation hactive =>
    obtain ⟨other, hother, hplace⟩ := h.mem_active_iff.mp hactive
    exact .cycle hchild hlocation hother hplace

/-- At every point of a run, the files that are being spliced are the trace of an error that is met
there. -/
theorem Reaches.isTrace {file target : Path} {outer : List Path} {point : Expansion}
    {decl : ModuleDecl} {fault : SpliceFault}
    (h : Reaches root (Expansion.ofRoot tree root budget) (file :: outer) point)
    (hexpanded : IsExpanded tree file (budget.inside outer) decl)
    (hblamed : IsBlamed tree (file :: outer) file decl fault target) :
    IsTrace tree root budget ((Expansion.ofRoot tree root budget).recorded root)
      ⟨fault, target.toString, (file :: outer).map Path.toString⟩ file outer decl target := by
  obtain ⟨_, _, _, _, hstands, -⟩ := h.stands_cons
  refine ⟨rfl, ?_, hstands.nested, hstands.nodup, fun hroot => ?_, hexpanded, hblamed, rfl,
    (h.recordedAt rfl).isChain⟩
  · rw [List.getLast?_map, hstands.nested.getLast?_eq, Option.map_some]
  · exact hstands.nested.nodup_map_toString hroot hstands.nodup

/-- The files in an error of splicing are the chain of files that were being spliced, from the one
with the failing declaration out to the root, and the path in it is the target of this declaration.
Without files, the error is about the root. The graph that the run has recorded has all links of the
chain, also where a file was recorded in another place. -/
theorem flatten_error_trace {e : SpliceError}
    (h : flatten tree root budget = .error (.splice e)) :
    (e.stack = [] ∧ e.fault = .unreadable ∧ e.file = root.toString ∧ sourceOf? tree root = none) ∨
      ∃ file outer decl target, IsTrace tree root budget
        ((Expansion.ofRoot tree root budget).recorded root) e file outer decl target := by
  cases flatten_eq_error_splice_iff.mp h with
  | unreadable hrun =>
    have hroot := yields_ofRoot tree root budget
    rw [hrun] at hroot
    exact .inl ⟨rfl, rfl, rfl, hroot.sourceOf?_eq_none⟩
  | refused hstop =>
    right
    obtain ⟨_, _, _, _, hstands, hyields⟩ := hstop.stands_cons
    cases hyields with
    | refused hscan hspend htarget =>
      exact ⟨_, _, _, _, hstop.isTrace (hstands.isExpanded hscan hspend) (hstands.isBlamed htarget)⟩
  | lost hstop =>
    right
    obtain ⟨_, _, _, _, hstands, hyields⟩ := hstop.stands_cons
    cases hyields with
    | broken hscan hspend htarget hbody _ =>
      exact ⟨_, _, _, _, hstop.isTrace (hstands.isExpanded hscan hspend)
        (.unreadable (target_eq_ok_iff.mp htarget).1 hbody.sourceOf?_eq_none)⟩

/-- A root that splices `x.rs` and then reaches it once more, through a link to a file that is
spliced into it. -/
def detourTree : FileTree where
  workDir := []
  entries := [
    (["lib.rs"], .file "#[path = \"/x.rs\"]\nmod x;\n#[path = \"l/w.rs\"]\nmod w;\n".toUTF8),
    (["x.rs"], .file "#[path = \"w.rs\"]\nmod w;\n".toUTF8),
    (["w.rs"], .file "mod k;\n".toUTF8), (["w"], .directory), (["k.rs", "w"], .file "".toUTF8),
    (["l"], .directory), (["w.rs", "l"], .link "../w.rs"), (["w", "l"], .directory),
    (["k.rs", "w", "l"], .file "#[path = \"/x.rs\"]\nmod x;\n".toUTF8)]

/-- The lines of `x.rs` are not recorded when it is reached once more, and the chain through it is
linked all the same. -/
theorem flatten_detourTree :
    flatten detourTree ⟨.relative, ["lib.rs"]⟩ .unlimited =
      .error (.splice ⟨.cycle, "/w.rs", ["/x.rs", "l/w/k.rs", "l/w.rs", "lib.rs"]⟩) ∧
    ∃ file outer decl target, IsTrace detourTree ⟨.relative, ["lib.rs"]⟩ .unlimited
      ((Expansion.ofRoot detourTree ⟨.relative, ["lib.rs"]⟩ .unlimited).recorded
        ⟨.relative, ["lib.rs"]⟩)
      ⟨.cycle, "/w.rs", ["/x.rs", "l/w/k.rs", "l/w.rs", "lib.rs"]⟩ file outer decl target := by
  have herror : flatten detourTree ⟨.relative, ["lib.rs"]⟩ .unlimited =
      .error (.splice ⟨.cycle, "/w.rs", ["/x.rs", "l/w/k.rs", "l/w.rs", "lib.rs"]⟩) :=
    flatten_eq_error_iff.mpr (by decide +kernel)
  have hstack := List.cons_ne_nil "/x.rs" ["l/w/k.rs", "l/w.rs", "lib.rs"]
  exact ⟨herror, (flatten_error_trace herror).resolve_left fun hroot => hstack hroot.1⟩

end FlatCrate
