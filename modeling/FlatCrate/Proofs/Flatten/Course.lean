import FlatCrate.Proofs.Flatten.Grant
import FlatCrate.Proofs.Flatten.Yields
import FlatCrate.Proofs.Source.Scan

/-!
# The course of a run

A run comes by the points of its expansion. At each of them some files are being spliced, each one
because of a declaration of the next one, out to the crate root. What holds at every point is said
once: how the files are nested, where they are, and how far the innermost one has been scanned.
-/

namespace FlatCrate

open Expansion (sourceOf? target)
open Source (ScanState ModuleDecl scanLine scanLines)
open Text (sourceLines)

variable {tree : FileTree} {root : Path} {budget : Budget} {run : Expansion}

/-- The run of a crate root comes by a point while some files are being spliced, the innermost one
first. A file that cannot be read is not being spliced. -/
inductive Reaches (root : Path) (run : Expansion) : List Path → Expansion → Prop
  | start : run.isReadable = true → Reaches root run [root] run
  | copied {files : List Path} {line : String} {rest : Expansion} :
      Reaches root run files (.copied line rest) → Reaches root run files rest
  | kept {files : List Path} {decl : ModuleDecl} {line : String} {rest : Expansion} :
      Reaches root run files (.kept decl line rest) → Reaches root run files rest
  | past {files : List Path} {decl : ModuleDecl} {line : String} {child : Path}
      {body rest : Expansion} :
      Reaches root run files (.spliced decl line child body rest) → Reaches root run files rest
  | into {files : List Path} {decl : ModuleDecl} {line : String} {child : Path}
      {body rest : Expansion} :
      Reaches root run files (.spliced decl line child body rest) → body.isReadable = true →
      Reaches root run (child :: files) body
  | down {files : List Path} {decl : ModuleDecl} {line : String} {child : Path}
      {body : Expansion} :
      Reaches root run files (.broken decl line child body) → body.isReadable = true →
      Reaches root run (child :: files) body

/-- The declaration that is being expanded at a point. -/
def Expansion.expanding? : Expansion → Option ModuleDecl
  | spliced decl _ _ _ _ => some decl
  | broken decl _ _ _ => some decl
  | refused decl _ _ _ => some decl
  | _ => none

/-! ## How files are nested -/

/-- The budget of a file inside of others, if the root has a given one. -/
def Budget.inside (budget : Budget) : List Path → Budget
  | [] => budget
  | _ :: _ => .ofChildren

/-- A declaration is found when the lines of a file are scanned, and it is within a budget. -/
def IsExpanded (tree : FileTree) (file : Path) (budget : Budget) (decl : ModuleDecl) : Prop :=
  ∃ source first rest last found, sourceOf? tree file = some source ∧
    sourceLines source = first ++ rest ∧ scanLines .idle first = .ok (last, found) ∧
    some decl ∈ budget.grant found

/-- Each file takes the place of an expanded declaration of the next one, and the last one is the
crate root. -/
inductive Nested (tree : FileTree) (root : Path) (budget : Budget) : List Path → Prop
  | root : Nested tree root budget [root]
  | inner {child file : Path} {outer : List Path} {decl : ModuleDecl} :
      Nested tree root budget (file :: outer) →
      IsExpanded tree file (budget.inside outer) decl →
      Layout.moduleFile? tree file decl = some child →
      Nested tree root budget (child :: file :: outer)

/-- What holds while the remaining lines of a file are to be expanded inside of other files. -/
structure Stands (tree : FileTree) (root : Path) (budget : Budget) (file : Path)
    (outer : List Path) (active : List Location) (state : ScanState) (left : Budget)
    (remaining : List String) : Prop where
  nested : Nested tree root budget (file :: outer)
  located : (file :: outer).map tree.realLocation = active.map some
  isActive : IsActive tree active
  scanned : ∃ source first found, sourceOf? tree file = some source ∧
    sourceLines source = first ++ remaining ∧ scanLines .idle first = .ok (state, found) ∧
    (budget.inside outer).behind found = left

namespace Stands

variable {file child : Path} {outer : List Path} {active : List Location} {state next : ScanState}
  {left : Budget} {line : String} {remaining : List String} {decl : ModuleDecl}

/-- The files around a place of a run are different by their real locations. -/
theorem nodup (h : Stands tree root budget file outer active state left remaining) :
    ((file :: outer).map tree.realLocation).Nodup := by
  rw [h.located]
  exact List.Pairwise.map some (fun _ _ hne => mt Option.some.inj hne) h.isActive.nodup

/-- The file in which a run stands is none of those around it. -/
theorem notMem (h : Stands tree root budget file outer active state left remaining) :
    file ∉ outer := by
  have hnodup := h.nodup
  rw [List.map_cons, List.nodup_cons] at hnodup
  exact fun hfile => hnodup.1 (List.mem_map_of_mem hfile)

/-- No more files than there are stand inside each other. -/
theorem length_le (h : Stands tree root budget file outer active state left remaining) :
    (file :: outer).length ≤ tree.fileCount := by
  have hlength := congrArg List.length h.located
  rw [List.length_map, List.length_map] at hlength
  exact hlength ▸ h.isActive.length_le

/-- The files that are being spliced are at the places that are active. -/
theorem mem_active_iff (h : Stands tree root budget file outer active state left remaining)
    {location : Location} :
    location ∈ active ↔ ∃ other ∈ file :: outer, tree.realLocation other = some location := by
  rw [← List.mem_map, h.located, List.mem_map]
  simp only [Option.some.injEq, exists_eq_right]

/-- Every file that is being spliced is a regular file. -/
theorem isFile (h : Stands tree root budget file outer active state left remaining) {other : Path}
    (hother : other ∈ file :: outer) : ∃ location content,
      tree.realLocation other = some location ∧ tree.find? location = some (.file content) := by
  have hmem : tree.realLocation other ∈ active.map some := h.located ▸ List.mem_map_of_mem hother
  obtain ⟨location, hlocation, heq⟩ := List.mem_map.mp hmem
  obtain ⟨content, hfind⟩ := h.isActive.isFile location hlocation
  exact ⟨location, content, heq.symm, hfind⟩

/-- The line that comes next is scanned, and its declaration is paid for. -/
theorem next_line {found : Option ModuleDecl}
    (h : Stands tree root budget file outer active state left (line :: remaining))
    (hscan : scanLine state line.toList = .ok (next, found)) :
    Stands tree root budget file outer active next (left.behind [found]) remaining := by
  obtain ⟨source, first, before, hsource, hlines, hfirst, hleft⟩ := h.scanned
  refine ⟨h.nested, h.located, h.isActive, source, first ++ [line], before ++ [found], hsource, ?_,
    ?_, ?_⟩
  · rw [hlines, List.append_assoc, List.singleton_append]
  · exact Source.scanLines_append hfirst (Source.scanLines_cons_of_ok hscan rfl)
  · rw [Budget.behind_append, hleft]

/-- The declaration on the line that comes next is an expanded one, if the budget lasts. -/
theorem isExpanded {rest : Budget}
    (h : Stands tree root budget file outer active state left (line :: remaining))
    (hscan : scanLine state line.toList = .ok (next, some decl))
    (hspend : left.spend? = some rest) : IsExpanded tree file (budget.inside outer) decl := by
  obtain ⟨source, first, before, hsource, hlines, hfirst, hleft⟩ := h.scanned
  refine ⟨source, first ++ [line], remaining, next, before ++ [some decl], hsource, ?_, ?_, ?_⟩
  · rw [hlines, List.append_assoc, List.singleton_append]
  · exact Source.scanLines_append hfirst (Source.scanLines_cons_of_ok hscan rfl)
  · rw [Budget.grant_append, hleft, Budget.grant_cons_of_spend?_some hspend]
    exact List.mem_append_right _ List.mem_cons_self

/-- The file of the declaration on the line that comes next is entered, if it can be read. -/
theorem enter {rest : Budget} {body : Expansion}
    (h : Stands tree root budget file outer active state left (line :: remaining))
    (hscan : scanLine state line.toList = .ok (next, some decl)) (hspend : left.spend? = some rest)
    (htarget : target tree active file decl = .ok child)
    (hbody : Yields tree active (.file child .ofChildren) body)
    (hreadable : body.isReadable = true) : ∃ active lines,
      Stands tree root budget child (file :: outer) active .idle .ofChildren lines ∧
      Yields tree active (.lines child .idle .ofChildren lines) body := by
  obtain ⟨hfile, place, hplace, hnot⟩ := target_eq_ok_iff.mp htarget
  cases hbody with
  | unreadable _ => simp [Expansion.isReadable] at hreadable
  | @read _ _ _ source location _ hsource hlocation hlines =>
    obtain rfl : location = place := Option.some.inj (hlocation.symm.trans hplace)
    obtain ⟨content, hfind⟩ := find?_of_sourceOf? hsource hlocation
    refine ⟨location :: active, sourceLines source, ⟨?_, ?_, ?_, ?_⟩, hlines⟩
    · exact .inner h.nested (h.isExpanded hscan hspend) hfile
    · rw [List.map_cons, h.located, hlocation, List.map_cons]
    · exact h.isActive.cons hnot hfind
    · exact ⟨source, [], [], hsource, rfl, rfl, rfl⟩

end Stands

/-- The run of a crate root stands at every point that it comes by, and it yields what is left of
the expansion there. -/
theorem Reaches.stands {files : List Path} {point : Expansion}
    (h : Reaches root (Expansion.ofRoot tree root budget) files point) :
    ∃ file outer active state left remaining, files = file :: outer ∧
      Stands tree root budget file outer active state left remaining ∧
      Yields tree active (.lines file state left remaining) point := by
  induction h with
  | start hreadable =>
    have hroot := yields_ofRoot tree root budget
    generalize Expansion.ofRoot tree root budget = run at hroot hreadable
    cases hroot with
    | unreadable _ => simp [Expansion.isReadable] at hreadable
    | read hsource hlocation hlines =>
      obtain ⟨content, hfind⟩ := find?_of_sourceOf? hsource hlocation
      refine ⟨root, [], _, _, _, _, rfl, ⟨.root, ?_, IsActive.nil.cons (by simp) hfind, _, [], [],
        hsource, rfl, rfl, rfl⟩, hlines⟩
      simp [hlocation]
  | copied _ ih =>
    obtain ⟨file, outer, active, state, left, remaining, rfl, hstands, hyields⟩ := ih
    cases hyields with
    | copied hscan hrest => exact ⟨_, _, _, _, _, _, rfl, hstands.next_line hscan, hrest⟩
  | kept _ ih =>
    obtain ⟨file, outer, active, state, left, remaining, rfl, hstands, hyields⟩ := ih
    cases hyields with
    | kept hscan hspend hrest =>
      have hnext := hstands.next_line hscan
      rw [Budget.behind, hspend] at hnext
      exact ⟨_, _, _, _, _, _, rfl, hnext, hrest⟩
  | past _ ih =>
    obtain ⟨file, outer, active, state, left, remaining, rfl, hstands, hyields⟩ := ih
    cases hyields with
    | spliced hscan hspend _ _ _ hrest =>
      have hnext := hstands.next_line hscan
      rw [Budget.behind, hspend] at hnext
      exact ⟨_, _, _, _, _, _, rfl, hnext, hrest⟩
  | into _ hreadable ih =>
    obtain ⟨file, outer, active, state, left, remaining, rfl, hstands, hyields⟩ := ih
    cases hyields with
    | spliced hscan hspend htarget hbody _ _ =>
      obtain ⟨_, _, hinside, hlines⟩ := hstands.enter hscan hspend htarget hbody hreadable
      exact ⟨_, _, _, _, _, _, rfl, hinside, hlines⟩
  | down _ hreadable ih =>
    obtain ⟨file, outer, active, state, left, remaining, rfl, hstands, hyields⟩ := ih
    cases hyields with
    | broken hscan hspend htarget hbody _ =>
      obtain ⟨_, _, hinside, hlines⟩ := hstands.enter hscan hspend htarget hbody hreadable
      exact ⟨_, _, _, _, _, _, rfl, hinside, hlines⟩

/-- What holds at a point that is reached while a given file is the innermost one. -/
theorem Reaches.stands_cons {file : Path} {outer : List Path} {point : Expansion}
    (h : Reaches root (Expansion.ofRoot tree root budget) (file :: outer) point) :
    ∃ active state left remaining,
      Stands tree root budget file outer active state left remaining ∧
      Yields tree active (.lines file state left remaining) point := by
  obtain ⟨_, _, active, state, left, remaining, hfiles, hstands, hyields⟩ := h.stands
  obtain ⟨rfl, rfl⟩ := List.cons_eq_cons.mp hfiles
  exact ⟨active, state, left, remaining, hstands, hyields⟩

end FlatCrate
