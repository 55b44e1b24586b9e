import FlatCrate.Proofs.Flatten.Composition
import FlatCrate.Proofs.Flatten.Course

/-!
# Where a run stops

A run that fails stops at one of the points that it comes by: at a declaration for which there is no
file to splice in, or whose file cannot be read, or whose visibility is not supported. The error
that is met there is the error of the run, seen from all the files outside of it.
-/

namespace FlatCrate

variable {tree : FileTree} {root : Path} {budget : Budget}

/-- The error seen from more files that enclose each other, the innermost one first. -/
def FlattenError.pushAll (e : FlattenError) (files : List Path) : FlattenError :=
  files.foldl FlattenError.push e

namespace FlattenError

/-- An error about a visibility does not name the files around it. -/
@[simp] theorem pushAll_visibility (e : Source.UnsupportedVisibility) (files : List Path) :
    (visibility e).pushAll files = .visibility e := by
  induction files with
  | nil => rfl
  | cons file files ih => exact ih

/-- An error about a module names all files around it. -/
@[simp] theorem pushAll_splice (e : SpliceError) (files : List Path) :
    (splice e).pushAll files =
      .splice { e with stack := e.stack ++ files.map Path.toString } := by
  induction files generalizing e with
  | nil => simp [pushAll]
  | cons file files ih =>
    change (splice (e.push file)).pushAll files = _
    simp only [ih, SpliceError.push, List.append_assoc, List.singleton_append, List.map_cons]

end FlattenError

/-- An error that is met at a point is the error of the run, seen from the files outside. -/
theorem Reaches.error?_eq {file : Path} {outer : List Path} {point : Expansion} {e : FlattenError}
    (h : Reaches root (Expansion.ofRoot tree root budget) (file :: outer) point)
    (herror : point.error? file = some e) :
    (Expansion.ofRoot tree root budget).error? root = some (e.pushAll outer) := by
  generalize hfiles : file :: outer = files at h
  induction h generalizing file outer e with
  | start _ =>
    obtain ⟨rfl, rfl⟩ := List.cons_eq_cons.mp hfiles
    exact herror
  | copied _ ih => exact ih herror hfiles
  | kept _ ih => exact ih herror hfiles
  | past _ ih => exact ih herror hfiles
  | into hbefore _ _ =>
    -- a file that is passed is complete, so no error is met inside of it
    obtain ⟨_, _, _, _, _, _, -, -, hyields⟩ := hbefore.stands
    cases hyields with
    | spliced _ _ _ _ hcomplete _ =>
      rw [Expansion.error?_of_isComplete hcomplete] at herror
      simp at herror
  | @down files decl line child body hbefore _ ih =>
    obtain ⟨rfl, rfl⟩ := List.cons_eq_cons.mp hfiles
    obtain ⟨next, outer, _, _, _, _, rfl, -, -⟩ := hbefore.stands
    have hnext : (Expansion.broken decl line file body).error? next = some (e.push next) := by
      rw [Expansion.error?, herror, Option.map_some]
    exact (ih hnext :) rfl

/-- A point at which a run stops for a reason of its own. -/
inductive Expansion.IsStop : Expansion → Prop
  | refused (decl : Source.ModuleDecl) (line : String) (fault : SpliceFault) (target : Path) :
      IsStop (.refused decl line fault target)
  | lost (decl : Source.ModuleDecl) (line : String) (child : Path) :
      IsStop (.broken decl line child .unreadable)
  | unsupported (e : Source.UnsupportedVisibility) : IsStop (.unsupported e)

/-- A module whose file cannot be read is the error of its declaration. -/
theorem Expansion.error?_lost (decl : Source.ModuleDecl) (line : String) (child file : Path) :
    (Expansion.broken decl line child .unreadable).error? file =
      some (.splice ⟨.unreadable, child.toString, [file.toString]⟩) :=
  rfl

/-- From a point behind which the expansion is not complete, a run comes to a stop. -/
theorem Reaches.exists_stop {files : List Path} {point : Expansion}
    (h : Reaches root (Expansion.ofRoot tree root budget) files point)
    (hbroken : point.isComplete = false) : ∃ file outer stop,
      Reaches root (Expansion.ofRoot tree root budget) (file :: outer) stop ∧ stop.IsStop := by
  induction point generalizing files with
  | unreadable =>
    obtain ⟨_, _, _, _, _, _, -, -, hyields⟩ := h.stands
    cases hyields
  | finished => simp [Expansion.isComplete] at hbroken
  | copied _ _ ih => exact ih h.copied hbroken
  | kept _ _ _ ih => exact ih h.kept hbroken
  | spliced _ _ _ _ _ _ ih => exact ih h.past hbroken
  | broken decl line child body ih =>
    obtain ⟨file, outer, _, _, _, _, rfl, -, hyields⟩ := h.stands
    by_cases hreadable : body.isReadable = true
    · cases hyields with
      | broken _ _ _ _ hbody => exact ih (h.down hreadable) hbody
    · cases body with
      | unreadable => exact ⟨file, outer, _, h, .lost decl line child⟩
      | _ => exact absurd rfl hreadable
  | refused decl line fault target =>
    obtain ⟨file, outer, _, _, _, _, rfl, -, -⟩ := h.stands
    exact ⟨file, outer, _, h, .refused decl line fault target⟩
  | unsupported e =>
    obtain ⟨file, outer, _, _, _, _, rfl, -, -⟩ := h.stands
    exact ⟨file, outer, _, h, .unsupported e⟩

/-- What an error of splicing tells about the run that it ends: the crate root cannot be read, or
the run has stopped at a declaration without a file or with a file that cannot be read. -/
inductive Stops (tree : FileTree) (root : Path) (budget : Budget) : SpliceError → Prop
  | unreadable : Expansion.ofRoot tree root budget = .unreadable →
      Stops tree root budget ⟨.unreadable, root.toString, []⟩
  | refused {file : Path} {outer : List Path} {decl : Source.ModuleDecl} {line : String}
      {fault : SpliceFault} {target : Path} :
      Reaches root (Expansion.ofRoot tree root budget) (file :: outer)
        (.refused decl line fault target) →
      Stops tree root budget ⟨fault, target.toString, (file :: outer).map Path.toString⟩
  | lost {file : Path} {outer : List Path} {decl : Source.ModuleDecl} {line : String}
      {child : Path} :
      Reaches root (Expansion.ofRoot tree root budget) (file :: outer)
        (.broken decl line child .unreadable) →
      Stops tree root budget ⟨.unreadable, child.toString, (file :: outer).map Path.toString⟩

/-- Flattening fails exactly with the error of its expansion. -/
theorem flatten_eq_error_iff {e : FlattenError} :
    flatten tree root budget = .error e ↔
      (Expansion.ofRoot tree root budget).error? root = some e := by
  rw [flatten]
  cases (Expansion.ofRoot tree root budget).error? root <;> simp

/-- Flattening ends with an error of splicing exactly if the run stops with that error. -/
theorem flatten_eq_error_splice_iff {e : SpliceError} :
    flatten tree root budget = .error (.splice e) ↔ Stops tree root budget e := by
  rw [flatten_eq_error_iff]
  constructor
  · intro h
    by_cases hreadable : (Expansion.ofRoot tree root budget).isReadable = true
    · have hbroken : (Expansion.ofRoot tree root budget).isComplete = false := by
        rw [← Bool.not_eq_true]
        intro hcomplete
        rw [Expansion.error?_of_isComplete hcomplete] at h
        simp at h
      obtain ⟨file, outer, stop, hstop, hkind⟩ := (Reaches.start hreadable).exists_stop hbroken
      cases hkind with
      | refused decl line fault target =>
        rw [hstop.error?_eq rfl, FlattenError.pushAll_splice] at h
        obtain rfl := FlattenError.splice.inj (Option.some.inj h)
        exact .refused hstop
      | lost decl line child =>
        rw [hstop.error?_eq (Expansion.error?_lost decl line child file),
          FlattenError.pushAll_splice] at h
        obtain rfl := FlattenError.splice.inj (Option.some.inj h)
        exact .lost hstop
      | unsupported e =>
        rw [hstop.error?_eq rfl, FlattenError.pushAll_visibility] at h
        simp at h
    · cases hrun : Expansion.ofRoot tree root budget with
      | unreadable =>
        rw [hrun] at h
        obtain rfl := FlattenError.splice.inj (Option.some.inj h)
        exact .unreadable hrun
      | _ =>
        rw [hrun] at hreadable
        exact absurd rfl hreadable
  · intro h
    cases h with
    | unreadable hrun => rw [hrun, Expansion.error?]
    | refused hstop => rw [hstop.error?_eq rfl, FlattenError.pushAll_splice]; rfl
    | @lost file _ decl line child hstop =>
      rw [hstop.error?_eq (Expansion.error?_lost decl line child file),
        FlattenError.pushAll_splice]
      rfl

end FlatCrate
