import FlatCrate.Proofs.Flatten.Yields

/-!
# Runs over renamed files

Two runs may be the same up to the paths of the files that they enter. Then they have the same text,
and if they fail, they fail for the same cause.
-/

namespace FlatCrate

/-- An expansion in which the files of modules have other paths. -/
def Expansion.rename (f : Path → Path) : Expansion → Expansion
  | unreadable => unreadable
  | finished => finished
  | copied line rest => copied line (rest.rename f)
  | kept decl line rest => kept decl line (rest.rename f)
  | spliced decl line child body rest =>
    spliced decl line (f child) (body.rename f) (rest.rename f)
  | broken decl line child body => broken decl line (f child) (body.rename f)
  | refused decl line fault path => refused decl line fault (f path)
  | unsupported e => unsupported e

/-- A task about a file with another path. -/
def Task.rename (f : Path → Path) : Task → Task
  | file path budget => file (f path) budget
  | lines path state budget remaining => lines (f path) state budget remaining

/-- What ends a run, without the paths of the files. -/
def FlattenError.cause : FlattenError → SpliceFault ⊕ Source.UnsupportedVisibility
  | splice e => .inl e.fault
  | visibility e => .inr e

/-- The cause of an error does not depend on the files around it. -/
theorem FlattenError.cause_push (e : FlattenError) (file : Path) :
    (e.push file).cause = e.cause := by
  cases e <;> rfl

namespace Expansion

variable (f : Path → Path)

/-- Files under other names have the same lines. -/
theorem lines_rename (run : Expansion) : (run.rename f).lines = run.lines := by
  induction run with
  | copied line rest ih => simp only [rename, lines, ih]
  | kept decl line rest ih => simp only [rename, lines, ih]
  | spliced decl line child body rest ihBody ihRest => simp only [rename, lines, ihBody, ihRest]
  | _ => rfl

/-- Files under other names are expanded to the same end. -/
theorem isComplete_rename (run : Expansion) : (run.rename f).isComplete = run.isComplete := by
  induction run with
  | copied line rest ih => simpa only [rename, isComplete] using ih
  | kept decl line rest ih => simpa only [rename, isComplete] using ih
  | spliced decl line child body rest _ ih => simpa only [rename, isComplete] using ih
  | _ => rfl

/-- The cause of an error has no paths in it. -/
theorem cause_rename (run : Expansion) (file other : Path) :
    ((run.rename f).error? file).map FlattenError.cause =
      (run.error? other).map FlattenError.cause := by
  induction run generalizing file other with
  | copied line rest ih => simpa only [rename, error?] using ih file other
  | kept decl line rest ih => simpa only [rename, error?] using ih file other
  | spliced decl line child body rest _ ih => simpa only [rename, error?] using ih file other
  | broken decl line child body ih =>
    simpa only [rename, error?, Option.map_map, Function.comp_def, FlattenError.cause_push] using
      ih (f child) child
  | _ => rfl

end Expansion

section Results

variable {tree other : FileTree} {root : Path} {budget : Budget}

/-- Runs of which one is the other one with other paths have the same result, up to the paths of an
error. -/
theorem flatten_eq_of_rename {f : Path → Path}
    (h : Expansion.ofRoot other root budget = (Expansion.ofRoot tree root budget).rename f) :
    (flatten other root budget).mapError FlattenError.cause =
      (flatten tree root budget).mapError FlattenError.cause := by
  have hcause := (Expansion.ofRoot tree root budget).cause_rename f root root
  rw [flatten, flatten, h, Expansion.text, Expansion.lines_rename]
  cases hafter : ((Expansion.ofRoot tree root budget).rename f).error? root <;>
    cases hbefore : (Expansion.ofRoot tree root budget).error? root <;>
    simp_all [Except.mapError, Expansion.text]

/-- A result that is the same up to the files of errors is the same if it is a text. -/
theorem eq_ok_of_mapError {result : Except FlattenError String} {text : String}
    (h : result.mapError FlattenError.cause = (Except.ok text).mapError FlattenError.cause) :
    result = .ok text := by
  cases result with
  | error e => simp [Except.mapError] at h
  | ok other => rw [Except.ok.inj h]

end Results

end FlatCrate
