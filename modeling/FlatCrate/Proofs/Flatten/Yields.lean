import FlatCrate.Flatten.Run
import FlatCrate.Proofs.FileTree.Follow

/-!
# What flattening yields

Flattening as a system of rules, without a bound for the recursion: a file yields what its lines
yield, and a line with a declaration yields what the file of the module yields. A derivation by
these rules is a finished run. There is at most one for each task, and the bounded recursion finds
it: the files that are being spliced are different regular files, so the bound is never reached.
-/

namespace FlatCrate

open Source (ScanState ModuleDecl scanLine)

/-- What is left to be expanded: a file, or the lines of a file from one of them on. -/
inductive Task
  | file (file : Path) (budget : Budget)
  | lines (file : Path) (state : ScanState) (budget : Budget) (lines : List String)

open Expansion (sourceOf? target)

variable {tree : FileTree}

/-- A task comes to an end with an expansion, while files at some places are being spliced. -/
inductive Yields (tree : FileTree) : List Location → Task → Expansion → Prop
  | unreadable {active : List Location} {file : Path} {budget : Budget} :
      sourceOf? tree file = none → Yields tree active (.file file budget) .unreadable
  | read {active : List Location} {file : Path} {budget : Budget} {source : String}
      {location : Location} {expansion : Expansion} :
      sourceOf? tree file = some source → tree.realLocation file = some location →
      Yields tree (location :: active) (.lines file .idle budget (Text.sourceLines source))
        expansion →
      Yields tree active (.file file budget) expansion
  | finished {active : List Location} {file : Path} {state : ScanState} {budget : Budget} :
      Yields tree active (.lines file state budget []) .finished
  | unsupported {active : List Location} {file : Path} {state : ScanState} {budget : Budget}
      {line : String} {lines : List String} {e : Source.UnsupportedVisibility} :
      scanLine state line.toList = .error e →
      Yields tree active (.lines file state budget (line :: lines)) (.unsupported e)
  | copied {active : List Location} {file : Path} {state next : ScanState} {budget : Budget}
      {line : String} {lines : List String} {rest : Expansion} :
      scanLine state line.toList = .ok (next, none) →
      Yields tree active (.lines file next budget lines) rest →
      Yields tree active (.lines file state budget (line :: lines)) (.copied line rest)
  | kept {active : List Location} {file : Path} {state next : ScanState} {budget : Budget}
      {line : String} {lines : List String} {decl : ModuleDecl} {rest : Expansion} :
      scanLine state line.toList = .ok (next, some decl) → budget.spend? = none →
      Yields tree active (.lines file next budget lines) rest →
      Yields tree active (.lines file state budget (line :: lines)) (.kept decl line rest)
  | refused {active : List Location} {file path : Path} {state next : ScanState}
      {budget left : Budget} {line : String} {lines : List String} {decl : ModuleDecl}
      {fault : SpliceFault} :
      scanLine state line.toList = .ok (next, some decl) → budget.spend? = some left →
      target tree active file decl = .error (fault, path) →
      Yields tree active (.lines file state budget (line :: lines)) (.refused decl line fault path)
  | spliced {active : List Location} {file child : Path} {state next : ScanState}
      {budget left : Budget} {line : String} {lines : List String} {decl : ModuleDecl}
      {body rest : Expansion} :
      scanLine state line.toList = .ok (next, some decl) → budget.spend? = some left →
      target tree active file decl = .ok child →
      Yields tree active (.file child .ofChildren) body → body.isComplete = true →
      Yields tree active (.lines file next left lines) rest →
      Yields tree active (.lines file state budget (line :: lines))
        (.spliced decl line child body rest)
  | broken {active : List Location} {file child : Path} {state next : ScanState}
      {budget left : Budget} {line : String} {lines : List String} {decl : ModuleDecl}
      {body : Expansion} :
      scanLine state line.toList = .ok (next, some decl) → budget.spend? = some left →
      target tree active file decl = .ok child →
      Yields tree active (.file child .ofChildren) body → body.isComplete = false →
      Yields tree active (.lines file state budget (line :: lines)) (.broken decl line child body)

/-- Two results of one step are the same. -/
private theorem step_inj {ε α β : Type} {x : Except ε (α × Option β)} {a a' : α} {b b' : β}
    (h : x = .ok (a, some b)) (h' : x = .ok (a', some b')) : a = a' ∧ b = b' := by
  simpa using h.symm.trans h'

/-- Two results of one computation are the same. -/
private theorem ok_inj {ε α : Type} {x : Except ε α} {a a' : α} (h : x = .ok a)
    (h' : x = .ok a') : a = a' :=
  Except.ok.inj (h.symm.trans h')

/-- Two values of one option are the same. -/
private theorem some_inj {α : Type} {x : Option α} {a a' : α} (h : x = some a)
    (h' : x = some a') : a = a' :=
  Option.some.inj (h.symm.trans h')

/-- A task comes to one end only. -/
theorem Yields.unique {active : List Location} {task : Task} {a b : Expansion}
    (ha : Yields tree active task a) (hb : Yields tree active task b) : a = b := by
  induction ha generalizing b with
  | unreadable hsource => cases hb <;> simp_all
  | read hsource hlocation _ ih =>
    cases hb with
    | unreadable hsource' => simp_all
    | read hsource' hlocation' hb =>
      obtain rfl := some_inj hsource hsource'
      obtain rfl := some_inj hlocation hlocation'
      exact ih hb
  | finished => cases hb; rfl
  | unsupported hscan => cases hb <;> simp_all
  | copied hscan _ ih =>
    cases hb with
    | copied hscan' hb =>
      obtain ⟨rfl, -⟩ := Prod.mk.inj (ok_inj hscan hscan')
      rw [ih hb]
    | _ => simp_all
  | kept hscan hspend _ ih =>
    cases hb with
    | kept hscan' _ hb =>
      obtain ⟨rfl, rfl⟩ := step_inj hscan hscan'
      rw [ih hb]
    | _ => simp_all
  | refused hscan hspend htarget => cases hb <;> simp_all
  | spliced hscan hspend htarget _ hcomplete _ ihBody ihRest =>
    cases hb with
    | spliced hscan' hspend' htarget' hbody _ hrest =>
      obtain ⟨rfl, rfl⟩ := step_inj hscan hscan'
      obtain rfl := some_inj hspend hspend'
      obtain rfl := ok_inj htarget htarget'
      rw [ihBody hbody, ihRest hrest]
    | broken hscan' _ htarget' hbody hbroken =>
      obtain ⟨rfl, rfl⟩ := step_inj hscan hscan'
      obtain rfl := ok_inj htarget htarget'
      rw [← ihBody hbody, hcomplete] at hbroken
      simp at hbroken
    | _ => simp_all
  | broken hscan hspend htarget _ hbroken ih =>
    cases hb with
    | broken hscan' _ htarget' hbody _ =>
      obtain ⟨rfl, rfl⟩ := step_inj hscan hscan'
      obtain rfl := ok_inj htarget htarget'
      rw [ih hbody]
    | spliced hscan' _ htarget' hbody hcomplete =>
      obtain ⟨rfl, rfl⟩ := step_inj hscan hscan'
      obtain rfl := ok_inj htarget htarget'
      rw [← ih hbody, hbroken] at hcomplete
      simp at hcomplete
    | _ => simp_all

/-- Lines can be expanded even if nothing comes of it. -/
theorem Yields.isReadable {active : List Location} {file : Path} {state : ScanState}
    {budget : Budget} {lines : List String} {expansion : Expansion}
    (h : Yields tree active (.lines file state budget lines) expansion) :
    expansion.isReadable = true := by
  cases h <;> rfl

/-- Only a file without a source is found unreadable. -/
theorem Yields.sourceOf?_eq_none {active : List Location} {file : Path} {budget : Budget}
    (h : Yields tree active (.file file budget) .unreadable) : sourceOf? tree file = none := by
  cases h with
  | unreadable hsource => exact hsource
  | read _ _ hlines => exact absurd hlines.isReadable Bool.false_ne_true

/-! ## The bounded recursion -/

/-- A file with a source can be read. -/
theorem exists_readBytes_of_sourceOf? {file : Path} {source : String}
    (h : sourceOf? tree file = some source) : ∃ content, tree.readBytes file = .ok content := by
  rw [sourceOf?] at h
  split at h
  · next content hread => exact ⟨content, hread⟩
  · simp at h

/-- A file with a source has a real location, and it stands there. -/
theorem realLocation_of_sourceOf? {file : Path} {source : String}
    (h : sourceOf? tree file = some source) : ∃ location content,
    tree.realLocation file = some location ∧ tree.find? location = some (.file content) := by
  obtain ⟨content, hread⟩ := exists_readBytes_of_sourceOf? h
  obtain ⟨location, hlocation, hfind⟩ := FileTree.realLocation_of_readBytes hread
  exact ⟨location, content, hlocation, hfind⟩

/-- A file that can be read is at its real location. -/
theorem find?_of_sourceOf? {file : Path} {source : String} {location : Location}
    (hsource : sourceOf? tree file = some source)
    (hlocation : tree.realLocation file = some location) :
    ∃ content, tree.find? location = some (.file content) := by
  obtain ⟨place, content, hplace, hfind⟩ := realLocation_of_sourceOf? hsource
  obtain rfl := some_inj hlocation hplace
  exact ⟨content, hfind⟩

/-- What may be found to take the place of a declaration, while some files are being spliced. -/
inductive Targets (tree : FileTree) (active : List Location) (file : Path) (decl : ModuleDecl) :
    Except (SpliceFault × Path) Path → Prop
  | missing : Layout.moduleFile? tree file decl = none →
      Targets tree active file decl (.error (.unresolved, Layout.folderFile file decl.name))
  | lost {child : Path} : Layout.moduleFile? tree file decl = some child →
      tree.realLocation child = none → Targets tree active file decl (.error (.unreadable, child))
  | cycle {child : Path} {location : Location} : Layout.moduleFile? tree file decl = some child →
      tree.realLocation child = some location → location ∈ active →
      Targets tree active file decl (.error (.cycle, child))
  | free {child : Path} {location : Location} : Layout.moduleFile? tree file decl = some child →
      tree.realLocation child = some location → location ∉ active →
      Targets tree active file decl (.ok child)

/-- Following a declaration gives what the rules say. -/
theorem targets_target (tree : FileTree) (active : List Location) (file : Path)
    (decl : ModuleDecl) : Targets tree active file decl (target tree active file decl) := by
  rw [target]
  cases hfile : Layout.moduleFile? tree file decl with
  | none => exact .missing hfile
  | some child =>
    cases hlocation : tree.realLocation child with
    | none => simpa only [hlocation] using .lost hfile hlocation
    | some location =>
      by_cases hactive : location ∈ active
      · simpa only [hlocation, if_pos hactive] using .cycle hfile hlocation hactive
      · simpa only [hlocation, if_neg hactive] using .free hfile hlocation hactive

/-- A declaration gives way to a file that is there and is not being spliced. -/
theorem target_eq_ok_iff {active : List Location} {file child : Path} {decl : ModuleDecl} :
    target tree active file decl = .ok child ↔ Layout.moduleFile? tree file decl = some child ∧
      ∃ location, tree.realLocation child = some location ∧ location ∉ active := by
  constructor
  · intro h
    have hfree := h ▸ targets_target tree active file decl
    cases hfree with
    | free hfile hlocation hnot => exact ⟨hfile, _, hlocation, hnot⟩
  · rintro ⟨hfile, location, hlocation, hnot⟩
    simp only [target, hfile, hlocation, if_neg hnot]

/-- The places of files that are being spliced: different places of regular files. -/
structure IsActive (tree : FileTree) (active : List Location) : Prop where
  nodup : active.Nodup
  isFile : ∀ location ∈ active, ∃ content, tree.find? location = some (.file content)

namespace IsActive

variable {active : List Location}

/-- No file is active in the beginning. -/
theorem nil : IsActive tree [] := ⟨List.nodup_nil, by simp⟩

/-- A file that is not active yet can become so. -/
theorem cons (h : IsActive tree active) {location : Location} {content : ByteArray}
    (hnot : location ∉ active) (hfind : tree.find? location = some (.file content)) :
    IsActive tree (location :: active) := by
  refine ⟨List.nodup_cons.mpr ⟨hnot, h.nodup⟩, fun other hother => ?_⟩
  rcases List.mem_cons.mp hother with rfl | hother
  · exact ⟨content, hfind⟩
  · exact h.isFile other hother

/-- No more files than there are can be active. -/
theorem length_le (h : IsActive tree active) : active.length ≤ tree.fileCount :=
  FileTree.length_le_fileCount h.nodup h.isFile

end IsActive

/-- The lines of a file yield their expansion, if the files that are entered yield theirs. -/
theorem yields_ofLines {active : List Location} {file : Path} {enter : Path → Expansion}
    (henter : ∀ child location, tree.realLocation child = some location → location ∉ active →
      Yields tree active (.file child .ofChildren) (enter child))
    (state : ScanState) (budget : Budget) (lines : List String) :
    Yields tree active (.lines file state budget lines)
      (Expansion.ofLines tree active file enter state budget lines) := by
  induction lines generalizing state budget with
  | nil => exact .finished
  | cons line lines ih =>
    rw [Expansion.ofLines]
    cases hscan : scanLine state line.toList with
    | error e => exact .unsupported hscan
    | ok step =>
      obtain ⟨next, decl⟩ := step
      cases decl with
      | none => exact .copied hscan (ih next budget)
      | some decl =>
        cases hspend : budget.spend? with
        | none => simpa only [hspend] using .kept hscan hspend (ih next budget)
        | some left =>
          cases htarget : target tree active file decl with
          | error refusal => simpa only [hspend, htarget] using .refused hscan hspend htarget
          | ok child =>
            obtain ⟨-, location, hlocation, hnot⟩ := target_eq_ok_iff.mp htarget
            have hbody := henter child location hlocation hnot
            cases hcomplete : (enter child).isComplete with
            | true => simpa only [hspend, htarget, hcomplete, if_true] using
                .spliced hscan hspend htarget hbody hcomplete (ih next left)
            | false => simpa only [hspend, htarget, hcomplete, Bool.false_eq_true, if_false] using
                .broken hscan hspend htarget hbody hcomplete

/-- A file that is not being spliced yields its expansion, if there is room for one more file inside
of the active ones than the tree has. -/
theorem yields_ofFile {depth : Nat} {active : List Location} (hactive : IsActive tree active)
    (hdepth : tree.fileCount < depth + active.length) {file : Path}
    (hfile : ∀ location, tree.realLocation file = some location → location ∉ active)
    (budget : Budget) :
    Yields tree active (.file file budget) (Expansion.ofFile tree depth active file budget) := by
  induction depth generalizing active file budget with
  | zero =>
    have := hactive.length_le
    omega
  | succ depth ih =>
    rw [Expansion.ofFile]
    cases hsource : sourceOf? tree file with
    | none => exact .unreadable hsource
    | some source =>
      obtain ⟨location, content, hlocation, hfind⟩ := realLocation_of_sourceOf? hsource
      rw [hlocation]
      refine .read hsource hlocation (yields_ofLines ?_ _ _ _)
      intro child place hplace hnot
      apply ih (hactive.cons (hfile location hlocation) hfind)
      · simp only [List.length_cons]
        omega
      · intro other hother
        rwa [← some_inj hplace hother]

/-- A crate root yields its expansion. -/
theorem yields_ofRoot (tree : FileTree) (root : Path) (budget : Budget) :
    Yields tree [] (.file root budget) (Expansion.ofRoot tree root budget) :=
  yields_ofFile .nil (by simp) (by simp) budget

end FlatCrate
