import FlatCrate.Pack
import FlatCrate.Proofs.FileTree.Moved
import Mathlib.Data.List.Forall2
import Mathlib.Data.List.Nodup

/-!
# Staging and moving

Files are staged first, and a failure to stage one of them removes the others again. Moving has no
way back: if a file cannot be moved, the files before it stay where they have been moved to, and
that file and all behind it stay staged.
-/

namespace FlatCrate.Pack

open FileTree (IsEntryName)

variable {tree after prepared : FileTree} {outputs : List Output} {medium : Medium}
  {staged moved rest : List (Path × Path)}

/-! ## The run of both phases -/

/-- Files have been written under their staging names, one after another. -/
inductive Staged : FileTree → List Output → List (Path × Path) → FileTree → Prop
  | nil (tree : FileTree) : Staged tree [] [] tree
  | cons {tree written after : FileTree} {target temporary : Path} {text : String}
      {outputs : List Output} {staged : List (Path × Path)} :
      stagingPath? target = some temporary → tree.writeText temporary text = .ok written →
      Staged written outputs staged after →
      Staged tree ((target, text) :: outputs) ((temporary, target) :: staged) after

/-- Staged files have been moved into place, one after another. -/
inductive Moves : FileTree → List (Path × Path) → FileTree → Prop
  | nil (tree : FileTree) : Moves tree [] tree
  | cons {tree next after : FileTree} {temporary target : Path} {moved : List (Path × Path)} :
      tree.move temporary target = .ok next → Moves next moved after →
      Moves tree ((temporary, target) :: moved) after

/-- Staging that succeeds, on whatever medium, has staged all files. -/
theorem staged_of_stage {before all : List (Path × Path)}
    (h : stage tree before outputs medium = (after, .ok all)) :
    ∃ staged, all = before ++ staged ∧ Staged tree outputs staged after := by
  induction outputs generalizing tree before with
  | nil =>
    obtain ⟨rfl, hall⟩ := Prod.mk.inj h
    obtain rfl := Except.ok.inj hall
    exact ⟨[], (List.append_nil before).symm, .nil tree⟩
  | cons output outputs ih =>
    obtain ⟨target, text⟩ := output
    rw [stage] at h
    cases htemporary : stagingPath? target with
    | none => simp [htemporary] at h
    | some temporary =>
      cases hwrite : tree.writeOn medium temporary text with
      | refused fault => simp [htemporary, hwrite] at h
      | cut written e => simp [htemporary, hwrite] at h
      | done written =>
        simp only [htemporary, hwrite] at h
        obtain ⟨staged, rfl, hstaged⟩ := ih h
        exact ⟨_ :: staged, by simp,
          .cons htemporary (FileTree.writeText_of_writeOn hwrite) hstaged⟩

/-- Staging that succeeds does so on a sound medium, too, and in the same way. -/
theorem stage_sound_of_stage {before all : List (Path × Path)}
    (h : stage tree before outputs medium = (after, .ok all)) :
    stage tree before outputs = (after, .ok all) := by
  induction outputs generalizing tree before with
  | nil => exact h
  | cons output outputs ih =>
    obtain ⟨target, text⟩ := output
    rw [stage] at h ⊢
    cases htemporary : stagingPath? target with
    | none => simp [htemporary] at h
    | some temporary =>
      cases hwrite : tree.writeOn medium temporary text with
      | refused fault => simp [htemporary, hwrite] at h
      | cut written e => simp [htemporary, hwrite] at h
      | done written =>
        have hsound := FileTree.writeOn_sound_of_writeText (FileTree.writeText_of_writeOn hwrite)
        simp only [htemporary, hwrite] at h
        simp only [hsound]
        exact ih h

/-- Files that can be written on a medium are written in the same way on a sound one. -/
theorem writeStaged_eq_sound (h : (writeStaged tree outputs medium).fault = none) :
    writeStaged tree outputs medium = writeStaged tree outputs := by
  rw [writeStaged] at h
  split at h
  · simp at h
  · next prepared staged hstage =>
    simp only [writeStaged, hstage, stage_sound_of_stage hstage]

/-- What moving files comes to: all of them have been moved, or the ones before the first that
cannot be moved. -/
theorem moves_moveAll (tree : FileTree) (staged : List (Path × Path)) :
    ∃ moved rest, staged = moved ++ rest ∧ Moves tree moved (moveAll tree staged).tree ∧
      (moveAll tree staged).log = moved.map (fun pair => wroteRecord pair.2) ∧
      (rest = [] ∧ (moveAll tree staged).fault = none ∨
        ∃ temporary target others cause, rest = (temporary, target) :: others ∧
          (moveAll tree staged).tree.move temporary target = .error cause ∧
          (moveAll tree staged).fault = some (.file ⟨cause, temporary, some target⟩)) := by
  induction staged generalizing tree with
  | nil => exact ⟨[], [], rfl, .nil tree, rfl, .inl ⟨rfl, rfl⟩⟩
  | cons pair staged ih =>
    obtain ⟨temporary, target⟩ := pair
    rw [moveAll]
    cases hmove : tree.move temporary target with
    | error cause => exact ⟨[], _, rfl, .nil tree, rfl, .inr ⟨_, _, _, cause, rfl, hmove, rfl⟩⟩
    | ok next =>
      obtain ⟨moved, rest, rfl, hmoves, hlog, hend⟩ := ih next
      exact ⟨(temporary, target) :: moved, rest, rfl, .cons hmove hmoves,
        congrArg (wroteRecord target :: ·) hlog, hend⟩

/-! ## Where files are staged and where they belong -/

/-- The locations of a staged file and of its target. -/
structure Slot where
  staging : Location
  target : Location

/-- Both locations. -/
def Slot.locations (slot : Slot) : List Location := [slot.staging, slot.target]

/-- The locations that staged files and their targets have, as far as their paths name any, are all
different, and no link stands where a file is staged. -/
inductive AreApart (tree : FileTree) : List (Path × Path) → List Slot → Prop
  | nil : AreApart tree [] []
  | cons {temporary target : Path} {staged : List (Path × Path)} {slot : Slot} {slots : List Slot} :
      (∀ location ∈ tree.slotOf? temporary, location = slot.staging) →
      (∀ location ∈ tree.slotOf? target, location = slot.target) →
      (∀ name, tree.find? slot.staging ≠ some (.link name)) → slot.locations.Nodup →
      (∀ other ∈ slots, slot.locations.Disjoint other.locations) → AreApart tree staged slots →
      AreApart tree ((temporary, target) :: staged) (slot :: slots)

namespace Slot

variable {slot other : Slot}

/-- A slot has its place for staging. -/
theorem staging_mem (slot : Slot) : slot.staging ∈ slot.locations := by simp [locations]

/-- A slot has the place of its target. -/
theorem target_mem (slot : Slot) : slot.target ∈ slot.locations := by simp [locations]

/-- A location outside of a slot is neither of its places. -/
theorem ne_of_notMem {location : Location} (h : location ∉ slot.locations) :
    location ≠ slot.staging ∧ location ≠ slot.target := by
  simpa [locations] using h

end Slot

/-! ## What staging has done -/

/-- A path has a staging name exactly if it has a name and file operations take it. -/
theorem stagingPath?_eq_some_iff {target temporary : Path} :
    stagingPath? target = some temporary ↔ target.holdsZero = false ∧ target.names ≠ [] ∧
      temporary = ⟨target.anchor, target.names.dropLast ++ [target.name ++ stagingSuffix]⟩ := by
  rw [stagingPath?, Path.withName?]
  cases target.holdsZero <;> cases target.names <;> simp [eq_comm]

/-- Every staging name is the name of an entry. -/
theorem stagingPath?_eq_some {target temporary : Path} (h : stagingPath? target = some temporary) :
    ∃ names last, temporary.names = names ++ [last] ∧ IsEntryName last := by
  obtain ⟨-, -, rfl⟩ := stagingPath?_eq_some_iff.mp h
  have hlength : 4 ≤ (target.name ++ stagingSuffix).length := by
    rw [String.length_append]
    exact Nat.le_add_left 4 _
  have hne {name : String} (hname : name.length < 4) : target.name ++ stagingSuffix ≠ name :=
    fun heq => absurd (heq ▸ hlength) (Nat.not_le.mpr hname)
  exact ⟨_, _, rfl, not_or.mpr ⟨hne (by decide), hne (by decide)⟩, hne (by decide)⟩

namespace Staged

/-- Staging leaves the slot of every path. -/
theorem slotOf?_eq (h : Staged tree outputs staged after) {path : Path} {location : Location}
    (hslot : tree.slotOf? path = some location) : after.slotOf? path = some location := by
  induction h with
  | nil => exact hslot
  | cons _ hwrite _ ih => exact ih (FileTree.slotOf?_writeBytes hslot hwrite)

/-- Staging leaves every link. -/
theorem find?_link (h : Staged tree outputs staged after) {location : Location} {target : String}
    (hlink : tree.find? location = some (.link target)) :
    after.find? location = some (.link target) := by
  induction h with
  | nil => exact hlink
  | cons _ hwrite _ ih => exact ih (FileTree.find?_link_writeBytes hlink hwrite)

/-- If the locations are apart, each file stands where it has been staged, and nothing else has
changed. -/
theorem find?_eq (h : Staged tree outputs staged after) {slots : List Slot}
    (hslots : AreApart after staged slots) :
    (∀ entry ∈ outputs.zip slots, after.find? entry.2.staging = some (.file entry.1.2.toUTF8)) ∧
      ∀ location, (∀ slot ∈ slots, location ≠ slot.staging) →
        after.find? location = tree.find? location := by
  induction h generalizing slots with
  | nil => exact ⟨by simp, fun _ _ => rfl⟩
  | @cons tree written after target temporary text outputs staged htemporary hwrite hrest ih =>
    cases hslots with
    | @cons _ _ _ slot slots hnamed _ hplain hnodup hapart hslots =>
      obtain ⟨hfiles, hothers⟩ := ih hslots
      obtain ⟨names, last, hnames, hlast⟩ := stagingPath?_eq_some htemporary
      obtain ⟨location, hlocation, hentry⟩ := FileTree.slotOf?_of_writeBytes hnames hlast hwrite
      obtain rfl : location = slot.staging := hnamed location (hrest.slotOf?_eq hlocation)
      obtain ⟨name, hlink⟩ | ⟨hfile, hwritten⟩ := hentry
      · exact absurd (hrest.find?_link hlink) (hplain name)
      · have hhere : after.find? slot.staging = written.find? slot.staging :=
          hothers _ fun other hother =>
            (Slot.ne_of_notMem (hapart other hother slot.staging_mem)).1
        refine ⟨List.forall_mem_cons.mpr ⟨hhere.trans hfile, hfiles⟩, fun location hlocation => ?_⟩
        obtain ⟨hne, hrests⟩ := List.forall_mem_cons.mp hlocation
        rw [hothers location hrests, hwritten location hne]

end Staged

/-! ## What moving has done -/

namespace AreApart

variable {slots : List Slot}

/-- Moving the file of one of the slots leaves the other ones apart. -/
theorem of_moved {next : FileTree} {slot : Slot} {content : ByteArray}
    (h : AreApart tree staged slots) (hmoved : tree.Moved slot.staging slot.target next)
    (hfile : tree.find? slot.staging = some (.file content))
    (hapart : ∀ other ∈ slots, slot.locations.Disjoint other.locations) :
    AreApart next staged slots := by
  induction h with
  | nil => exact .nil
  | @cons temporary target staged slot' slots htemporary htarget hplain hnodup hothers _ ih =>
    obtain ⟨hne, hrest⟩ := List.forall_mem_cons.mp hapart
    obtain ⟨hstaging, htarget'⟩ :=
      Slot.ne_of_notMem fun hmem => hne hmem (Slot.staging_mem slot')
    refine .cons (fun location hlocation => ?_) (fun location hlocation => ?_) ?_ hnodup hothers
      (ih hrest)
    · exact htemporary location (hmoved.slotOf?_eq hfile hlocation)
    · exact htarget location (hmoved.slotOf?_eq hfile hlocation)
    · rwa [hmoved.others _ hstaging htarget']

/-- The first slots belong to the first files, and the other ones are apart from them. -/
theorem split (h : AreApart tree (moved ++ rest) slots) :
    AreApart tree moved (slots.take moved.length) ∧
      ∀ slot ∈ slots.drop moved.length, ∀ other ∈ slots.take moved.length,
        slot.locations.Disjoint other.locations := by
  induction moved generalizing slots with
  | nil => exact ⟨.nil, by simp⟩
  | cons pair moved ih =>
    rw [List.cons_append] at h
    cases h with
    | cons htemporary htarget hplain hnodup hapart hslots =>
      obtain ⟨hmoved, hrest⟩ := ih hslots
      refine ⟨.cons htemporary htarget hplain hnodup (fun other hother => ?_) hmoved,
        fun slot hslot => List.forall_mem_cons.mpr ⟨?_, hrest slot hslot⟩⟩
      · exact hapart other (List.mem_of_mem_take hother)
      · exact List.disjoint_comm.mp (hapart slot (List.mem_of_mem_drop hslot))

/-- No file is staged at the target of another one. -/
theorem target_ne_staging (h : AreApart tree staged slots) :
    ∀ slot ∈ slots, ∀ other ∈ slots, slot.target ≠ other.staging := by
  induction h with
  | nil => simp
  | @cons _ _ _ slot slots _ _ _ hnodup hapart _ ih =>
    have hne : slot.target ≠ slot.staging := by simpa [Slot.locations, eq_comm] using hnodup
    refine List.forall_mem_cons.mpr ⟨List.forall_mem_cons.mpr ⟨hne, fun other hother heq => ?_⟩,
      fun other hother => List.forall_mem_cons.mpr ⟨fun heq => ?_, ih other hother⟩⟩
    · exact hapart other hother slot.target_mem (heq ▸ other.staging_mem)
    · exact hapart other hother slot.staging_mem (heq ▸ other.target_mem)

end AreApart

/-- If the locations are apart, each file that has been moved stands at its target and no longer
where it was staged, and nothing else has changed. -/
theorem Moves.find?_eq (h : Moves tree moved after) {slots : List Slot}
    (hslots : AreApart tree moved slots) :
    (∀ slot ∈ slots, after.find? slot.target = tree.find? slot.staging ∧
      after.find? slot.staging = none) ∧
      ∀ location, (∀ slot ∈ slots, location ∉ slot.locations) →
        after.find? location = tree.find? location := by
  induction h generalizing slots with
  | nil =>
    cases hslots
    exact ⟨by simp, fun _ _ => rfl⟩
  | @cons tree next after temporary target moved hmove _ ih =>
    cases hslots with
    | @cons _ _ _ slot slots htemporary htarget hplain hnodup hapart hslots =>
      obtain ⟨source, place, hsource, hplace, hmoved⟩ := FileTree.moved_of_move hmove
      obtain rfl := htemporary source hsource
      obtain rfl := htarget place hplace
      obtain ⟨entry, hfind, hentry⟩ := hmoved.isEntry
      cases entry with
      | directory => exact absurd rfl hentry
      | link name => exact absurd hfind (hplain name)
      | file content =>
        obtain ⟨hfiles, hothers⟩ := ih (hslots.of_moved hmoved hfind hapart)
        have hnext {location : Location} (hlocation : location ∈ slot.locations) :
            after.find? location = next.find? location :=
          hothers location fun other hother => hapart other hother hlocation
        have hbefore {location : Location} (hlocation : location ∉ slot.locations) :
            next.find? location = tree.find? location :=
          hmoved.others location (Slot.ne_of_notMem hlocation).1 (Slot.ne_of_notMem hlocation).2
        have hne : slot.staging ≠ slot.target := by simpa [Slot.locations] using hnodup
        refine ⟨List.forall_mem_cons.mpr ⟨⟨?_, ?_⟩, fun other hother => ?_⟩,
          fun location hlocation => ?_⟩
        · rw [hnext slot.target_mem, hmoved.arrived]
        · rw [hnext slot.staging_mem, hmoved.left hne]
        · obtain ⟨harrived, hleft⟩ := hfiles other hother
          refine ⟨harrived.trans (hbefore fun hmem => ?_), hleft⟩
          exact hapart other hother hmem other.staging_mem
        · obtain ⟨hslot, hrest⟩ := List.forall_mem_cons.mp hlocation
          rw [hothers location hrest, hbefore hslot]

/-- If the locations are apart and the first ones of some staged files have been moved, the targets
of these hold their texts and their staging names are free. The other files are still staged, and
their targets are as they were before anything was written. Nothing else has changed. -/
theorem Staged.find?_moves {slots : List Slot}
    (hstaged : Staged tree outputs (moved ++ rest) prepared) (hmoves : Moves prepared moved after)
    (hslots : AreApart prepared (moved ++ rest) slots) :
    (∀ entry ∈ (outputs.zip slots).take moved.length,
      after.find? entry.2.target = some (.file entry.1.2.toUTF8) ∧
        after.find? entry.2.staging = none) ∧
    (∀ entry ∈ (outputs.zip slots).drop moved.length,
      after.find? entry.2.staging = some (.file entry.1.2.toUTF8) ∧
        after.find? entry.2.target = tree.find? entry.2.target) ∧
    ∀ location, (∀ slot ∈ slots, location ∉ slot.locations) →
      after.find? location = tree.find? location := by
  obtain ⟨hfiles, hunstaged⟩ := hstaged.find?_eq hslots
  obtain ⟨hfirst, hapart⟩ := hslots.split
  obtain ⟨hmoved, hunmoved⟩ := hmoves.find?_eq hfirst
  refine ⟨fun entry hentry => ?_, fun entry hentry => ?_, fun location hlocation => ?_⟩
  · have hfile := hfiles entry (List.mem_of_mem_take hentry)
    rw [List.zip_eq_zipWith, List.take_zipWith, ← List.zip_eq_zipWith] at hentry
    obtain ⟨harrived, hleft⟩ := hmoved entry.2 (List.of_mem_zip hentry).2
    exact ⟨harrived.trans hfile, hleft⟩
  · have hall := List.mem_of_mem_drop hentry
    rw [List.zip_eq_zipWith, List.drop_zipWith, ← List.zip_eq_zipWith] at hentry
    have hslot := (List.of_mem_zip hentry).2
    have hstays {location : Location} (hlocation : location ∈ entry.2.locations) :
        after.find? location = prepared.find? location :=
      hunmoved location fun other hother => hapart entry.2 hslot other hother hlocation
    refine ⟨(hstays entry.2.staging_mem).trans (hfiles entry hall),
      (hstays entry.2.target_mem).trans (hunstaged _ fun other hother => ?_)⟩
    exact hslots.target_ne_staging entry.2 (List.of_mem_zip hall).2 other hother
  · have hstays := hunmoved location fun slot hslot =>
      hlocation slot (List.mem_of_mem_take hslot)
    exact hstays.trans (hunstaged location fun slot hslot =>
      (Slot.ne_of_notMem (hlocation slot hslot)).1)

/-- When all files have been staged, on whatever medium, and one of them cannot be moved into place,
nothing is undone.
The files before it stay moved, and nothing has been done about it and the files behind it. If the
locations are apart, this is to say that the targets of the files before it hold their texts and
their staging names are free, while the other files are still staged and their targets are as they
were before anything was written; and nothing else has changed. -/
theorem moves_are_not_undone {fault : PackFault}
    (hstage : stage tree [] outputs medium = (prepared, .ok staged))
    (hfault : (writeStaged tree outputs medium).fault = some fault) :
    let outcome := writeStaged tree outputs medium
    ∃ moved temporary target rest cause, staged = moved ++ (temporary, target) :: rest ∧
      Moves prepared moved outcome.tree ∧
      outcome.log = moved.map (fun pair => wroteRecord pair.2) ∧
      outcome.tree.move temporary target = .error cause ∧
      fault = .file ⟨cause, temporary, some target⟩ ∧
      ∀ slots, AreApart prepared staged slots →
        (∀ entry ∈ (outputs.zip slots).take moved.length,
          outcome.tree.find? entry.2.target = some (.file entry.1.2.toUTF8) ∧
          outcome.tree.find? entry.2.staging = none) ∧
        (∀ entry ∈ (outputs.zip slots).drop moved.length,
          outcome.tree.find? entry.2.staging = some (.file entry.1.2.toUTF8) ∧
          outcome.tree.find? entry.2.target = tree.find? entry.2.target) ∧
        ∀ location, (∀ slot ∈ slots, location ∉ slot.locations) →
          outcome.tree.find? location = tree.find? location := by
  intro outcome
  have houtcome : outcome = moveAll prepared staged := by
    simp only [outcome, writeStaged, hstage]
  obtain ⟨moved, rest, rfl, hmoves, hlog, hend⟩ := moves_moveAll prepared staged
  rw [← houtcome] at hmoves hlog hend
  obtain ⟨-, hnone⟩ | ⟨temporary, target, others, cause, rfl, hmove, hfailed⟩ := hend
  · exact absurd (hfault.symm.trans hnone) (by simp)
  · obtain ⟨added, hadded, hstaged⟩ := staged_of_stage hstage
    obtain rfl : moved ++ (temporary, target) :: others = added := hadded
    exact ⟨moved, temporary, target, others, cause, rfl, hmoves, hlog, hmove,
      Option.some.inj (hfault.symm.trans hfailed),
      fun slots hslots => hstaged.find?_moves hmoves hslots⟩

/-- A tree with a directory in the place of the second of two files. -/
def blockedTree : FileTree := ⟨[], [(["b"], .directory)]⟩

/-- Two files to be written there. -/
def blockedOutputs : List Output := [(⟨.relative, ["a"]⟩, "x"), (⟨.relative, ["b"]⟩, "y")]

/-- The files when they are staged. -/
def blockedStaged : List (Path × Path) :=
  [(⟨.relative, ["a.tmp"]⟩, ⟨.relative, ["a"]⟩), (⟨.relative, ["b.tmp"]⟩, ⟨.relative, ["b"]⟩)]

/-- The tree when they are staged. -/
def blockedStagedTree : FileTree :=
  ⟨[], [(["b.tmp"], .file "y".toUTF8), (["a.tmp"], .file "x".toUTF8), (["b"], .directory)]⟩

/-- The fault that ends the moves. -/
def blockedFault : PackFault :=
  .file ⟨.isDirectory, some ⟨.relative, ["b.tmp"]⟩, some ⟨.relative, ["b"]⟩⟩

/-- The first file has been moved, and the second one is left where it has been staged. -/
theorem moves_are_not_undone_blocked :
    stage blockedTree [] blockedOutputs = (blockedStagedTree, .ok blockedStaged) ∧
      (writeStaged blockedTree blockedOutputs).fault = some blockedFault ∧
      (writeStaged blockedTree blockedOutputs).tree.find? ["a"] = some (.file "x".toUTF8) ∧
      (writeStaged blockedTree blockedOutputs).tree.find? ["b.tmp"] = some (.file "y".toUTF8) := by
  have hstage : stage blockedTree [] blockedOutputs = (blockedStagedTree, .ok blockedStaged) := rfl
  have hfault : (writeStaged blockedTree blockedOutputs).fault = some blockedFault := by
    decide +kernel
  have hapart : AreApart blockedStagedTree blockedStaged
      [⟨["a.tmp"], ["a"]⟩, ⟨["b.tmp"], ["b"]⟩] := by
    refine .cons (by decide +kernel) (by decide +kernel) ?_ (by decide) (by simp [Slot.locations])
      (.cons (by decide +kernel) (by decide +kernel) ?_ (by decide) (by simp) .nil)
    all_goals simp [blockedStagedTree, FileTree.find?, List.lookup_cons]
  refine ⟨hstage, hfault, ?_⟩
  obtain ⟨moved, temporary, target, rest, cause, hstaged, -, -, -, hcause, hslots⟩ :=
    moves_are_not_undone hstage hfault
  obtain ⟨hmoved, hunmoved, -⟩ := hslots _ hapart
  obtain ⟨-, rfl, rfl⟩ : _ ∧ _ ∧ _ := by simpa [blockedFault] using hcause
  -- the fault tells which of the files has been the one that could not be moved
  obtain _ | ⟨first, _ | ⟨second, moved⟩⟩ := moved
  · simp [blockedStaged] at hstaged
  · exact ⟨(hmoved _ (List.Mem.head _)).1, (hunmoved _ (List.Mem.head _)).1⟩
  · simp [blockedStaged] at hstaged

/-- A target is new and a staged file is left, although all files had been staged. -/
theorem blocked_target_is_new :
    (∃ prepared staged, stage blockedTree [] blockedOutputs = (prepared, .ok staged)) ∧
      (writeStaged blockedTree blockedOutputs).fault = some blockedFault ∧
      blockedTree.readBytes ⟨.relative, ["a"]⟩ = .error .noEntry ∧
      (writeStaged blockedTree blockedOutputs).tree.readBytes ⟨.relative, ["a"]⟩ =
        .ok "x".toUTF8 ∧
      blockedTree.readBytes ⟨.relative, ["b.tmp"]⟩ = .error .noEntry ∧
      (writeStaged blockedTree blockedOutputs).tree.readBytes ⟨.relative, ["b.tmp"]⟩ =
        .ok "y".toUTF8 :=
  ⟨⟨blockedStagedTree, blockedStaged, rfl⟩, by decide +kernel, rfl, rfl, rfl, rfl⟩

end FlatCrate.Pack
