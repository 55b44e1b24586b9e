import FlatCrate.Proofs.FileTree.Made
import FlatCrate.Proofs.Pack.Staging

/-!
# Staging and what takes it back

Staging adds files and nothing else, as long as no link stands where a file is staged. Any of the
places may be staged twice. If nothing was there before, removing the staged files gives back what
was found at every location.
-/

namespace FlatCrate.Pack

variable {tree after now : FileTree} {outputs : List Output} {staged : List (Path × Path)}
  {medium : Medium}

/-- No link stands where files are staged. -/
def IsPlain (tree : FileTree) (staged : List (Path × Path)) : Prop :=
  ∀ pair ∈ staged, ∀ location ∈ tree.slotOf? pair.1, ∀ target,
    tree.find? location ≠ some (.link target)

/-- Whether links stand at staging names depends on the ways of the tree only. -/
theorem IsPlain.of_sameWays (h : IsPlain tree staged) (hways : tree.SameWays after) :
    IsPlain after staged := by
  intro pair hpair location hlocation target hlink
  rw [hways.slotOf?_eq] at hlocation
  exact h pair hpair location hlocation target ((hways.find?_iff location _ rfl).mp hlink)

/-- How a tree with staged files differs from the one before: there is a file wherever one has been
staged, and nothing else has changed. -/
structure HasStaged (tree : FileTree) (staged : List (Path × Path)) (now : FileTree) : Prop where
  ways : tree.SameWays now
  isFile : ∀ pair ∈ staged, ∃ location content, tree.slotOf? pair.1 = some location ∧
    now.find? location = some (.file content)
  others : ∀ location, (∀ pair ∈ staged, tree.slotOf? pair.1 ≠ some location) →
    now.find? location = tree.find? location

/-- Writing under a staging name where no link stands puts the bytes there. -/
theorem written_of_stagingPath? {target temporary : Path} {content : ByteArray}
    (htemporary : stagingPath? target = some temporary)
    (hwrite : tree.writeBytes temporary content = .ok now)
    (hplain : ∀ location ∈ tree.slotOf? temporary, ∀ name,
      tree.find? location ≠ some (.link name)) :
    tree.SameWays now ∧ ∃ location, tree.slotOf? temporary = some location ∧
      now.find? location = some (.file content) ∧
      ∀ other, other ≠ location → now.find? other = tree.find? other := by
  have hways := FileTree.sameWays_writeBytes hwrite
  obtain ⟨names, last, hnames, hlast⟩ := stagingPath?_eq_some htemporary
  obtain ⟨location, hslot, ⟨name, hlink⟩ | ⟨hfile, hothers⟩⟩ :=
    FileTree.slotOf?_of_writeBytes hnames hlast hwrite
  · rw [hways.slotOf?_eq] at hslot
    exact absurd ((hways.find?_iff location _ rfl).mp hlink) (hplain location hslot name)
  · rw [hways.slotOf?_eq] at hslot
    exact ⟨hways, location, hslot, hfile, hothers⟩

namespace Staged

/-- The staging names are those of the outputs, in their order. -/
theorem map_staging (h : Staged tree outputs staged after) :
    staged.map (some ·.1) = outputs.map fun output => stagingPath? output.1 := by
  induction h with
  | nil => rfl
  | cons htemporary _ _ ih => rw [List.map_cons, List.map_cons, ih, htemporary]

/-- Every staged file belongs to an output, and stands under its staging name. -/
theorem exists_output (h : Staged tree outputs staged after) :
    ∀ pair ∈ staged, ∃ output ∈ outputs, stagingPath? output.1 = some pair.1 := by
  induction h with
  | nil => simp
  | cons htemporary _ _ ih =>
    refine List.forall_mem_cons.mpr ⟨⟨_, List.mem_cons_self, htemporary⟩, fun pair hpair => ?_⟩
    obtain ⟨output, houtput, hpath⟩ := ih pair hpair
    exact ⟨output, List.mem_cons_of_mem _ houtput, hpath⟩

/-- Where no link stands at a staging name, the staged files are there themselves. -/
theorem hasStaged (h : Staged tree outputs staged after) (hplain : IsPlain tree staged) :
    HasStaged tree staged after := by
  induction h with
  | nil tree => exact ⟨.refl tree, by simp, fun _ _ => rfl⟩
  | @cons tree written after target temporary text outputs staged htemporary hwrite _ ih =>
    obtain ⟨hhere, hrest⟩ := List.forall_mem_cons.mp hplain
    obtain ⟨hways, location, hslot, hfile, hothers⟩ :=
      written_of_stagingPath? htemporary hwrite hhere
    obtain ⟨hways', hfiles, hframe⟩ := ih (IsPlain.of_sameWays hrest hways)
    refine ⟨hways.trans hways', List.forall_mem_cons.mpr ⟨?_, fun pair hpair => ?_⟩,
      fun other hother => ?_⟩
    · -- a later file may have been staged in the same place
      by_cases hagain : ∃ pair ∈ staged, tree.slotOf? pair.1 = some location
      · obtain ⟨pair, hpair, heq⟩ := hagain
        obtain ⟨place, content, hplace, hcontent⟩ := hfiles pair hpair
        rw [hways.slotOf?_eq, heq, Option.some.injEq] at hplace
        exact ⟨location, content, hslot, hplace ▸ hcontent⟩
      · simp only [not_exists, not_and] at hagain
        refine ⟨location, _, hslot, (hframe location fun pair hpair => ?_).trans hfile⟩
        rw [hways.slotOf?_eq]
        exact hagain pair hpair
    · obtain ⟨place, content, hplace, hcontent⟩ := hfiles pair hpair
      exact ⟨place, content, hways.slotOf?_eq pair.1 ▸ hplace, hcontent⟩
    · obtain ⟨hne, hnone⟩ := List.forall_mem_cons.mp hother
      rw [hframe other fun pair hpair => hways.slotOf?_eq pair.1 ▸ hnone pair hpair]
      exact hothers other fun heq => hne (heq ▸ hslot)

/-- If the places are different, every staged file holds its text. -/
theorem find?_text (h : Staged tree outputs staged after) (hplain : IsPlain tree staged)
    (hnodup : (staged.map fun pair => tree.slotOf? pair.1).Nodup) :
    ∀ entry ∈ outputs.zip staged, ∃ location, tree.slotOf? entry.2.1 = some location ∧
      after.find? location = some (.file entry.1.2.toUTF8) := by
  induction h with
  | nil => simp
  | @cons tree written after target temporary text outputs staged htemporary hwrite hrest ih =>
    obtain ⟨hhere, hplain'⟩ := List.forall_mem_cons.mp hplain
    obtain ⟨hways, location, hslot, hfile, -⟩ := written_of_stagingPath? htemporary hwrite hhere
    have hplain'' := IsPlain.of_sameWays hplain' hways
    rw [List.map_cons, List.nodup_cons] at hnodup
    rw [List.zip_cons_cons]
    refine List.forall_mem_cons.mpr ⟨⟨location, hslot, ?_⟩, fun entry hentry => ?_⟩
    · rw [(hrest.hasStaged hplain'').others location fun pair hpair heq => ?_, hfile]
      rw [hways.slotOf?_eq, ← hslot] at heq
      exact hnodup.1 (List.mem_map.mpr ⟨pair, hpair, heq⟩)
    · obtain ⟨place, hplace, htext⟩ := ih hplain'' (by simpa [hways.slotOf?_eq] using hnodup.2)
        entry hentry
      exact ⟨place, hways.slotOf?_eq entry.2.1 ▸ hplace, htext⟩

end Staged

/-! ## Unstaging -/

/-- Removing files from places that were free gives back what was found before, also if the same
place comes twice. -/
theorem find?_unstage (hways : tree.SameWays now)
    (hfree : ∀ pair ∈ staged, ∃ location, tree.slotOf? pair.1 = some location ∧
      tree.find? location = none)
    (hothers : ∀ location, (∀ pair ∈ staged, tree.slotOf? pair.1 ≠ some location) →
      now.find? location = tree.find? location) :
    (unstage now staged).workDir = tree.workDir ∧
      ∀ location, (unstage now staged).find? location = tree.find? location := by
  induction staged generalizing now with
  | nil => exact ⟨hways.workDir_eq, fun location => hothers location (by simp)⟩
  | cons pair staged ih =>
    obtain ⟨⟨location, hslot, hnone⟩, hfree'⟩ := List.forall_mem_cons.mp hfree
    have hremove := FileTree.remove_eq (hways.slotOf?_eq pair.1 ▸ hslot)
    have helsewhere : ∀ other, other ≠ location →
        (∀ pair ∈ staged, tree.slotOf? pair.1 ≠ some other) →
        now.find? other = tree.find? other := by
      intro other hne hother
      refine hothers other (List.forall_mem_cons.mpr ⟨fun heq => hne ?_, hother⟩)
      exact Option.some.inj (heq.symm.trans hslot)
    rw [unstage, List.foldl_cons, ← unstage]
    cases hfind : now.find? location with
    | none =>
      simp only [hremove, hfind]
      refine ih hways hfree' fun other hother => ?_
      by_cases hne : other = location
      · rw [hne, hfind, hnone]
      · exact helsewhere other hne hother
    | some entry =>
      cases entry with
      | file content =>
        simp only [hremove, hfind]
        refine ih (hways.trans (FileTree.sameWays_erase hfind)) hfree' fun other hother => ?_
        by_cases hne : other = location
        · rw [hne, hnone, FileTree.find?_erase_self now (FileTree.slotOf?_ne_nil hslot)]
        · rw [FileTree.find?_erase_of_ne now hne, helsewhere other hne hother]
      | directory => simp [(hways.find?_iff location _ rfl).mp hfind] at hnone
      | link target => simp [(hways.find?_iff location _ rfl).mp hfind] at hnone

/-- Nothing but a directory stands where files are to be staged. -/
def IsFree (tree : FileTree) (outputs : List Output) : Prop :=
  ∀ output ∈ outputs, ∀ temporary ∈ stagingPath? output.1, ∀ location ∈ tree.slotOf? temporary,
    ∀ entry ∈ tree.find? location, entry = .directory

namespace Staged

/-- What stands in a free place is no link. -/
theorem isPlain (h : Staged tree outputs staged after) (hfree : IsFree tree outputs) :
    IsPlain tree staged := by
  intro pair hpair location hlocation target hlink
  obtain ⟨output, houtput, htemporary⟩ := h.exists_output pair hpair
  exact Entry.noConfusion (hfree output houtput pair.1 htemporary location hlocation _ hlink)

/-- Where a file could be staged in a free place, nothing has been before. -/
theorem find?_eq_none (h : Staged tree outputs staged after) (hfree : IsFree tree outputs) :
    ∀ pair ∈ staged, ∃ location, tree.slotOf? pair.1 = some location ∧
      tree.find? location = none := by
  intro pair hpair
  have hstaged := h.hasStaged (h.isPlain hfree)
  obtain ⟨location, content, hslot, hfile⟩ := hstaged.isFile pair hpair
  obtain ⟨output, houtput, htemporary⟩ := h.exists_output pair hpair
  refine ⟨location, hslot, Option.eq_none_iff_forall_ne_some.mpr fun entry hentry => ?_⟩
  obtain rfl := hfree output houtput pair.1 htemporary location hslot entry hentry
  exact Bool.false_ne_true (hstaged.ways.isFile_of_find? hentry hfile rfl)

/-- Unstaging takes back all that staging in free places has done. -/
theorem find?_unstage (h : Staged tree outputs staged after) (hfree : IsFree tree outputs) :
    (unstage after staged).workDir = tree.workDir ∧
      ∀ location, (unstage after staged).find? location = tree.find? location := by
  have hstaged := h.hasStaged (h.isPlain hfree)
  exact Pack.find?_unstage hstaged.ways (h.find?_eq_none hfree) hstaged.others

end Staged

/-- A file that is cut off behind staged files is not removed with them, unless one of them has
stood in its place. -/
theorem Staged.find?_unstage_cut {written : FileTree} {spot : Location}
    {part : ByteArray} (h : Staged tree outputs staged now) (hfree : IsFree tree outputs)
    (hspot : tree.IsFileSpot spot) (hways : now.SameWays written)
    (hpart : written.find? spot = some (.file part))
    (hothers : ∀ other, other ≠ spot → written.find? other = now.find? other) :
    (unstage written staged).workDir = tree.workDir ∧
      (∀ other, other ≠ spot → (unstage written staged).find? other = tree.find? other) ∧
      ((∃ pair ∈ staged, tree.slotOf? pair.1 = some spot) →
        (unstage written staged).find? spot = none) ∧
      ((∀ pair ∈ staged, tree.slotOf? pair.1 ≠ some spot) →
        (unstage written staged).find? spot = some (.file part)) := by
  have hstaged := h.hasStaged (h.isPlain hfree)
  have hnone := h.find?_eq_none hfree
  have helsewhere : ∀ other, other ≠ spot →
      (∀ pair ∈ staged, tree.slotOf? pair.1 ≠ some other) →
      written.find? other = tree.find? other := fun other hne hother =>
    (hothers other hne).trans (hstaged.others other hother)
  by_cases hagain : ∃ pair ∈ staged, tree.slotOf? pair.1 = some spot
  · obtain ⟨pair, hpair, hslot⟩ := hagain
    obtain ⟨hworkDir, hfind⟩ := Pack.find?_unstage (hstaged.ways.trans hways) hnone
      fun other hother => helsewhere other (fun heq => hother pair hpair (heq ▸ hslot)) hother
    obtain ⟨location, hlocation, hvacant⟩ := hnone pair hpair
    obtain rfl := Option.some.inj (hlocation.symm.trans hslot)
    exact ⟨hworkDir, fun other _ => hfind other, fun _ => (hfind location).trans hvacant,
      fun hne => absurd hslot (hne pair hpair)⟩
  · -- the part counts as if it had been there before anything was staged
    have hput := hspot.sameWays_put part
    have hbase := hput.symm.trans (hstaged.ways.trans hways)
    simp only [not_exists, not_and] at hagain
    obtain ⟨hworkDir, hfind⟩ := Pack.find?_unstage hbase
      (fun pair hpair => by
        obtain ⟨location, hlocation, hvacant⟩ := hnone pair hpair
        have hne : location ≠ spot := fun heq => hagain pair hpair (heq ▸ hlocation)
        exact ⟨location, hput.slotOf?_eq pair.1 ▸ hlocation,
          (FileTree.find?_put_of_ne tree hne _).trans hvacant⟩)
      fun other hother => by
        by_cases hne : other = spot
        · rw [hne, hpart, FileTree.find?_put_self tree hspot.below]
        · rw [FileTree.find?_put_of_ne tree hne]
          exact helsewhere other hne fun pair hpair => hput.slotOf?_eq pair.1 ▸ hother pair hpair
    refine ⟨hworkDir, fun other hne => (hfind other).trans (FileTree.find?_put_of_ne tree hne _),
      fun ⟨pair, hpair, hslot⟩ => absurd hslot (hagain pair hpair), fun _ => ?_⟩
    rw [hfind, FileTree.find?_put_self tree hspot.below]

/-! ## Staging that fails -/

/-- How staging one more output fails behind those that have been staged: what it leaves, and the
fault. -/
inductive Stuck (medium : Medium) (now : FileTree) (staged : List (Path × Path)) :
    Output → FileTree → PackFault → Prop
  /-- There is no staging name. Nothing is removed. -/
  | nameless {target : Path} {text : String} : stagingPath? target = none →
      Stuck medium now staged (target, text) now (.broken .impossibleValue)
  /-- The file cannot be opened. -/
  | refused {target temporary : Path} {text : String} {cause : Fault} :
      stagingPath? target = some temporary →
      now.writeOn medium temporary text = .refused cause →
      Stuck medium now staged (target, text) (unstage now staged)
        (.file ⟨cause, temporary, none⟩)
  /-- Writing the file breaks off. -/
  | cut {target temporary : Path} {text : String} {written : FileTree} {e : FileError} :
      stagingPath? target = some temporary → now.writeOn medium temporary text = .cut written e →
      Stuck medium now staged (target, text) (unstage written staged) (.file e)

/-- Staging goes on behind the outputs that have been staged, and ends with the first that has not.
-/
theorem stage_append (before : List (Path × Path)) (done rest : List Output) :
    stage tree before (done ++ rest) medium =
      match stage tree before done medium with
      | (now, .ok staged) => stage now staged rest medium
      | (after, .error fault) => (after, .error fault) := by
  induction done generalizing tree before with
  | nil => rfl
  | cons output done ih =>
    obtain ⟨target, text⟩ := output
    rw [List.cons_append, stage, stage]
    cases stagingPath? target with
    | none => rfl
    | some temporary =>
      dsimp only
      cases tree.writeOn medium temporary text with
      | refused cause => rfl
      | cut written e => rfl
      | done written => exact ih _

/-- Staging fails at the first output that cannot be staged. -/
theorem stage_eq_error_iff {before : List (Path × Path)} {fault : PackFault} :
    stage tree before outputs medium = (after, .error fault) ↔
      ∃ done output rest now staged, outputs = done ++ output :: rest ∧
        stage tree before done medium = (now, .ok staged) ∧
        Stuck medium now staged output after fault := by
  constructor
  · intro h
    induction outputs generalizing tree before with
    | nil => simp [stage] at h
    | cons output outputs ih =>
      obtain ⟨target, text⟩ := output
      rw [stage] at h
      cases htemporary : stagingPath? target with
      | none =>
        simp only [htemporary, Prod.mk.injEq, Except.error.injEq] at h
        obtain ⟨rfl, rfl⟩ := h
        exact ⟨[], _, outputs, _, before, rfl, rfl, .nameless htemporary⟩
      | some temporary =>
        cases hwrite : tree.writeOn medium temporary text with
        | refused cause =>
          simp only [htemporary, hwrite, Prod.mk.injEq, Except.error.injEq] at h
          obtain ⟨rfl, rfl⟩ := h
          exact ⟨[], _, outputs, _, before, rfl, rfl, .refused htemporary hwrite⟩
        | cut written e =>
          simp only [htemporary, hwrite, Prod.mk.injEq, Except.error.injEq] at h
          obtain ⟨rfl, rfl⟩ := h
          exact ⟨[], _, outputs, _, before, rfl, rfl, .cut htemporary hwrite⟩
        | done written =>
          simp only [htemporary, hwrite] at h
          obtain ⟨done, output, rest, now, staged, rfl, hdone, hstuck⟩ := ih h
          refine ⟨(target, text) :: done, output, rest, now, staged, rfl, ?_, hstuck⟩
          simp only [stage, htemporary, hwrite, hdone]
  · rintro ⟨done, output, rest, now, staged, rfl, hdone, hstuck⟩
    rw [stage_append, hdone]
    cases hstuck with
    | nameless htemporary => simp only [stage, htemporary]
    | refused htemporary hwrite => simp only [stage, htemporary, hwrite]
    | cut htemporary hwrite => simp only [stage, htemporary, hwrite]

end FlatCrate.Pack
