import FlatCrate.Proofs.FileTree.Narrowed
import FlatCrate.Proofs.Pack.Unstaging

/-!
# Moving staged files

Staged files are moved one after another, each within its directory. Since every move finds
something to be moved, no two of them have the same target: what has been moved is no longer where
it was staged, and nothing puts it back there. For this no target but the last one may have the name
of a staged file; the last one is the manifest.

Under a staging name there may be a link, if the tree has had one there. Then the link is moved; it
leads to the file that has been written through it, so no path gets to another directory by that.
-/

namespace FlatCrate.Pack

variable {tree next after : FileTree} {place spot : Location} {places : List Location}
  {temporary target path : Path} {staged : List (Path × Path)}

/-! ## Where files are staged -/

/-- Where the file of a location is staged. -/
def stagingSpot : Location → Location
  | [] => []
  | name :: directory => (name ++ stagingSuffix) :: directory

/-- A staging name is another name. -/
theorem append_stagingSuffix_ne (name : String) : name ++ stagingSuffix ≠ name := by
  intro heq
  have hlength := congrArg String.length heq
  rw [String.length_append] at hlength
  exact absurd (Nat.add_eq_left.mp hlength) (by decide)

/-- A location below the root is not where its file is staged. -/
theorem stagingSpot_ne (h : place ≠ []) : stagingSpot place ≠ place := by
  cases place with
  | nil => exact absurd rfl h
  | cons name directory => exact fun heq => append_stagingSuffix_ne name (List.cons.inj heq).1

/-- Different locations have different places for staging. -/
theorem stagingSpot_injective : Function.Injective stagingSpot := by
  intro place other heq
  cases place with
  | nil =>
    cases other with
    | nil => rfl
    | cons name directory => simp [stagingSpot] at heq
  | cons name directory =>
    cases other with
    | nil => simp [stagingSpot] at heq
    | cons name' directory' =>
      obtain ⟨hname, rfl⟩ := List.cons.inj heq
      rw [(String.append_left_inj _).mp hname]

/-- The staging name of a path is its name with an ending. -/
theorem name_of_stagingPath? (h : stagingPath? target = some temporary) :
    temporary.name = target.name ++ stagingSuffix := by
  obtain ⟨-, -, rfl⟩ := stagingPath?_eq_some_iff.mp h
  rw [Path.name, List.getLast?_concat, Option.getD_some]

/-- The entry that a path names has the name of the path. -/
theorem exists_directory_of_slotOf? (h : tree.slotOf? path = some place) :
    ∃ directory, place = path.name :: directory ∧
      tree.walk FileTree.maxLinks (tree.startOf path) path.names.dropLast =
        .ok (.found directory) := by
  obtain ⟨directory, name, hslot, rfl⟩ := FileTree.slotOf?_eq_some_iff.mp h
  obtain ⟨-, hwalk, -, hlast, -⟩ := FileTree.slot_eq_ok_some_iff.mp hslot
  exact ⟨directory, by rw [Path.name, hlast, Option.getD_some], hwalk⟩

/-- A file is staged in the directory of its target. -/
theorem eq_stagingSpot (htemporary : stagingPath? target = some temporary)
    (hspot : tree.slotOf? temporary = some spot) (hplace : tree.slotOf? target = some place) :
    spot = stagingSpot place := by
  obtain ⟨directory, rfl, hwalk⟩ := exists_directory_of_slotOf? hplace
  obtain ⟨directory', rfl, hwalk'⟩ := exists_directory_of_slotOf? hspot
  rw [name_of_stagingPath? htemporary]
  obtain ⟨-, -, rfl⟩ := stagingPath?_eq_some_iff.mp htemporary
  rw [List.dropLast_concat] at hwalk'
  obtain rfl := FileTree.Arrival.found.inj (Except.ok.inj (hwalk.symm.trans hwalk'))
  rfl

/-! ## A run of moves -/

/-- Whatever was staged for some places has been moved there. -/
structure MovedInto (tree : FileTree) (places : List Location) (after : FileTree) : Prop where
  narrows : tree.Narrows after
  nodup : places.Nodup
  staged : ∀ place ∈ places, ∃ entry, tree.find? (stagingSpot place) = some entry ∧
    entry ≠ .directory
  unblocked : ∀ place ∈ places, tree.find? place ≠ some .directory
  arrived : ∀ place ∈ places, after.find? place = tree.find? (stagingSpot place)
  left : ∀ place ∈ places, stagingSpot place ∉ places → after.find? (stagingSpot place) = none
  others : ∀ location, (∀ place ∈ places, location ≠ place ∧ location ≠ stagingSpot place) →
    after.find? location = tree.find? location

/-- Without places nothing is moved. -/
theorem movedInto_nil (tree : FileTree) : MovedInto tree [] tree := by
  constructor <;> simp [FileTree.Narrows.refl]

/-- One more entry moved before the others, which must not be put where one of them is staged. -/
theorem MovedInto.cons (h : MovedInto next places after) (hnarrows : tree.Narrows next)
    (hmoved : tree.Moved (stagingSpot place) place next) (hbelow : place ≠ [])
    (hfree : tree.find? place ≠ some .directory)
    (hne : ∀ other ∈ places, place ≠ stagingSpot other) :
    MovedInto tree (place :: places) after := by
  have hleft : next.find? (stagingSpot place) = none := hmoved.left (stagingSpot_ne hbelow)
  -- the entry of this place is gone, while those of the other ones are still to be moved
  have hnew : place ∉ places := by
    intro hplace
    obtain ⟨_, hstaged, -⟩ := h.staged place hplace
    simp [hleft] at hstaged
  have hapart {other : Location} (hother : other ∈ places) :
      stagingSpot other ≠ stagingSpot place := fun heq =>
    hnew (stagingSpot_injective heq ▸ hother)
  have hstaged {other : Location} (hother : other ∈ places) :
      next.find? (stagingSpot other) = tree.find? (stagingSpot other) :=
    hmoved.others _ (hapart hother) (Ne.symm (hne other hother))
  constructor
  case narrows => exact hnarrows.trans h.narrows
  case nodup => exact List.nodup_cons.mpr ⟨hnew, h.nodup⟩
  case staged =>
    refine List.forall_mem_cons.mpr ⟨hmoved.isEntry, fun other hother => ?_⟩
    rw [← hstaged hother]
    exact h.staged other hother
  case unblocked =>
    refine List.forall_mem_cons.mpr ⟨hfree, fun other hother hdirectory => ?_⟩
    have hother' : other ≠ place := fun heq => hnew (heq ▸ hother)
    by_cases hstaging : other = stagingSpot place
    · obtain ⟨entry, hentry, hplain⟩ := hmoved.isEntry
      exact hplain (Option.some.inj (hentry.symm.trans (hstaging ▸ hdirectory)))
    · exact h.unblocked other hother ((hmoved.others _ hstaging hother').trans hdirectory)
  case arrived =>
    refine List.forall_mem_cons.mpr ⟨?_, fun other hother => ?_⟩
    · rw [h.others _ fun other hother => ⟨fun heq => ?_, hne other hother⟩, hmoved.arrived]
      exact hnew (heq ▸ hother)
    · rw [h.arrived other hother, hstaged hother]
  case left =>
    refine List.forall_mem_cons.mpr ⟨fun hplace => ?_, fun other hother hplace => ?_⟩
    · rw [h.others _ fun other hother => ⟨fun heq => hplace ?_, fun heq => ?_⟩, hleft]
      · exact List.mem_cons_of_mem place (heq ▸ hother)
      · exact hapart hother heq.symm
    · exact h.left other hother fun hmem => hplace (List.mem_cons_of_mem place hmem)
  case others =>
    intro location hlocation
    obtain ⟨⟨htarget, hstaging⟩, hrest⟩ := List.forall_mem_cons.mp hlocation
    rw [h.others location hrest, hmoved.others location hstaging htarget]

/-- Paths name places, and the staging names that belong to them name those where the files of these
places are staged. -/
structure Names (tree : FileTree) (staged : List (Path × Path)) (places : List Location) : Prop where
  target : staged.map (fun pair => tree.slotOf? pair.2) = places.map some
  staging : staged.map (fun pair => tree.slotOf? pair.1) =
    places.map fun place => some (stagingSpot place)

namespace Names

/-- Every place has a staged file that is named for it. -/
theorem exists_staging (h : Names tree staged places) (hplace : place ∈ places) :
    ∃ pair ∈ staged, tree.slotOf? pair.1 = some (stagingSpot place) :=
  List.mem_map.mp (h.staging ▸ List.mem_map_of_mem hplace)

/-- The same places are named in a tree that was less narrow. -/
theorem of_narrows (h : Names next staged places) (hnarrows : tree.Narrows next) :
    Names tree staged places where
  target := by
    rw [← h.target]
    refine List.map_congr_left fun pair hpair => ?_
    obtain ⟨place, -, hplace⟩ := List.mem_map.mp (h.target ▸ List.mem_map_of_mem hpair)
    exact (hnarrows.slotOf?_eq hplace.symm).trans hplace
  staging := by
    rw [← h.staging]
    refine List.map_congr_left fun pair hpair => ?_
    obtain ⟨place, -, hplace⟩ := List.mem_map.mp (h.staging ▸ List.mem_map_of_mem hpair)
    exact (hnarrows.slotOf?_eq hplace.symm).trans hplace

end Names

/-- What a link under one of the staging names leads to is no directory. -/
def AreBlind (tree : FileTree) (staged : List (Path × Path)) : Prop :=
  ∀ pair ∈ staged, ∀ name directory target, tree.slotOf? pair.1 = some (name :: directory) →
    tree.find? (name :: directory) = some (.link target) → tree.IsBlind directory target

/-- Moves of staged files, if no file is moved to where a later one is staged. -/
theorem Moves.movedInto (h : Moves tree staged after)
    (hpaths : ∀ pair ∈ staged, stagingPath? pair.2 = some pair.1)
    (hnames : (staged.map (·.2.name)).Pairwise fun name later => name ≠ later ++ stagingSuffix)
    (hblind : AreBlind tree staged) :
    ∃ places, Names tree staged places ∧ MovedInto tree places after := by
  induction h with
  | nil tree => exact ⟨[], ⟨rfl, rfl⟩, movedInto_nil tree⟩
  | @cons tree next after temporary target moved hmove _ ih =>
    obtain ⟨hpath, hpaths'⟩ := List.forall_mem_cons.mp hpaths
    rw [List.map_cons, List.pairwise_cons, List.forall_mem_map] at hnames
    obtain ⟨hne, hnames'⟩ := hnames
    obtain ⟨hhere, hblind'⟩ := List.forall_mem_cons.mp hblind
    obtain ⟨source, place, entry, hsource, hplace, hfind, -, hfree, -⟩ :=
      FileTree.move_eq_ok_iff.mp hmove
    obtain ⟨source', place', hsource', hplace', hmoved⟩ := FileTree.moved_of_move hmove
    obtain rfl := Option.some.inj (hsource.symm.trans hsource')
    obtain rfl := Option.some.inj (hplace.symm.trans hplace')
    obtain rfl := eq_stagingSpot hpath hsource hplace
    obtain ⟨directory, rfl, -⟩ := exists_directory_of_slotOf? hplace
    have hnarrows : tree.Narrows next :=
      hmoved.narrows (FileTree.workDir_move hmove) fun name hlink => hhere _ _ name hsource hlink
    -- no later file is staged under the name of this target
    have hapart {pair : Path × Path} (hpair : pair ∈ moved) {spot : Location}
        (hspot : tree.slotOf? pair.1 = some spot) : target.name :: directory ≠ spot := by
      obtain ⟨_, rfl, -⟩ := exists_directory_of_slotOf? hspot
      intro heq
      exact hne pair hpair ((List.cons.inj heq).1.trans (name_of_stagingPath? (hpaths' pair hpair)))
    obtain ⟨places, hplaces, hinto⟩ := ih hpaths' hnames'
      fun pair hpair name above aim hslot hlink => by
        have hbefore := hnarrows.slotOf?_eq hslot
        obtain hfound | ⟨heq, -⟩ := hmoved.find?_eq_some hlink
        · exact (hblind' pair hpair _ _ _ hbefore hfound).of_narrows hnarrows
        · exact absurd heq.symm (hapart hpair hbefore)
    have hplaces' := hplaces.of_narrows hnarrows
    refine ⟨(target.name :: directory) :: places, ⟨?_, ?_⟩,
      hinto.cons hnarrows hmoved (List.cons_ne_nil _ _) hfree fun other hother => ?_⟩
    · rw [List.map_cons, List.map_cons, hplace, hplaces'.target]
    · rw [List.map_cons, List.map_cons, hsource, hplaces'.staging]
    · obtain ⟨pair, hpair, hspot⟩ := hplaces'.exists_staging hother
      exact hapart hpair hspot

/-- Moving files to places where no link is keeps the ways. -/
theorem MovedInto.sameWays (h : MovedInto tree places after)
    (hfiles : ∀ place ∈ places, ∃ content, tree.find? (stagingSpot place) = some (.file content))
    (hplain : ∀ place ∈ places, ∀ target, tree.find? place ≠ some (.link target)) :
    tree.SameWays after := by
  refine ⟨h.narrows.workDir_eq, fun location entry hentry => ?_⟩
  have hcontent := FileTree.some_file_ne hentry
  by_cases htarget : location ∈ places
  · obtain ⟨content, hfile⟩ := hfiles location htarget
    rw [h.arrived location htarget, hfile]
    refine iff_of_false (hcontent content) fun hfind => ?_
    cases entry with
    | file content => exact Bool.false_ne_true hentry.symm
    | directory => exact h.unblocked location htarget hfind
    | link target => exact hplain location htarget target hfind
  by_cases hstaging : ∃ place ∈ places, location = stagingSpot place
  · obtain ⟨place, hplace, rfl⟩ := hstaging
    obtain ⟨content, hfile⟩ := hfiles place hplace
    rw [h.left place hplace htarget, hfile]
    exact iff_of_false (by simp) (hcontent content)
  · simp only [not_exists, not_and] at hstaging
    rw [h.others location fun place hplace =>
      ⟨fun heq => htarget (heq ▸ hplace), hstaging place hplace⟩]

end FlatCrate.Pack
