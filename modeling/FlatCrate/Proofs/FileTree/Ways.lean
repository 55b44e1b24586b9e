import FlatCrate.Proofs.FileTree.Moved
import FlatCrate.Proofs.Path

/-!
# Trees that differ in files only

No path leads through a regular file. So two trees with the same directories and links have the same
ways: a path names the same entry in both of them, and it leads to the same directory. Writing and
removing files keeps the ways of a tree.
-/

namespace FlatCrate

/-- A name of a file is that of an entry unless it is two dots. -/
theorem Path.IsFileName.isEntryName {name : String} (h : Path.IsFileName name)
    (hup : name ≠ "..") : FileTree.IsEntryName name := by
  obtain ⟨hempty, hdot⟩ : name ≠ "" ∧ name ≠ "." := by simpa [isName] using h.1
  exact ⟨not_or.mpr ⟨hempty, hdot⟩, hup⟩

namespace FileTree

variable {tree middle after : FileTree} {path : Path} {location directory : Location}
  {content : ByteArray} {name : String} {entry : Entry}

/-- What is not a file is no file with any content. -/
theorem some_file_ne (hentry : entry.isFile = false) (content : ByteArray) :
    some (Entry.file content) ≠ some entry := by
  intro heq
  obtain rfl := Option.some.inj heq
  exact Bool.false_ne_true hentry.symm

/-- Two trees have the same working directory, the same directories and the same links. -/
structure SameWays (tree after : FileTree) : Prop where
  workDir_eq : after.workDir = tree.workDir
  find?_iff : ∀ location entry, entry.isFile = false →
    (after.find? location = some entry ↔ tree.find? location = some entry)

namespace SameWays

/-- A tree has the same ways as itself. -/
theorem refl (tree : FileTree) : tree.SameWays tree := ⟨rfl, fun _ _ _ => Iff.rfl⟩

/-- Having the same ways carries over from one tree to the next. -/
theorem trans (h : tree.SameWays middle) (h' : middle.SameWays after) : tree.SameWays after where
  workDir_eq := h'.workDir_eq.trans h.workDir_eq
  find?_iff location entry hentry :=
    (h'.find?_iff location entry hentry).trans (h.find?_iff location entry hentry)

/-- Having the same ways holds in both directions. -/
theorem symm (h : tree.SameWays after) : after.SameWays tree where
  workDir_eq := h.workDir_eq.symm
  find?_iff location entry hentry := (h.find?_iff location entry hentry).symm

/-- Trees with the same entries have the same ways. -/
theorem of_find?_eq (hworkDir : after.workDir = tree.workDir)
    (h : ∀ location, after.find? location = tree.find? location) : tree.SameWays after :=
  ⟨hworkDir, fun location entry _ => by rw [h location]⟩

/-- A tree with the same ways has no directory or link more. -/
theorem fewer (h : tree.SameWays after) : tree.Fewer after :=
  fun location entry hfind hentry => (h.find?_iff location entry hentry).mp hfind

/-- Paths start in the same place. -/
theorem startOf_eq (h : tree.SameWays after) (path : Path) :
    after.startOf path = tree.startOf path := by
  rw [startOf, startOf, h.workDir_eq]

/-- A path names the same entry in both trees. -/
theorem slotOf?_eq (h : tree.SameWays after) (path : Path) :
    after.slotOf? path = tree.slotOf? path := by
  ext location
  exact ⟨h.fewer.slotOf?_eq (h.startOf_eq path), h.symm.fewer.slotOf?_eq (h.symm.startOf_eq path)⟩

/-- What is a directory or a link in the one tree cannot be a file in the other. -/
theorem isFile_of_find? (h : tree.SameWays after) {entry entry' : Entry}
    (hfind : tree.find? location = some entry) (hfind' : after.find? location = some entry')
    (hfile : entry'.isFile = true) : entry.isFile = true := by
  by_contra hentry
  have hsame := (h.find?_iff location entry (Bool.not_eq_true _ ▸ hentry)).mpr hfind
  exact hentry (Option.some.inj (hsame.symm.trans hfind') ▸ hfile)

end SameWays

/-- A new file where nothing but a file may stand keeps the ways. -/
theorem IsFileSpot.sameWays_put (h : tree.IsFileSpot location) (content : ByteArray) :
    tree.SameWays (tree.put location (.file content)) := by
  refine ⟨rfl, fun other entry hentry => ?_⟩
  by_cases hother : other = location
  · subst hother
    rw [find?_put_self tree h.below]
    exact iff_of_false (some_file_ne hentry content) fun hfind =>
      Bool.false_ne_true (hentry.symm.trans (h.isFile entry hfind))
  · rw [find?_put_of_ne tree hother]

/-- Writing a file keeps the ways. -/
theorem sameWays_writeBytes (h : tree.writeBytes path content = .ok after) :
    tree.SameWays after := by
  obtain ⟨spot, -, hspot, rfl, -, -⟩ := exists_spot_of_writeBytes h
  exact hspot.sameWays_put content

/-- A tree without an entry below the root has all the other ones. -/
theorem find?_erase_eq_some_iff (hne : location ≠ []) {other : Location} :
    (tree.erase location).find? other = some entry ↔
      other ≠ location ∧ tree.find? other = some entry := by
  by_cases hother : other = location
  · subst hother
    simp [find?_erase_self tree hne]
  · simp [hother, find?_erase_of_ne tree hother]

/-- Nothing changes for any path without an entry that is neither a directory nor a link. -/
theorem sameWays_erase_of_isFile (hne : location ≠ [])
    (h : ∀ entry ∈ tree.find? location, entry.isFile = true) :
    tree.SameWays (tree.erase location) := by
  refine ⟨rfl, fun other entry hentry => ?_⟩
  rw [find?_erase_eq_some_iff hne, and_iff_right_iff_imp]
  rintro hfind rfl
  exact Bool.false_ne_true (hentry.symm.trans (h entry hfind))

/-- Removing a file keeps the ways. -/
theorem sameWays_erase (hfile : tree.find? location = some (.file content)) :
    tree.SameWays (tree.erase location) := by
  have hne : location ≠ [] := by
    rintro rfl
    simp [find?] at hfile
  refine sameWays_erase_of_isFile hne fun entry hentry => ?_
  obtain rfl := Option.some.inj (hfile.symm.trans hentry)
  rfl

/-- What removing does to the entry that a path names. -/
theorem remove_eq (h : tree.slotOf? path = some location) :
    tree.remove path = match tree.find? location with
      | none => .error .noEntry
      | some .directory => .error .isDirectory
      | some _ => .ok (tree.erase location) := by
  obtain ⟨directory, name, hslot, rfl⟩ := slotOf?_eq_some_iff.mp h
  cases hfind : tree.find? (name :: directory) with
  | none => simp only [remove, hslot, hfind]
  | some entry => cases entry <;> simp only [remove, hslot, hfind]

/-! ## The entries of a directory -/

/-- A path leads to a directory. -/
structure LeadsTo (tree : FileTree) (path : Path) (directory : Location) : Prop where
  walk_eq : tree.walk maxLinks (tree.startOf path) path.names = .ok (.found directory)
  isDirectory : tree.isDirectoryAt directory = true

/-- A path leads to one directory at most. -/
theorem LeadsTo.unique {other : Location} (h : tree.LeadsTo path directory)
    (h' : tree.LeadsTo path other) : directory = other :=
  Arrival.found.inj (Except.ok.inj (h.walk_eq.symm.trans h'.walk_eq))

/-- If no directory or link is new, a path that leads to a directory has led there before. -/
theorem Fewer.leadsTo (h : tree.Fewer after) (hstart : after.startOf path = tree.startOf path)
    (hleads : after.LeadsTo path directory) : tree.LeadsTo path directory :=
  ⟨hstart ▸ h.walk_eq hleads.isDirectory hleads.walk_eq, h.isDirectoryAt hleads.isDirectory⟩

/-- A path leads to the same directory in both trees. -/
theorem SameWays.leadsTo (h : tree.SameWays after) (hleads : tree.LeadsTo path directory) :
    after.LeadsTo path directory :=
  h.symm.fewer.leadsTo (h.symm.startOf_eq path) hleads

/-- A path with one more name names the entry of that name, if it leads to a directory without it.
-/
theorem slotOf?_entry_eq_some_iff : tree.slotOf? (path.entry name) = some location ↔
    ∃ directory, location = name :: directory ∧ tree.LeadsTo path directory ∧ name ≠ ".." ∧
      name.utf8ByteSize ≤ maxNameBytes ∧
      (path.entry name).toString.utf8ByteSize ≤ maxPathBytes := by
  have hstart : tree.startOf (path.entry name) = tree.startOf path := rfl
  rw [slotOf?_eq_some_iff]
  constructor
  · rintro ⟨directory, last, hslot, rfl⟩
    obtain ⟨hshort, hwalk, hdirectory, hlast, hup, hlong⟩ := slot_eq_ok_some_iff.mp hslot
    rw [Path.entry, List.dropLast_concat, ← Path.entry, hstart] at hwalk
    rw [Path.entry, List.getLast?_concat] at hlast
    obtain rfl := Option.some.inj hlast
    exact ⟨directory, rfl, ⟨hwalk, hdirectory⟩, hup, hlong, hshort⟩
  · rintro ⟨directory, rfl, hleads, hup, hlong, hshort⟩
    refine ⟨directory, name, slot_eq_ok_some_iff.mpr ?_, rfl⟩
    refine ⟨hshort, ?_, hleads.isDirectory, ?_, hup, hlong⟩
    · rw [Path.entry, List.dropLast_concat, ← Path.entry, hstart, hleads.walk_eq]
    · rw [Path.entry, List.getLast?_concat]

/-- Names that lead to a place lead on from there by further names. -/
theorem Follows.append {jump : Location → List String → Except Fault Arrival}
    {names rest : List String} {place : Location} {arrival : Arrival}
    (hjump : ∀ {place names}, jump place names = .ok (.found location) →
      jump place (names ++ rest) = .ok arrival)
    (h : Follows tree jump place names (.found location))
    (hrest : Follows tree jump location rest arrival) :
    Follows tree jump place (names ++ rest) arrival := by
  generalize harrival : Arrival.found location = middle at h
  induction h with
  | here place =>
    obtain rfl := Arrival.found.inj harrival
    exact hrest
  | stay hplace hstay _ ih => exact .stay hplace hstay (ih harrival)
  | up hplace _ ih => exact .up hplace (ih harrival)
  | vacant _ _ _ _ => simp at harrival
  | enter hplace hentry hlong hfind hplain _ ih =>
    exact .enter hplace hentry hlong hfind hplain (ih harrival)
  | jump hplace hentry hlong hfind hgo =>
    subst harrival
    refine .jump hplace hentry hlong hfind ?_
    rw [List.append_eq, ← List.append_assoc]
    exact hjump hgo

/-- A walk goes on from the directory to which its first names lead. -/
theorem walk_append {links : Nat} {names rest : List String} {place : Location} {arrival : Arrival}
    (h : tree.walk links place names = .ok (.found location))
    (hrest : ∀ jump, Follows tree jump location rest arrival) :
    tree.walk links place (names ++ rest) = .ok arrival := by
  induction links generalizing place names with
  | zero => exact ((follows_of_follow h).append (by simp) (hrest _)).follow_eq
  | succ links ih => exact ((follows_of_follow h).append ih (hrest _)).follow_eq

/-- A path with one more name leads to the entry of that name, if that is no link, or to the free
name. -/
theorem LeadsTo.locate_entry (h : tree.LeadsTo path directory) (hname : IsEntryName name)
    (hlong : name.utf8ByteSize ≤ maxNameBytes)
    (hshort : (path.entry name).toString.utf8ByteSize ≤ maxPathBytes)
    (hplain : ∀ target, tree.find? (name :: directory) ≠ some (.link target)) :
    tree.locate (path.entry name) = .ok (if (tree.find? (name :: directory)).isNone then
      .vacant directory name else .found (name :: directory)) := by
  rw [locate, if_neg (Nat.not_lt.mpr hshort)]
  refine walk_append h.walk_eq fun jump => ?_
  cases hfind : tree.find? (name :: directory) with
  | none => exact .vacant h.isDirectory hname hlong hfind
  | some entry =>
    refine .enter h.isDirectory hname hlong hfind (fun target heq => ?_) (.here _)
    exact hplain target (heq ▸ hfind)

end FileTree

end FlatCrate
