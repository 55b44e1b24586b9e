import FlatCrate.Proofs.FileTree.Ways
import Mathlib.Data.List.Induction

/-!
# Trees without links

Without links, every name of a path leads one step down. So a path that goes on with some names
behind a directory leads to the location that these names spell, and what can be read there depends
on the entry at this location alone, as long as the path is not too long.
-/

namespace FlatCrate

/-- The path with more names. -/
def Path.below (path : Path) (names : List String) : Path := ⟨path.anchor, path.names ++ names⟩

namespace Path

variable {path : Path} {names : List String}

/-- A path below itself by no names is that path. -/
theorem below_nil (path : Path) : path.below [] = path := by
  rw [below, List.append_nil]

/-- One more name behind the others leads one step further below. -/
theorem below_entry (path : Path) (names : List String) (name : String) :
    (path.below names).entry name = path.below (names ++ [name]) := by
  rw [below, below, entry, List.append_assoc]

/-- The names tell paths below one path apart. -/
theorem below_inj {others : List String} (h : path.below names = path.below others) :
    names = others :=
  List.append_cancel_left (congrArg Path.names h)

end Path

namespace FileTree

variable {tree : FileTree} {location place : Location} {entry : Entry} {base path : Path}
  {names : List String} {content : ByteArray}

/-- A tree has no links, its working directory is there, and all of its entries stand in directories
and have names that are not too long. -/
structure IsLinkFree (tree : FileTree) : Prop where
  workDir : tree.find? tree.workDir = some .directory
  noLink : ∀ location target, tree.find? location ≠ some (.link target)
  inDirectory : ∀ name directory entry, tree.find? (name :: directory) = some entry →
    tree.find? directory = some .directory
  isShort : ∀ name directory entry, tree.find? (name :: directory) = some entry →
    name.utf8ByteSize ≤ maxNameBytes

/-- The entries of a closed tree show that it has no links. -/
theorem isLinkFree_of_entries (hworkDir : tree.find? tree.workDir = some .directory)
    (hentries : ∀ e ∈ tree.entries, (e.2.isFile = true ∨ e.2 = .directory) ∧
      tree.find? e.1.tail = some .directory ∧
      ∀ name ∈ e.1.head?, name.utf8ByteSize ≤ maxNameBytes) :
    tree.IsLinkFree where
  workDir := hworkDir
  noLink location target hlink := by
    cases location with
    | nil => simp [find?] at hlink
    | cons name directory =>
      have hmem := mem_entries_of_find? (List.cons_ne_nil _ _) hlink
      simpa [Entry.isFile] using (hentries _ hmem).1
  inDirectory _ _ _ hfind := (hentries _ (mem_entries_of_find? (List.cons_ne_nil _ _) hfind)).2.1
  isShort _ _ _ hfind :=
    (hentries _ (mem_entries_of_find? (List.cons_ne_nil _ _) hfind)).2.2 _ rfl

/-- What is read from a path is the content of the file to which it leads. -/
theorem readBytes_eq_ok_iff : tree.readBytes path = .ok content ↔
    ∃ location, tree.locate path = .ok (.found location) ∧
      tree.find? location = some (.file content) := by
  simp only [readBytes, entryOf, locationOf]
  cases tree.locate path with
  | error fault => simp
  | ok arrival =>
    cases arrival with
    | vacant directory name => simp
    | found location =>
      cases hfind : tree.find? location with
      | none => simp [hfind]
      | some entry => cases entry <;> simp [hfind]

namespace IsLinkFree

/-- Whatever stands above an entry is a directory. -/
theorem find?_of_append (h : tree.IsLinkFree) (hfind : tree.find? (names ++ location) = some entry)
    (hne : names ≠ []) : tree.find? location = some .directory := by
  induction names generalizing entry with
  | nil => exact absurd rfl hne
  | cons name names ih =>
    have habove := h.inDirectory _ _ _ hfind
    cases names with
    | nil => exact habove
    | cons other names => exact ih habove (List.cons_ne_nil _ _)

/-- A directory lies in a directory. -/
theorem find?_tail (h : tree.IsLinkFree) (hfind : tree.find? location = some .directory) :
    tree.find? location.tail = some .directory := by
  cases location with
  | nil => exact hfind
  | cons name directory => exact h.inDirectory name directory _ hfind

/-- Names spell the way to an entry. -/
theorem follows (h : tree.IsLinkFree) (hnames : ∀ name ∈ names, IsEntryName name)
    (hfind : tree.find? (names.reverse ++ place) = some entry)
    (jump : Location → List String → Except Fault Arrival) :
    Follows tree jump place names (.found (names.reverse ++ place)) := by
  induction names generalizing place with
  | nil => exact .here place
  | cons name names ih =>
    obtain ⟨hname, hnames'⟩ := List.forall_mem_cons.mp hnames
    rw [List.reverse_cons] at hfind ⊢
    have hplace := h.find?_of_append hfind (by simp)
    rw [List.append_assoc, List.singleton_append] at hfind ⊢
    obtain ⟨here, hhere⟩ : ∃ here, tree.find? (name :: place) = some here := by
      cases names with
      | nil => exact ⟨entry, hfind⟩
      | cons other names => exact ⟨_, h.find?_of_append hfind (by simp)⟩
    refine .enter (isDirectoryAt_iff.mpr hplace) hname (h.isShort _ _ _ hhere) hhere ?_
      (ih hnames' hfind)
    rintro target rfl
    exact h.noLink _ _ hhere

/-- Names lead nowhere but to the location that they spell. -/
theorem walk_below (h : tree.IsLinkFree) (hbase : tree.LeadsTo base place)
    (hnames : ∀ name ∈ names, IsEntryName name) {arrival : Location}
    (hwalk : tree.walk maxLinks (tree.startOf base) (base.names ++ names) = .ok (.found arrival)) :
    arrival = names.reverse ++ place := by
  induction names using List.reverseRecOn generalizing arrival with
  | nil =>
    rw [List.append_nil, hbase.walk_eq] at hwalk
    exact (Arrival.found.inj (Except.ok.inj hwalk)).symm
  | append_singleton names name ih =>
    have hname := hnames name (by simp)
    rw [← List.append_assoc] at hwalk
    obtain ⟨directory, hdirectory, hends⟩ := exists_directory_of_walk hname hwalk
    obtain rfl := ih (fun other hother => hnames other (List.mem_append_left _ hother)) hdirectory
    rw [List.reverse_concat, List.cons_append]
    obtain hvacant | ⟨_, -, hfound⟩ | ⟨target, hlink⟩ := hends.arrives
    · simp at hvacant
    · exact Arrival.found.inj hfound
    · exact absurd hlink (h.noLink _ _)

/-- A file can be read under a path that is not too long exactly if it stands at the location that
the path spells. -/
theorem readBytes_below_iff (h : tree.IsLinkFree) (hbase : tree.LeadsTo base place)
    (hnames : ∀ name ∈ names, IsEntryName name) :
    tree.readBytes (base.below names) = .ok content ↔
      (base.below names).toString.utf8ByteSize ≤ maxPathBytes ∧
        tree.find? (names.reverse ++ place) = some (.file content) := by
  have hstart : tree.startOf (base.below names) = tree.startOf base := rfl
  rw [readBytes_eq_ok_iff, locate]
  split_ifs with hlong
  · simp [Nat.not_le.mpr hlong]
  · constructor
    · rintro ⟨location, hwalk, hfind⟩
      obtain rfl := h.walk_below hbase hnames (hstart ▸ hwalk)
      exact ⟨Nat.not_lt.mp hlong, hfind⟩
    · rintro ⟨-, hfind⟩
      exact ⟨_, walk_append hbase.walk_eq (h.follows hnames hfind), hfind⟩

/-- The real location of a file that can be read is the one that its path spells. -/
theorem realLocation_below (h : tree.IsLinkFree) (hbase : tree.LeadsTo base place)
    (hnames : ∀ name ∈ names, IsEntryName name)
    (hread : tree.readBytes (base.below names) = .ok content) :
    tree.realLocation (base.below names) = some (names.reverse ++ place) := by
  obtain ⟨hshort, hfind⟩ := (h.readBytes_below_iff hbase hnames).mp hread
  refine realLocation_of_locate ?_
  rw [locate, if_neg (Nat.not_lt.mpr hshort)]
  exact walk_append hbase.walk_eq (h.follows hnames hfind)

/-- Nothing but a directory is reached by going up. -/
theorem find?_of_follows_up (h : tree.IsLinkFree)
    {jump : Location → List String → Except Fault Arrival}
    (hfollow : Follows tree jump place names (.found location)) (hup : names.getLast? = some "..") :
    tree.find? location = some .directory := by
  generalize harrival : Arrival.found location = arrival at hfollow
  induction hfollow with
  | here place => simp at hup
  | @stay _ name rest _ _ hstay hrest ih =>
    cases rest with
    | nil =>
      obtain rfl : name = ".." := by simpa using hup
      simp at hstay
    | cons other rest => exact ih (by simpa using hup) harrival
  | @up place rest _ hplace hrest ih =>
    cases rest with
    | nil =>
      cases hrest
      obtain rfl := Arrival.found.inj harrival
      exact h.find?_tail (isDirectoryAt_iff.mp hplace)
    | cons other rest => exact ih (by simpa using hup) harrival
  | vacant _ _ _ _ => simp at harrival
  | @enter _ name rest _ _ _ hentry _ _ _ _ ih =>
    cases rest with
    | nil =>
      obtain rfl : name = ".." := by simpa using hup
      exact absurd rfl hentry.2
    | cons other rest => exact ih (by simpa using hup) harrival
  | jump _ _ _ hfind _ => exact absurd hfind (h.noLink _ _)

/-- The path of a file ends in the name of an entry, in a directory to which the rest of it
leads. -/
theorem exists_entry (h : tree.IsLinkFree) (hpath : path.IsNormal)
    (hread : tree.readBytes path = .ok content) :
    ∃ parent name directory, path = parent.entry name ∧ IsEntryName name ∧
      tree.LeadsTo parent directory := by
  obtain ⟨location, hlocate, hfile⟩ := readBytes_eq_ok_iff.mp hread
  have hplain : tree.find? location ≠ some .directory := by simp [hfile]
  rw [locate] at hlocate
  split_ifs at hlocate
  obtain ⟨anchor, names⟩ := path
  induction names using List.reverseRecOn with
  | nil =>
    cases follows_of_follow hlocate
    have hstart : tree.find? (tree.startOf ⟨anchor, []⟩) = some .directory := by
      rw [startOf]
      split_ifs
      · rfl
      · exact h.workDir
    exact absurd hstart hplain
  | append_singleton names name _ =>
    obtain ⟨hproper, -⟩ := hpath name (by simp)
    have hup : name ≠ ".." := by
      rintro rfl
      exact hplain (h.find?_of_follows_up (follows_of_follow hlocate) (by simp))
    have hname : IsEntryName name := ⟨by simpa [Path.isName] using hproper, hup⟩
    obtain ⟨directory, hdirectory, hends⟩ := exists_directory_of_walk hname hlocate
    exact ⟨⟨anchor, names⟩, name, directory, rfl, hname, hdirectory, hends.isDirectory⟩

end IsLinkFree

end FileTree

end FlatCrate
