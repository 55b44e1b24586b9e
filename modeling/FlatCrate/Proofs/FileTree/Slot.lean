import FlatCrate.Proofs.FileTree.Written

/-!
# The entry of a name

Moving and removing act on the entry that the last name of a path has in its directory; a link of
that name is not followed. A path that has been written names a link or the file itself, and no
later writing changes what it names.
-/

namespace FlatCrate.FileTree

variable {tree after : FileTree} {path : Path} {location : Location} {content : ByteArray}

/-- The location of the entry that a path names, without following a link of its last name. -/
def slotOf? (tree : FileTree) (path : Path) : Option Location :=
  match tree.slot path with
  | .ok (some (directory, name)) => some (name :: directory)
  | _ => none

/-- The slot of a path is a name in a directory. -/
theorem slotOf?_eq_some_iff : tree.slotOf? path = some location ↔
    ∃ directory name, tree.slot path = .ok (some (directory, name)) ∧
      name :: directory = location := by
  rw [slotOf?]
  split <;> simp_all

/-- A slot is never the root. -/
theorem slotOf?_ne_nil (h : tree.slotOf? path = some location) : location ≠ [] := by
  obtain ⟨directory, name, -, rfl⟩ := slotOf?_eq_some_iff.mp h
  exact List.cons_ne_nil name directory

/-- A path names an entry by its last name, in the directory to which the other ones lead. -/
theorem slot_eq_ok_some_iff {directory : Location} {name : String} :
    tree.slot path = .ok (some (directory, name)) ↔
      path.toString.utf8ByteSize ≤ maxPathBytes ∧
      tree.walk maxLinks (tree.startOf path) path.names.dropLast = .ok (.found directory) ∧
      tree.isDirectoryAt directory = true ∧ path.names.getLast? = some name ∧ name ≠ ".." ∧
      name.utf8ByteSize ≤ maxNameBytes := by
  rw [slot]
  split_ifs with hlong
  · simp [Nat.not_le.mpr hlong]
  · simp only [Nat.not_lt.mp hlong, true_and]
    cases tree.walk maxLinks (tree.startOf path) path.names.dropLast with
    | error fault => simp
    | ok arrival =>
      cases arrival with
      | vacant place free => simp
      | found place =>
        cases path.names.getLast? with
        | none => grind
        | some last => grind

/-! ## Where a path ends -/

/-- Where names lead whose last one is looked up in a directory: to a free name, to the entry of
that name, or to wherever a link of that name leads. -/
structure EndsAt (tree : FileTree) (directory : Location) (last : String) (arrival : Arrival) :
    Prop where
  isDirectory : tree.isDirectoryAt directory = true
  isShort : last.utf8ByteSize ≤ maxNameBytes
  arrives : arrival = .vacant directory last ∨
    (∃ entry, tree.find? (last :: directory) = some entry ∧ arrival = .found (last :: directory)) ∨
    ∃ target, tree.find? (last :: directory) = some (.link target)

section Names

variable {names : List String} {last : String} {place : Location} {arrival : Arrival}

/-- Names that can be followed to their last one lead to the directory of that one. -/
theorem Follows.exists_directory {jump : Location → List String → Except Fault Arrival}
    (hlast : IsEntryName last)
    (hjump : ∀ {place names}, jump place (names ++ [last]) = .ok arrival →
      ∃ directory, jump place names = .ok (.found directory) ∧ tree.EndsAt directory last arrival)
    (h : Follows tree jump place (names ++ [last]) arrival) :
    ∃ directory, Follows tree jump place names (.found directory) ∧
      tree.EndsAt directory last arrival := by
  induction names generalizing place with
  | nil =>
    refine ⟨place, .here place, ?_⟩
    rw [List.nil_append] at h
    cases h with
    | stay _ hstay _ => exact absurd hstay hlast.1
    | up _ _ => exact absurd rfl hlast.2
    | vacant hplace _ hlong _ => exact ⟨hplace, hlong, .inl rfl⟩
    | enter hplace _ hlong hfind _ hrest =>
      cases hrest with
      | here => exact ⟨hplace, hlong, .inr (.inl ⟨_, hfind, rfl⟩)⟩
    | jump hplace _ hlong hfind _ => exact ⟨hplace, hlong, .inr (.inr ⟨_, hfind⟩)⟩
  | cons name names ih =>
    rw [List.cons_append] at h
    generalize hall : names ++ [last] = all at h
    cases h with
    | stay hplace hstay hrest =>
      obtain ⟨directory, hnames, hends⟩ := ih (hall ▸ hrest)
      exact ⟨directory, .stay hplace hstay hnames, hends⟩
    | up hplace hrest =>
      obtain ⟨directory, hnames, hends⟩ := ih (hall ▸ hrest)
      exact ⟨directory, .up hplace hnames, hends⟩
    | vacant _ _ _ _ => simp at hall
    | enter hplace hentry hlong hfind hplain hrest =>
      obtain ⟨directory, hnames, hends⟩ := ih (hall ▸ hrest)
      exact ⟨directory, .enter hplace hentry hlong hfind hplain hnames, hends⟩
    | jump hplace hentry hlong hfind hgo =>
      rw [← hall, ← List.append_assoc] at hgo
      obtain ⟨directory, hnames, hends⟩ := hjump hgo
      exact ⟨directory, .jump hplace hentry hlong hfind hnames, hends⟩

/-- A walk to a last name goes through the directory in which that is looked up. -/
theorem exists_directory_of_walk {links : Nat} (hlast : IsEntryName last)
    (h : tree.walk links place (names ++ [last]) = .ok arrival) :
    ∃ directory, tree.walk links place names = .ok (.found directory) ∧
      tree.EndsAt directory last arrival := by
  induction links generalizing place names with
  | zero =>
    obtain ⟨directory, hnames, hends⟩ :=
      (follows_of_follow h).exists_directory hlast (by simp)
    exact ⟨directory, hnames.follow_eq, hends⟩
  | succ links ih =>
    obtain ⟨directory, hnames, hends⟩ := (follows_of_follow h).exists_directory hlast ih
    exact ⟨directory, hnames.follow_eq, hends⟩

/-- A path that can be followed names a location. -/
theorem slotOf?_of_locate (hnames : path.names = names ++ [last]) (hlast : IsEntryName last)
    (h : tree.locate path = .ok arrival) :
    ∃ directory, tree.slotOf? path = some (last :: directory) ∧
      tree.EndsAt directory last arrival := by
  rw [locate] at h
  split_ifs at h with hlong
  rw [hnames] at h
  obtain ⟨directory, hwalk, hends⟩ := exists_directory_of_walk hlast h
  refine ⟨directory, slotOf?_eq_some_iff.mpr ⟨directory, last, ?_, rfl⟩, hends⟩
  rw [slot_eq_ok_some_iff, hnames, List.dropLast_concat, List.getLast?_concat]
  exact ⟨Nat.not_lt.mp hlong, hwalk, hends.isDirectory, rfl, hlast.2, hends.isShort⟩

/-! ## The entry of a written name -/

/-- A path that has been written names a link, or the file that has been written; in that case
nothing else has changed. -/
theorem slotOf?_of_writeBytes (hnames : path.names = names ++ [last]) (hlast : IsEntryName last)
    (h : tree.writeBytes path content = .ok after) :
    ∃ location, after.slotOf? path = some location ∧
      ((∃ target, after.find? location = some (.link target)) ∨
        after.find? location = some (.file content) ∧
          ∀ other, other ≠ location → after.find? other = tree.find? other) := by
  obtain ⟨spot, arrival, hspot, rfl, hlocate, harrival⟩ := exists_spot_of_writeBytes h
  have hafter : (tree.put spot (.file content)).locate path = .ok (.found spot) :=
    harrival ▸ hspot.locate_put hlocate
  obtain ⟨directory, hslot, hends⟩ := slotOf?_of_locate hnames hlast hafter
  refine ⟨_, hslot, ?_⟩
  obtain hvacant | ⟨_, -, hfound⟩ | hlink := hends.arrives
  · simp at hvacant
  · obtain rfl := Arrival.found.inj hfound
    exact .inr ⟨find?_put_self tree hspot.below _, fun _ hother => find?_put_of_ne tree hother _⟩
  · exact .inl hlink

end Names

/-- Putting a file on a spot for files leaves the slots of all paths. -/
theorem IsFileSpot.slotOf?_put {spot : Location} (h : tree.IsFileSpot spot) (content : ByteArray)
    (hslot : tree.slotOf? path = some location) :
    (tree.put spot (.file content)).slotOf? path = some location := by
  obtain ⟨directory, name, hname, rfl⟩ := slotOf?_eq_some_iff.mp hslot
  obtain ⟨hshort, hwalk, hdirectory, hlast, hup, hlong⟩ := slot_eq_ok_some_iff.mp hname
  refine slotOf?_eq_some_iff.mpr ⟨directory, name, slot_eq_ok_some_iff.mpr ?_, rfl⟩
  exact ⟨hshort, h.walk_put hwalk, by rwa [h.isDirectoryAt_put], hlast, hup, hlong⟩

/-- A path that names an entry names the same one after another path has been written. -/
theorem slotOf?_writeBytes {other : Path} (h : tree.slotOf? path = some location)
    (hwrite : tree.writeBytes other content = .ok after) : after.slotOf? path = some location := by
  obtain ⟨spot, -, hspot, rfl, -, -⟩ := exists_spot_of_writeBytes hwrite
  exact hspot.slotOf?_put content h

/-- Writing leaves links as they are. -/
theorem find?_link_writeBytes {target : String} (h : tree.find? location = some (.link target))
    (hwrite : tree.writeBytes path content = .ok after) :
    after.find? location = some (.link target) := by
  obtain ⟨spot, -, hspot, rfl, -, -⟩ := exists_spot_of_writeBytes hwrite
  exact hspot.find?_put h rfl

end FlatCrate.FileTree
