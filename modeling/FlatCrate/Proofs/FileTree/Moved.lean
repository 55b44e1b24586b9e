import FlatCrate.Proofs.FileTree.Slot

/-!
# Moving files

A move takes the entry of one name to another name, and nothing else changes. When a file moves,
directories and links can only get lost by it, so a path that names an entry afterwards has named
the same one before.
-/

namespace FlatCrate.FileTree

variable {tree after : FileTree} {path target : Path} {source place location : Location}
  {content : ByteArray}

/-- A file or link can be moved to any name that is not the one of a directory. -/
theorem move_eq_ok_iff : tree.move path target = .ok after ↔
    ∃ source place entry, tree.slotOf? path = some source ∧ tree.slotOf? target = some place ∧
      tree.find? source = some entry ∧ entry ≠ .directory ∧ tree.find? place ≠ some .directory ∧
      after = if source = place then tree else (tree.erase source).put place entry := by
  simp only [move, bind, Except.bind, slotOf?]
  cases tree.slot path with
  | error fault => simp
  | ok first =>
    cases tree.slot target with
    | error fault => simp
    | ok second =>
      cases first with
      | none => simp
      | some source =>
        cases second with
        | none => simp
        | some place =>
          simp only [Option.some.injEq, exists_and_left, exists_eq_left', ← apply_ite Except.ok]
          cases tree.find? (source.2 :: source.1) with
          | none => simp
          | some entry =>
            cases tree.find? (place.2 :: place.1) with
            | none => cases entry <;> simp [eq_comm]
            | some there => cases entry <;> cases there <;> simp [eq_comm]

/-- Moving a file leaves the working directory alone. -/
theorem workDir_move (h : tree.move path target = .ok after) : after.workDir = tree.workDir := by
  obtain ⟨source, place, entry, -, -, -, -, -, rfl⟩ := move_eq_ok_iff.mp h
  split <;> rfl

/-- An entry that is no directory has moved from one location to another, where no directory has
been, and nothing else has changed. -/
structure Moved (tree : FileTree) (source place : Location) (after : FileTree) : Prop where
  isEntry : ∃ entry, tree.find? source = some entry ∧ entry ≠ .directory
  arrived : after.find? place = tree.find? source
  left : source ≠ place → after.find? source = none
  others : ∀ other, other ≠ source → other ≠ place → after.find? other = tree.find? other
  startOf_eq : ∀ path, after.startOf path = tree.startOf path

/-- A move takes the entry that one path names to the location that the other one names. -/
theorem moved_of_move (h : tree.move path target = .ok after) :
    ∃ source place, tree.slotOf? path = some source ∧ tree.slotOf? target = some place ∧
      tree.Moved source place after := by
  obtain ⟨source, place, entry, hsource, hplace, hfind, hentry, -, rfl⟩ := move_eq_ok_iff.mp h
  refine ⟨source, place, hsource, hplace, ?_⟩
  by_cases heq : source = place
  · subst heq
    rw [if_pos rfl]
    exact ⟨⟨entry, hfind, hentry⟩, rfl, absurd rfl, fun _ _ _ => rfl, fun _ => rfl⟩
  · rw [if_neg heq]
    exact {
      isEntry := ⟨entry, hfind, hentry⟩
      arrived := (find?_put_self _ (slotOf?_ne_nil hplace) entry).trans hfind.symm
      left := fun hne =>
        (find?_put_of_ne _ hne entry).trans (find?_erase_self tree (slotOf?_ne_nil hsource))
      others := fun _ hother hother' =>
        (find?_put_of_ne _ hother' entry).trans (find?_erase_of_ne tree hother)
      startOf_eq := fun _ => rfl }

/-! ## Fewer directories and links -/

/-- A tree has no other directories and links than an earlier one. -/
def Fewer (tree after : FileTree) : Prop :=
  ∀ location entry, after.find? location = some entry → entry.isFile = false →
    tree.find? location = some entry

/-- Moving a file makes no directory and no link. -/
theorem Moved.fewer (h : tree.Moved source place after)
    (hfile : tree.find? source = some (.file content)) : tree.Fewer after := by
  intro location entry hfind hentry
  by_cases hplace : location = place
  · subst hplace
    rw [h.arrived, hfile, Option.some.injEq] at hfind
    simp [← hfind, Entry.isFile] at hentry
  · by_cases hsource : location = source
    · subst hsource
      simp [h.left hplace] at hfind
    · rw [← hfind, h.others location hsource hplace]

/-- A location holds a directory exactly if that is the entry there. -/
theorem isDirectoryAt_iff : tree.isDirectoryAt location = true ↔
    tree.find? location = some .directory := by
  rw [isDirectoryAt]
  cases tree.find? location with
  | none => simp
  | some entry => cases entry <;> simp

namespace Fewer

/-- If no directory is new, one that is there has been there before. -/
theorem isDirectoryAt (h : tree.Fewer after) (hdirectory : after.isDirectoryAt location = true) :
    tree.isDirectoryAt location = true := by
  rw [isDirectoryAt_iff] at hdirectory ⊢
  exact h location _ hdirectory rfl

/-- If no directory or link is new, names that lead to a directory have led there before, as far as
links have. -/
theorem follows (h : tree.Fewer after) {jump jump' : Location → List String → Except Fault Arrival}
    (hlocation : after.isDirectoryAt location = true)
    (hjump : ∀ {place names}, jump place names = .ok (.found location) →
      jump' place names = .ok (.found location))
    {names : List String} (hfollow : Follows after jump place names (.found location)) :
    Follows tree jump' place names (.found location) ∧ after.isDirectoryAt place = true := by
  generalize harrival : Arrival.found location = arrival at hfollow
  induction hfollow with
  | here place =>
    obtain rfl := Arrival.found.inj harrival
    exact ⟨.here _, hlocation⟩
  | stay hplace hstay _ ih => exact ⟨.stay (h.isDirectoryAt hplace) hstay (ih harrival).1, hplace⟩
  | up hplace _ ih => exact ⟨.up (h.isDirectoryAt hplace) (ih harrival).1, hplace⟩
  | vacant _ _ _ _ => simp at harrival
  | @enter place name rest entry arrival hplace hentry hlong hfind hplain _ ih =>
    obtain ⟨hrest, hinside⟩ := ih harrival
    -- something follows in the entry, so it is a directory
    have hfile : entry.isFile = false := by
      rw [FileTree.isDirectoryAt, hfind] at hinside
      cases entry <;> simp_all [Entry.isFile]
    exact ⟨.enter (h.isDirectoryAt hplace) hentry hlong (h _ _ hfind hfile) hplain hrest, hplace⟩
  | jump hplace hentry hlong hfind hgo =>
    subst harrival
    exact ⟨.jump (h.isDirectoryAt hplace) hentry hlong (h _ _ hfind rfl) (hjump hgo), hplace⟩

/-- If no directory or link is new, a walk to a directory has got there before. -/
theorem walk_eq (h : tree.Fewer after) {links : Nat} {names : List String}
    (hlocation : after.isDirectoryAt location = true)
    (hwalk : after.walk links place names = .ok (.found location)) :
    tree.walk links place names = .ok (.found location) := by
  induction links generalizing place names with
  | zero => exact (h.follows hlocation (by simp) (follows_of_follow hwalk)).1.follow_eq
  | succ links ih => exact (h.follows hlocation ih (follows_of_follow hwalk)).1.follow_eq

/-- A path that names an entry in the tree with fewer directories and links names the same one in the
other tree. -/
theorem slotOf?_eq (h : tree.Fewer after) (hstart : after.startOf path = tree.startOf path)
    (hslot : after.slotOf? path = some location) : tree.slotOf? path = some location := by
  obtain ⟨directory, name, hname, rfl⟩ := slotOf?_eq_some_iff.mp hslot
  obtain ⟨hshort, hwalk, hdirectory, hlast, hup, hlong⟩ := slot_eq_ok_some_iff.mp hname
  refine slotOf?_eq_some_iff.mpr ⟨directory, name, slot_eq_ok_some_iff.mpr ?_, rfl⟩
  exact ⟨hshort, hstart ▸ h.walk_eq hdirectory hwalk, h.isDirectoryAt hdirectory, hlast, hup, hlong⟩

end Fewer

/-- A path that names an entry after a file has moved has named the same one before. -/
theorem Moved.slotOf?_eq (h : tree.Moved source place after)
    (hfile : tree.find? source = some (.file content))
    (hslot : after.slotOf? path = some location) : tree.slotOf? path = some location :=
  (h.fewer hfile).slotOf?_eq (h.startOf_eq path) hslot

end FlatCrate.FileTree
