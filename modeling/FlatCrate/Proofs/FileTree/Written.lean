import FlatCrate.FileTree.Edit
import FlatCrate.Proofs.FileTree.Follow
import Mathlib.Tactic.SplitIfs

/-!
# Reading what was written

A file may be written over a file or under a free name. Neither turns a path that leads somewhere
away: it still leads there, and a path that led to the free name now leads to the new file. So the
path that was written is read back with the written bytes.
-/

namespace FlatCrate.FileTree

variable {tree after : FileTree} {spot : Location} {content : ByteArray}

/-- Nothing but a file may stand at a location below the root. -/
structure IsFileSpot (tree : FileTree) (spot : Location) : Prop where
  below : spot ≠ []
  isFile : ∀ entry, tree.find? spot = some entry → entry.isFile = true

/-- Where a path leads once a file stands at a location. -/
def Arrival.withFile (spot : Location) : Arrival → Arrival
  | .found location => .found location
  | .vacant directory name =>
    if name :: directory = spot then .found spot else .vacant directory name

namespace IsFileSpot

/-- A new file makes no directory and takes none away. -/
theorem isDirectoryAt_put (h : tree.IsFileSpot spot) (content : ByteArray) (place : Location) :
    (tree.put spot (.file content)).isDirectoryAt place = tree.isDirectoryAt place := by
  by_cases hplace : place = spot
  · subst hplace
    rw [isDirectoryAt, find?_put_self tree h.below, isDirectoryAt]
    cases hfind : tree.find? place with
    | none => rfl
    | some entry =>
      have hfile := h.isFile entry hfind
      cases entry <;> simp_all [Entry.isFile]
  · rw [isDirectoryAt, find?_put_of_ne tree hplace, isDirectoryAt]

/-- What is found elsewhere, or is no file, is found as before. -/
theorem find?_put {location : Location} {entry : Entry} (h : tree.IsFileSpot spot)
    (hfind : tree.find? location = some entry) (hentry : entry.isFile = false) :
    (tree.put spot (.file content)).find? location = some entry := by
  have hne : location ≠ spot := by
    rintro rfl
    exact Bool.false_ne_true (hentry.symm.trans (h.isFile entry hfind))
  rw [find?_put_of_ne tree hne, hfind]

/-- Names that can be followed can be followed when there is a new file. -/
theorem follows_put (h : tree.IsFileSpot spot)
    {jump jump' : Location → List String → Except Fault Arrival}
    (hjump : ∀ {place names arrival}, jump place names = .ok arrival →
      jump' place names = .ok (arrival.withFile spot))
    {names : List String} {place : Location} {arrival : Arrival}
    (hfollow : Follows tree jump place names arrival) :
    Follows (tree.put spot (.file content)) jump' place names (arrival.withFile spot) := by
  have hfile := find?_put_self tree h.below (.file content)
  induction hfollow with
  | here place => exact .here place
  | stay hplace hstay _ ih => exact .stay (by rwa [h.isDirectoryAt_put]) hstay ih
  | up hplace _ ih => exact .up (by rwa [h.isDirectoryAt_put]) ih
  | @vacant place name hplace hentry hlong hfind =>
    rw [← h.isDirectoryAt_put content] at hplace
    by_cases hspot : name :: place = spot
    · subst hspot
      rw [Arrival.withFile, if_pos rfl]
      exact .enter hplace hentry hlong hfile (by simp) (.here _)
    · rw [Arrival.withFile, if_neg hspot]
      exact .vacant hplace hentry hlong (by rwa [find?_put_of_ne tree hspot])
  | @enter place name rest entry arrival hplace hentry hlong hfind hplain _ ih =>
    rw [← h.isDirectoryAt_put content] at hplace
    by_cases hspot : name :: place = spot
    · subst hspot
      exact .enter hplace hentry hlong hfile (by simp) ih
    · exact .enter hplace hentry hlong (by rw [find?_put_of_ne tree hspot, hfind]) hplain ih
  | jump hplace hentry hlong hfind hgo =>
    rw [← h.isDirectoryAt_put content] at hplace
    exact .jump hplace hentry hlong (h.find?_put hfind rfl) (hjump hgo)

/-- A walk ends where it did, and finds the file if one has been put there. -/
theorem walk_put (h : tree.IsFileSpot spot) {links : Nat} {names : List String} {place : Location}
    {arrival : Arrival} (hwalk : tree.walk links place names = .ok arrival) :
    (tree.put spot (.file content)).walk links place names = .ok (arrival.withFile spot) := by
  induction links generalizing place names arrival with
  | zero => exact (h.follows_put (by simp) (follows_of_follow hwalk)).follow_eq
  | succ links ih => exact (h.follows_put ih (follows_of_follow hwalk)).follow_eq

/-- A path that leads somewhere leads there when there is a new file. -/
theorem locate_put (h : tree.IsFileSpot spot) {path : Path} {arrival : Arrival}
    (hlocate : tree.locate path = .ok arrival) :
    (tree.put spot (.file content)).locate path = .ok (arrival.withFile spot) := by
  rw [locate] at hlocate ⊢
  split_ifs at hlocate ⊢
  exact h.walk_put hlocate

/-- A path that now leads to the new file is read with its bytes. -/
theorem readBytes_put (h : tree.IsFileSpot spot) {path : Path} {arrival : Arrival}
    (hlocate : tree.locate path = .ok arrival) (hspot : arrival.withFile spot = .found spot) :
    (tree.put spot (.file content)).readBytes path = .ok content := by
  have hfind := find?_put_self tree h.below (.file content)
  simp only [readBytes, entryOf, locationOf, h.locate_put hlocate, hspot, hfind]

end IsFileSpot

/-- A name that was found free holds nothing. -/
theorem Follows.find?_vacant {jump : Location → List String → Except Fault Arrival}
    {directory : Location} {name : String}
    (hjump : ∀ {place names}, jump place names = .ok (.vacant directory name) →
      tree.find? (name :: directory) = none)
    {names : List String} {place : Location}
    (h : Follows tree jump place names (.vacant directory name)) :
    tree.find? (name :: directory) = none := by
  generalize harrival : Arrival.vacant directory name = arrival at h
  induction h with
  | here place => simp at harrival
  | stay _ _ _ ih => exact ih harrival
  | up _ _ ih => exact ih harrival
  | vacant _ _ _ hfind =>
    obtain ⟨rfl, rfl⟩ := Arrival.vacant.inj harrival
    exact hfind
  | enter _ _ _ _ _ _ ih => exact ih harrival
  | jump _ _ _ _ hgo => exact hjump (harrival ▸ hgo)

/-- There is nothing in a vacant place in which a walk ends. -/
theorem find?_of_walk_vacant {links : Nat} {names : List String} {place directory : Location}
    {name : String} (h : tree.walk links place names = .ok (.vacant directory name)) :
    tree.find? (name :: directory) = none := by
  induction links generalizing place names with
  | zero => exact (follows_of_follow h).find?_vacant (by simp)
  | succ links ih => exact (follows_of_follow h).find?_vacant ih

/-- There is nothing in a vacant place to which a path leads. -/
theorem find?_of_locate_vacant {path : Path} {directory : Location} {name : String}
    (h : tree.locate path = .ok (.vacant directory name)) :
    tree.find? (name :: directory) = none := by
  rw [locate] at h
  split_ifs at h
  exact find?_of_walk_vacant h

/-- Writing puts a file where nothing but a file may stand, and the path leads there. -/
theorem exists_spot_of_writeBytes {path : Path} (h : tree.writeBytes path content = .ok after) :
    ∃ spot arrival, tree.IsFileSpot spot ∧ after = tree.put spot (.file content) ∧
      tree.locate path = .ok arrival ∧ arrival.withFile spot = .found spot := by
  rw [writeBytes] at h
  cases hlocate : tree.locate path with
  | error fault => simp [hlocate] at h
  | ok arrival =>
    cases arrival with
    | vacant directory name =>
      obtain rfl : tree.put (name :: directory) (.file content) = after := by
        simpa [hlocate] using h
      have hspot : tree.IsFileSpot (name :: directory) :=
        ⟨List.cons_ne_nil _ _, by simp [find?_of_locate_vacant hlocate]⟩
      exact ⟨_, _, hspot, rfl, rfl, by simp [Arrival.withFile]⟩
    | found location =>
      cases hfind : tree.find? location with
      | none => simp [hlocate, hfind] at h
      | some entry =>
        cases entry with
        | file old =>
          obtain rfl : tree.put location (.file content) = after := by
            simpa [hlocate, hfind] using h
          have hbelow : location ≠ [] := by
            rintro rfl
            simp [find?] at hfind
          exact ⟨_, _, ⟨hbelow, by simp [hfind, Entry.isFile]⟩, rfl, rfl, rfl⟩
        | directory => simp [hlocate, hfind] at h
        | link target => simp [hlocate, hfind] at h

/-- What was written to a path is read back from it. -/
theorem readBytes_writeBytes {path : Path} (h : tree.writeBytes path content = .ok after) :
    after.readBytes path = .ok content := by
  obtain ⟨spot, arrival, hspot, rfl, hlocate, harrival⟩ := exists_spot_of_writeBytes h
  exact hspot.readBytes_put hlocate harrival

end FlatCrate.FileTree
