import FlatCrate.Proofs.FileTree.Ways

/-!
# Moving what leads to no directory

A move may take a link from one name to another. If the link leads to a file or to nothing, no way to
a directory can go through it, neither at its old place nor at its new one. So, as with the move of
a file, ways to directories can only get lost: a path that names an entry afterwards has named the
same one before.
-/

namespace FlatCrate.FileTree

variable {tree middle after : FileTree} {path : Path} {place location directory aim : Location}
  {names rest : List String} {name last target : String}

/-! ## Directories on the way -/

/-- Names that lead on to a directory pass a directory between them. -/
theorem Follows.exists_between {jump : Location → List String → Except Fault Arrival}
    (hlocation : tree.isDirectoryAt location = true)
    (hjump : ∀ {place names}, jump place (names ++ rest) = .ok (.found location) →
      ∃ aim, jump place names = .ok (.found aim) ∧ tree.isDirectoryAt aim = true)
    (h : Follows tree jump place (names ++ rest) (.found location)) :
    ∃ aim, Follows tree jump place names (.found aim) ∧ tree.isDirectoryAt aim = true := by
  induction names generalizing place with
  | nil =>
    refine ⟨place, .here place, ?_⟩
    rw [List.nil_append] at h
    cases h with
    | here => exact hlocation
    | stay hplace _ _ => exact hplace
    | up hplace _ => exact hplace
    | enter hplace _ _ _ _ _ => exact hplace
    | jump hplace _ _ _ _ => exact hplace
  | cons name names ih =>
    rw [List.cons_append] at h
    generalize hall : names ++ rest = all at h
    cases h with
    | stay hplace hstay hrest =>
      obtain ⟨aim, hnames, haim⟩ := ih (hall ▸ hrest)
      exact ⟨aim, .stay hplace hstay hnames, haim⟩
    | up hplace hrest =>
      obtain ⟨aim, hnames, haim⟩ := ih (hall ▸ hrest)
      exact ⟨aim, .up hplace hnames, haim⟩
    | enter hplace hentry hlong hfind hplain hrest =>
      obtain ⟨aim, hnames, haim⟩ := ih (hall ▸ hrest)
      exact ⟨aim, .enter hplace hentry hlong hfind hplain hnames, haim⟩
    | jump hplace hentry hlong hfind hgo =>
      rw [← hall, ← List.append_assoc] at hgo
      obtain ⟨aim, hnames, haim⟩ := hjump hgo
      exact ⟨aim, .jump hplace hentry hlong hfind hnames, haim⟩

/-- A walk to a directory along two lists of names has a directory in between. -/
theorem exists_between_of_walk {links : Nat} (hlocation : tree.isDirectoryAt location = true)
    (h : tree.walk links place (names ++ rest) = .ok (.found location)) :
    ∃ aim, tree.walk links place names = .ok (.found aim) ∧ tree.isDirectoryAt aim = true := by
  induction links generalizing place names with
  | zero =>
    obtain ⟨aim, hnames, haim⟩ := (follows_of_follow h).exists_between hlocation (by simp)
    exact ⟨aim, hnames.follow_eq, haim⟩
  | succ links ih =>
    obtain ⟨aim, hnames, haim⟩ := (follows_of_follow h).exists_between hlocation ih
    exact ⟨aim, hnames.follow_eq, haim⟩

/-! ## Fewer ways -/

/-- Every way to a directory has been a way to it in an earlier tree. -/
structure Narrows (tree after : FileTree) : Prop where
  workDir_eq : after.workDir = tree.workDir
  isDirectoryAt : ∀ {location}, after.isDirectoryAt location = true →
    tree.isDirectoryAt location = true
  walk_eq : ∀ {links place names location}, after.isDirectoryAt location = true →
    after.walk links place names = .ok (.found location) →
    tree.walk links place names = .ok (.found location)

namespace Narrows

/-- A tree that stays as it is counts as narrowed. -/
theorem refl (tree : FileTree) : tree.Narrows tree := ⟨rfl, id, fun _ => id⟩

/-- A tree that is narrowed twice is narrowed. -/
theorem trans (h : tree.Narrows middle) (h' : middle.Narrows after) : tree.Narrows after where
  workDir_eq := h'.workDir_eq.trans h.workDir_eq
  isDirectoryAt hlocation := h.isDirectoryAt (h'.isDirectoryAt hlocation)
  walk_eq hlocation hwalk :=
    h.walk_eq (h'.isDirectoryAt hlocation) (h'.walk_eq hlocation hwalk)

/-- A path that names an entry has named the same one before. -/
theorem slotOf?_eq (h : tree.Narrows after) (hslot : after.slotOf? path = some location) :
    tree.slotOf? path = some location := by
  obtain ⟨directory, name, hname, rfl⟩ := slotOf?_eq_some_iff.mp hslot
  obtain ⟨hshort, hwalk, hdirectory, hlast, hup, hlong⟩ := slot_eq_ok_some_iff.mp hname
  have hstart : after.startOf path = tree.startOf path := by
    rw [startOf, startOf, h.workDir_eq]
  refine slotOf?_eq_some_iff.mpr ⟨directory, name, slot_eq_ok_some_iff.mpr ?_, rfl⟩
  exact ⟨hshort, hstart ▸ h.walk_eq hdirectory hwalk, h.isDirectoryAt hdirectory, hlast, hup, hlong⟩

end Narrows

/-- A tree that keeps its ways counts as narrowed. -/
theorem SameWays.narrows (h : tree.SameWays after) : tree.Narrows after where
  workDir_eq := h.workDir_eq
  isDirectoryAt := h.fewer.isDirectoryAt
  walk_eq := h.fewer.walk_eq

/-! ## Links that lead to no directory -/

/-- The target of a link in a directory leads to no directory. -/
def IsBlind (tree : FileTree) (directory : Location) (target : String) : Prop :=
  ∀ links aim, tree.walk links (targetStart directory target) (targetNames target) =
    .ok (.found aim) → tree.isDirectoryAt aim = false

/-- A target that leads to no directory leads to none in a narrowed tree. -/
theorem IsBlind.of_narrows (h : tree.IsBlind directory target) (hways : tree.Narrows after) :
    after.IsBlind directory target := by
  intro links aim hwalk
  by_contra haim
  rw [Bool.not_eq_false] at haim
  have hbefore := h links aim (hways.walk_eq haim hwalk)
  exact Bool.false_ne_true (hbefore.symm.trans (hways.isDirectoryAt haim))

/-- A link leads to where a path leads that names it. -/
theorem isBlind_of_locate (hslot : tree.slotOf? path = some (name :: directory))
    (hlink : tree.find? (name :: directory) = some (.link target)) (hname : IsEntryName name)
    (hlocate : tree.locate path = .ok (.found location))
    (hlocation : tree.isDirectoryAt location = false) : tree.IsBlind directory target := by
  obtain ⟨_, _, hpath, heq⟩ := slotOf?_eq_some_iff.mp hslot
  obtain ⟨rfl, rfl⟩ := List.cons.inj heq
  obtain ⟨-, habove, -, hlast, -, -⟩ := slot_eq_ok_some_iff.mp hpath
  rw [locate] at hlocate
  split_ifs at hlocate
  rw [← List.dropLast_append_getLast? _ hlast] at hlocate
  obtain ⟨_, hleads⟩ := leads_of_walk hlocate
  obtain ⟨_, habove⟩ := leads_of_walk habove
  obtain ⟨_, _, middle, hfirst, hsecond, -⟩ := hleads.split
  obtain ⟨-, rfl⟩ := hfirst.unique habove
  intro links aim hwalk
  obtain ⟨_, haim⟩ := leads_of_walk hwalk
  cases hsecond with
  | stay hstay _ => exact absurd hstay hname.1
  | up _ => exact absurd rfl hname.2
  | enter _ hplain _ => exact absurd hlink (hplain target)
  | jump _ hlink' hinside hrest =>
    obtain rfl := Entry.link.inj (Option.some.inj (hlink'.symm.trans hlink))
    obtain ⟨-, rfl⟩ := haim.unique hinside
    cases hrest
    exact hlocation

namespace Moved

/-- What is found has not been moved, or stands at the new name and has stood at the old one. -/
theorem find?_eq_some {source : Location} (h : tree.Moved source place after) {entry : Entry}
    (hentry : after.find? location = some entry) :
    tree.find? location = some entry ∨ location = place ∧ tree.find? source = some entry := by
  by_cases hplace : location = place
  · subst hplace
    exact .inr ⟨rfl, h.arrived.symm.trans hentry⟩
  by_cases hsource : location = source
  · subst hsource
    simp [h.left hplace] at hentry
  · exact .inl ((h.others location hsource hplace).symm.trans hentry)

/-- A directory behind a move was there before. -/
theorem isDirectoryAt {source : Location} (h : tree.Moved source place after)
    (hlocation : after.isDirectoryAt location = true) : tree.isDirectoryAt location = true := by
  rw [isDirectoryAt_iff] at hlocation ⊢
  obtain hbefore | ⟨-, hmoved⟩ := h.find?_eq_some hlocation
  · exact hbefore
  · obtain ⟨entry, hentry, hne⟩ := h.isEntry
    exact absurd (Option.some.inj (hentry.symm.trans hmoved)) hne

/-- Names that lead to a directory behind a move led there before, as long as links did. -/
theorem follows {jump jump' : Location → List String → Except Fault Arrival}
    (h : tree.Moved (last :: directory) (name :: directory) after)
    (hlocation : after.isDirectoryAt location = true)
    (hjump : ∀ {place names}, jump place names = .ok (.found location) →
      jump' place names = .ok (.found location))
    (hgoes : ∀ {target rest}, tree.find? (last :: directory) = some (.link target) →
      jump (targetStart directory target) (targetNames target ++ rest) ≠ .ok (.found location))
    (hfollow : Follows after jump place names (.found location)) :
    Follows tree jump' place names (.found location) ∧ after.isDirectoryAt place = true := by
  generalize harrival : Arrival.found location = arrival at hfollow
  induction hfollow with
  | here place =>
    obtain rfl := Arrival.found.inj harrival
    exact ⟨.here _, hlocation⟩
  | stay hplace hstay _ ih => exact ⟨.stay (h.isDirectoryAt hplace) hstay (ih harrival).1, hplace⟩
  | up hplace _ ih => exact ⟨.up (h.isDirectoryAt hplace) (ih harrival).1, hplace⟩
  | vacant _ _ _ _ => simp at harrival
  | enter hplace hentry hlong _ _ _ ih =>
    -- the walk ends in a directory or goes on, so the entry is a directory
    obtain ⟨hrest, hinside⟩ := ih harrival
    have hfound := isDirectoryAt_iff.mp (h.isDirectoryAt hinside)
    exact ⟨.enter (h.isDirectoryAt hplace) hentry hlong hfound (by simp) hrest, hplace⟩
  | jump hplace hentry hlong hfound hgo =>
    subst harrival
    obtain hbefore | ⟨hspot, hmoved⟩ := h.find?_eq_some hfound
    · exact ⟨.jump (h.isDirectoryAt hplace) hentry hlong hbefore (hjump hgo), hplace⟩
    · obtain ⟨rfl, rfl⟩ := List.cons.inj hspot
      exact absurd hgo (hgoes hmoved)

/-- A walk to a directory behind a move got there before it. -/
theorem walk_eq (h : tree.Moved (last :: directory) (name :: directory) after)
    (hblind : ∀ target, tree.find? (last :: directory) = some (.link target) →
      tree.IsBlind directory target) {links : Nat}
    (hlocation : after.isDirectoryAt location = true)
    (hwalk : after.walk links place names = .ok (.found location)) :
    tree.walk links place names = .ok (.found location) := by
  induction links generalizing place names location with
  | zero => exact (h.follows hlocation (by simp) (by simp) (follows_of_follow hwalk)).1.follow_eq
  | succ links ih =>
    refine (h.follows hlocation (ih hlocation) (fun hlink hgo => ?_)
      (follows_of_follow hwalk)).1.follow_eq
    -- the walk goes on behind the link, so the link leads to a directory
    obtain ⟨aim, hinside, haim⟩ := exists_between_of_walk hlocation hgo
    have hbefore := hblind _ hlink links aim (ih haim hinside)
    exact Bool.false_ne_true (hbefore.symm.trans (h.isDirectoryAt haim))

/-- When something has moved within a directory that leads to no directory, there are no new ways. -/
theorem narrows (h : tree.Moved (last :: directory) (name :: directory) after)
    (hworkDir : after.workDir = tree.workDir)
    (hblind : ∀ target, tree.find? (last :: directory) = some (.link target) →
      tree.IsBlind directory target) : tree.Narrows after where
  workDir_eq := hworkDir
  isDirectoryAt := h.isDirectoryAt
  walk_eq := h.walk_eq hblind

end Moved

end FlatCrate.FileTree
