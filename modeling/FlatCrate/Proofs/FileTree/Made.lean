import FlatCrate.Proofs.FileTree.Ways

/-!
# Making directories

Making a directory with the missing ones above it changes nothing that is there, whether it succeeds
or not: what is new are directories that the path or one of its parents names.
-/

namespace FlatCrate

/-- A path is another one or one of its parents. -/
def Path.IsAbove (above path : Path) : Prop :=
  above.anchor = path.anchor ∧ above.names <+: path.names

namespace Path.IsAbove

variable {above middle path : Path}

/-- Every path counts as one above itself. -/
theorem refl (path : Path) : path.IsAbove path := ⟨rfl, List.prefix_rfl⟩

/-- The parent of a path is above it. -/
theorem parent (path : Path) : path.parent.IsAbove path := ⟨rfl, List.dropLast_prefix path.names⟩

/-- What is above a path above another one is above that, too. -/
theorem trans (h : above.IsAbove middle) (h' : middle.IsAbove path) : above.IsAbove path :=
  ⟨h.1.trans h'.1, h.2.trans h'.2⟩

end Path.IsAbove

namespace FileTree

variable {tree middle after : FileTree} {path : Path} {location : Location}

/-- Everything in a tree is in another one too, and all else there are directories that a path or
one of its parents names. -/
structure MakesOnly (tree : FileTree) (path : Path) (after : FileTree) : Prop where
  workDir_eq : after.workDir = tree.workDir
  kept : ∀ location entry, tree.find? location = some entry → after.find? location = some entry
  made : ∀ location entry, tree.find? location = none → after.find? location = some entry →
    entry = .directory ∧ ∃ above : Path, above.IsAbove path ∧ after.slotOf? above = some location

namespace MakesOnly

/-- Nothing is made when nothing changes. -/
theorem refl (tree : FileTree) (path : Path) : tree.MakesOnly path tree :=
  ⟨rfl, fun _ _ h => h, fun _ _ hnone hsome => by simp [hnone] at hsome⟩

/-- What the first tree lacks is neither file nor link in the second. -/
theorem find?_of_ne_directory (h : tree.MakesOnly path after) {entry : Entry}
    (hfind : after.find? location = some entry) (hentry : entry ≠ .directory) :
    tree.find? location = some entry := by
  cases hbefore : tree.find? location with
  | none => exact absurd (h.made location entry hbefore hfind).1 hentry
  | some there => rw [← hfind, h.kept location there hbefore]

/-- A path names in the second tree what it names in the first one. -/
theorem slotOf?_eq (h : tree.MakesOnly path after) {other : Path}
    (hslot : tree.slotOf? other = some location) : after.slotOf? other = some location := by
  have hfewer : after.Fewer tree := fun location entry hfind _ => h.kept location entry hfind
  exact hfewer.slotOf?_eq (by rw [startOf, startOf, h.workDir_eq]) hslot

/-- What is made for a path above another one is made for that, too. -/
theorem of_isAbove {above : Path} (h : tree.MakesOnly above after) (habove : above.IsAbove path) :
    tree.MakesOnly path after where
  workDir_eq := h.workDir_eq
  kept := h.kept
  made location entry hnone hsome := by
    obtain ⟨hentry, other, hother, hslot⟩ := h.made location entry hnone hsome
    exact ⟨hentry, other, hother.trans habove, hslot⟩

/-- What is made in two steps is made in one. -/
theorem trans (h : tree.MakesOnly path middle) (h' : middle.MakesOnly path after) :
    tree.MakesOnly path after where
  workDir_eq := h'.workDir_eq.trans h.workDir_eq
  kept location entry hfind := h'.kept location entry (h.kept location entry hfind)
  made location entry hnone hsome := by
    cases hmiddle : middle.find? location with
    | none => exact h'.made location entry hmiddle hsome
    | some there =>
      obtain ⟨rfl, above, habove, hslot⟩ := h.made location there hnone hmiddle
      obtain rfl := Option.some.inj ((h'.kept location _ hmiddle).symm.trans hsome)
      exact ⟨rfl, above, habove, h'.slotOf?_eq hslot⟩

/-- Only what is found matters. -/
theorem of_find?_eq {other : FileTree} (h : tree.MakesOnly path after)
    (hworkDir : other.workDir = after.workDir)
    (hfind : ∀ location, other.find? location = after.find? location) :
    tree.MakesOnly path other where
  workDir_eq := hworkDir.trans h.workDir_eq
  kept location entry hentry := (hfind location).trans (h.kept location entry hentry)
  made location entry hnone hsome := by
    obtain ⟨hentry, above, habove, hslot⟩ := h.made location entry hnone (hfind location ▸ hsome)
    exact ⟨hentry, above, habove, (SameWays.of_find?_eq hworkDir hfind).slotOf?_eq above ▸ hslot⟩

end MakesOnly

/-- Making a single directory puts it where nothing has been. -/
theorem makeDirectory_eq_ok_iff : tree.makeDirectory path = .ok after ↔
    ∃ location, tree.slotOf? path = some location ∧ tree.find? location = none ∧
      after = tree.put location .directory := by
  simp only [makeDirectory, make, slotOf?]
  cases tree.slot path with
  | error fault => simp
  | ok slot =>
    cases slot with
    | none => simp
    | some place =>
      cases hfind : tree.find? (place.2 :: place.1) with
      | none => simp [hfind, eq_comm]
      | some entry => simp [hfind]

/-- What there is stays when an entry is put where nothing has been. -/
theorem find?_put_of_isVacant {entry new : Entry} {other : Location}
    (hvacant : tree.find? location = none) (hfind : tree.find? other = some entry) :
    (tree.put location new).find? other = some entry := by
  have hne : other ≠ location := by
    rintro rfl
    simp [hvacant] at hfind
  rw [find?_put_of_ne tree hne, hfind]

/-- Filling a vacant place takes no directory and no link away. -/
theorem fewer_put {new : Entry} (hvacant : tree.find? location = none) :
    (tree.put location new).Fewer tree :=
  fun _ _ hfind _ => find?_put_of_isVacant hvacant hfind

/-- Making one directory makes that directory only. -/
theorem makesOnly_makeDirectory (h : tree.makeDirectory path = .ok after) :
    tree.MakesOnly path after := by
  obtain ⟨location, hslot, hvacant, rfl⟩ := makeDirectory_eq_ok_iff.mp h
  refine ⟨rfl, fun _ _ => find?_put_of_isVacant hvacant, fun other entry hbefore hfind => ?_⟩
  by_cases hother : other = location
  · subst hother
    rw [find?_put_self tree (slotOf?_ne_nil hslot)] at hfind
    exact ⟨(Option.some.inj hfind).symm, path, .refl path,
      (fewer_put hvacant).slotOf?_eq rfl hslot⟩
  · rw [find?_put_of_ne tree hother, hbefore] at hfind
    simp at hfind

/-- Asking whether a directory is there changes nothing. -/
theorem tree_ensureDirectory (tree : FileTree) (path : Path) (fault : Fault) :
    (tree.ensureDirectory path fault).tree = tree := by
  rw [ensureDirectory]
  split <;> rfl

/-- Making a directory below others that are made first makes directories only. -/
theorem makesOnly_makeBelow {above : FileTree → Attempt}
    (habove : ∀ tree : FileTree, tree.MakesOnly path (above tree).tree) (tree : FileTree) :
    tree.MakesOnly path (makeBelow above tree path).tree := by
  rw [makeBelow]
  split
  · next made hmade => exact makesOnly_makeDirectory hmade
  · have hupper := habove tree
    split
    · next upper e hattempt => rwa [hattempt] at hupper
    · next upper hattempt =>
      rw [hattempt] at hupper
      split
      · next made hmade => exact hupper.trans (makesOnly_makeDirectory hmade)
      · exact hupper
      · rwa [tree_ensureDirectory]
  · rw [tree_ensureDirectory]
    exact .refl tree path

/-- Whether all the directories can be made or not, nothing but directories of the path is new. -/
theorem makesOnly_makeDirectories (tree : FileTree) (path : Path) :
    tree.MakesOnly path (tree.makeDirectories path).tree := by
  rw [makeDirectories]
  generalize path.names.length = above
  induction above generalizing tree path with
  | zero =>
    rw [makeUpTo]
    exact makesOnly_makeBelow (fun tree => .refl tree path) tree
  | succ above ih =>
    rw [makeUpTo]
    exact makesOnly_makeBelow (fun tree => (ih tree path.parent).of_isAbove (.parent path)) tree

/-- An error in making a single directory, or those above it, names a path. -/
theorem path_error_makeBelow {above : FileTree → Attempt} {e : FileError}
    (habove : ∀ (tree : FileTree) (e : FileError), (above tree).error = some e → e.path ≠ none)
    (h : (makeBelow above tree path).error = some e) : e.path ≠ none := by
  have hensure {tree : FileTree} {fault : Fault}
      (h : (tree.ensureDirectory path fault).error = some e) : e.path ≠ none := by
    rw [ensureDirectory] at h
    split at h
    · simp at h
    all_goals
      obtain rfl := Option.some.inj h
      exact Option.some_ne_none path
  rw [makeBelow] at h
  split at h
  · simp at h
  · split at h
    · next upper other hattempt =>
      obtain rfl := Option.some.inj h
      exact habove tree other (by rw [hattempt])
    · split at h
      · simp at h
      · obtain rfl := Option.some.inj h
        exact Option.some_ne_none path
      · exact hensure h
  · exact hensure h

/-- An error in making directories names a path. -/
theorem path_error_makeDirectories {e : FileError}
    (h : (tree.makeDirectories path).error = some e) : e.path ≠ none := by
  rw [makeDirectories] at h
  generalize path.names.length = above at h
  induction above generalizing tree path e with
  | zero =>
    rw [makeUpTo] at h
    refine path_error_makeBelow (fun tree e he => ?_) h
    obtain rfl := Option.some.inj he
    exact Option.some_ne_none path
  | succ above ih =>
    rw [makeUpTo] at h
    exact path_error_makeBelow (fun _ _ he => ih he) h

/-- A directory in an existing directory is made at once. -/
theorem makeDirectories_of_makeDirectory (h : tree.makeDirectory path = .ok after) :
    tree.makeDirectories path = ⟨after, none⟩ := by
  rw [makeDirectories]
  cases path.names.length <;> rw [makeUpTo, makeBelow, h]

end FileTree

end FlatCrate
