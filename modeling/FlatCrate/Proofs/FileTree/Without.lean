import FlatCrate.Proofs.FileTree.Ways

/-!
# Ways without an entry

A file that is moved to a name takes the place of the link of that name. What is left of the
directories and links is what is left without that link, so a path that leads to a directory goes on
to do so if it can do without the link. Entries that can be missed one at a time can be missed
together: no path has a choice of ways.
-/

namespace FlatCrate.FileTree

variable {tree after : FileTree} {path : Path} {location directory : Location} {name : String}
  {entry : Entry}

/-- Erasing an entry makes no directory and no link. -/
theorem fewer_erase (hne : location ≠ []) : tree.Fewer (tree.erase location) :=
  fun _ _ hfind _ => ((find?_erase_eq_some_iff hne).mp hfind).2

/-- Trees with the same ways have the same ways without an entry. -/
theorem SameWays.erase (h : tree.SameWays after) (hne : location ≠ []) :
    (tree.erase location).SameWays (after.erase location) := by
  refine ⟨h.workDir_eq, fun other entry hentry => ?_⟩
  rw [find?_erase_eq_some_iff hne, find?_erase_eq_some_iff hne, h.find?_iff other entry hentry]

/-- When a file has moved, the directories and links are those that there have been without the
entry in its place. -/
theorem Moved.sameWays_erase {source place : Location} {content : ByteArray}
    (h : tree.Moved source place after) (hworkDir : after.workDir = tree.workDir)
    (hplace : place ≠ []) (hfile : tree.find? source = some (.file content)) :
    (tree.erase place).SameWays after := by
  refine ⟨hworkDir, fun other entry hentry => ?_⟩
  have hcontent := some_file_ne hentry content
  rw [find?_erase_eq_some_iff hplace]
  by_cases hother : other = place
  · subst hother
    simp [h.arrived, hfile, hcontent]
  by_cases hsource : other = source
  · subst hsource
    simp [h.left hother, hfile, hcontent]
  · simp [h.others other hsource hother, hother]

/-! ## Missing two entries -/

section Both

variable {first second : Location}

/-- Names that lead to a place without the one entry and without the other one lead there without
both, as long as what comes behind a link does. -/
theorem Follows.erase_erase {one other both : Location → List String → Except Fault Arrival}
    (hfirst : first ≠ []) (hsecond : second ≠ [])
    (hjump : ∀ {place names}, one place names = .ok (.found location) →
      other place names = .ok (.found location) → both place names = .ok (.found location))
    {place : Location} {names : List String}
    (h : Follows (tree.erase first) one place names (.found location))
    (h' : Follows (tree.erase second) other place names (.found location)) :
    Follows ((tree.erase first).erase second) both place names (.found location) := by
  -- both ways go through entries of the tree, so they meet the same ones
  have hfind {spot : Location} {entry entry' : Entry}
      (hentry : (tree.erase first).find? spot = some entry)
      (hentry' : (tree.erase second).find? spot = some entry') :
      entry' = entry ∧ ((tree.erase first).erase second).find? spot = some entry := by
    obtain ⟨hne, hfound⟩ := (find?_erase_eq_some_iff hfirst).mp hentry
    obtain ⟨hne', hfound'⟩ := (find?_erase_eq_some_iff hsecond).mp hentry'
    exact ⟨Option.some.inj (hfound'.symm.trans hfound),
      (find?_erase_eq_some_iff hsecond).mpr ⟨hne', hentry⟩⟩
  have hdirectory {spot : Location} (hspot : (tree.erase first).isDirectoryAt spot = true)
      (hspot' : (tree.erase second).isDirectoryAt spot = true) :
      ((tree.erase first).erase second).isDirectoryAt spot = true := by
    rw [isDirectoryAt_iff] at hspot hspot' ⊢
    exact (hfind hspot hspot').2
  generalize harrival : Arrival.found location = arrival at h
  induction h with
  | here place =>
    obtain rfl := Arrival.found.inj harrival
    exact .here _
  | stay hplace hstay _ ih =>
    cases h' with
    | stay hplace' _ hrest' => exact .stay (hdirectory hplace hplace') hstay (ih hrest' harrival)
    | up _ _ => simp at hstay
    | enter _ hentry _ _ _ _ => exact absurd hstay hentry.1
    | jump _ hentry _ _ _ => exact absurd hstay hentry.1
  | up hplace _ ih =>
    cases h' with
    | stay _ hstay _ => simp at hstay
    | up hplace' hrest' => exact .up (hdirectory hplace hplace') (ih hrest' harrival)
    | enter _ hentry _ _ _ _ => exact absurd rfl hentry.2
    | jump _ hentry _ _ _ => exact absurd rfl hentry.2
  | vacant _ _ _ _ => simp at harrival
  | enter hplace hentry hlong hfound hplain _ ih =>
    cases h' with
    | stay _ hstay _ => exact absurd hstay hentry.1
    | up _ _ => exact absurd rfl hentry.2
    | enter hplace' _ _ hfound' _ hrest' =>
      exact .enter (hdirectory hplace hplace') hentry hlong (hfind hfound hfound').2 hplain
        (ih hrest' harrival)
    | jump _ _ _ hfound' _ => exact absurd (hfind hfound hfound').1.symm (hplain _)
  | jump hplace hentry hlong hfound hgo =>
    subst harrival
    cases h' with
    | stay _ hstay _ => exact absurd hstay hentry.1
    | up _ _ => exact absurd rfl hentry.2
    | enter _ _ _ hfound' hplain' _ => exact absurd (hfind hfound hfound').1 (hplain' _)
    | jump hplace' _ _ hfound' hgo' =>
      obtain ⟨heq, hboth⟩ := hfind hfound hfound'
      obtain rfl := Entry.link.inj heq
      exact .jump (hdirectory hplace hplace') hentry hlong hboth (hjump hgo hgo')

/-- A walk that needs neither of two entries gets there when both are gone. -/
theorem walk_erase_erase (hfirst : first ≠ []) (hsecond : second ≠ []) {links : Nat}
    {place : Location} {names : List String}
    (h : (tree.erase first).walk links place names = .ok (.found location))
    (h' : (tree.erase second).walk links place names = .ok (.found location)) :
    ((tree.erase first).erase second).walk links place names = .ok (.found location) := by
  induction links generalizing place names with
  | zero =>
    exact ((follows_of_follow h).erase_erase hfirst hsecond (by simp)
      (follows_of_follow h')).follow_eq
  | succ links ih =>
    exact ((follows_of_follow h).erase_erase hfirst hsecond ih (follows_of_follow h')).follow_eq

/-- A path leads to a directory without two entries exactly if it does so without each of them. -/
theorem leadsTo_erase_erase_iff (hfirst : first ≠ []) (hsecond : second ≠ []) :
    ((tree.erase first).erase second).LeadsTo path directory ↔
      (tree.erase first).LeadsTo path directory ∧ (tree.erase second).LeadsTo path directory := by
  constructor
  · intro h
    have hfewer : (tree.erase second).Fewer ((tree.erase first).erase second) := by
      intro other entry hfind _
      rw [find?_erase_eq_some_iff hsecond, find?_erase_eq_some_iff hfirst] at hfind
      exact (find?_erase_eq_some_iff hsecond).mpr ⟨hfind.1, hfind.2.2⟩
    exact ⟨(fewer_erase hsecond).leadsTo rfl h, hfewer.leadsTo rfl h⟩
  · rintro ⟨h, h'⟩
    refine ⟨walk_erase_erase hfirst hsecond h.walk_eq h'.walk_eq, ?_⟩
    have hfound := isDirectoryAt_iff.mp h.isDirectory
    have hfound' := isDirectoryAt_iff.mp h'.isDirectory
    rw [isDirectoryAt_iff, find?_erase_eq_some_iff hsecond]
    exact ⟨((find?_erase_eq_some_iff hsecond).mp hfound').1, hfound⟩

end Both

/-- A path leads to a directory, and would do so without the entry of a name in it. -/
def LeadsPast (tree : FileTree) (path : Path) (name : String) : Prop :=
  ∃ directory, tree.LeadsTo path directory ∧ (tree.erase (name :: directory)).LeadsTo path directory

/-- A path leads past a name in its directory exactly if it leads there without it. -/
theorem LeadsTo.leadsPast_iff (h : tree.LeadsTo path directory) :
    tree.LeadsPast path name ↔ (tree.erase (name :: directory)).LeadsTo path directory := by
  constructor
  · rintro ⟨other, hother, herased⟩
    obtain rfl := h.unique hother
    exact herased
  · exact fun herased => ⟨directory, h, herased⟩

/-- A path does without any entry of its directory that is neither a directory nor a link. -/
theorem LeadsTo.leadsPast (h : tree.LeadsTo path directory)
    (hfile : ∀ entry ∈ tree.find? (name :: directory), entry.isFile = true) :
    tree.LeadsPast path name :=
  ⟨directory, h, (sameWays_erase_of_isFile (List.cons_ne_nil _ _) hfile).leadsTo h⟩

/-- Trees with the same ways have the same paths past a name. -/
theorem SameWays.leadsPast_iff (h : tree.SameWays after) :
    after.LeadsPast path name ↔ tree.LeadsPast path name := by
  have hpast {tree after : FileTree} (h : tree.SameWays after) (hleads : tree.LeadsPast path name) :
      after.LeadsPast path name := by
    obtain ⟨directory, hdirectory, herased⟩ := hleads
    exact ⟨directory, h.leadsTo hdirectory, (h.erase (List.cons_ne_nil _ _)).leadsTo herased⟩
  exact ⟨hpast h.symm, hpast h⟩

/-- If a path does without the entry of one name, it does not matter for another one whether that
entry is there. -/
theorem LeadsTo.leadsPast_erase_iff {other : String} (h : tree.LeadsTo path directory)
    (herased : (tree.erase (name :: directory)).LeadsTo path directory) :
    (tree.erase (name :: directory)).LeadsPast path other ↔ tree.LeadsPast path other := by
  rw [herased.leadsPast_iff, h.leadsPast_iff,
    leadsTo_erase_erase_iff (List.cons_ne_nil _ _) (List.cons_ne_nil _ _),
    and_iff_right herased]

end FlatCrate.FileTree
