import FlatCrate.Proofs.Flatten.Relocated

/-!
# Both layouts are flattened alike

Without links and path overrides, the file of a module may move from `n.rs` to `n/mod.rs`, and
nothing changes but the path of this file.

The path gets longer by the move. If it gets too long to be looked up, the module is not found any
more.
-/

namespace FlatCrate

open FileTree (flatSpot folderSpot maxPathBytes)
open Layout (IsConventional)

/-! ## Crate roots -/

section Roots

variable {tree : FileTree} {root file : Path} {budget : Budget} {directory : Location}
  {name : String}

/-- A run reaches the file `n.rs` of a directory, which may move to `n/mod.rs`: the tree has no
links, the declarations that are expanded have no path overrides and are not named `lib` or `mod`,
and nothing is in the way of the file. -/
structure MovesReached (tree : FileTree) (root : Path) (budget : Budget) (file : Path)
    (directory : Location) (name : String) : Prop where
  isLinkFree : tree.IsLinkFree
  isNormal : root.IsNormal
  isConventional : ∀ decl ∈ (Expansion.ofRoot tree root budget).expandedDecls, IsConventional decl
  isEntered : file ∈ (Expansion.ofRoot tree root budget).entered
  realLocation_eq : tree.realLocation file = some (flatSpot directory name)
  folder : ∀ entry, tree.find? (name :: directory) = some entry → entry = .directory
  free : tree.find? (folderSpot directory name) = none

/-- The path under which a run looks for the file after the move. -/
def folderPath (file : Path) (name : String) : Path := (file.parent.entry name).entry "mod.rs"

/-- The file stands below the directory in which the modules of the crate are looked up, and it is
not the crate root. -/
theorem MovesReached.exists_isRelocated (h : MovesReached tree root budget file directory name)
    (hname : name ≠ "mod")
    (hshort : (folderPath file name).toString.utf8ByteSize ≤ maxPathBytes) :
    ∃ base place above content, directory = above.reverse ++ place ∧ IsSearched base root ∧
      IsRelocated tree base place above name content ∧ ∃ bytes spot,
        tree.readBytes root = .ok bytes ∧ tree.realLocation root = some spot ∧
          spot ≠ flatSpot directory name := by
  have hdecls := h.isConventional
  have hreached := h.isEntered
  have hrun := yields_ofRoot tree root budget
  generalize Expansion.ofRoot tree root budget = run at hrun hdecls hreached
  cases hrun with
  | unreadable _ => simp [Expansion.entered] at hreached
  | @read _ _ _ source spot _ hsource hspot hlines =>
    obtain ⟨bytes, hread⟩ := exists_readBytes_of_sourceOf? hsource
    obtain ⟨base, place, names, hleads, hnames, hsearch⟩ :=
      Layout.exists_base h.isLinkFree h.isNormal hread
    have hsearched : IsSearched base root := ⟨names, hnames, hsearch⟩
    obtain ⟨above, module, habove, hmodule, hkind, ⟨content, hcontent⟩, location, hlocation,
        hnot⟩ :=
      hlines.exists_isModuleFile (isPlainLine_of_sourceOf? hsource) hsearched hdecls file hreached
    obtain rfl := Option.some.inj (hlocation.symm.trans h.realLocation_eq)
    have hother : spot ≠ flatSpot directory name :=
      fun heq => hnot (List.mem_singleton.mpr heq.symm)
    obtain rfl | rfl := hkind
    · have hflat := IsRelocated.isEntryName_flat habove hmodule
      have hstands := h.isLinkFree.realLocation_below hleads hflat hcontent
      obtain ⟨-, hfind⟩ := (h.isLinkFree.readBytes_below_iff hleads hflat).mp hcontent
      rw [hlocation, IsRelocated.spell_flat] at hstands
      obtain ⟨rfl, rfl⟩ := FileTree.flatSpot_inj (Option.some.inj hstands)
      refine ⟨base, place, above, content, rfl, hsearched, ?_, bytes, spot, hread, hspot, hother⟩
      exact
        { isLinkFree := h.isLinkFree
          leadsTo := hleads
          isEntryName := habove
          isIdentifier := hmodule
          ne_mod := hname
          isMovable := ⟨IsRelocated.spell_flat above name place ▸ hfind, h.folder, h.free⟩
          isReadable := hcontent
          isShort := by
            rwa [folderPath, ← Path.below_entry, Path.parent_entry, Path.below_entry,
              Path.below_entry] at hshort }
    · -- the file in a folder is named `mod.rs`
      have hstands := h.isLinkFree.realLocation_below hleads
        (IsRelocated.isEntryName_folder habove hmodule) hcontent
      rw [hlocation, IsRelocated.spell_folder] at hstands
      exact absurd (FileTree.eq_mod_of_flatSpot_eq (Option.some.inj hstands)) hname

/-- After the move, the run is the same, up to paths. -/
theorem MovesReached.exists_ofRoot_eq (h : MovesReached tree root budget file directory name)
    (hname : name ≠ "mod")
    (hshort : (folderPath file name).toString.utf8ByteSize ≤ maxPathBytes) :
    ∃ f, Expansion.ofRoot (tree.intoFolder directory name) root budget =
      (Expansion.ofRoot tree root budget).rename f := by
  obtain ⟨base, place, above, content, rfl, hsearched, hmoved, bytes, spot, hread, hspot, hother⟩ :=
    h.exists_isRelocated hname hshort
  obtain ⟨hkeep, hkept⟩ := hmoved.isKept_root h.isNormal hsearched hread hspot hother
  have hafter := (yields_ofRoot tree root budget).relocate hmoved trivial hkept (by simp)
    h.isConventional
  rw [Task.rename, hkeep] at hafter
  exact ⟨_, (yields_ofRoot _ root budget).unique hafter⟩

/-- Both layouts of a module are flattened alike: if the file `n.rs` of a module moves to
`n/mod.rs`, and this path is not too long to be looked up, then the result stays the same, the same
text or an error with the same cause. -/
theorem flatten_intoFolder (h : MovesReached tree root budget file directory name)
    (hname : name ≠ "mod")
    (hshort : (folderPath file name).toString.utf8ByteSize ≤ maxPathBytes) :
    (flatten (tree.intoFolder directory name) root budget).mapError FlattenError.cause =
      (flatten tree root budget).mapError FlattenError.cause := by
  obtain ⟨f, hrun⟩ := h.exists_ofRoot_eq hname hshort
  exact flatten_eq_of_rename hrun

/-- The file of the module in the tree with an open attribute can be moved into its folder. -/
theorem movesReached_openEndedTree :
    MovesReached openEndedTree ⟨.relative, ["lib.rs"]⟩ .unlimited ⟨.relative, ["a.rs"]⟩ [] "a" where
  isLinkFree := FileTree.isLinkFree_of_entries (by decide) (by decide +kernel)
  isNormal := List.forall_mem_singleton.mpr (by decide)
  isConventional := by decide +kernel
  isEntered := by decide +kernel
  realLocation_eq := by decide +kernel
  folder := by decide +kernel
  free := by decide +kernel

/-- A file with a module of its own moves into the folder of this module. -/
theorem flatten_intoFolder_openEndedTree :
    flatten (openEndedTree.intoFolder [] "a") ⟨.relative, ["lib.rs"]⟩ .unlimited =
      .ok openEndedText := by
  have hsame := flatten_intoFolder movesReached_openEndedTree (by decide) (by decide +kernel)
  rw [flatten_openEndedTree] at hsame
  exact eq_ok_of_mapError hsame

/-- A name of a directory that is almost as long as possible. -/
def wideName : String := String.ofList (List.replicate 251 'd')

/-- A path to a file of the working directory that goes through a directory again and again. -/
def windingPath (name : String) : Path :=
  ⟨.relative, (List.replicate 16 [wideName, ".."]).flatten ++ [name]⟩

/-- A crate with one module, beside a directory with a long name. -/
def windingTree : FileTree where
  workDir := []
  entries := [([wideName], .directory), (["lib.rs"], .file "mod collection;\n".toUTF8),
    (["collection.rs"], .file "fn f();\n".toUTF8)]

/-- The run over this crate, seen at once since its paths are long. -/
theorem ofRoot_windingTree :
    (∀ decl ∈ (Expansion.ofRoot windingTree (windingPath "lib.rs") .unlimited).expandedDecls,
      IsConventional decl) ∧
    windingPath "collection.rs" ∈
      (Expansion.ofRoot windingTree (windingPath "lib.rs") .unlimited).entered ∧
    (Expansion.ofRoot windingTree (windingPath "lib.rs") .unlimited).isComplete = true ∧
    (Expansion.ofRoot windingTree (windingPath "lib.rs") .unlimited).text =
      "mod collection \x7b\nfn f();\n\x7d\n" := by
  decide +kernel

/-- So can the file in a tree that is reached by winding paths. -/
theorem movesReached_windingTree :
    MovesReached windingTree (windingPath "lib.rs") .unlimited (windingPath "collection.rs") []
      "collection" where
  isLinkFree := FileTree.isLinkFree_of_entries (by decide) (by decide +kernel)
  isNormal := by unfold Path.IsNormal; decide +kernel
  isConventional := ofRoot_windingTree.1
  isEntered := ofRoot_windingTree.2.1
  realLocation_eq := by decide +kernel
  folder := by decide +kernel
  free := by decide +kernel

/-- And so can the file that has been moved there, whose name is `mod` now. -/
theorem movesReached_folder :
    MovesReached (openEndedTree.intoFolder [] "a") ⟨.relative, ["lib.rs"]⟩ .unlimited
      ⟨.relative, ["a", "mod.rs"]⟩ ["a"] "mod" where
  isLinkFree := FileTree.isLinkFree_of_entries (by decide +kernel) (by decide +kernel)
  isNormal := List.forall_mem_singleton.mpr (by decide)
  isConventional := by decide +kernel
  isEntered := by decide +kernel
  realLocation_eq := by decide +kernel
  folder := by decide +kernel
  free := by decide +kernel

/-- A module is not found any more if the path of its file gets too long by the move, and also if
the file that moves is one that is named `mod.rs` already. -/
theorem flatten_intoFolder_lost :
    (MovesReached windingTree (windingPath "lib.rs") .unlimited (windingPath "collection.rs") []
        "collection" ∧
      flatten windingTree (windingPath "lib.rs") .unlimited =
        .ok "mod collection \x7b\nfn f();\n\x7d\n" ∧
      (flatten (windingTree.intoFolder [] "collection") (windingPath "lib.rs")
        .unlimited).mapError FlattenError.cause = .error (.inl .unresolved)) ∧
    MovesReached (openEndedTree.intoFolder [] "a") ⟨.relative, ["lib.rs"]⟩ .unlimited
        ⟨.relative, ["a", "mod.rs"]⟩ ["a"] "mod" ∧
      flatten (openEndedTree.intoFolder [] "a") ⟨.relative, ["lib.rs"]⟩ .unlimited =
        .ok openEndedText ∧
      (flatten ((openEndedTree.intoFolder [] "a").intoFolder ["a"] "mod")
        ⟨.relative, ["lib.rs"]⟩ .unlimited).mapError FlattenError.cause =
          .error (.inl .unresolved) :=
  ⟨⟨movesReached_windingTree, flatten_eq_ok_iff.mpr ofRoot_windingTree.2.2, by decide +kernel⟩,
    movesReached_folder, flatten_eq_ok_iff.mpr ⟨by decide +kernel, by decide +kernel⟩,
    by decide +kernel⟩

end Roots

end FlatCrate
