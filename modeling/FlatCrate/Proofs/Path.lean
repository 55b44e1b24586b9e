import FlatCrate.Layout
import FlatCrate.Proofs.Text.Lines

/-!
# Paths are read back

A path that was read from a text is made of proper names. Such a path is read back from the text
under which it is written, so different paths are written differently. The paths of module files are
of this kind, if the path of the crate root is.
-/

namespace FlatCrate

namespace Path

/-- All names of a path are proper: none is empty, a dot, or has a slash in it. -/
def IsNormal (path : Path) : Prop :=
  ∀ name ∈ path.names, isName name = true ∧ '/' ∉ name.toList

/-- A path that is read from a text is normal. -/
theorem isNormal_ofString (text : String) : (ofString text).IsNormal := by
  intro name hname
  obtain ⟨hpiece, hproper⟩ := List.mem_filter.mp hname
  obtain ⟨cs, hcs, rfl⟩ := List.mem_map.mp hpiece
  rw [String.toList_ofList]
  exact ⟨hproper, Text.not_mem_of_mem_splitAt hcs⟩

namespace IsNormal

variable {base path : Path}

/-- Joining normal paths gives a normal path. -/
theorem join (hbase : base.IsNormal) (hpath : path.IsNormal) : (base.join path).IsNormal := by
  rw [Path.join]
  split
  · exact hpath
  · intro name hname
    exact (List.mem_append.mp hname).elim (hbase name) (hpath name)

/-- A child of a normal path is normal. -/
theorem child (h : path.IsNormal) (text : String) : (path.child text).IsNormal :=
  h.join (isNormal_ofString text)

/-- The parent of a normal path is normal. -/
theorem parent (h : path.IsNormal) : path.parent.IsNormal :=
  fun name hname => h name (List.dropLast_subset _ hname)

end IsNormal

/-! ## Texts of paths -/

/-- A slash in front adds an empty piece in front. -/
@[simp] theorem pieces_slash_append (text : String) :
    Text.pieces '/' ("/" ++ text) = "" :: Text.pieces '/' text := by
  have hslash : "/".toList = ['/'] := rfl
  rw [Text.pieces, String.toList_append, hslash, List.singleton_append, Text.splitAt_cons,
    if_pos rfl]
  rfl

/-- Slashes in front of a text that begins with something else make its anchor. -/
theorem ofString_append {text : String} (h : text.toList.takeWhile (· == '/') = [])
    (anchor : Anchor) :
    ofString (anchor.text ++ text) = ⟨anchor, (Text.pieces '/' text).filter isName⟩ := by
  have hproper : isName "" = false := rfl
  cases anchor with
  | relative => simp [ofString, Anchor.text, h, Anchor.ofSlashes]
  | root => simp [ofString, Anchor.text, h, Anchor.ofSlashes, hproper]
  | doubleRoot =>
    have htwo : "//" ++ text = "/" ++ ("/" ++ text) := by
      rw [← String.append_assoc]
      rfl
    simp [ofString, Anchor.text, htwo, h, Anchor.ofSlashes, hproper]

/-- Normal names with slashes between them make a text that begins with something else. -/
theorem intercalate_eq_cons {name : String} (hname : isName name = true)
    (hslash : '/' ∉ name.toList) (names : List String) : ∃ c rest,
    (String.intercalate "/" (name :: names)).toList = c :: rest ∧ c ≠ '/' := by
  cases hlist : name.toList with
  | nil =>
    rw [String.toList_eq_nil_iff.mp hlist] at hname
    exact absurd hname Bool.false_ne_true
  | cons c cs =>
    rw [hlist, List.mem_cons, not_or] at hslash
    rw [String.toList_intercalate, List.map_cons, hlist, List.intercalate_cons_cons_left]
    exact ⟨c, _, rfl, Ne.symm hslash.1⟩

/-- A normal path is read back from its text. -/
theorem ofString_toString {path : Path} (h : path.IsNormal) : ofString path.toString = path := by
  obtain ⟨anchor, names⟩ := path
  cases names with
  | nil => cases anchor <;> decide
  | cons name names =>
    obtain ⟨hname, hslash⟩ := h name List.mem_cons_self
    obtain ⟨c, rest, hbegin, hc⟩ := intercalate_eq_cons hname hslash names
    have htext : (⟨anchor, name :: names⟩ : Path).toString =
        anchor.text ++ String.intercalate "/" (name :: names) := by
      rw [toString]
      split
      · next hempty =>
        rw [String.append_eq_empty_iff] at hempty
        rw [hempty.2] at hbegin
        simp at hbegin
      · rfl
    have hfirst : (String.intercalate "/" (name :: names)).toList.takeWhile (· == '/') = [] := by
      rw [hbegin, List.takeWhile_cons_of_neg (by simpa using hc)]
    rw [htext, ofString_append hfirst,
      Text.pieces_intercalate rfl (List.cons_ne_nil _ _) fun n hn => (h n hn).2,
      List.filter_eq_self.mpr fun n hn => (h n hn).1]

/-- Different normal paths are written differently. -/
theorem toString_inj {path other : Path} (hpath : path.IsNormal) (hother : other.IsNormal) :
    path.toString = other.toString ↔ path = other := by
  constructor
  · intro h
    rw [← ofString_toString hpath, h, ofString_toString hother]
  · rintro rfl
    rfl

end Path

/-! ## Names of files -/

/-- The path with one more name. -/
def Path.entry (path : Path) (name : String) : Path := ⟨path.anchor, path.names ++ [name]⟩

/-- A text that is a single name of a path. -/
def Path.IsFileName (name : String) : Prop := isName name = true ∧ '/' ∉ name.toList

namespace Path.IsFileName

variable {name : String}

/-- A relative path of one name reads as that name. -/
theorem toString_eq (h : IsFileName name) : (⟨.relative, [name]⟩ : Path).toString = name := by
  have hne : name ≠ "" := by
    rintro rfl
    exact Bool.false_ne_true h.1
  simp [Path.toString, Anchor.text]

/-- A file name put behind a path is one more name of it. -/
theorem child_eq (h : IsFileName name) (path : Path) : path.child name = path.entry name := by
  have hnormal : (⟨.relative, [name]⟩ : Path).IsNormal := fun piece hpiece =>
    List.mem_singleton.mp hpiece ▸ h
  rw [Path.child, ← h.toString_eq, ofString_toString hnormal, join_of_relative, h.toString_eq,
    entry]

end Path.IsFileName

/-- If a path takes a further name without a zero coming into it, there has been none before. -/
theorem Path.holdsZero_of_entry {path : Path} {name : String}
    (h : (path.entry name).holdsZero = false) :
    path.holdsZero = false := by
  rw [holdsZero, entry, List.any_append, Bool.or_eq_false_iff] at h
  exact h.1

/-- The name of an entry is its last name. -/
theorem Path.name_entry (path : Path) (name : String) : (path.entry name).name = name := by
  rw [Path.name, Path.entry, List.getLast?_concat, Option.getD_some]

/-- A path is the entry of its name in its parent. -/
theorem Path.entry_parent {path : Path} (h : path.names ≠ []) :
    path.parent.entry path.name = path := by
  rw [Path.name, List.getLast?_eq_getLast_of_ne_nil h, Option.getD_some, Path.entry, Path.parent,
    List.dropLast_append_getLast h]

/-- A place below a directory is given by the names behind those of the directory. -/
theorem Path.below?_eq_some_iff {base names : List String} {seen : Path} :
    Path.below? base names = some seen ↔
      ∃ behind, names = base ++ behind ∧ seen = ⟨.relative, behind⟩ := by
  rw [Path.below?]
  split
  · next hprefix =>
    obtain ⟨rest, rfl⟩ := List.isPrefixOf_iff_prefix.mp hprefix
    simp [eq_comm]
  · next hprefix =>
    refine iff_of_false (by simp) ?_
    rintro ⟨behind, rfl, -⟩
    exact hprefix (List.isPrefixOf_iff_prefix.mpr (List.prefix_append base behind))

/-! ## Module files -/

namespace Layout

variable {tree : FileTree} {file child : Path} {decl : Source.ModuleDecl}

/-- The directory in which the modules of a file are looked up has a normal path. -/
theorem isNormal_searchDir (h : file.IsNormal) : (searchDir file).IsNormal := by
  rw [searchDir]
  split
  · exact h.parent
  · exact h.parent.child file.stem

/-- The file of a module has a normal path, if the declaring file has one. -/
theorem isNormal_of_moduleFile? (h : file.IsNormal)
    (hchild : moduleFile? tree file decl = some child) : child.IsNormal := by
  have hmem := mem_candidates_of_moduleFile? hchild
  rw [candidates] at hmem
  cases hpath : decl.override with
  | some path =>
    rw [hpath] at hmem
    obtain rfl := List.mem_singleton.mp hmem
    exact h.parent.child path
  | none =>
    rw [hpath] at hmem
    rcases List.mem_pair.mp hmem with rfl | rfl
    · exact (isNormal_searchDir h).child _
    · exact ((isNormal_searchDir h).child decl.name).child "mod.rs"

end Layout

end FlatCrate
