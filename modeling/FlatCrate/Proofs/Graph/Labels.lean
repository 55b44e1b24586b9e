import FlatCrate.Proofs.FileTree.Named
import FlatCrate.Proofs.Flatten.Unfolding
import FlatCrate.Proofs.Graph.Report
import Mathlib.Data.List.Nodup

/-!
# What the texts of a report stand for

A graph keeps files apart by the paths under which they were recorded, a report shows them by their
places below a directory. So files that are seen from one directory are shown by one text exactly if
they are the same file, and a file that was recorded under two paths is listed twice. Files outside
are shown by the paths themselves. All of that is up to backslashes, which are shown as slashes. A
base whose links lead in a circle is taken for one below which nothing lies; a program may well break
off there.
-/

namespace FlatCrate

open Expansion (sourceOf?)
open Source (ScanState)

namespace ModuleGraph

variable {tree : FileTree} {view : Viewpoint} {graph : ModuleGraph}
  {path other seen directory : Path}

/-- The directory from which a file is shown: the base, if the file lies there, or else the root
directory. There is none for a file outside of both. -/
def Viewpoint.directory? (tree : FileTree) (view : Viewpoint) (path : Path) : Option Path :=
  [view.base, view.root].find? fun directory => (seenFrom? tree path directory).isSome

/-- Two files that are shown from one directory. -/
def SeenTogether (tree : FileTree) (view : Viewpoint) (path other : Path) : Prop :=
  ∃ directory, view.directory? tree path = some directory ∧
    view.directory? tree other = some directory

/-- Whether no backslash is in the path by which a file is shown. -/
def IsShownAsIs (tree : FileTree) (view : Viewpoint) (path : Path) : Prop :=
  '\\' ∉ (shownPath tree view path).toString.toList

/-! ## Places below a directory -/

/-- A path is seen from a directory by the names from there to its real location. -/
theorem seenFrom?_eq_some_iff : seenFrom? tree path directory = some seen ↔
    ∃ location base names, tree.realLocation path = some location ∧
      tree.realLocation directory = some base ∧ location.reverse = base.reverse ++ names ∧
      seen = ⟨.relative, names⟩ := by
  rw [seenFrom?]
  split
  · next location base hlocation hbase => simp [Path.below?_eq_some_iff, hlocation, hbase]
  · next hnone =>
    refine iff_of_false (by simp) ?_
    rintro ⟨location, base, -, hlocation, hbase, -, -⟩
    exact hnone location base hlocation hbase

/-- What is shown is the path as it is seen from its directory. -/
theorem seenFrom?_shownPath (h : view.directory? tree path = some directory) :
    seenFrom? tree path directory = some (shownPath tree view path) := by
  rw [Viewpoint.directory?] at h
  rw [shownPath]
  cases hbase : seenFrom? tree path view.base with
  | some seen =>
    obtain rfl : view.base = directory := by simpa [hbase] using h
    exact hbase
  | none =>
    cases hroot : seenFrom? tree path view.root with
    | some seen =>
      obtain rfl : view.root = directory := by simpa [hbase, hroot] using h
      exact hroot
    | none => simp [hbase, hroot] at h

/-- A file outside of both directories is shown by its own path. -/
theorem shownPath_eq_self (h : view.directory? tree path = none) :
    shownPath tree view path = path := by
  have hnone : seenFrom? tree path view.base = none ∧ seenFrom? tree path view.root = none := by
    simpa [Viewpoint.directory?] using h
  rw [shownPath, hnone.1, hnone.2, Option.getD_none]

/-- Files that are seen from one directory are at one place below it exactly if they are the same
one. -/
theorem SeenTogether.shownPath_eq_iff (h : SeenTogether tree view path other) :
    shownPath tree view path = shownPath tree view other ↔
      tree.realLocation path = tree.realLocation other := by
  obtain ⟨directory, hpath, hother⟩ := h
  obtain ⟨place, base, names, hplace, hbase, hbehind, hshown⟩ :=
    seenFrom?_eq_some_iff.mp (seenFrom?_shownPath hpath)
  obtain ⟨place', base', names', hplace', hbase', hbehind', hshown'⟩ :=
    seenFrom?_eq_some_iff.mp (seenFrom?_shownPath hother)
  obtain rfl := Option.some.inj (hbase.symm.trans hbase')
  rw [hplace, hplace', Option.some_inj, ← List.reverse_inj, hbehind, hbehind',
    List.append_cancel_left_eq, hshown, hshown', Path.mk.injEq, and_iff_right rfl]

/-- What is shown for a normal path is a normal path. -/
theorem isNormal_shownPath (hwork : FileTree.IsNamed tree.workDir) (hpath : path.IsNormal) :
    (shownPath tree view path).IsNormal := by
  cases hdirectory : view.directory? tree path with
  | none => rwa [shownPath_eq_self hdirectory]
  | some directory =>
    obtain ⟨place, base, names, hplace, -, hbehind, hshown⟩ :=
      seenFrom?_eq_some_iff.mp (seenFrom?_shownPath hdirectory)
    have hnamed := FileTree.isNamed_realLocation hwork hpath hplace
    rw [hshown]
    exact fun name hname => hnamed name
      (List.mem_reverse.mp (hbehind ▸ List.mem_append_right base.reverse hname))

/-! ## Texts -/

/-- Files shown by one path are shown by one text. -/
theorem label_congr (h : shownPath tree view path = shownPath tree view other) :
    label tree view path = label tree view other := by
  rw [label, label, h]

/-- Without a backslash the text is that of the path. -/
theorem label_eq_toString (h : IsShownAsIs tree view path) :
    label tree view path = (shownPath tree view path).toString := by
  rw [label, ← String.toList_inj, String.toList_map]
  refine (List.map_congr_left fun c hc => ?_).trans (List.map_id _)
  have hne : c ≠ '\\' := fun heq => h (heq ▸ hc)
  simp [hne]

/-- The texts of two files are the same only if they are at the same place or have the same path. -/
theorem label_eq_iff (hwork : FileTree.IsNamed tree.workDir) (hpath : path.IsNormal)
    (hother : other.IsNormal) (hasIs : IsShownAsIs tree view path)
    (hotherAsIs : IsShownAsIs tree view other) :
    label tree view path = label tree view other ↔
      shownPath tree view path = shownPath tree view other := by
  rw [label_eq_toString hasIs, label_eq_toString hotherAsIs,
    Path.toString_inj (isNormal_shownPath hwork hpath) (isNormal_shownPath hwork hother)]

/-- No text is listed twice exactly if every file has a text of its own. -/
theorem nodup_nodeTexts_iff (h : graph.nodes.Nodup) (shown : Path → String) :
    (graph.nodeTexts shown).Nodup ↔
      ∀ path ∈ graph.nodes, ∀ other ∈ graph.nodes, shown path = shown other → path = other := by
  rw [(graph.nodeTexts_perm shown).nodup_iff, List.nodup_map_iff_inj_on h]

end ModuleGraph

/-! ## Files that are recorded -/

variable {tree : FileTree} {root file child : Path} {budget left : Budget} {active : List Location}
  {state : ScanState} {lines : List String} {expansion run : Expansion} {location : Location}

/-- A file that is spliced can be read, and it is the file of a declaration. -/
theorem Yields.exists_declaration
    (h : Yields tree active (.lines file state left lines) expansion) {name : String}
    (hmem : (name, child) ∈ expansion.modules) :
    ∃ decl source, Layout.moduleFile? tree file decl = some child ∧
      sourceOf? tree child = some source := by
  induction expansion generalizing state left lines with
  | copied line rest ih =>
    cases h with
    | copied _ hrest => exact ih hrest hmem
  | kept decl line rest ih =>
    cases h with
    | kept _ _ hrest => exact ih hrest hmem
  | spliced decl line target body rest _ ih =>
    cases h with
    | spliced _ _ htarget hbody hdone hrest =>
      obtain heq | hmem := List.mem_cons.mp hmem
      · obtain ⟨-, rfl⟩ := Prod.mk.inj heq
        obtain ⟨source, _, hsource, -⟩ := hbody.exists_lines hdone
        exact ⟨decl, source, (target_eq_ok_iff.mp htarget).1, hsource⟩
      · exact ih hrest hmem
  | _ => simp [Expansion.modules] at hmem

/-- Every module of the graph of a complete run is the file of a declaration. -/
theorem Yields.exists_declaration_of_hasEdge
    (h : Yields tree [location] (.lines root state budget lines) run)
    (hcomplete : run.isComplete = true) (hedge : (run.recorded root).HasEdge child file) :
    ∃ decl source, Layout.moduleFile? tree file decl = some child ∧
      sourceOf? tree child = some source := by
  obtain ⟨hfaithful, hholds⟩ := h.faithful_recorded hcomplete
  obtain ⟨name, hmem⟩ := hedge
  by_cases heq : file = root
  · rw [heq, hholds.children] at hmem
    exact heq ▸ h.exists_declaration hmem
  · have hclaimed : file ∈ (run.recorded root).claimed := by
      by_contra hnot
      simp [(hfaithful.untouched file hnot).1] at hmem
    obtain ⟨expansion, hyields, hdone, hholds⟩ :=
      hfaithful.written file hclaimed (by simpa using heq)
    obtain ⟨_, _, -, -, hlines⟩ := hyields.exists_lines hdone
    exact hlines.exists_declaration (hholds.children ▸ hmem)

/-- The files of the graph of a complete run can be read, and they are recorded under normal
paths. -/
theorem isNormal_of_mem_recorded {text : String} (hroot : root.IsNormal)
    (h : flatten tree root budget = .ok text) {path : Path}
    (hpath : path ∈ ((Expansion.ofRoot tree root budget).recorded root).nodes) :
    path.IsNormal ∧ ∃ source, sourceOf? tree path = some source := by
  obtain ⟨hcomplete, -⟩ := flatten_eq_ok_iff.mp h
  obtain ⟨source, location, hsource, -, hlines⟩ :=
    (yields_ofRoot tree root budget).exists_lines hcomplete
  have hempty := ModuleGraph.IsRooted.setRoot root
  have hrooted := (Expansion.ofRoot tree root budget).isRooted_record hempty hempty.root_mem
  -- every file is reached from the root by declarations, which keep paths normal
  have hreaches := hrooted.reaches path hpath
  clear hpath
  induction hreaches using Relation.ReflTransGen.head_induction_on with
  | refl => exact ⟨hroot, source, hsource⟩
  | head hedge _ ih =>
    obtain ⟨decl, source, hchild, hsource⟩ := hlines.exists_declaration_of_hasEdge hcomplete hedge
    exact ⟨Layout.isNormal_of_moduleFile? ih.1 hchild, source, hsource⟩

open ModuleGraph in
/-- What the texts of a report stand for. Every path of the graph leads to a regular file. A file
that lies outside of the base and the root directory is shown by the path under which it was
recorded. Files that are seen from one directory have the same text if they are the same file and,
as far as no backslash is shown, only if they are. So if all files are seen from one directory, no
text is listed twice exactly if no file was recorded under two paths. -/
theorem flatten_labels_files {text : String} (hroot : root.IsNormal)
    (hwork : FileTree.IsNamed tree.workDir) (h : flatten tree root budget = .ok text)
    (base : Option Path) :
    let graph := (Expansion.ofRoot tree root budget).recorded root
    let view := Viewpoint.of root.parent base
    let shown := label tree view
    let texts := graph.nodeTexts shown
    (∀ indent withUnexpanded, ∃ root edges,
      Json.read (graph.report tree view indent withUnexpanded) =
        .ok (.object [("root", root), ("nodes", .strings texts), ("edges", edges)])) ∧
    (∀ path ∈ graph.nodes, ∃ location content, tree.realLocation path = some location ∧
      tree.find? location = some (.file content)) ∧
    (∀ path ∈ graph.nodes, view.directory? tree path = none →
      shownPath tree view path = path) ∧
    (∀ path ∈ graph.nodes, ∀ other ∈ graph.nodes, SeenTogether tree view path other →
      tree.realLocation path = tree.realLocation other → shown path = shown other) ∧
    (∀ path ∈ graph.nodes, ∀ other ∈ graph.nodes,
      IsShownAsIs tree view path → IsShownAsIs tree view other →
      (shown path = shown other ↔ shownPath tree view path = shownPath tree view other) ∧
      (SeenTogether tree view path other →
        (shown path = shown other ↔ tree.realLocation path = tree.realLocation other))) ∧
    (texts.Nodup ↔ ∀ path ∈ graph.nodes, ∀ other ∈ graph.nodes,
      shown path = shown other → path = other) ∧
    ((∀ path ∈ graph.nodes, IsShownAsIs tree view path) →
      (∀ path ∈ graph.nodes, ∀ other ∈ graph.nodes, SeenTogether tree view path other) →
      (texts.Nodup ↔ ∀ path ∈ graph.nodes, ∀ other ∈ graph.nodes,
        tree.realLocation path = tree.realLocation other → path = other)) := by
  intro graph view shown texts
  have hnodes : ∀ path ∈ graph.nodes, path.IsNormal ∧ ∃ source, sourceOf? tree path = some source :=
    fun path hpath => isNormal_of_mem_recorded hroot h hpath
  have hclosed : graph.IsClosed := (Expansion.ofRoot tree root budget).isClosed_record root
  have hshown : ∀ path ∈ graph.nodes, ∀ other ∈ graph.nodes, IsShownAsIs tree view path →
      IsShownAsIs tree view other →
      (shown path = shown other ↔ shownPath tree view path = shownPath tree view other) :=
    fun path hpath other hother =>
      label_eq_iff hwork (hnodes path hpath).1 (hnodes other hother).1
  have htexts := nodup_nodeTexts_iff hclosed.nodup shown
  refine ⟨fun indent withUnexpanded => graph.exists_read_report tree view indent withUnexpanded,
    fun path hpath => ?_, fun path _ => shownPath_eq_self, ?_, ?_, htexts, ?_⟩
  · obtain ⟨-, source, hsource⟩ := hnodes path hpath
    exact realLocation_of_sourceOf? hsource
  · exact fun path _ other _ hseen hsame => label_congr (hseen.shownPath_eq_iff.mpr hsame)
  · intro path hpath other hother hplain hplain'
    have hiff := hshown path hpath other hother hplain hplain'
    exact ⟨hiff, fun hseen => hiff.trans hseen.shownPath_eq_iff⟩
  · intro hplain hseen
    rw [htexts]
    refine forall₂_congr fun path hpath => forall₂_congr fun other hother => ?_
    rw [hshown path hpath other hother (hplain path hpath) (hplain other hother),
      (hseen path hpath other hother).shownPath_eq_iff]

/-- A crate that splices one file under two paths. -/
def aliasTree : FileTree where
  workDir := []
  entries := [(["src"], .directory),
    (["lib.rs", "src"], .file "mod a;\n#[path = \"../src/a.rs\"]\nmod b;\n".toUTF8),
    (["a.rs", "src"], .file "".toUTF8)]

open ModuleGraph in
/-- The file is in the graph under both paths, so its text is listed twice. -/
theorem flatten_labels_files_alias :
    let root : Path := ⟨.relative, ["src", "lib.rs"]⟩
    let first : Path := ⟨.relative, ["src", "a.rs"]⟩
    let second : Path := ⟨.relative, ["src", "..", "src", "a.rs"]⟩
    let run := Expansion.ofRoot aliasTree root (.limited 2)
    let graph := run.recorded root
    let shown := label aliasTree (Viewpoint.of root.parent none)
    flatten aliasTree root (.limited 2) = .ok run.text ∧ first ∈ graph.nodes ∧
      second ∈ graph.nodes ∧ shown first = shown second ∧ ¬(graph.nodeTexts shown).Nodup := by
  intro root first second run graph shown
  have hflatten : flatten aliasTree root (.limited 2) = .ok run.text :=
    flatten_eq_ok_iff.mpr ⟨by decide +kernel, rfl⟩
  have hnodes : first ∈ graph.nodes ∧ second ∈ graph.nodes := by decide +kernel
  have hroot : root.IsNormal := by unfold Path.IsNormal; decide
  obtain ⟨-, -, -, hsame, -, htexts, -⟩ :=
    flatten_labels_files hroot FileTree.isNamed_nil hflatten none
  have hseen : SeenTogether aliasTree (Viewpoint.of root.parent none) first second :=
    ⟨root.parent, by decide +kernel, by decide +kernel⟩
  have hshown := hsame first hnodes.1 second hnodes.2 hseen (by decide +kernel)
  have hne : first ≠ second := by decide
  exact ⟨hflatten, hnodes.1, hnodes.2, hshown, fun hnodup =>
    hne (htexts.mp hnodup first hnodes.1 second hnodes.2 hshown)⟩

/-- A crate with files inside and outside of its directory: `src/o.rs` is a link to a file outside,
which is also spliced under a path of its own, `src/x\y.rs` has a backslash in its name, and
`src/src/o.rs` stands below the directory where the link stands below the working directory. -/
def crossedTree : FileTree where
  workDir := []
  entries := [(["src"], .directory), (["lib.rs", "src"], .file "mod a;\nmod o;\nmod x;\n".toUTF8),
    (["a.rs", "src"], .file "".toUTF8), (["o.rs", "src"], .link "../o.rs"),
    (["o.rs"], .file "".toUTF8),
    (["x.rs", "src"], .file "#[path = \"../src/a.rs\"]\nmod b;\nmod y;\n".toUTF8),
    (["x", "src"], .directory),
    (["y.rs", "x", "src"], .file "#[path = \"../x\\y.rs\"]\nmod c;\n".toUTF8),
    (["x\\y.rs", "src"], .file "#[path = \"src/o.rs\"]\nmod d;\n".toUTF8),
    (["src", "src"], .directory),
    (["o.rs", "src", "src"], .file "#[path = \"../../o.rs\"]\nmod e;\n".toUTF8)]

/-- The root of that crate. -/
def crossedRoot : Path := ⟨.relative, ["src", "lib.rs"]⟩

/-- What becomes of it. -/
def crossedRun : Expansion := .ofRoot crossedTree crossedRoot (.limited 9)

/-- The texts of its files, as they are seen from the directory of the root. -/
def crossedLabel : Path → String := ModuleGraph.label crossedTree (.of crossedRoot.parent none)

/-- The texts of the files that are recorded, with their real locations: one text stands for a file
with two paths, two texts stand for two different files each, and the file outside has two texts. -/
def crossedRows : List (String × Option Location) :=
  [("lib.rs", some ["lib.rs", "src"]), ("a.rs", some ["a.rs", "src"]),
    ("src/o.rs", some ["o.rs"]), ("x.rs", some ["x.rs", "src"]), ("a.rs", some ["a.rs", "src"]),
    ("x/y.rs", some ["y.rs", "x", "src"]), ("x/y.rs", some ["x\\y.rs", "src"]),
    ("src/o.rs", some ["o.rs", "src", "src"]), ("src/x/../src/../../o.rs", some ["o.rs"])]

/-- What the run through the crossed tree records, and how its files are shown. -/
theorem recorded_crossedTree : crossedRun.isComplete = true ∧
    (crossedRun.recorded crossedRoot).nodes.map (fun path =>
      (crossedLabel path, crossedTree.realLocation path)) = crossedRows := by
  decide +kernel

/-- So neither is every text listed once, nor do two paths have the same text exactly if they lead
to the same file. -/
theorem labels_of_crossedTree :
    flatten crossedTree crossedRoot (.limited 9) = .ok crossedRun.text ∧
      ¬((crossedRun.recorded crossedRoot).nodeTexts crossedLabel).Nodup ∧
      (crossedRun.recorded crossedRoot).nodes.map (fun path =>
        (crossedLabel path, crossedTree.realLocation path)) = crossedRows := by
  obtain ⟨hcomplete, hrows⟩ := recorded_crossedTree
  refine ⟨flatten_eq_ok_iff.mpr ⟨hcomplete, rfl⟩, fun hnodup => ?_, hrows⟩
  have hlisted : ((crossedRun.recorded crossedRoot).nodes.map crossedLabel).Nodup :=
    (ModuleGraph.nodeTexts_perm _ crossedLabel).nodup hnodup
  have htexts : (crossedRun.recorded crossedRoot).nodes.map crossedLabel =
      crossedRows.map (·.1) := by
    rw [← hrows, List.map_map]
    rfl
  rw [htexts] at hlisted
  exact absurd hlisted (by decide)

end FlatCrate
