import FlatCrate.FileTree.RealPath
import FlatCrate.Proofs.Path

/-!
# The names of real locations

A real location is made of names that an entry of a directory can have: the names of a path, those
of the targets of links and those of the working directory have no slash in them, and what is empty
or a single dot is left out. So a part of a real location can be written as a path and read again.
-/

namespace FlatCrate.FileTree

variable {tree : FileTree} {location directory : Location} {names : List String}
  {name : String} {path : Path}

/-- A location whose names are all names of entries. -/
def IsNamed (location : Location) : Prop := ∀ name ∈ location, Path.IsFileName name

/-- The location above one with proper names has proper names. -/
theorem IsNamed.tail (h : IsNamed location) : IsNamed location.tail :=
  fun name hname => h name (List.mem_of_mem_tail hname)

/-- A proper name in front leaves all names proper. -/
theorem IsNamed.cons (h : IsNamed location) (hdot : ¬(name = "" ∨ name = "."))
    (hslash : '/' ∉ name.toList) : IsNamed (name :: location) := by
  rw [not_or] at hdot
  exact List.forall_mem_cons.mpr ⟨⟨by simp [Path.isName, hdot], hslash⟩, h⟩

/-- The root has no improper name. -/
theorem isNamed_nil : IsNamed [] := List.forall_mem_nil _

/-- The names of a link's target have no slash in them. -/
theorem notMem_of_mem_targetNames {target : String} (h : name ∈ targetNames target) :
    '/' ∉ name.toList := by
  obtain ⟨piece, hpiece, rfl⟩ := List.mem_map.mp h
  rw [String.toList_ofList]
  exact Text.not_mem_of_mem_splitAt hpiece

/-- Where a link starts has proper names. -/
theorem isNamed_targetStart (h : IsNamed directory) (target : String) :
    IsNamed (targetStart directory target) := by
  rw [targetStart]
  split
  · exact isNamed_nil
  · exact h

/-! ## Following names -/

/-- Following names by their text leads to proper names. -/
theorem isNamed_lexical (h : IsNamed location) (hnames : ∀ name ∈ names, '/' ∉ name.toList) :
    IsNamed (lexical location names) := by
  induction names generalizing location with
  | nil => exact h
  | cons name rest ih =>
    obtain ⟨hname, hrest⟩ := List.forall_mem_cons.mp hnames
    rw [lexical]
    split_ifs with hdot hup
    · exact ih h hrest
    · exact ih h.tail hrest
    · exact ih (h.cons hdot hname) hrest

/-- So does following them behind a link that leads nowhere. -/
theorem isNamed_lexicalBehind (h : IsNamed location)
    (hnames : ∀ name ∈ names, '/' ∉ name.toList) : IsNamed (lexicalBehind location names) := by
  unfold lexicalBehind
  split
  · exact isNamed_lexical isNamed_nil hnames
  · exact isNamed_lexical h hnames

/-- The location up to which names are resolved. -/
def Resolution.place : Resolution → Location
  | .whole location => location
  | .stuck location => location

/-- Resolving names leads to proper names if following links does. -/
theorem isNamed_resolveWith {enter : Location → Location → List String → Resolution}
    (henter : ∀ link start names, IsNamed link → IsNamed start →
      (∀ name ∈ names, '/' ∉ name.toList) → IsNamed (enter link start names).place)
    (h : IsNamed directory) (hnames : ∀ name ∈ names, '/' ∉ name.toList) :
    IsNamed (tree.resolveWith enter directory names).place := by
  induction names generalizing directory with
  | nil => exact h
  | cons name rest ih =>
    obtain ⟨hname, hrest⟩ := List.forall_mem_cons.mp hnames
    rw [resolveWith]
    split_ifs with hdot hup
    · exact ih h hrest
    · exact ih h.tail hrest
    · have hentry := h.cons hdot hname
      split
      · next target _ =>
        have hinside := henter _ _ (targetNames target) hentry (isNamed_targetStart h target)
          fun _ hmem => notMem_of_mem_targetNames hmem
        split
        · next aim haim =>
          rw [haim] at hinside
          exact ih hinside hrest
        · next aim haim =>
          rw [haim] at hinside
          exact isNamed_lexicalBehind hinside hrest
      · exact ih hentry hrest

/-- A real location has proper names. -/
theorem isNamed_resolveNames (tree : FileTree) (depth : Nat) (pending : List Location)
    (h : IsNamed directory) (hnames : ∀ name ∈ names, '/' ∉ name.toList) :
    IsNamed (tree.resolveNames depth pending directory names).place := by
  induction depth generalizing pending directory names with
  | zero => exact isNamed_resolveWith (fun link _ _ hlink _ _ => hlink) h hnames
  | succ depth ih =>
    refine isNamed_resolveWith (fun link start names hlink hstart hnames => ?_) h hnames
    split_ifs
    · exact hlink
    · exact ih _ hstart hnames

/-- The real location of a normal path has names of entries only, if the working directory has. -/
theorem isNamed_realLocation (hwork : IsNamed tree.workDir) (hpath : path.IsNormal)
    (h : tree.realLocation path = some location) : IsNamed location := by
  have hstart : IsNamed (tree.startOf path) := by
    rw [startOf]
    split
    · exact isNamed_nil
    · exact hwork
  have hresolved := tree.isNamed_resolveNames (tree.size + 1) [] hstart
    fun name hname => (hpath name hname).2
  rw [realLocation] at h
  split at h
  · next place hplace =>
    obtain rfl := Option.some.inj h
    rwa [hplace] at hresolved
  · next place hplace =>
    split at h
    · cases h
    · obtain rfl := Option.some.inj h
      rwa [hplace] at hresolved

end FlatCrate.FileTree
