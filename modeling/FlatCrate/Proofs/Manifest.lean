import FlatCrate.Manifest
import FlatCrate.Proofs.Json.RoundTrip
import Mathlib.Logic.Relation

/-!
# What the manifest says

The manifest is read back with every name and file in its place. The dependencies in it are crates
of the same manifest, and they lead from a known crate only to known crates behind it, so following
them comes to an end. A crate that is left out is missed only in the dependencies on it.
-/

namespace FlatCrate.Manifest

variable {crate dependency : String} {available names : List String}

/-! ## Dependencies -/

/-- The place of a crate among the known ones; all others come behind them. -/
def place (crate : String) : Nat := (knownDependencies.map (·.1)).idxOf crate

/-- The known crates depend on others that stand behind them, and on each of them once. -/
theorem knownDependencies_ordered : ∀ entry ∈ knownDependencies, entry.2.Nodup ∧
    ∀ dependency ∈ entry.2, place entry.1 < place dependency := by
  decide

/-- What a crate depends on is found in the table, or the crate is not a known one. -/
theorem dependencies_eq_nil_or (crate : String) (available : List String) :
    dependencies crate available = [] ∨ ∃ others, (crate, others) ∈ knownDependencies ∧
      dependencies crate available = others.filter (· ∈ available) := by
  rw [dependencies]
  cases hlookup : knownDependencies.lookup crate with
  | none => exact .inl rfl
  | some others =>
    obtain ⟨front, behind, hsplit, -⟩ := List.lookup_eq_some_iff.mp hlookup
    exact .inr ⟨others, by simp [hsplit], rfl⟩

/-- No crate depends on another one twice. -/
theorem nodup_dependencies (crate : String) (available : List String) :
    (dependencies crate available).Nodup := by
  obtain hnil | ⟨others, hentry, heq⟩ := dependencies_eq_nil_or crate available
  · rw [hnil]
    exact List.nodup_nil
  · rw [heq]
    exact (knownDependencies_ordered _ hentry).1.filter _

/-- Dependencies lead only to crates behind. -/
theorem place_lt_of_mem_dependencies (h : dependency ∈ dependencies crate available) :
    place crate < place dependency := by
  obtain hnil | ⟨others, hentry, heq⟩ := dependencies_eq_nil_or crate available
  · simp [hnil] at h
  · rw [heq] at h
    exact (knownDependencies_ordered _ hentry).2 dependency (List.mem_filter.mp h).1

/-- Following dependencies leads only to crates behind, so it never comes back to a crate. -/
theorem place_lt_of_transGen (h : Relation.TransGen
    (fun crate dependency => dependency ∈ dependencies crate available) crate dependency) :
    place crate < place dependency := by
  induction h with
  | single h => exact place_lt_of_mem_dependencies h
  | tail _ h ih => exact Nat.lt_trans ih (place_lt_of_mem_dependencies h)

/-- Leaving out a crate drops it from the dependencies and changes nothing else. -/
theorem dependencies_filter_ne (crate removed : String) (names : List String) :
    dependencies crate (names.filter (· ≠ removed)) =
      (dependencies crate names).filter (· ≠ removed) := by
  rw [dependencies, dependencies, List.filter_filter]
  exact List.filter_congr fun name _ => by simp [Bool.and_comm]

/-! ## Manifests as data -/

/-- The manifest of crates with given dependencies. -/
def documentOf (outputs : List (String × String)) (dependenciesOf : String → List String) : Json :=
  .object [
    ("root", .object [("virtual_path", .string rootPath),
      ("dependencies", .strings (outputs.map (·.1)))]),
    ("crates", .array (outputs.map fun output =>
      .object [("name", .string output.1), ("file", .string output.2),
        ("virtual_path", .string (virtualPath output.1)),
        ("dependencies", .strings (dependenciesOf output.1))]))]

/-- The crates of a manifest on which a crate depends. -/
def dependenciesIn (outputs : List (String × String)) (crate : String) : List String :=
  dependencies crate (outputs.map (·.1))

/-- A manifest is the document of its outputs and their dependencies. -/
theorem document_eq (outputs : List (String × String)) :
    document outputs = documentOf outputs (dependenciesIn outputs) :=
  rfl

/-- The document of a manifest has no number in it. -/
theorem isPlain_documentOf (outputs : List (String × String))
    (dependenciesOf : String → List String) : (documentOf outputs dependenciesOf).IsPlain := by
  refine .object (by simp) ?_
  simp only [List.forall_mem_cons, List.not_mem_nil, false_implies, implies_true, and_true]
  refine ⟨.object (by simp) ?_, .array (List.forall_mem_map.mpr fun output _ => ?_)⟩
  · simp [Json.isPlain_strings, Json.IsPlain.string]
  · exact .object (by simp) (by simp [Json.isPlain_strings, Json.IsPlain.string])

/-- A manifest is read back as it was made. -/
theorem read_render (indent : Nat) (outputs : List (String × String)) :
    Json.read (render indent outputs) = .ok (documentOf outputs (dependenciesIn outputs)) := by
  rw [render, document_eq, (isPlain_documentOf outputs _).read_render]

/-- The crates with their files without one of the crates. -/
def without (removed : String) (outputs : List (String × String)) : List (String × String) :=
  outputs.filter (·.1 ≠ removed)

/-- Without one crate, the others lose it as a dependency and nothing else. -/
theorem dependenciesIn_without (removed : String) (outputs : List (String × String)) :
    dependenciesIn (without removed outputs) = fun crate =>
      (dependenciesIn outputs crate).filter (· ≠ removed) := by
  have hnames : (without removed outputs).map (·.1) =
      (outputs.map (·.1)).filter (· ≠ removed) := by
    rw [without, List.filter_map]
    rfl
  funext crate
  rw [dependenciesIn, hnames, dependencies_filter_ne, dependenciesIn]

/-- The manifest of some crates is read back with their names and files in the order of the crates;
the root depends on all of them. The dependencies of a crate are different crates of the same
manifest and not the crate itself, and following them never comes back to a crate. The manifest
without one of the crates has the same entries but for the dependencies on that crate. -/
theorem manifest_is_closed_and_acyclic (outputs : List (String × String)) (indent : Nat) :
    Json.read (render indent outputs) = .ok (documentOf outputs (dependenciesIn outputs)) ∧
    (∀ crate, (dependenciesIn outputs crate).Nodup ∧
      ∀ dependency ∈ dependenciesIn outputs crate,
        dependency ∈ outputs.map (·.1) ∧ dependency ≠ crate) ∧
    (∀ crate, ¬Relation.TransGen (fun crate dependency =>
      dependency ∈ dependenciesIn outputs crate) crate crate) ∧
    ∀ removed, Json.read (render indent (without removed outputs)) =
      .ok (documentOf (without removed outputs) fun crate =>
        (dependenciesIn outputs crate).filter (· ≠ removed)) := by
  refine ⟨read_render indent outputs, fun crate => ⟨nodup_dependencies crate _, ?_⟩,
    fun crate hcycle => Nat.lt_irrefl _ (place_lt_of_transGen hcycle), fun removed => ?_⟩
  · intro dependency hdependency
    refine ⟨mem_available_of_mem_dependencies hdependency, ?_⟩
    rintro rfl
    exact Nat.lt_irrefl _ (place_lt_of_mem_dependencies hdependency)
  · rw [read_render, dependenciesIn_without]

end FlatCrate.Manifest
