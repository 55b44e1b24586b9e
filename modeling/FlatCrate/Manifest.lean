import FlatCrate.Json.Render

/-!
# The manifest of packed crates

The manifest says for every packed crate which file holds it, under which path it is mounted and on
which of the other packed crates it depends. A root crate depends on all of them.
-/

namespace FlatCrate.Manifest

/-- The library crates with the crates that they depend on. -/
def knownDependencies : List (String × List String) :=
  [("std", ["core", "alloc"]), ("alloc", ["core"]), ("core", [])]

/-- The path of the root crate. -/
def rootPath : String := "/my_crate/main.rs"

/-- The path under which a crate is mounted. -/
def virtualPath (crate : String) : String := "/" ++ crate ++ "/src/lib.rs"

/-- The crates that a crate depends on, as far as they are available. -/
def dependencies (crate : String) (available : List String) : List String :=
  ((knownDependencies.lookup crate).getD []).filter (· ∈ available)

/-- The entry of a crate. -/
def entry (available : List String) (output : String × String) : Json :=
  .object [("name", .string output.1), ("file", .string output.2),
    ("virtual_path", .string (virtualPath output.1)),
    ("dependencies", .strings (dependencies output.1 available))]

/-- The manifest of crates with their files. -/
def document (outputs : List (String × String)) : Json :=
  let names := outputs.map (·.1)
  .object [
    ("root", .object [("virtual_path", .string rootPath), ("dependencies", .strings names)]),
    ("crates", .array (outputs.map (entry names)))]

/-- The crates with their files when a repeated crate keeps its first place and its last file. -/
def collect (outputs : List (String × String)) : List (String × String) :=
  outputs.foldl
    (fun found (name, file) =>
      if found.any (·.1 == name) then
        found.map fun (here, old) => if here == name then (here, file) else (here, old)
      else found ++ [(name, file)])
    []

/-- The text of a manifest. -/
def render (indent : Nat) (outputs : List (String × String)) : String :=
  (document outputs).render indent

/-- Every dependency is an available crate. -/
theorem mem_available_of_mem_dependencies {crate dependency : String} {available : List String}
    (h : dependency ∈ dependencies crate available) : dependency ∈ available := by
  simpa using (List.mem_filter.mp h).2

end FlatCrate.Manifest
