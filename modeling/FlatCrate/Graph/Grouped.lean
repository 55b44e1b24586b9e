/-!
# Grouped lists

A grouped list collects values under keys. The groups stand in the order in which their keys were
first used, the values of a group in the order in which they were added.
-/

namespace FlatCrate

/-- Values under keys, both in order of appearance. -/
structure Grouped (κ : Type) (α : Type) where
  groups : List (κ × List α) := []
  deriving DecidableEq, Repr

namespace Grouped

variable {κ α : Type} [DecidableEq κ]

/-- The groups with one more value at the end of the group of a key. -/
def addTo (key : κ) (value : α) : List (κ × List α) → List (κ × List α)
  | [] => [(key, [value])]
  | (here, values) :: rest =>
    if here = key then (here, values ++ [value]) :: rest
    else (here, values) :: addTo key value rest

/-- Adds a value under a key. -/
def add (grouped : Grouped κ α) (key : κ) (value : α) : Grouped κ α :=
  ⟨addTo key value grouped.groups⟩

/-- The values under a key. -/
def get (grouped : Grouped κ α) (key : κ) : List α := (grouped.groups.lookup key).getD []

/-- All values with their keys, group by group. -/
def toList (grouped : Grouped κ α) : List (κ × α) :=
  grouped.groups.flatMap fun group => group.2.map fun value => (group.1, value)

/-- How many values there are. -/
def count (grouped : Grouped κ α) : Nat := grouped.toList.length

/-- What a key has is what it had before, and the new value behind it if it is added there. -/
private theorem lookup_addTo (key other : κ) (value : α) (groups : List (κ × List α)) :
    ((addTo key value groups).lookup other).getD [] =
      (groups.lookup other).getD [] ++ if other = key then [value] else [] := by
  induction groups with
  | nil =>
    by_cases h : other = key
    · simp [addTo, h]
    · simp [addTo, List.lookup_cons, h, beq_eq_false_iff_ne.mpr h]
  | cons group groups ih =>
    obtain ⟨here, values⟩ := group
    by_cases hkey : here = key
    · subst hkey
      by_cases h : other = here
      · simp [addTo, h]
      · simp [addTo, List.lookup_cons, h, beq_eq_false_iff_ne.mpr h]
    · by_cases h : other = here
      · subst h
        simp [addTo, hkey]
      · simp [addTo, hkey, List.lookup_cons, beq_eq_false_iff_ne.mpr h, ih]

/-- A value that is added comes last under its key and nowhere else. -/
theorem get_add (grouped : Grouped κ α) (key other : κ) (value : α) :
    (grouped.add key value).get other =
      grouped.get other ++ if other = key then [value] else [] :=
  lookup_addTo key other value grouped.groups

end Grouped

end FlatCrate
