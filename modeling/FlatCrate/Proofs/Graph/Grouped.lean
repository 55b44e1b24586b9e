import FlatCrate.Graph.Grouped
import Mathlib.Data.List.Basic
import Mathlib.Data.List.Induction
import Mathlib.Data.List.Perm.Basic

/-!
# Grouped lists are stable

Values that are added one after the other are listed group by group: the keys in the order of their
first use, and the values of a key in the order in which they were added.
-/

namespace FlatCrate.Grouped

variable {κ α : Type} [DecidableEq κ]

/-! ## One more value -/

/-- The values of a grouped list are the ones that have been added. -/
theorem mem_toList_add {grouped : Grouped κ α} {key : κ} {value : α} {pair : κ × α} :
    pair ∈ (grouped.add key value).toList ↔ pair ∈ grouped.toList ∨ pair = (key, value) := by
  obtain ⟨groups⟩ := grouped
  simp only [toList, add]
  induction groups with
  | nil => simp [addTo]
  | cons group groups ih =>
    obtain ⟨here, values⟩ := group
    rw [addTo]
    split
    · next heq =>
      subst heq
      simp only [List.flatMap_cons, List.map_append, List.map_cons, List.map_nil, List.mem_append,
        List.mem_singleton]
      tauto
    · rw [List.flatMap_cons, List.flatMap_cons, List.mem_append, List.mem_append, ih, or_assoc]

/-- The values under a key are listed with it. -/
theorem mem_toList_of_mem_get {grouped : Grouped κ α} {key : κ} {value : α}
    (h : value ∈ grouped.get key) : (key, value) ∈ grouped.toList := by
  rw [get] at h
  cases hlookup : grouped.groups.lookup key with
  | none => simp [hlookup] at h
  | some values =>
    rw [hlookup, Option.getD_some] at h
    obtain ⟨front, behind, hgroups, -⟩ := List.lookup_eq_some_iff.mp hlookup
    simp [toList, hgroups, h]

/-! ## Many values -/

/-- The groups when some values are added under their keys. -/
def addAll (groups : List (κ × List α)) (pairs : List (κ × α)) : List (κ × List α) :=
  pairs.foldl (fun groups pair => addTo pair.1 pair.2 groups) groups

/-- Some values, grouped by their keys. -/
def ofList (pairs : List (κ × α)) : Grouped κ α := ⟨addAll [] pairs⟩

/-- The first group takes the values of its key, and the others go to the groups behind it. -/
theorem addAll_cons (key : κ) (values : List α) (groups : List (κ × List α))
    (pairs : List (κ × α)) : addAll ((key, values) :: groups) pairs =
      (key, values ++ (pairs.filter (·.1 = key)).map (·.2)) ::
        addAll groups (pairs.filter (·.1 ≠ key)) := by
  induction pairs generalizing values groups with
  | nil => simp [addAll]
  | cons pair pairs ih =>
    rw [addAll, List.foldl_cons, ← addAll, addTo]
    by_cases heq : pair.1 = key
    · rw [if_pos heq.symm, ih]
      simp [heq]
    · rw [if_neg (Ne.symm heq), ih]
      simp [heq, addAll]

/-- The values of the first key come first, then those of the other keys. -/
theorem toList_ofList_cons (pair : κ × α) (pairs : List (κ × α)) :
    (ofList (pair :: pairs)).toList =
      pair :: pairs.filter (·.1 = pair.1) ++ (ofList (pairs.filter (·.1 ≠ pair.1))).toList := by
  have hkeys : ((pairs.filter (·.1 = pair.1)).map (·.2)).map (fun value => (pair.1, value)) =
      pairs.filter (·.1 = pair.1) := by
    rw [List.map_map, List.map_congr_left, List.map_id]
    intro other hother
    rw [← show other.1 = pair.1 by simpa using (List.mem_filter.mp hother).2]
    rfl
  rw [ofList, addAll, List.foldl_cons, ← addAll, addTo, addAll_cons]
  simp only [toList, List.flatMap_cons, List.singleton_append, List.map_cons, hkeys]
  rfl

/-- The values of the key of the first one come first. -/
theorem toList_ofList_of_head? {pairs : List (κ × α)} {key : κ}
    (h : ∀ pair ∈ pairs.head?, pair.1 = key) : (ofList pairs).toList =
      pairs.filter (·.1 = key) ++ (ofList (pairs.filter (·.1 ≠ key))).toList := by
  cases pairs with
  | nil => rfl
  | cons pair pairs =>
    obtain rfl := h pair rfl
    rw [toList_ofList_cons, List.filter_cons_of_pos (by simp), List.filter_cons_of_neg (by simp)]

/-- Nothing grouped is nothing. -/
@[simp] theorem toList_ofList_nil : (ofList ([] : List (κ × α))).toList = [] := rfl

/-- Values under different keys do not come between each other. -/
theorem toList_ofList_append {first second : List (κ × α)}
    (h : ∀ pair ∈ first, ∀ other ∈ second, other.1 ≠ pair.1) :
    (ofList (first ++ second)).toList = (ofList first).toList ++ (ofList second).toList := by
  match first with
  | [] => rfl
  | pair :: first =>
    have hpair : ∀ other ∈ second, other.1 ≠ pair.1 := h pair List.mem_cons_self
    have hsame : second.filter (·.1 = pair.1) = [] := by simpa using hpair
    have hother : second.filter (·.1 ≠ pair.1) = second := by simpa using hpair
    have ih : (ofList (first.filter (·.1 ≠ pair.1) ++ second)).toList =
        (ofList (first.filter (·.1 ≠ pair.1))).toList ++ (ofList second).toList :=
      toList_ofList_append fun other hmem =>
        h other (List.mem_cons_of_mem _ (List.mem_of_mem_filter hmem))
    rw [List.cons_append, toList_ofList_cons, toList_ofList_cons, List.filter_append,
      List.filter_append, hsame, hother, List.append_nil, ih, List.append_assoc]
termination_by first.length
decreasing_by exact Nat.lt_succ_of_le (List.length_filter_le _ _)

/-- When a value is followed by values under other keys and those by values that begin under its own
key again, grouping keeps the order only if one of the two blocks is empty. -/
theorem toList_ofList_eq_self_iff {pair : κ × α} {inside behind : List (κ × α)}
    (hinside : ∀ other ∈ inside, other.1 ≠ pair.1)
    (hbehind : ∀ other ∈ behind.head?, other.1 = pair.1)
    (hapart : ∀ other ∈ inside, ∀ later ∈ behind, later.1 ≠ other.1) :
    (ofList (pair :: (inside ++ behind))).toList = pair :: (inside ++ behind) ↔
      (inside = [] ∨ behind = []) ∧ (ofList inside).toList = inside ∧
        (ofList behind).toList = behind := by
  have hsame : inside.filter (·.1 = pair.1) = [] := by simpa using hinside
  have hother : inside.filter (·.1 ≠ pair.1) = inside := by simpa using hinside
  rw [toList_ofList_of_head? hbehind, toList_ofList_cons, List.filter_append, List.filter_append,
    hsame, hother, List.nil_append, toList_ofList_append fun other hmem later hlater =>
      hapart other hmem later (List.mem_of_mem_filter hlater), List.cons_append,
    List.cons_inj_right]
  cases inside with
  | nil => simp
  | cons first inside =>
    cases behind with
    | nil => simp
    | cons later behind =>
      -- the list begins with the key of the value on one side, with another key on the other one
      have hkey : later.1 = pair.1 := hbehind later rfl
      have hne : first.1 ≠ pair.1 := hinside first List.mem_cons_self
      refine iff_of_false (fun heq => hne ?_) (by simp)
      rw [List.filter_cons_of_pos (by simpa using hkey), List.cons_append, List.cons_append] at heq
      rw [← (List.cons.inj heq).1, hkey]

/-- Grouped values come key by key, in the order of the first use of the keys, and under each key in
their own order. -/
theorem toList_ofList (pairs : List (κ × α)) : (ofList pairs).toList =
    (pairs.map (·.1)).eraseDups.flatMap fun key => pairs.filter (·.1 = key) := by
  match pairs with
  | [] => rfl
  | pair :: pairs =>
    have hkeys : (pairs.map (·.1)).filter (fun key => !key == pair.1) =
        (pairs.filter (·.1 ≠ pair.1)).map (·.1) := by
      rw [List.filter_map]
      congr 1
      exact List.filter_congr fun other _ => by simp [beq_eq_decide]
    -- the pairs of another key are the same with and without those of the first key
    have hothers : ∀ key ∈ ((pairs.filter (·.1 ≠ pair.1)).map (·.1)).eraseDups,
        (pair :: pairs).filter (·.1 = key) =
          (pairs.filter (·.1 ≠ pair.1)).filter (·.1 = key) := by
      intro key hkey
      have hne : key ≠ pair.1 := by
        obtain ⟨other, hother, rfl⟩ := List.mem_map.mp (List.mem_eraseDups.mp hkey)
        simpa using (List.mem_filter.mp hother).2
      rw [List.filter_cons_of_neg (by simpa using Ne.symm hne), List.filter_filter]
      exact List.filter_congr fun other _ => by grind
    rw [toList_ofList_cons, toList_ofList, List.map_cons, List.eraseDups_cons, hkeys,
      List.flatMap_cons, List.filter_cons_of_pos (by simp), List.flatMap_congr hothers]
termination_by pairs.length
decreasing_by exact Nat.lt_succ_of_le (List.length_filter_le _ _)

/-- Grouping values changes nothing but their order. -/
theorem toList_ofList_perm (pairs : List (κ × α)) : (ofList pairs).toList.Perm pairs := by
  match pairs with
  | [] => exact .nil
  | pair :: pairs =>
    rw [toList_ofList_cons, List.cons_append]
    have ih := toList_ofList_perm (pairs.filter (·.1 ≠ pair.1))
    have hsplit := List.filter_append_perm (fun other => decide (other.1 = pair.1)) pairs
    simp only [← decide_not] at hsplit
    exact ((ih.append_left _).trans hsplit).cons pair
termination_by pairs.length
decreasing_by exact Nat.lt_succ_of_le (List.length_filter_le _ _)

/-! ## Values that are added one by one -/

/-- The last of some pairs is added to the groups of the others. -/
theorem ofList_concat (pairs : List (κ × α)) (pair : κ × α) :
    ofList (pairs ++ [pair]) = (ofList pairs).add pair.1 pair.2 := by
  simp [ofList, addAll, add]

/-- The values under a key are the ones that were added under it, in their order. -/
theorem get_ofList (pairs : List (κ × α)) (key : κ) :
    (ofList pairs).get key = (pairs.filter (·.1 = key)).map (·.2) := by
  induction pairs using List.reverseRecOn with
  | nil => rfl
  | append_singleton pairs pair ih =>
    rw [ofList_concat, get_add, ih, List.filter_append, List.map_append]
    by_cases hkey : pair.1 = key
    · simp [hkey]
    · simp [hkey, Ne.symm hkey]

/-- There are as many values as pairs. -/
theorem count_ofList (pairs : List (κ × α)) : (ofList pairs).count = pairs.length :=
  (toList_ofList_perm pairs).length_eq

/-- There is a group as soon as there is a value. -/
theorem groups_ofList_eq_nil_iff {pairs : List (κ × α)} :
    (ofList pairs).groups = [] ↔ pairs = [] := by
  cases pairs with
  | nil => simp [ofList, addAll]
  | cons pair pairs => rw [ofList, addAll, List.foldl_cons, ← addAll, addTo, addAll_cons]; simp

end FlatCrate.Grouped
