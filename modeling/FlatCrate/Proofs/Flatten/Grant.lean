import FlatCrate.Flatten.Run

/-!
# What a budget grants

A budget is spent on declarations only. Of the declarations found in a file, line by line, it grants
the first ones and leaves the others as they are.
-/

namespace FlatCrate.Budget

open Source (ModuleDecl)

/-- The declarations found line by line, without those that are beyond the budget. -/
def grant : Budget → List (Option ModuleDecl) → List (Option ModuleDecl)
  | _, [] => []
  | budget, none :: found => none :: budget.grant found
  | budget, some decl :: found =>
    match budget.spend? with
    | none => none :: budget.grant found
    | some left => some decl :: left.grant found

/-- The budget behind some lines. -/
def behind : Budget → List (Option ModuleDecl) → Budget
  | budget, [] => budget
  | budget, none :: found => budget.behind found
  | budget, some _ :: found => (budget.spend?.getD budget).behind found

/-- When the budget is used up, nothing more is granted. -/
theorem grant_cons_of_spend?_none {budget : Budget} (h : budget.spend? = none)
    (decl : Option ModuleDecl) (found : List (Option ModuleDecl)) :
    budget.grant (decl :: found) = none :: budget.grant found := by
  cases decl <;> simp [grant, h]

/-- A declaration for which the budget lasts is granted, and costs one. -/
theorem grant_cons_of_spend?_some {budget left : Budget} (h : budget.spend? = some left)
    (decl : ModuleDecl) (found : List (Option ModuleDecl)) :
    budget.grant (some decl :: found) = some decl :: left.grant found := by
  simp only [grant, h]

/-- There is an answer for every line. -/
@[simp] theorem length_grant (budget : Budget) (found : List (Option ModuleDecl)) :
    (budget.grant found).length = found.length := by
  induction found generalizing budget with
  | nil => rfl
  | cons decl found ih =>
    cases decl with
    | none => simp only [grant, List.length_cons, ih]
    | some decl => cases hspend : budget.spend? <;> simp only [grant, hspend, List.length_cons, ih]

/-- Behind some lines, the remaining budget is granted. -/
theorem grant_append (budget : Budget) (first rest : List (Option ModuleDecl)) :
    budget.grant (first ++ rest) = budget.grant first ++ (budget.behind first).grant rest := by
  induction first generalizing budget with
  | nil => rfl
  | cons decl first ih =>
    cases decl with
    | none => simp only [List.cons_append, grant, behind, ih]
    | some decl =>
      cases hspend : budget.spend? with
      | none => simp only [List.cons_append, grant, behind, hspend, ih, Option.getD_none]
      | some left => simp only [List.cons_append, grant, behind, hspend, ih, Option.getD_some]

/-- A budget is used up by two lists as by one behind the other. -/
theorem behind_append (budget : Budget) (first rest : List (Option ModuleDecl)) :
    budget.behind (first ++ rest) = (budget.behind first).behind rest := by
  induction first generalizing budget with
  | nil => rfl
  | cons decl first ih => cases decl <;> simp only [List.cons_append, behind, ih]

/-! ## The first declarations -/

/-- Of the declarations found line by line, a number of first ones is left. -/
structure IsFirst (count : Nat) (found expanded : List (Option ModuleDecl)) : Prop where
  length_eq : expanded.length = found.length
  expanded_iff : ∀ line decl, expanded[line]? = some (some decl) ↔
    found[line]? = some (some decl) ∧ (found.take line).countP Option.isSome < count
  countP_eq : expanded.countP Option.isSome = min count (found.countP Option.isSome)

namespace IsFirst

variable {count : Nat} {found expanded : List (Option ModuleDecl)}

/-- A line without a declaration does not count. -/
theorem cons_none (h : IsFirst count found expanded) :
    IsFirst count (none :: found) (none :: expanded) where
  length_eq := congrArg (· + 1) h.length_eq
  expanded_iff line decl := by
    cases line with
    | zero => simp
    | succ line => simpa using h.expanded_iff line decl
  countP_eq := by simpa using h.countP_eq

/-- A declaration that is granted counts as one. -/
theorem cons_some (h : IsFirst count found expanded) (decl : ModuleDecl) :
    IsFirst (count + 1) (some decl :: found) (some decl :: expanded) where
  length_eq := congrArg (· + 1) h.length_eq
  expanded_iff line other := by
    cases line with
    | zero => simp
    | succ line => simpa using h.expanded_iff line other
  countP_eq := by simpa using h.countP_eq

/-- None are the first ones, if there are to be none. -/
theorem zero (found : List (Option ModuleDecl)) :
    IsFirst 0 found (List.replicate found.length none) where
  length_eq := List.length_replicate
  expanded_iff line decl := by simp [List.getElem?_replicate]
  countP_eq := by simp [List.countP_replicate]

end IsFirst

/-- A budget that is used up grants nothing at all. -/
theorem grant_of_spend?_none {budget : Budget} (h : budget.spend? = none)
    (found : List (Option ModuleDecl)) : budget.grant found = List.replicate found.length none := by
  induction found with
  | nil => rfl
  | cons decl found ih =>
    rw [grant_cons_of_spend?_none h, ih, List.length_cons, List.replicate_succ]

/-- A limited budget grants the first declarations. -/
theorem isFirst_grant (count : Nat) (found : List (Option ModuleDecl)) :
    IsFirst count found ((limited count).grant found) := by
  induction found generalizing count with
  | nil => exact ⟨rfl, by simp [grant], by simp [grant]⟩
  | cons decl found ih =>
    cases decl with
    | none => exact (ih count).cons_none
    | some decl =>
      cases count with
      | zero =>
        rw [grant_of_spend?_none rfl]
        exact .zero _
      | succ count => exact (ih count).cons_some decl

/-- An unlimited budget grants all declarations. -/
theorem grant_unlimited (found : List (Option ModuleDecl)) : unlimited.grant found = found := by
  induction found with
  | nil => rfl
  | cons decl found ih => cases decl <;> simp only [grant, spend?, ih]

/-! ## Larger budgets -/

/-- A budget lasts for no more declarations than another one. -/
def IsWithin (budget larger : Budget) : Prop :=
  ∀ count, larger = .limited count → ∃ fewer ≤ count, budget = .limited fewer

/-- A budget that is used up is within every other one. -/
theorem isWithin_of_spend?_none {budget : Budget} (h : budget.spend? = none) (larger : Budget) :
    budget.IsWithin larger := by
  intro count _
  cases budget with
  | unlimited => simp [spend?] at h
  | limited fewer =>
    cases fewer with
    | zero => exact ⟨0, Nat.zero_le count, rfl⟩
    | succ fewer => simp [spend?] at h

/-- When a budget is spent, a larger one is spent, too, and stays larger. -/
theorem IsWithin.spend? {budget larger left : Budget} (h : budget.IsWithin larger)
    (hspend : budget.spend? = some left) :
    ∃ more, larger.spend? = some more ∧ left.IsWithin more := by
  cases larger with
  | unlimited => exact ⟨.unlimited, rfl, fun count hcount => by simp at hcount⟩
  | limited count =>
    obtain ⟨fewer, hle, rfl⟩ := h count rfl
    cases fewer with
    | zero => simp [Budget.spend?] at hspend
    | succ fewer =>
      obtain rfl : limited fewer = left := by simpa [Budget.spend?] using hspend
      cases count with
      | zero => omega
      | succ count =>
        refine ⟨.limited count, rfl, fun other hother => ?_⟩
        obtain rfl := limited.inj hother
        exact ⟨fewer, Nat.le_of_succ_le_succ hle, rfl⟩

/-- A number that is not negative stands for a smaller budget than a larger or a negative one. -/
theorem isWithin_ofInt {budget larger : Int} (hbudget : 0 ≤ budget)
    (h : budget ≤ larger ∨ larger < 0) : (ofInt budget).IsWithin (ofInt larger) := by
  intro count hcount
  cases larger with
  | negSucc n => simp [ofInt] at hcount
  | ofNat n =>
    obtain rfl : n = count := by simpa [ofInt] using hcount
    cases budget with
    | negSucc m => simp at hbudget
    | ofNat m =>
      have hle : (m : Int) ≤ n := h.resolve_right (Int.not_lt.mpr (Int.natCast_nonneg n))
      exact ⟨m, Int.ofNat_le.mp hle, rfl⟩

end FlatCrate.Budget
