import FlatCrate.Proofs.Source.Attribute
import FlatCrate.Proofs.Source.Header

/-!
# The scope of a path override

A path attribute gives its path to the next declaration. Blank lines, attributes and the lines of an
open attribute may stand between them; another path attribute takes the place of the first one, and
any other line drops the path. So the path of a declaration is read off the lines in front of it:
the state of the scanner carries a path exactly if one of these lines reaches that far.
-/

namespace FlatCrate.Source

/-! ## Path attributes -/

/-- Code that begins with a path attribute for some path; the path ends at the first quote. -/
def GivesPath (path : String) (code : List Char) : Prop :=
  '"' ∉ path.toList ∧ "#[path = \"".toList ++ path.toList ++ "\"]".toList <+: code

/-- Behind a beginning comes the rest. -/
theorem after?_append_self (start rest : List Char) : after? start (start ++ rest) = some rest := by
  rw [after?, if_pos (List.isPrefixOf_iff_prefix.mpr (List.prefix_append start rest)),
    List.drop_left]

/-- The scanner finds the path that the code gives. -/
theorem pathAttribute?_eq_some_iff {code : List Char} {path : String} :
    pathAttribute? code = some path ↔ GivesPath path code := by
  constructor
  · intro h
    rw [pathAttribute?] at h
    split at h
    · simp at h
    · next rest hafter =>
      dsimp only at h
      split_ifs at h with hquote
      obtain rfl : String.ofList (rest.takeWhile (· != '"')) = path := by simpa using h
      obtain ⟨more, hmore⟩ := List.isPrefixOf_iff_prefix.mp hquote
      rw [GivesPath, String.toList_ofList]
      constructor
      · intro hmem
        simpa using List.mem_takeWhile_imp hmem
      · refine ⟨more, ?_⟩
        rw [← after?_eq_some hafter, List.append_assoc, hmore, List.append_assoc,
          List.prefix_iff_eq_append.mp (List.takeWhile_prefix _)]
  · rintro ⟨hquote, more, rfl⟩
    have hafter : after? "#[path = \"".toList
        ("#[path = \"".toList ++ path.toList ++ "\"]".toList ++ more) =
          some (path.toList ++ '"' :: ']' :: more) := by
      rw [List.append_assoc, List.append_assoc, after?_append_self]
      rfl
    rw [pathAttribute?, hafter]
    simp only [takeWhile_ne_quote hquote, List.drop_left, String.ofList_toList]
    rfl

/-! ## The override behind a line -/

/-- A blank line, or one that begins like an attribute. -/
def IsTransparent (line : List Char) : Prop :=
  Text.allBlank (stripComment line) = true ∨ BeginsAttribute line

instance (line : List Char) : Decidable (IsTransparent line) :=
  inferInstanceAs (Decidable (_ ∨ _))

/-- The lines that a path attribute gets past are those without code. -/
theorem isTransparent_iff {line : List Char} : IsTransparent line ↔ ¬IsCodeLine line := by
  rw [IsCodeLine, kind_eq_code_iff, not_and_or, Bool.not_eq_false, not_not, IsTransparent,
    BeginsAttribute]

/-- An attribute is open when the scanner reads line `k`. -/
def IsInside (lines : List String) (k : Nat) : Prop :=
  ∃ override found, scanLines .idle (lines.take k) = .ok (.inAttribute override, found)

/-- The path attribute on line `i` reaches line `j`: it is the last one in front of that line, and
only blank lines, attributes and lines of open attributes stand between them. -/
structure OverrideReaches (lines : List String) (i j : Nat) (path : String) : Prop where
  before : i < j
  gives : ∃ line ∈ lines[i]?, GivesPath path (stripComment line.toList)
  latest : ∀ k, i < k → k < j → ∀ line ∈ lines[k]?, ∀ other,
    ¬GivesPath other (stripComment line.toList)
  clear : ∀ k, i < k → k < j → ∀ line ∈ lines[k]?, IsTransparent line.toList ∨ IsInside lines k

/-- The state behind an override tells that override. -/
@[simp] theorem ScanState.override_ofOverride (override : Option String) :
    (ScanState.ofOverride override).override = override := by
  cases override <;> rfl

/-- What the scanner carries behind a line: the path of the line itself, or what was carried in
front of it, or nothing. -/
theorem override_of_scanLine {state next : ScanState} {line : List Char} {decl : Option ModuleDecl}
    (h : scanLine state line = .ok (next, decl)) :
    next.override = (pathAttribute? (stripComment line)).or
      (if IsTransparent line ∨ state.isOpen = true then state.override else none) := by
  have hcode : IsTransparent line ↔ ¬LineKind.of (stripComment line) = .code := isTransparent_iff
  rw [scanLine_eq] at h
  rw [pathAttribute?_eq]
  cases hkind : LineKind.of (stripComment line) with
  | override path =>
    obtain ⟨rfl, -⟩ : _ = next ∧ none = decl := by simpa [hkind] using h
    split_ifs <;> rfl
  | code =>
    simp only [hkind] at h
    have hkept : ¬IsTransparent line := fun htransparent => hcode.mp htransparent hkind
    cases hopen : state.isOpen with
    | true =>
      rw [if_pos hopen] at h
      obtain ⟨rfl, -⟩ := Prod.mk.inj (Except.ok.inj h)
      by_cases hend : (stripComment line).getLast? = some ']' <;> simp [hend]
    | false =>
      rw [hopen, if_neg Bool.false_ne_true] at h
      cases hparse : ModuleDecl.parse (stripComment line) state.override with
      | error e => simp [hparse, Except.map] at h
      | ok found =>
        obtain ⟨rfl, -⟩ : ScanState.idle = next ∧ found = decl := by
          simpa [hparse, Except.map] using h
        simp [ScanState.override, hkept]
  | _ =>
    have hkept : IsTransparent line := hcode.mpr (by simp [hkind])
    obtain ⟨rfl, -⟩ : _ = next ∧ none = decl := by simpa [hkind] using h
    simp [ScanState.override, hkept]

/-- Which attribute reaches the next line, if a line gives no path itself. -/
theorem overrideReaches_succ_iff {lines : List String} {i j : Nat} {path line : String}
    (hline : lines[j]? = some line) (hpath : pathAttribute? (stripComment line.toList) = none) :
    OverrideReaches lines i (j + 1) path ↔ OverrideReaches lines i j path ∧
      (IsTransparent line.toList ∨ IsInside lines j) := by
  have hgives : ∀ other, ¬GivesPath other (stripComment line.toList) := by
    intro other h
    rw [← pathAttribute?_eq_some_iff, hpath] at h
    exact Option.some_ne_none _ h.symm
  constructor
  · intro h
    have hij : i < j := by
      refine lt_of_le_of_ne (Nat.lt_succ_iff.mp h.before) ?_
      rintro rfl
      obtain ⟨other, hother, hgiven⟩ := h.gives
      obtain rfl : line = other := Option.some.inj (hline.symm.trans hother)
      exact hgives path hgiven
    exact ⟨⟨hij, h.gives, fun k hik hkj => h.latest k hik (Nat.lt_succ_of_lt hkj),
      fun k hik hkj => h.clear k hik (Nat.lt_succ_of_lt hkj)⟩,
      h.clear j hij (Nat.lt_succ_self j) line hline⟩
  · rintro ⟨h, hclear⟩
    refine ⟨Nat.lt_succ_of_lt h.before, h.gives, fun k hik hkj => ?_, fun k hik hkj => ?_⟩
    · rcases Nat.lt_succ_iff_lt_or_eq.mp hkj with hkj | rfl
      · exact h.latest k hik hkj
      · intro other hother
        obtain rfl : line = other := Option.some.inj (hline.symm.trans hother)
        exact hgives
    · rcases Nat.lt_succ_iff_lt_or_eq.mp hkj with hkj | rfl
      · exact h.clear k hik hkj
      · intro other hother
        obtain rfl : line = other := Option.some.inj (hline.symm.trans hother)
        exact hclear

/-- Only the path of a line itself reaches the next line, if it gives one. -/
theorem overrideReaches_succ_iff_of_path {lines : List String} {j : Nat} {path given line : String}
    (hline : lines[j]? = some line)
    (hpath : pathAttribute? (stripComment line.toList) = some given) :
    (∃ i, OverrideReaches lines i (j + 1) path) ↔ given = path := by
  constructor
  · rintro ⟨i, h⟩
    rcases Nat.lt_succ_iff_lt_or_eq.mp h.before with hij | rfl
    · exact absurd (pathAttribute?_eq_some_iff.mp hpath)
        (h.latest j hij (Nat.lt_succ_self j) line hline given)
    · obtain ⟨other, hother, hgiven⟩ := h.gives
      obtain rfl : line = other := Option.some.inj (hline.symm.trans hother)
      rw [← pathAttribute?_eq_some_iff, hpath] at hgiven
      exact Option.some.inj hgiven
  · rintro rfl
    exact ⟨j, Nat.lt_succ_self j, ⟨line, hline, pathAttribute?_eq_some_iff.mp hpath⟩,
      fun k hjk hkj => absurd hkj (by omega), fun k hjk hkj => absurd hkj (by omega)⟩

/-! ## The override in front of a line -/

/-- What a scan has done up to a line and on it. -/
theorem scanLines_take {state last : ScanState} {lines : List String}
    {found : List (Option ModuleDecl)} (h : scanLines state lines = .ok (last, found)) {j : Nat}
    {line : String} (hline : lines[j]? = some line) :
    ∃ middle next decl, scanLines state (lines.take j) = .ok (middle, found.take j) ∧
      scanLine middle line.toList = .ok (next, decl) ∧ found[j]? = some decl := by
  induction lines generalizing state found j with
  | nil => simp at hline
  | cons first lines ih =>
    obtain ⟨next, decl, others, hfirst, hrest, rfl⟩ := scanLines_cons_eq_ok h
    cases j with
    | zero =>
      obtain rfl : first = line := by simpa using hline
      exact ⟨state, next, decl, rfl, hfirst, rfl⟩
    | succ j =>
      obtain ⟨middle, next', decl', htake, hstep, hfound⟩ := ih hrest hline
      exact ⟨middle, next', decl', scanLines_cons_of_ok hfirst htake, hstep, hfound⟩

/-- A line is inside an attribute exactly if the scanner has one open there. -/
theorem isInside_iff {lines : List String} {k : Nat} {state : ScanState}
    {found : List (Option ModuleDecl)} (h : scanLines .idle (lines.take k) = .ok (state, found)) :
    IsInside lines k ↔ state.isOpen = true := by
  simp only [IsInside, h, Except.ok.injEq, Prod.mk.injEq]
  cases state <;> simp

/-- The scanner carries the path that reaches the line it is about to read. -/
theorem override_eq_some_iff {lines : List String} {j : Nat} (hj : j ≤ lines.length)
    {state : ScanState} {found : List (Option ModuleDecl)}
    (h : scanLines .idle (lines.take j) = .ok (state, found)) (path : String) :
    state.override = some path ↔ ∃ i, OverrideReaches lines i j path := by
  induction j generalizing state found with
  | zero =>
    obtain ⟨rfl, -⟩ : ScanState.idle = state ∧ [] = found := by simpa [scanLines] using h
    constructor
    · simp [ScanState.override]
    · rintro ⟨i, hreaches⟩
      exact absurd hreaches.before (Nat.not_lt_zero i)
  | succ j ih =>
    have hline : lines[j]? = some lines[j] := List.getElem?_eq_getElem hj
    rw [List.take_add_one, hline, Option.toList_some] at h
    obtain ⟨before, decl, others, hbefore, hstep⟩ := scanLines_concat_eq_ok h
    rw [override_of_scanLine hstep]
    cases hpath : pathAttribute? (stripComment lines[j].toList) with
    | some given => simp [overrideReaches_succ_iff_of_path hline hpath]
    | none =>
      simp only [Option.none_or, overrideReaches_succ_iff hline hpath, exists_and_right,
        isInside_iff hbefore, ← ih (Nat.le_of_succ_le hj) hbefore]
      split_ifs with hclear <;> simp [hclear]

/-- A declaration takes the path that reaches its line, and no path if none does. No declaration is
found while an attribute is open. -/
theorem override_of_declaration {lines : List String} {last : ScanState}
    {found : List (Option ModuleDecl)} (h : scanLines .idle lines = .ok (last, found)) :
    (∀ j decl, found[j]? = some (some decl) →
      (∀ path, decl.override = some path ↔ ∃ i, OverrideReaches lines i j path) ∧
        ((∀ i path, ¬OverrideReaches lines i j path) → decl.override = none)) ∧
      ∀ k decl, IsInside lines k → found[k]? ≠ some (some decl) := by
  have hlines {j : Nat} {decl : ModuleDecl} (hdecl : found[j]? = some (some decl)) :
      ∃ state, scanLines .idle (lines.take j) = .ok (state, found.take j) ∧
        state.isOpen = false ∧ decl.override = state.override ∧ j < lines.length := by
    have hj : j < lines.length := by
      rw [← length_of_scanLines h]
      exact (List.getElem?_eq_some_iff.mp hdecl).1
    obtain ⟨state, next, decl', htake, hstep, hfound⟩ :=
      scanLines_take h (List.getElem?_eq_getElem hj)
    obtain rfl : some decl = decl' := Option.some.inj (hdecl.symm.trans hfound)
    obtain ⟨hopen, -, hparse⟩ := scanLine_eq_some hstep
    exact ⟨state, htake, hopen, (exists_of_parse hparse).1, hj⟩
  refine ⟨fun j decl hdecl => ?_, fun k decl hinside hdecl => ?_⟩
  · obtain ⟨state, htake, -, hoverride, hj⟩ := hlines hdecl
    have hreaches := override_eq_some_iff hj.le htake
    rw [hoverride]
    refine ⟨hreaches, fun hnone => ?_⟩
    cases hpath : state.override with
    | none => rfl
    | some path =>
      obtain ⟨i, hi⟩ := (hreaches path).mp hpath
      exact absurd hi (hnone i path)
  · obtain ⟨state, htake, hopen, -⟩ := hlines hdecl
    rw [isInside_iff htake, hopen] at hinside
    exact Bool.false_ne_true hinside

/-- A path that is given inside of an open attribute takes the place of the one in front of it and
reaches the declaration behind. -/
theorem override_of_declaration_behind_attribute :
    scanLines .idle ["#[path = \"a.rs\"]", "#[cfg(", "mod x;", "#[path = \"b.rs\"] // c", ")]", "",
          "#[inline]", "mod y;"] =
        .ok (.idle, List.replicate 7 none ++ [some ⟨.inherited, "y", some "b.rs"⟩]) ∧
      (∃ i, OverrideReaches ["#[path = \"a.rs\"]", "#[cfg(", "mod x;", "#[path = \"b.rs\"] // c",
          ")]", "", "#[inline]", "mod y;"] i 7 "b.rs") ∧
      ∀ i, ¬OverrideReaches ["#[path = \"a.rs\"]", "#[cfg(", "mod x;", "#[path = \"b.rs\"] // c",
          ")]", "", "#[inline]", "mod y;"] i 7 "a.rs" := by
  have hscan : scanLines .idle ["#[path = \"a.rs\"]", "#[cfg(", "mod x;",
      "#[path = \"b.rs\"] // c", ")]", "", "#[inline]", "mod y;"] =
        .ok (.idle, List.replicate 7 none ++ [some ⟨.inherited, "y", some "b.rs"⟩]) := rfl
  have hpath := ((override_of_declaration hscan).1 7 _ rfl).1
  refine ⟨hscan, (hpath "b.rs").mp rfl, fun i hi => ?_⟩
  have hother := (hpath "a.rs").mpr ⟨i, hi⟩
  exact absurd hother (by decide)

end FlatCrate.Source
