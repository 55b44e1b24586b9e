import FlatCrate.Proofs.Source.Joined

/-!
# Attributes over several lines

An attribute over several lines is open from its first line on, and no declaration is found while it
is open. It ends at the first line whose code ends in a bracket, unless that line begins like an
attribute itself: the scanner takes such a line for an attribute without asking whether another one
is open. The line may give another path, but it leaves the open attribute open, and so the
declarations behind it are not found.
-/

namespace FlatCrate.Source

/-! ## The kind of a line -/

/-- Only code that begins like an attribute gives a path. -/
theorem isPrefix_of_pathAttribute? {code : List Char} {path : String}
    (h : pathAttribute? code = some path) : "#[".toList <+: code := by
  rw [pathAttribute?] at h
  split at h
  · simp at h
  · next rest hafter =>
    rw [after?] at hafter
    split_ifs at hafter with hstart
    exact List.IsPrefix.trans (by decide) (List.isPrefixOf_iff_prefix.mp hstart)

/-- A text with a character that is not blank is not blank. -/
theorem allBlank_eq_false_of_mem {cs : List Char} {c : Char} (hmem : c ∈ cs)
    (hc : Text.isBlank c = false) : Text.allBlank cs = false := by
  rw [← Bool.not_eq_true]
  intro hblank
  rw [List.all_eq_true.mp hblank c hmem] at hc
  exact Bool.noConfusion hc

/-- The path of a line is found by its kind. -/
theorem pathAttribute?_eq (code : List Char) :
    pathAttribute? code = match LineKind.of code with
      | .override path => some path
      | _ => none := by
  rw [LineKind.of]
  cases hpath : pathAttribute? code with
  | some path =>
    have hblank : Text.allBlank code = false :=
      allBlank_eq_false_of_mem ((isPrefix_of_pathAttribute? hpath).subset List.mem_cons_self)
        (by decide)
    rw [hblank, if_neg Bool.false_ne_true]
  | none => split_ifs <;> rfl

/-- A line of code is not blank and does not begin like an attribute. -/
theorem kind_eq_code_iff {code : List Char} :
    LineKind.of code = .code ↔ Text.allBlank code = false ∧ ¬"#[".toList <+: code := by
  rw [LineKind.of]
  cases hblank : Text.allBlank code with
  | true => simp
  | false =>
    rw [if_neg Bool.false_ne_true, ← List.isPrefixOf_iff_prefix]
    cases hpath : pathAttribute? code with
    | some path => simpa using List.isPrefixOf_iff_prefix.mpr (isPrefix_of_pathAttribute? hpath)
    | none =>
      cases "#[".toList.isPrefixOf code with
      | true => by_cases hend : code.getLast? = some ']' <;> simp [hend]
      | false => simp

/-! ## Open attributes -/

/-- Whether the code of a line begins as an attribute does. -/
def BeginsAttribute (line : List Char) : Prop := "#[".toList <+: stripComment line

/-- A line at which an open attribute ends: its code ends in a bracket, and it does not begin like
an attribute itself. -/
def EndsAttribute (line : List Char) : Prop := EndsInBracket line ∧ ¬BeginsAttribute line

instance (line : List Char) : Decidable (BeginsAttribute line) :=
  inferInstanceAs (Decidable (_ <+: _))

instance (line : List Char) : Decidable (EndsAttribute line) :=
  inferInstanceAs (Decidable (_ ∧ _))

/-- A line ends an attribute exactly if it is code and ends in a bracket. -/
theorem endsAttribute_iff {line : List Char} :
    EndsAttribute line ↔ IsCodeLine line ∧ EndsInBracket line := by
  rw [IsCodeLine, kind_eq_code_iff, EndsAttribute, BeginsAttribute]
  constructor
  · rintro ⟨hends, hbegins⟩
    exact ⟨⟨allBlank_eq_false_of_mem (List.mem_of_getLast? hends) (by decide), hbegins⟩, hends⟩
  · rintro ⟨⟨-, hbegins⟩, hends⟩
    exact ⟨hends, hbegins⟩

/-- The override that an open attribute carries behind some of its lines: the path that the last
path attribute among them gives, or else the override from before. -/
def overrideBehind (override : Option String) (lines : List String) : Option String :=
  (lines.filterMap fun line => pathAttribute? (stripComment line.toList)).getLast?.or override

/-- A path attribute of the first line counts if no later line has one. -/
theorem overrideBehind_cons (override : Option String) (line : String) (lines : List String) :
    overrideBehind override (line :: lines) =
      overrideBehind ((pathAttribute? (stripComment line.toList)).or override) lines := by
  rw [overrideBehind, overrideBehind, List.filterMap_cons]
  cases pathAttribute? (stripComment line.toList) with
  | none => rfl
  | some path =>
    rw [List.getLast?_cons, Option.some_or]
    cases List.getLast? _ <;> rfl

/-- A path attribute of the last line counts. -/
theorem overrideBehind_concat (override : Option String) (lines : List String) (line : String) :
    overrideBehind override (lines ++ [line]) =
      (pathAttribute? (stripComment line.toList)).or (overrideBehind override lines) := by
  rw [overrideBehind, overrideBehind, List.filterMap_append, List.getLast?_append]
  cases hpath : pathAttribute? (stripComment line.toList) <;> simp [hpath]

/-- What one line does to an open attribute. -/
theorem scanLine_inAttribute (override : Option String) (line : List Char) :
    scanLine (.inAttribute override) line =
      .ok (if EndsAttribute line then .ofOverride override
        else .inAttribute ((pathAttribute? (stripComment line)).or override), none) := by
  rw [scanLine_eq, pathAttribute?_eq]
  cases hkind : LineKind.of (stripComment line) with
  | code =>
    by_cases hends : EndsInBracket line
    · have hlast : (stripComment line).getLast? = some ']' := hends
      rw [if_pos (endsAttribute_iff.mpr ⟨hkind, hends⟩)]
      simp [hlast, ScanState.override]
    · have hlast : ¬(stripComment line).getLast? = some ']' := hends
      have hopen : ¬EndsAttribute line := fun h => hends h.1
      simp [hlast, hopen]
  | _ =>
    have hopen : ¬EndsAttribute line := by
      intro h
      rw [(endsAttribute_iff.mp h).1] at hkind
      exact LineKind.noConfusion hkind
    rw [if_neg hopen]
    rfl

/-- As long as no line ends it, an attribute stays open, and nothing is found. -/
theorem scanLines_inAttribute {lines : List String} (h : ∀ line ∈ lines, ¬EndsAttribute line.toList)
    (override : Option String) :
    scanLines (.inAttribute override) lines =
      .ok (.inAttribute (overrideBehind override lines), List.replicate lines.length none) := by
  induction lines generalizing override with
  | nil => rfl
  | cons line lines ih =>
    rw [List.forall_mem_cons] at h
    have hline := scanLine_inAttribute override line.toList
    rw [if_neg h.1] at hline
    rw [overrideBehind_cons]
    exact scanLines_cons_of_ok hline (ih h.2 _)

/-- An open attribute ends exactly at the first line whose code ends in a bracket without beginning
like an attribute. The scanner then is idle, or the path is pending that the attribute carries, and
the lines behind are scanned as if there had been no attribute. -/
theorem attribute_ends_at_line {before inside : List String} {line : String}
    {override : Option String} {found : List (Option ModuleDecl)}
    (hbefore : scanLines .idle before = .ok (.inAttribute override, found))
    (hinside : ∀ other ∈ inside, ¬EndsAttribute other.toList) :
    scanLines .idle (before ++ inside) =
        .ok (.inAttribute (overrideBehind override inside),
          found ++ List.replicate inside.length none) ∧
      scanLines .idle (before ++ inside ++ [line]) =
        .ok (if EndsAttribute line.toList then .ofOverride (overrideBehind override inside)
            else .inAttribute (overrideBehind override (inside ++ [line])),
          found ++ List.replicate (inside.length + 1) none) ∧
      (EndsAttribute line.toList → ∀ rest,
        declarations (before ++ inside ++ line :: rest) =
          (declarationsFrom (.ofOverride (overrideBehind override inside)) rest).map
            (found.reduceOption ++ ·)) := by
  have hopen := scanLines_append hbefore (scanLines_inAttribute hinside override)
  have hline := scanLine_inAttribute (overrideBehind override inside) line.toList
  rw [← overrideBehind_concat] at hline
  have hlast : scanLines (.inAttribute (overrideBehind override inside)) [line] = .ok (_, [none]) :=
    scanLines_cons_of_ok hline rfl
  have hbehind := scanLines_append hopen hlast
  rw [List.append_assoc found, ← List.replicate_succ'] at hbehind
  refine ⟨hopen, hbehind, fun hends rest => ?_⟩
  rw [if_pos hends] at hbehind
  rw [List.append_cons, declarations, declarationsFrom_append_of_ok hbehind,
    List.reduceOption_append, List.reduceOption_replicate_none, List.append_nil]

/-- A path in the attribute replaces the one in front of it, and an attribute on one line leaves it
open. -/
theorem attribute_ends_at_parenthesis :
    scanLines .idle ["#[path = \"a.rs\"]", "#[cfg("] =
        .ok (.inAttribute (some "a.rs"), [none, none]) ∧
      (∀ other ∈ ["#[path = \"b.rs\"]", "mod x;", "#[inline]"], ¬EndsAttribute other.toList) ∧
      EndsAttribute ")] // end".toList ∧
      declarations ["#[path = \"a.rs\"]", "#[cfg(", "#[path = \"b.rs\"]", "mod x;", "#[inline]",
          ")] // end", "mod y;"] =
        .ok [⟨.inherited, "y", some "b.rs"⟩] := by
  have hbefore : scanLines .idle ["#[path = \"a.rs\"]", "#[cfg("] =
      .ok (.inAttribute (some "a.rs"), [none, none]) := rfl
  have hinside : ∀ other ∈ ["#[path = \"b.rs\"]", "mod x;", "#[inline]"],
      ¬EndsAttribute other.toList := by decide
  have hline : EndsAttribute ")] // end".toList := by decide
  exact ⟨hbefore, hinside, hline, (attribute_ends_at_line hbefore hinside).2.2 hline ["mod y;"]⟩

/-- An attribute on one line ends in a bracket and does not end an open attribute, nor does a path
attribute, and the declarations behind them are not found. -/
theorem attribute_open_behind_bracket :
    scanLines .idle ["#[cfg("] = .ok (.inAttribute none, [none]) ∧
      EndsInBracket "#[inline]".toList ∧
      scanLines .idle ["#[cfg(", "#[inline]"] = .ok (.inAttribute none, [none, none]) ∧
      declarations ["#[cfg(", "#[inline]", "mod z;"] = .ok [] ∧
      declarations ["#[cfg(", ")]", "mod z;"] = .ok [⟨.inherited, "z", none⟩] ∧
      EndsInBracket "#[path = \"x.rs\"]".toList ∧
      declarations ["#[cfg(", "#[path = \"x.rs\"]", "mod y;"] = .ok [] :=
  ⟨rfl, by decide, rfl, rfl, rfl, by decide, rfl⟩

end FlatCrate.Source
