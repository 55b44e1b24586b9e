import FlatCrate.Proofs.Source.Override

/-!
# The grammar of declarations

Code declares a module if it is a visibility, the keyword, a name and a semicolon, where the name is
an ASCII identifier and may be marked as a raw one. Such code can be taken apart in one way only.
Code with a visibility that is restricted to a path is refused, and all other code declares nothing.
-/

namespace FlatCrate.Source

variable {v w : Visibility} {code cs : List Char} {override : Option String} {decl : ModuleDecl}

/-- The letters and the underscore. -/
def IsNameStart (c : Char) : Prop := ('a' ≤ c ∧ c ≤ 'z') ∨ ('A' ≤ c ∧ c ≤ 'Z') ∨ c = '_'

/-- A name made of letters, digits and underscores that does not begin with a digit. -/
def IsAsciiName (name : String) : Prop :=
  ∃ first rest, name.toList = first :: rest ∧ IsNameStart first ∧
    ∀ c ∈ rest, IsNameStart c ∨ ('0' ≤ c ∧ c ≤ '9')

/-- Code that declares a module with a visibility and a name. -/
def Declares (v : Visibility) (name code : String) : Prop :=
  IsAsciiName name ∧ ∃ mark ∈ ["", "r#"], code = v.text ++ "mod " ++ mark ++ name ++ ";"

/-- Code that ends like a declaration and begins with a visibility restricted to a path. -/
def DeclaresInPath (code : String) : Prop :=
  (∃ front, code = front ++ ";") ∧
    ∃ path rest, ')' ∉ path.toList ∧ code = "pub(in " ++ path ++ ") mod " ++ rest

/-! ## Names -/

/-- The first characters of identifiers are the letters and the underscore. -/
theorem isIdentifierStart_iff {c : Char} : isIdentifierStart c = true ↔ IsNameStart c := by
  have hletter : c.isAlpha = (decide ('A' ≤ c ∧ c ≤ 'Z') ||
      decide ('a' ≤ c) && decide (c ≤ 'z')) := rfl
  simp only [isIdentifierStart, IsNameStart, hletter, Bool.or_eq_true, Bool.and_eq_true,
    decide_eq_true_eq, beq_iff_eq, or_assoc, or_left_comm]

/-- The other characters of identifiers are these and the digits. -/
theorem isIdentifierRest_iff {c : Char} :
    isIdentifierRest c = true ↔ IsNameStart c ∨ ('0' ≤ c ∧ c ≤ '9') := by
  rw [isIdentifierRest, Bool.or_eq_true, isIdentifierStart_iff]
  simp only [Char.isDigit, Char.le_def, Bool.and_eq_true, decide_eq_true_eq, ge_iff_le]

/-- The check for identifiers finds the names in ASCII. -/
theorem isIdentifier_iff {name : String} :
    isIdentifier name.toList = true ↔ IsAsciiName name := by
  rw [IsAsciiName]
  cases name.toList with
  | nil => simp [isIdentifier]
  | cons first rest =>
    simp [isIdentifier, isIdentifierStart_iff, isIdentifierRest_iff, List.all_eq_true]

/-- A name is the whole code, or all of it behind the mark of a raw identifier. -/
theorem exists_rawMark (cs : List Char) :
    ∃ mark ∈ ["", "r#"], mark.toList ++ dropRawMark cs = cs := by
  rw [dropRawMark]
  cases hraw : after? "r#".toList cs with
  | none => exact ⟨"", by simp, rfl⟩
  | some rest => exact ⟨"r#", by simp, after?_eq_some hraw⟩

/-- An identifier has no mark that could be dropped. -/
theorem dropRawMark_of_isIdentifier (h : isIdentifier cs = true) : dropRawMark cs = cs := by
  rw [dropRawMark]
  cases hraw : after? "r#".toList cs with
  | none => rfl
  | some rest =>
    have hmark : '#' ∈ cs := after?_eq_some hraw ▸ List.mem_append_left rest (by decide)
    exact absurd (isIdentifierRest_of_isIdentifier h '#' hmark) (by decide)

/-- The mark of raw identifiers is dropped in front of one. -/
theorem dropRawMark_append {mark : String} (hmark : mark ∈ ["", "r#"])
    (h : isIdentifier cs = true) : dropRawMark (mark.toList ++ cs) = cs := by
  simp only [List.mem_cons, List.not_mem_nil, or_false] at hmark
  obtain rfl | rfl := hmark
  · exact dropRawMark_of_isIdentifier h
  · rw [dropRawMark, after?_append_self, Option.getD_some]

/-! ## Visibilities -/

/-- A text that begins otherwise has nothing behind that beginning. -/
theorem after?_eq_none_of_append {start front rest : List Char} (hstart : ¬start <+: front)
    (hfront : ¬front <+: start) : after? start (front ++ rest) = none := by
  rw [after?, if_neg]
  intro h
  have hprefix := List.isPrefixOf_iff_prefix.mp h
  exact (List.prefix_or_prefix_of_prefix hprefix (List.prefix_append front rest)).elim hstart hfront

/-- No visibility begins like another one together with its keyword. -/
theorem opening_prefix_opening_iff : v.opening <+: w.opening ↔ v = w := by
  cases v <;> cases w <;> decide

/-- A visibility is found by its own opening. -/
theorem declared?_opening (v : Visibility) (rest : List Char) :
    v.declared? (v.opening ++ rest) = some (v, dropRawMark rest) := by
  rw [Visibility.declared?, after?_append_self, Option.map_some]

/-- No other visibility is found there. -/
theorem declared?_of_ne (h : v ≠ w) (rest : List Char) :
    v.declared? (w.opening ++ rest) = none := by
  rw [Visibility.declared?, after?_eq_none_of_append, Option.map_none]
  · exact mt opening_prefix_opening_iff.mp h
  · exact mt opening_prefix_opening_iff.mp h.symm

/-- The visibility and the name are found again. -/
theorem findSome?_declared? (v : Visibility) (rest : List Char) :
    Visibility.all.findSome? (·.declared? (v.opening ++ rest)) = some (v, dropRawMark rest) := by
  have hself := declared?_opening v rest
  have hother : ∀ u, u ≠ v → u.declared? (v.opening ++ rest) = none :=
    fun u h => declared?_of_ne h rest
  cases v <;> simp [Visibility.all, hself, hother]

/-- No opening of a visibility has a path in it. -/
theorem hasPathVisibility_opening (v : Visibility) (rest : List Char) :
    hasPathVisibility (v.opening ++ rest) = false := by
  have hopening : ¬"pub(in ".toList <+: v.opening ∧ ¬v.opening <+: "pub(in ".toList := by
    cases v <;> decide
  rw [hasPathVisibility, after?_eq_none_of_append hopening.1 hopening.2]

/-- A visibility is restricted to a path if the path ends at the first parenthesis. -/
theorem hasPathVisibility_iff {body : List Char} : hasPathVisibility body = true ↔
    ∃ path rest, ')' ∉ path ∧ "pub(in ".toList ++ path ++ ") mod ".toList ++ rest = body := by
  rw [hasPathVisibility]
  constructor
  · intro h
    split at h
    · simp at h
    · next behind hbehind =>
      obtain ⟨rest, hrest⟩ := List.isPrefixOf_iff_prefix.mp h
      refine ⟨behind.takeWhile (· != ')'), rest, fun hmem => ?_, ?_⟩
      · simpa using List.mem_takeWhile_imp hmem
      · rw [← after?_eq_some hbehind, List.append_assoc, hrest, List.append_assoc,
          List.takeWhile_append_dropWhile]
  · rintro ⟨path, rest, hpath, rfl⟩
    have hkept : ∀ c ∈ path, (c != ')') = true :=
      fun c hc => bne_iff_ne.mpr fun heq => hpath (heq ▸ hc)
    rw [List.append_assoc, List.append_assoc, after?_append_self]
    simp only [List.dropWhile_append_of_pos hkept]
    rfl

/-! ## Declarations -/

/-- A declaration is refused exactly if its visibility has a path in it. -/
theorem parse_eq_error_iff {e : UnsupportedVisibility} :
    ModuleDecl.parse code override = .error e ↔
      code.getLast? = some ';' ∧ hasPathVisibility code.dropLast = true ∧
        e = ⟨String.ofList code⟩ := by
  rw [ModuleDecl.parse]
  split_ifs with hlast hpath
  · simp [hlast]
  · simp [not_not.mp hlast, hpath, @eq_comm _ e]
  · split
    · simp [hpath]
    · split_ifs <;> simp [hpath]

/-- A declaration that is written out is read back. -/
theorem parse_opening {mark : String} (hmark : mark ∈ ["", "r#"]) (hname : isIdentifier cs = true)
    (v : Visibility) (override : Option String) :
    ModuleDecl.parse (v.opening ++ (mark.toList ++ cs) ++ [';']) override =
      .ok (some ⟨v, String.ofList cs, override⟩) := by
  have hmodule : isModuleName cs = true := by simp [isModuleName, hname]
  have hpath := hasPathVisibility_opening v (mark.toList ++ cs)
  have hfound := findSome?_declared? v (mark.toList ++ cs)
  rw [dropRawMark_append hmark hname] at hfound
  simp only [ModuleDecl.parse, List.getLast?_concat, ne_eq, not_true_eq_false, if_false,
    List.dropLast_concat, hpath, Bool.false_eq_true, hfound, hmodule, if_true]

/-- A declaration ends in a semicolon. -/
theorem getLast?_of_parse_eq_some (h : ModuleDecl.parse code override = .ok (some decl)) :
    code.getLast? = some ';' := by
  by_contra hlast
  rw [ModuleDecl.parse, if_pos hlast] at h
  simp at h

/-- A declaration as it is written, character by character. -/
theorem toList_written (v : Visibility) (mark name : String) :
    (v.text ++ "mod " ++ mark ++ name ++ ";").toList =
      v.opening ++ (mark.toList ++ name.toList) ++ [';'] := by
  simp [Visibility.opening]

/-- Code on one line is read as a declaration exactly if it is written as one. -/
theorem parse_eq_some_iff {code : String} (hline : '\n' ∉ code.toList) :
    ModuleDecl.parse code.toList override = .ok (some decl) ↔
      Declares decl.visibility decl.name code ∧ decl.override = override := by
  constructor
  · intro h
    obtain ⟨hoverride, -, rest, hbody, hname⟩ := exists_of_parse h
    obtain ⟨mark, hmark, hrest⟩ := exists_rawMark rest
    refine ⟨⟨isIdentifier_iff.mp (isIdentifier_of_parse h hline), mark, hmark, ?_⟩, hoverride⟩
    rw [← String.toList_inj, toList_written, hname, hrest, hbody]
    exact (List.dropLast_append_getLast? _ (getLast?_of_parse_eq_some h)).symm
  · rintro ⟨⟨hname, mark, hmark, rfl⟩, rfl⟩
    rw [toList_written, parse_opening hmark (isIdentifier_iff.mpr hname), String.ofList_toList]

/-- A text declares with a path exactly if the check for that finds one. -/
theorem declaresInPath_iff {code : String} : DeclaresInPath code ↔
    code.toList.getLast? = some ';' ∧ hasPathVisibility code.toList.dropLast = true := by
  rw [hasPathVisibility_iff]
  constructor
  · rintro ⟨⟨front, rfl⟩, path, rest, hpath, hcode⟩
    have hchars : front.toList ++ [';'] =
        "pub(in ".toList ++ path.toList ++ ") mod ".toList ++ rest.toList := by
      simpa using congrArg String.toList hcode
    -- the keyword ends with a space, so the semicolon stands in the rest
    obtain hnil | ⟨behind, last, hrest⟩ := List.eq_nil_or_concat rest.toList
    · rw [hnil, List.append_nil] at hchars
      have hlast := congrArg List.getLast? hchars
      rw [List.getLast?_concat, List.getLast?_append_of_ne_nil _ (by decide)] at hlast
      exact absurd hlast (by decide)
    · rw [hrest, List.concat_eq_append, ← List.append_assoc] at hchars
      obtain ⟨hfront, -⟩ := List.append_inj' hchars rfl
      simp only [String.toList_append]
      refine ⟨by simp, path.toList, behind, hpath, ?_⟩
      rw [← hfront]
      simp
  · rintro ⟨hlast, path, rest, hpath, hbody⟩
    have hcode : code.toList = code.toList.dropLast ++ [';'] :=
      (List.dropLast_append_getLast? _ hlast).symm
    refine ⟨⟨String.ofList code.toList.dropLast, ?_⟩, String.ofList path,
      String.ofList (rest ++ [';']), by simpa using hpath, ?_⟩
    · rw [← String.toList_inj, hcode]
      simp
    · rw [← String.toList_inj, hcode, ← hbody]
      simp

/-- How code on one line is read. It is a declaration exactly if it is written as one, with the
visibility, the name and the given override; it is written so in one way only. It is refused exactly
if it ends with a semicolon and begins with a restricted visibility and the keyword. Otherwise it is
nothing. And every declaration is read back from its header, with a semicolon for the brace. -/
theorem parse_iff_declares {code : String} (hline : '\n' ∉ code.toList)
    (override : Option String) :
    let read := ModuleDecl.parse code.toList override
    (∀ decl, read = .ok (some decl) ↔
      Declares decl.visibility decl.name code ∧ decl.override = override) ∧
    (∀ v name w other, Declares v name code → Declares w other code → v = w ∧ name = other) ∧
    (∀ e, read = .error e ↔ DeclaresInPath code ∧ e = ⟨code⟩) ∧
    (read = .ok none ↔ (∀ v name, ¬Declares v name code) ∧ ¬DeclaresInPath code) ∧
    ∀ decl : ModuleDecl, IsAsciiName decl.name → ∃ front, decl.header = front ++ " \x7b" ∧
      ModuleDecl.parse (front ++ ";").toList decl.override = .ok (some decl) := by
  intro read
  have hsome : ∀ decl, read = .ok (some decl) ↔
      Declares decl.visibility decl.name code ∧ decl.override = override :=
    fun decl => parse_eq_some_iff hline
  have herror : ∀ e, read = .error e ↔ DeclaresInPath code ∧ e = ⟨code⟩ := by
    intro e
    rw [declaresInPath_iff, and_assoc, parse_eq_error_iff, String.ofList_toList]
  refine ⟨hsome, fun v name w other hfirst hsecond => ?_, herror, ?_, fun decl hname => ?_⟩
  · have hread := (hsome ⟨v, name, override⟩).mpr ⟨hfirst, rfl⟩
    rw [(hsome ⟨w, other, override⟩).mpr ⟨hsecond, rfl⟩] at hread
    simpa [eq_comm] using hread
  · constructor
    · intro hnone
      refine ⟨fun v name hdeclares => ?_, fun hpath => ?_⟩
      · simpa [hnone] using (hsome ⟨v, name, override⟩).mpr ⟨hdeclares, rfl⟩
      · simpa [hnone] using (herror ⟨code⟩).mpr ⟨hpath, rfl⟩
    · rintro ⟨hnot, hpath⟩
      cases hread : read with
      | error e => exact absurd ((herror e).mp hread).1 hpath
      | ok found =>
        cases found with
        | none => rfl
        | some decl => exact absurd ((hsome decl).mp hread).1 (hnot _ _)
  · refine ⟨decl.visibility.text ++ "mod " ++ decl.name, rfl, ?_⟩
    have hfront : decl.visibility.text ++ "mod " ++ decl.name ++ ";" =
        decl.visibility.text ++ "mod " ++ "" ++ decl.name ++ ";" := by
      rw [String.append_empty]
    rw [hfront, toList_written, parse_opening (by simp) (isIdentifier_iff.mpr hname),
      String.ofList_toList]

/-- A raw identifier loses its mark, and the override comes with the declaration. -/
theorem parse_raw_declaration :
    let code := "pub(crate) mod r#try;"
    '\n' ∉ code.toList ∧ Declares .inCrate "try" code ∧ ¬DeclaresInPath code ∧
      ModuleDecl.parse code.toList (some "x.rs") = .ok (some ⟨.inCrate, "try", some "x.rs"⟩) := by
  intro code
  have hline : '\n' ∉ code.toList := by decide
  obtain ⟨hsome, -, herror, -, -⟩ := parse_iff_declares hline (some "x.rs")
  have hread : ModuleDecl.parse code.toList (some "x.rs") =
      .ok (some ⟨.inCrate, "try", some "x.rs"⟩) := by decide
  refine ⟨hline, ((hsome _).mp hread).1, fun hpath => ?_, hread⟩
  simpa [hread] using (herror ⟨code⟩).mpr ⟨hpath, rfl⟩

end FlatCrate.Source
