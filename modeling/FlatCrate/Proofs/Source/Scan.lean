import FlatCrate.Proofs.Text.Lines
import FlatCrate.Source.Scan

/-!
# Scanning lines one after the other

The scanner is run over a list of lines, and its single step is turned around: what must hold of a
line on which a declaration is found, and when no declaration can be found. A scan that is inside of
an attribute more often finds no more declarations; what it may lose is only the paths of overrides.
-/

namespace FlatCrate.Source

/-- The state after some lines and the declaration found on each of them. -/
def scanLines : ScanState → List String →
    Except UnsupportedVisibility (ScanState × List (Option ModuleDecl))
  | state, [] => .ok (state, [])
  | state, line :: rest =>
    match scanLine state line.toList with
    | .error e => .error e
    | .ok (next, decl) => (scanLines next rest).map fun scan => (scan.1, decl :: scan.2)

/-- Scanning goes on behind a line that is accepted. -/
theorem scanLines_cons_of_ok {state next last : ScanState} {line : String} {rest : List String}
    {decl : Option ModuleDecl} {found : List (Option ModuleDecl)}
    (hline : scanLine state line.toList = .ok (next, decl))
    (hrest : scanLines next rest = .ok (last, found)) :
    scanLines state (line :: rest) = .ok (last, decl :: found) := by
  simp only [scanLines, hline, hrest, Except.map]

/-- What a scan has done with its first line. -/
theorem scanLines_cons_eq_ok {state last : ScanState} {line : String} {rest : List String}
    {found : List (Option ModuleDecl)} (h : scanLines state (line :: rest) = .ok (last, found)) :
    ∃ next decl others, scanLine state line.toList = .ok (next, decl) ∧
      scanLines next rest = .ok (last, others) ∧ found = decl :: others := by
  cases hline : scanLine state line.toList with
  | error e => simp [scanLines, hline] at h
  | ok scan =>
    obtain ⟨next, decl⟩ := scan
    cases hrest : scanLines next rest with
    | error e => simp [scanLines, hline, hrest, Except.map] at h
    | ok scan =>
      obtain ⟨last', others⟩ := scan
      obtain ⟨rfl, rfl⟩ : last' = last ∧ decl :: others = found := by
        simpa [scanLines, hline, hrest, Except.map] using h
      exact ⟨next, decl, others, rfl, hrest, rfl⟩

/-- Scanning some lines after others. -/
theorem scanLines_append {state next last : ScanState} {first rest : List String}
    {found others : List (Option ModuleDecl)} (hfirst : scanLines state first = .ok (next, found))
    (hrest : scanLines next rest = .ok (last, others)) :
    scanLines state (first ++ rest) = .ok (last, found ++ others) := by
  induction first generalizing state found with
  | nil =>
    obtain ⟨rfl, rfl⟩ : state = next ∧ [] = found := by simpa [scanLines] using hfirst
    exact hrest
  | cons line first ih =>
    obtain ⟨middle, decl, found', hline, hfirst', rfl⟩ := scanLines_cons_eq_ok hfirst
    exact scanLines_cons_of_ok hline (ih hfirst')

/-- Every line that is scanned has its answer. -/
theorem length_of_scanLines {state last : ScanState} {lines : List String}
    {found : List (Option ModuleDecl)} (h : scanLines state lines = .ok (last, found)) :
    found.length = lines.length := by
  induction lines generalizing state found with
  | nil =>
    obtain ⟨-, rfl⟩ : state = last ∧ [] = found := by simpa [scanLines] using h
    rfl
  | cons line lines ih =>
    obtain ⟨next, decl, others, -, hrest, rfl⟩ := scanLines_cons_eq_ok h
    rw [List.length_cons, List.length_cons, ih hrest]

/-! ## The code of a line -/

/-- What stands before a comment is part of the line. -/
theorem mem_of_mem_beforeComment? {line code : List Char} {c : Char}
    (h : beforeComment? line = some code) (hc : c ∈ code) : c ∈ line := by
  fun_induction beforeComment? line generalizing code with
  | case1 rest =>
    obtain rfl : [] = code := by simpa using h
    simp at hc
  | case2 => simp at h
  | case3 d rest _ ih =>
    obtain ⟨front, hfront, rfl⟩ := Option.map_eq_some_iff.mp h
    rcases List.mem_cons.mp hc with rfl | hc
    · exact List.mem_cons_self
    · exact List.mem_cons_of_mem _ (ih hfront hc)

/-- Trimming adds no character. -/
theorem mem_of_mem_trim {cs : List Char} {c : Char} (h : c ∈ Text.trim cs) : c ∈ cs := by
  rw [Text.trim, Text.trimEnd, List.mem_reverse] at h
  have hstart := List.mem_reverse.mp ((List.dropWhile_suffix _).mem h)
  exact (List.dropWhile_suffix _).mem hstart

/-- The code of a line is made of the line. -/
theorem mem_of_mem_stripComment {line : List Char} {c : Char} (h : c ∈ stripComment line) :
    c ∈ line := by
  rw [stripComment] at h
  split at h
  · exact h
  · next code hcode => exact mem_of_mem_beforeComment? hcode (mem_of_mem_trim h)

/-- A line without a slash is its own code. -/
theorem stripComment_of_notMem {line : List Char} (h : '/' ∉ line) : stripComment line = line := by
  have hnone : beforeComment? line = none := by
    fun_induction beforeComment? line with
    | case1 rest => simp at h
    | case2 => rfl
    | case3 d rest _ ih =>
      rw [List.mem_cons, not_or] at h
      rw [ih h.2, Option.map_none]
  rw [stripComment, hnone]

/-! ## Lines with and without declarations -/

/-- Only code that ends in a semicolon is a declaration or refused. -/
theorem parse_of_getLast?_ne {code : List Char} (h : code.getLast? ≠ some ';')
    (override : Option String) : ModuleDecl.parse code override = .ok none := by
  rw [ModuleDecl.parse, if_pos h]

/-- Whether a line is a declaration does not depend on the path that it would take. -/
theorem parse_ok_none {code : List Char} {override : Option String}
    (h : ModuleDecl.parse code override = .ok none) (other : Option String) :
    ModuleDecl.parse code other = .ok none := by
  rw [ModuleDecl.parse] at h ⊢
  split_ifs at h ⊢
  · rfl
  · cases hfound : Visibility.all.findSome? (·.declared? code.dropLast) with
    | none => rfl
    | some found =>
      obtain ⟨visibility, name⟩ := found
      by_cases hname : isModuleName name
      · simp [hfound, hname] at h
      · simp [hname]

/-- Whether an attribute is open. -/
def ScanState.isOpen : ScanState → Bool
  | .inAttribute _ => true
  | _ => false

/-- No attribute is open in the beginning. -/
@[simp] theorem ScanState.isOpen_idle : ScanState.idle.isOpen = false := rfl

/-- No attribute is open when a path is pending. -/
@[simp] theorem ScanState.isOpen_pending (path : String) :
    (ScanState.pending path).isOpen = false := rfl

/-- An attribute is open inside it. -/
@[simp] theorem ScanState.isOpen_inAttribute (path : Option String) :
    (ScanState.inAttribute path).isOpen = true := rfl

/-- No attribute is open behind an override. -/
@[simp] theorem ScanState.isOpen_ofOverride (override : Option String) :
    (ScanState.ofOverride override).isOpen = false := by
  cases override <;> rfl

/-- What the scanner tells apart before it looks for declarations. -/
inductive LineKind
  | blank
  /-- A path attribute. -/
  | override (path : String)
  /-- The first line of an attribute over several lines. -/
  | opening
  /-- An attribute on one line. -/
  | whole
  | code

/-- What some code is to the scanner. -/
def LineKind.of (code : List Char) : LineKind :=
  if Text.allBlank code then .blank
  else match pathAttribute? code with
    | some path => .override path
    | none =>
      if "#[".toList.isPrefixOf code then
        if code.getLast? = some ']' then .whole else .opening
      else .code

/-- The step of the scanner by the kind of the line. -/
theorem scanLine_eq (state : ScanState) (line : List Char) :
    scanLine state line = match LineKind.of (stripComment line) with
      | .blank => .ok (state, none)
      | .override path =>
        .ok (if state.isOpen then .inAttribute (some path) else .pending path, none)
      | .opening => .ok (.inAttribute state.override, none)
      | .whole => .ok (state, none)
      | .code =>
        if state.isOpen then
          .ok (if (stripComment line).getLast? = some ']' then .ofOverride state.override
            else state, none)
        else (ModuleDecl.parse (stripComment line) state.override).map fun decl =>
          (.idle, decl) := by
  simp only [scanLine, LineKind.of]
  by_cases hblank : Text.allBlank (stripComment line)
  · rw [if_pos hblank, if_pos hblank]
  rw [if_neg hblank, if_neg hblank]
  cases hpath : pathAttribute? (stripComment line) with
  | some path => cases state <;> rfl
  | none =>
    cases hattribute : "#[".toList.isPrefixOf (stripComment line) with
    | true =>
      rw [if_pos rfl, if_pos rfl]
      by_cases hend : (stripComment line).getLast? = some ']'
      · rw [if_pos hend, if_pos hend]
      · rw [if_neg hend, if_neg hend]
    | false =>
      rw [if_neg Bool.false_ne_true, if_neg Bool.false_ne_true]
      cases state with
      | inAttribute path =>
        by_cases hend : (stripComment line).getLast? = some ']'
        · simp [hend, ScanState.override]
        · simp [hend]
      | _ => rfl

/-- A declaration is found outside of attributes only, on a line that is one. -/
theorem scanLine_eq_some {state next : ScanState} {line : List Char} {decl : ModuleDecl}
    (h : scanLine state line = .ok (next, some decl)) :
    state.isOpen = false ∧ next = .idle ∧
      ModuleDecl.parse (stripComment line) state.override = .ok (some decl) := by
  rw [scanLine_eq] at h
  cases hkind : LineKind.of (stripComment line) with
  | code =>
    cases hopen : state.isOpen with
    | true => simp [hkind, hopen] at h
    | false =>
      cases hcode : ModuleDecl.parse (stripComment line) state.override with
      | error e => simp [hkind, hopen, hcode, Except.map] at h
      | ok found =>
        obtain ⟨rfl, rfl⟩ : ScanState.idle = next ∧ found = some decl := by
          simpa [hkind, hopen, hcode, Except.map] using h
        exact ⟨rfl, rfl, rfl⟩
  | _ => simp [hkind] at h

/-- No declaration is found on a line whose code does not end in a semicolon. -/
theorem scanLine_of_getLast?_ne {line : List Char} (h : (stripComment line).getLast? ≠ some ';')
    (state : ScanState) : ∃ next, scanLine state line = .ok (next, none) := by
  rw [scanLine_eq, parse_of_getLast?_ne h]
  cases LineKind.of (stripComment line) with
  | code => cases state.isOpen <;> exact ⟨_, rfl⟩
  | _ => exact ⟨_, rfl⟩

/-- Where one scan finds no declaration, another one finds none either if it is inside of an
attribute whenever the first one is; and so it is behind the line. -/
theorem scanLine_of_isOpen_imp {state other next : ScanState} {line : List Char}
    (hopen : state.isOpen = true → other.isOpen = true)
    (h : scanLine state line = .ok (next, none)) :
    ∃ next', scanLine other line = .ok (next', none) ∧
      (next.isOpen = true → next'.isOpen = true) := by
  rw [scanLine_eq] at h ⊢
  cases hkind : LineKind.of (stripComment line) with
  | blank =>
    obtain rfl : state = next := by simpa [hkind] using h
    exact ⟨other, rfl, hopen⟩
  | override path =>
    obtain rfl : _ = next := by simpa [hkind] using h
    refine ⟨_, rfl, fun hnext => ?_⟩
    cases hstate : state.isOpen with
    | false =>
      rw [hstate, if_neg Bool.false_ne_true] at hnext
      simp at hnext
    | true => rw [if_pos (hopen hstate), ScanState.isOpen_inAttribute]
  | opening => exact ⟨_, rfl, fun _ => rfl⟩
  | whole =>
    obtain rfl : state = next := by simpa [hkind] using h
    exact ⟨other, rfl, hopen⟩
  | code =>
    simp only [hkind] at h ⊢
    cases hstate : state.isOpen with
    | true =>
      obtain rfl : _ = next := by simpa [hstate] using h
      rw [if_pos (hopen hstate)]
      refine ⟨_, rfl, fun hnext => ?_⟩
      by_cases hend : (stripComment line).getLast? = some ']'
      · simp [hend] at hnext
      · simpa [hend] using hopen hstate
    | false =>
      cases hcode : ModuleDecl.parse (stripComment line) state.override with
      | error e => simp [hstate, hcode, Except.map] at h
      | ok found =>
        obtain ⟨rfl, rfl⟩ : ScanState.idle = next ∧ found = none := by
          simpa [hstate, hcode, Except.map] using h
        rw [parse_ok_none hcode]
        cases other.isOpen <;> exact ⟨_, rfl, fun hnext => absurd hnext Bool.false_ne_true⟩

end FlatCrate.Source
