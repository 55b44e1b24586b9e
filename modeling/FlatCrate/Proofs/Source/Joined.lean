import FlatCrate.Proofs.Source.Scan
import Mathlib.Data.List.TakeWhile
import Mathlib.Data.List.ReduceOption

/-!
# An attribute in front of its item

An attribute may stand on a line of its own or in front of its item, and both mean the same. To the
scanner they do not: it looks at how a line begins and ends. An item behind an attribute is taken
for the middle of an attribute that is still open, or it is not looked at, since the path of a path
attribute has been found already. So no declaration is found there, and the state behind the line is
a different one, which the lines that follow bring to light.
-/

namespace FlatCrate.Source

/-! ## Trimming the end -/

/-- Nothing is left of a blank text when its end is trimmed. -/
theorem trimEnd_eq_nil {cs : List Char} (h : Text.allBlank cs = true) : Text.trimEnd cs = [] := by
  have hall : ∀ c ∈ cs.reverse, Text.isBlank c = true := by
    simpa [Text.allBlank] using h
  rw [Text.trimEnd, List.dropWhile_eq_nil_iff.mpr hall, List.reverse_nil]

/-- Trimming does not get past a text that is not blank. -/
theorem trimEnd_append {first second : List Char} (h : Text.allBlank second = false) :
    Text.trimEnd (first ++ second) = first ++ Text.trimEnd second := by
  have hkept : second.reverse.dropWhile Text.isBlank ≠ [] := by
    intro hnil
    have hall : ∀ c ∈ second, Text.isBlank c = true := by
      simpa using List.dropWhile_eq_nil_iff.mp hnil
    rw [Text.allBlank, List.all_eq_true.mpr hall] at h
    exact Bool.noConfusion h
  rw [Text.trimEnd, List.reverse_append, List.dropWhile_append, if_neg (by simpa using hkept),
    List.reverse_append, List.reverse_reverse, Text.trimEnd]

/-! ## The code of a joined line -/

/-- A line that is an attribute from its first character to its last one. If it gives a path, the
path has an end. -/
structure IsAttributeLine (line : List Char) : Prop where
  begins : "#[".toList.isPrefixOf line = true
  ends : line.getLast? = some ']'
  closed : ∀ rest ∈ after? "#[path = \"".toList line, '"' ∈ rest

instance (line : List Char) : Decidable (IsAttributeLine line) :=
  decidable_of_iff ("#[".toList.isPrefixOf line = true ∧ line.getLast? = some ']' ∧
      ∀ rest ∈ after? "#[path = \"".toList line, '"' ∈ rest)
    ⟨fun ⟨hbegins, hends, hclosed⟩ => ⟨hbegins, hends, hclosed⟩,
      fun h => ⟨h.begins, h.ends, h.closed⟩⟩

/-- A line with code that does not begin an attribute. -/
def IsCodeLine (line : List Char) : Prop := LineKind.of (stripComment line) = .code

/-- Whether the code of a line ends as an attribute does. -/
def EndsInBracket (line : List Char) : Prop := (stripComment line).getLast? = some ']'

instance (line : List Char) : Decidable (EndsInBracket line) :=
  inferInstanceAs (Decidable (_ = _))

variable {mark item : List Char}

/-- A comment in the first of two lines takes the second one, too. -/
theorem beforeComment?_append_of_some {code : List Char} (h : beforeComment? mark = some code)
    (item : List Char) : beforeComment? (mark ++ item) = some code := by
  fun_induction beforeComment? mark generalizing code with
  | case1 rest =>
    obtain rfl : [] = code := by simpa using h
    rw [List.cons_append, List.cons_append, beforeComment?]
  | case2 => simp at h
  | case3 c rest hstart ih =>
    obtain ⟨front, hfront, rfl⟩ := Option.map_eq_some_iff.mp h
    rw [List.cons_append, beforeComment?, ih hfront]
    · rfl
    · rintro more rfl hmore
      cases rest with
      | nil => simp [beforeComment?] at hfront
      | cons d rest =>
        obtain ⟨rfl, -⟩ := List.cons.inj hmore
        exact hstart rest rfl rfl

/-- No comment begins where two lines are joined by a space. -/
theorem beforeComment?_join (h : beforeComment? mark = none) (item : List Char) :
    beforeComment? (mark ++ ' ' :: item) =
      (beforeComment? item).map fun code => mark ++ ' ' :: code := by
  fun_induction beforeComment? mark with
  | case1 rest => simp at h
  | case2 =>
    rw [List.nil_append, beforeComment?]
    · rfl
    · simp
  | case3 c rest hstart ih =>
    rw [List.cons_append, beforeComment?, ih (by simpa using h), Option.map_map]
    · rfl
    · rintro more rfl hmore
      cases rest with
      | nil => simp at hmore
      | cons d rest =>
        obtain ⟨rfl, -⟩ := List.cons.inj hmore
        exact hstart rest rfl rfl

/-- An attribute begins with its sign. -/
theorem IsAttributeLine.exists_eq_cons (h : IsAttributeLine mark) :
    ∃ rest, mark = '#' :: rest := by
  obtain ⟨rest, hrest⟩ := List.isPrefixOf_iff_prefix.mp h.begins
  exact ⟨'[' :: rest, hrest.symm⟩

/-- The code of a joined line has the first line in front of the code of the second one, with blanks
between them. -/
theorem stripComment_join (hmark : IsAttributeLine mark) (h : beforeComment? mark = none)
    (hitem : Text.allBlank (stripComment item) = false) :
    ∃ gap, stripComment (mark ++ ' ' :: item) = mark ++ (gap ++ stripComment item) := by
  have hjoin := beforeComment?_join h item
  cases hcomment : beforeComment? item with
  | none =>
    rw [hcomment, Option.map_none] at hjoin
    refine ⟨[' '], ?_⟩
    simp only [stripComment, hjoin, hcomment, List.singleton_append]
  | some code =>
    rw [hcomment, Option.map_some] at hjoin
    simp only [stripComment, hjoin, hcomment] at hitem ⊢
    have hcode : Text.allBlank (Text.trimStart code) = false := by
      rw [← Bool.not_eq_true]
      intro hblank
      rw [Text.trim, trimEnd_eq_nil hblank] at hitem
      exact Bool.noConfusion hitem
    have hstart : Text.trimStart (mark ++ ' ' :: code) = mark ++ ' ' :: code := by
      obtain ⟨rest, rfl⟩ := hmark.exists_eq_cons
      exact List.dropWhile_cons_of_neg (by decide)
    have hsplit : mark ++ ' ' :: code =
        (mark ++ ' ' :: code.takeWhile Text.isBlank) ++ Text.trimStart code := by
      rw [Text.trimStart, List.append_assoc, List.cons_append, List.takeWhile_append_dropWhile]
    refine ⟨' ' :: code.takeWhile Text.isBlank, ?_⟩
    rw [Text.trim, hstart, hsplit, trimEnd_append hcode, List.append_assoc, ← Text.trim]

/-- A beginning without a bracket is not found any further in a longer text, if the shorter one ends
in the bracket. -/
theorem after?_append {start : List Char} (hstart : ']' ∉ start) (hmark : mark.getLast? = some ']')
    (rest : List Char) : after? start (mark ++ rest) = (after? start mark).map (· ++ rest) := by
  have hsame : start.isPrefixOf (mark ++ rest) = start.isPrefixOf mark := by
    rw [Bool.eq_iff_iff, List.isPrefixOf_iff_prefix, List.isPrefixOf_iff_prefix]
    refine ⟨fun h => ?_, fun h => h.trans (List.prefix_append mark rest)⟩
    obtain hshort | hlong := List.prefix_or_prefix_of_prefix h (List.prefix_append mark rest)
    · exact hshort
    · exact absurd (hlong.mem (List.mem_of_getLast? hmark)) hstart
  rw [after?, after?, hsame]
  split_ifs with h
  · have hlength := (List.isPrefixOf_iff_prefix.mp h).length_le
    rw [Option.map_some, List.drop_append_of_le_length hlength]
  · rfl

/-- A path ends at its quote. -/
theorem takeWhile_ne_quote {path : List Char} (h : '"' ∉ path) (more : List Char) :
    (path ++ '"' :: more).takeWhile (· != '"') = path := by
  rw [List.takeWhile_append_of_pos, List.takeWhile_cons_of_neg (by simp), List.append_nil]
  exact fun c hc => bne_iff_ne.mpr fun heq => h (heq ▸ hc)

/-- The path that an attribute gives does not depend on what stands behind the attribute. -/
theorem pathAttribute?_append (h : IsAttributeLine mark) (rest : List Char) :
    pathAttribute? (mark ++ rest) = pathAttribute? mark := by
  rw [pathAttribute?, pathAttribute?, after?_append (by decide) h.ends]
  cases hbehind : after? "#[path = \"".toList mark with
  | none => rfl
  | some behind =>
    obtain ⟨path, more, rfl, hpath⟩ := List.eq_append_cons_of_mem (h.closed behind hbehind)
    -- the attribute ends in a bracket, so the quote is not its last character
    cases more with
    | nil =>
      have hlast := h.ends
      rw [after?] at hbehind
      split_ifs at hbehind
      rw [← List.take_append_drop "#[path = \"".toList.length mark, Option.some.inj hbehind,
        List.getLast?_append_of_ne_nil _ (by simp), List.getLast?_concat] at hlast
      exact absurd hlast (by decide)
    | cons c more =>
      simp only [Option.map_some, List.append_assoc, List.cons_append, takeWhile_ne_quote hpath,
        List.drop_left]
      rfl

/-! ## The step over a joined line -/

/-- What code is that begins with an attribute. -/
theorem kind_append (h : IsAttributeLine mark) (rest : List Char) :
    LineKind.of (mark ++ rest) = match pathAttribute? mark with
      | some path => .override path
      | none => if (mark ++ rest).getLast? = some ']' then .whole else .opening := by
  have hblank : Text.allBlank (mark ++ rest) = false := by
    obtain ⟨behind, rfl⟩ := h.exists_eq_cons
    rfl
  have hbegins : "#[".toList.isPrefixOf (mark ++ rest) = true :=
    List.isPrefixOf_iff_prefix.mpr
      ((List.isPrefixOf_iff_prefix.mp h.begins).trans (List.prefix_append mark rest))
  have hpath := pathAttribute?_append h rest
  cases hmark : pathAttribute? mark with
  | some path => simp only [LineKind.of, hblank, hpath, hmark, Bool.false_eq_true, ↓reduceIte]
  | none =>
    simp only [LineKind.of, hblank, hpath, hmark, hbegins, Bool.false_eq_true, ↓reduceIte]

/-- The state behind an attribute without a comment that is read to its end. -/
def ScanState.behind (state : ScanState) (mark : List Char) : ScanState :=
  match pathAttribute? mark with
  | some path => if state.isOpen then .inAttribute (some path) else .pending path
  | none => state

/-- The state behind an attribute without a comment that has code behind it on the same line. -/
def ScanState.behindJoined (state : ScanState) (mark item : List Char) : ScanState :=
  if (pathAttribute? mark).isSome ∨ EndsInBracket item then state.behind mark
  else .inAttribute state.override

/-- An attribute on a line of its own is read to its end. -/
theorem scanLine_mark (hmark : IsAttributeLine mark) (h : beforeComment? mark = none)
    (state : ScanState) : scanLine state mark = .ok (state.behind mark, none) := by
  have hcode : stripComment mark = mark := by rw [stripComment, h]
  have hkind := kind_append hmark []
  rw [List.append_nil, if_pos hmark.ends] at hkind
  rw [scanLine_eq, hcode, hkind, ScanState.behind]
  cases pathAttribute? mark <;> rfl

/-- No declaration is found behind an attribute on the same line, and the attribute stays open
unless it gives a path or the line ends like one. -/
theorem scanLine_join (hmark : IsAttributeLine mark) (h : beforeComment? mark = none)
    (hitem : IsCodeLine item) (state : ScanState) :
    scanLine state (mark ++ ' ' :: item) = .ok (state.behindJoined mark item, none) := by
  have hblank : Text.allBlank (stripComment item) = false := by
    rw [← Bool.not_eq_true]
    intro hall
    rw [IsCodeLine, LineKind.of, if_pos hall] at hitem
    exact LineKind.noConfusion hitem
  have hne : stripComment item ≠ [] := by
    intro hnil
    rw [hnil] at hblank
    exact Bool.noConfusion hblank
  obtain ⟨gap, hcode⟩ := stripComment_join hmark h hblank
  have hlast : (mark ++ (gap ++ stripComment item)).getLast? = (stripComment item).getLast? := by
    rw [← List.append_assoc, List.getLast?_append_of_ne_nil _ hne]
  rw [scanLine_eq, hcode, kind_append hmark, hlast, ScanState.behindJoined, ScanState.behind]
  cases pathAttribute? mark with
  | some path => rfl
  | none => by_cases hends : (stripComment item).getLast? = some ']' <;> simp [EndsInBracket, hends]

/-- If a comment begins in the attribute, it takes what is joined to it. -/
theorem scanLine_join_of_comment {code : List Char} (h : beforeComment? mark = some code)
    (item : List Char) (state : ScanState) :
    scanLine state (mark ++ ' ' :: item) = scanLine state mark := by
  have hcode : stripComment (mark ++ ' ' :: item) = stripComment mark := by
    rw [stripComment, stripComment, beforeComment?_append_of_some h, h]
  rw [scanLine_eq, scanLine_eq, hcode]

/-- A line of code that ends in a bracket is no declaration. -/
theorem parse_of_endsInBracket (h : EndsInBracket item) (override : Option String) :
    ModuleDecl.parse (stripComment item) override = .ok none := by
  refine parse_of_getLast?_ne ?_ override
  rw [h]
  decide

/-- When nothing is found on a line of code: it may end an open attribute and is passed over
otherwise, or it is no declaration, and then nothing is pending any more. -/
theorem scanLine_item_eq_iff (hitem : IsCodeLine item) {state target : ScanState} :
    scanLine state item = .ok (target, none) ↔
      if state.isOpen then
        (if EndsInBracket item then .ofOverride state.override else state) = target
      else .idle = target ∧ ModuleDecl.parse (stripComment item) state.override = .ok none := by
  rw [scanLine_eq, hitem]
  cases state.isOpen with
  | true => by_cases hends : (stripComment item).getLast? = some ']' <;> simp [EndsInBracket, hends]
  | false => cases ModuleDecl.parse (stripComment item) state.override <;> simp [Except.map]

/-! ## What the lines behind bring to light -/

/-- The declarations on some lines, when the scan begins in a given state. -/
def declarationsFrom (state : ScanState) (lines : List String) :
    Except UnsupportedVisibility (List ModuleDecl) :=
  (scanLines state lines).map fun scan => scan.2.reduceOption

/-- The declarations of some lines. -/
def declarations (lines : List String) : Except UnsupportedVisibility (List ModuleDecl) :=
  declarationsFrom .idle lines

section Behind

variable {state next : ScanState} {line : String} {first : List String} {decl : Option ModuleDecl}
  {found : List (Option ModuleDecl)} {e : UnsupportedVisibility}

/-- The declarations behind a line are those of the rest, and its own in front. -/
theorem declarationsFrom_cons_of_ok (h : scanLine state line.toList = .ok (next, decl))
    (rest : List String) :
    declarationsFrom state (line :: rest) =
      (declarationsFrom next rest).map (decl.toList ++ ·) := by
  simp only [declarationsFrom, scanLines, h]
  cases scanLines next rest with
  | error e => rfl
  | ok scan => cases decl <;> rfl

/-- A line that is refused ends the declarations. -/
theorem declarationsFrom_cons_of_error (h : scanLine state line.toList = .error e)
    (rest : List String) : declarationsFrom state (line :: rest) = .error e := by
  simp only [declarationsFrom, scanLines, h]
  rfl

/-- Behind some lines the scan goes on from the state that they lead to. -/
theorem declarationsFrom_append_of_ok (h : scanLines state first = .ok (next, found))
    (rest : List String) :
    declarationsFrom state (first ++ rest) =
      (declarationsFrom next rest).map (found.reduceOption ++ ·) := by
  induction first generalizing state found with
  | nil =>
    obtain ⟨rfl, rfl⟩ : state = next ∧ [] = found := by simpa [scanLines] using h
    cases hrest : declarationsFrom state rest <;> simp [hrest, Except.map, List.reduceOption]
  | cons line first ih =>
    obtain ⟨middle, decl, others, hline, hothers, rfl⟩ := scanLines_cons_eq_ok h
    rw [List.cons_append, declarationsFrom_cons_of_ok hline, ih hothers]
    cases declarationsFrom next rest with
    | error e => rfl
    | ok decls => cases decl <;> rfl

/-- Lines that are refused end the declarations, whatever comes behind them. -/
theorem declarationsFrom_append_of_error (h : scanLines state first = .error e)
    (rest : List String) : declarationsFrom state (first ++ rest) = .error e := by
  induction first generalizing state with
  | nil => simp [scanLines] at h
  | cons line first ih =>
    rw [List.cons_append]
    cases hline : scanLine state line.toList with
    | error e' =>
      rw [declarationsFrom_cons_of_error hline]
      simpa [scanLines, hline] using h
    | ok step =>
      obtain ⟨next, decl⟩ := step
      have hfirst : scanLines next first = .error e := by
        cases hnext : scanLines next first with
        | error e' => simpa [scanLines, hline, hnext, Except.map] using h
        | ok scan => simp [scanLines, hline, hnext, Except.map] at h
      rw [declarationsFrom_cons_of_ok hline, ih hfirst]
      rfl

end Behind

/-- What a plain declaration shows of the state in front of it. -/
theorem declarationsFrom_probe (state : ScanState) :
    declarationsFrom state ["mod z;"] =
      .ok (if state.isOpen then [] else [⟨.inherited, "z", state.override⟩]) := by
  cases state <;> rfl

/-- What a declaration behind the end of an attribute shows of the state in front of that end. -/
theorem declarationsFrom_probe_behind_end (state : ScanState) :
    declarationsFrom state ["]", "mod z;"] =
      .ok [⟨.inherited, "z", if state.isOpen then state.override else none⟩] := by
  cases state with
  | inAttribute path => cases path <;> rfl
  | _ => rfl

/-- Any two states can be told apart by what is found behind them. -/
theorem ScanState.eq_of_declarationsFrom_eq {state other : ScanState}
    (h : ∀ rest, declarationsFrom state rest = declarationsFrom other rest) : state = other := by
  have hplain := h ["mod z;"]
  have hend := h ["]", "mod z;"]
  rw [declarationsFrom_probe, declarationsFrom_probe] at hplain
  rw [declarationsFrom_probe_behind_end, declarationsFrom_probe_behind_end] at hend
  cases state <;> cases other <;> simp_all [ScanState.override]

/-! ## Joining -/

/-- The same declarations in front make no difference. -/
theorem map_append_inj {ε α : Type} {first : List α} {x y : Except ε (List α)} :
    x.map (first ++ ·) = y.map (first ++ ·) ↔ x = y := by
  refine ⟨fun h => ?_, fun h => h ▸ rfl⟩
  cases x <;> cases y <;> simp_all [Except.map]

/-- A line can be left out, and another state taken in its place, only if nothing is found on it and
it leads to that state. -/
theorem declarationsFrom_cons_eq_iff {state target : ScanState} {line : String} :
    (∀ rest, declarationsFrom state (line :: rest) = declarationsFrom target rest) ↔
      scanLine state line.toList = .ok (target, none) := by
  have hnone : declarationsFrom target [] = .ok [] := rfl
  cases hline : scanLine state line.toList with
  | error e =>
    refine ⟨fun h => ?_, by simp⟩
    have hrest := h []
    rw [declarationsFrom_cons_of_error hline, hnone] at hrest
    exact absurd hrest (by simp)
  | ok step =>
    obtain ⟨next, decl⟩ := step
    cases decl with
    | some decl =>
      refine ⟨fun h => ?_, by simp⟩
      have hrest := h []
      rw [declarationsFrom_cons_of_ok hline, hnone] at hrest
      exact absurd (Except.ok.inj hrest) (List.cons_ne_nil _ _)
    | none =>
      have hskip : ∀ rest, declarationsFrom state (line :: rest) = declarationsFrom next rest := by
        intro rest
        rw [declarationsFrom_cons_of_ok hline]
        cases declarationsFrom next rest <;> rfl
      simp only [hskip, Except.ok.injEq, Prod.mk.injEq, and_true]
      exact ⟨ScanState.eq_of_declarationsFrom_eq, fun h _ => h ▸ rfl⟩

/-- When an attribute and the line of code behind it may be joined without anything being seen of
it. In an open attribute that is so if the code does not end the attribute. Elsewhere nothing may be
pending and the code has to be no declaration, and moreover it has to be out of sight, by a comment
that begins in the attribute or because the line ends like one. The state is the one behind the
attribute. -/
def MayJoin (state : ScanState) (mark item : List Char) : Prop :=
  state.isOpen = true ∧ ¬EndsInBracket item ∨
    state = .idle ∧ ModuleDecl.parse (stripComment item) none = .ok none ∧
      ((beforeComment? mark).isSome = true ∨ EndsInBracket item)

namespace ScanState

variable {state : ScanState}

/-- A state in an attribute is none that an override leaves. -/
theorem ofOverride_ne (h : state.isOpen = true) (override : Option String) :
    ofOverride override ≠ state := by
  rintro rfl
  rw [isOpen_ofOverride] at h
  exact Bool.false_ne_true h

/-- In an open attribute an item on the same line changes nothing. -/
theorem behindJoined_of_isOpen (h : (state.behind mark).isOpen = true) (item : List Char) :
    state.behindJoined mark item = state.behind mark := by
  rw [behindJoined]
  split_ifs with hpath
  · rfl
  · have hnone : pathAttribute? mark = none := by
      simpa using (not_or.mp hpath).1
    rw [behind, hnone] at h ⊢
    cases state with
    | inAttribute path => rfl
    | _ => exact absurd h Bool.false_ne_true

/-- Behind an item on the same line the scanner is not idle, unless that ends in a bracket. -/
theorem behindJoined_ne_idle (state : ScanState) (mark : List Char) (h : ¬EndsInBracket item) :
    state.behindJoined mark item ≠ .idle := by
  rw [behindJoined, behind]
  cases pathAttribute? mark with
  | none => simp [h]
  | some path => cases hopen : state.isOpen <;> simp

end ScanState

/-- The cases in which the line of code leads to the state behind the joined line, if no comment
begins in the attribute. -/
theorem scanLine_item_eq_behindJoined_iff (hitem : IsCodeLine item)
    (h : beforeComment? mark = none) (state : ScanState) :
    scanLine (state.behind mark) item = .ok (state.behindJoined mark item, none) ↔
      MayJoin (state.behind mark) mark item := by
  rw [scanLine_item_eq_iff hitem, MayJoin, h]
  cases hopen : (state.behind mark).isOpen with
  | true =>
    have hidle : state.behind mark ≠ .idle := by
      intro heq
      rw [heq] at hopen
      exact Bool.false_ne_true hopen
    rw [if_pos rfl, ScanState.behindJoined_of_isOpen hopen]
    by_cases hends : EndsInBracket item
    · simp [hends, hidle, ScanState.ofOverride_ne hopen]
    · simp [hends]
  | false =>
    rw [if_neg Bool.false_ne_true]
    by_cases hends : EndsInBracket item
    · have hbehind : state.behindJoined mark item = state.behind mark := by
        rw [ScanState.behindJoined, if_pos (.inr hends)]
      simp [hends, hbehind, parse_of_endsInBracket hends, eq_comm]
    · simp [hends, (state.behindJoined_ne_idle mark hends).symm]

/-- The cases in which the line of code changes nothing. -/
theorem scanLine_item_eq_self_iff (hitem : IsCodeLine item) {code : List Char}
    (h : beforeComment? mark = some code) (state : ScanState) :
    scanLine state item = .ok (state, none) ↔ MayJoin state mark item := by
  rw [scanLine_item_eq_iff hitem, MayJoin, h]
  cases hopen : state.isOpen with
  | true =>
    have hidle : state ≠ .idle := by
      rintro rfl
      exact Bool.false_ne_true hopen
    by_cases hends : EndsInBracket item
    · simp [hends, hidle, ScanState.ofOverride_ne hopen]
    · simp [hends]
  | false =>
    simp only [Bool.false_eq_true, if_false, false_and, false_or, Option.isSome_some, true_or,
      and_true]
    constructor
    · rintro ⟨rfl, hparse⟩
      exact ⟨rfl, hparse⟩
    · rintro ⟨rfl, hparse⟩
      exact ⟨rfl, hparse⟩

section Lines

variable {mark item : String}

/-- An attribute and a line of code may be joined in these cases only. -/
theorem declarationsFrom_join_iff (hmark : IsAttributeLine mark.toList)
    (hitem : IsCodeLine item.toList) {state next : ScanState} {decl : Option ModuleDecl}
    (hfirst : scanLine state mark.toList = .ok (next, decl)) :
    (∀ rest, declarationsFrom state (mark :: item :: rest) =
      declarationsFrom state ((mark ++ " " ++ item) :: rest)) ↔
      MayJoin next mark.toList item.toList := by
  have hjoined : (mark ++ " " ++ item).toList = mark.toList ++ ' ' :: item.toList := by simp
  cases hcomment : beforeComment? mark.toList with
  | none =>
    have hjoin := scanLine_join hmark hcomment hitem state
    rw [← hjoined] at hjoin
    rw [scanLine_mark hmark hcomment] at hfirst
    obtain ⟨rfl, rfl⟩ := Prod.mk.inj (Except.ok.inj hfirst)
    simp only [declarationsFrom_cons_of_ok (scanLine_mark hmark hcomment state),
      declarationsFrom_cons_of_ok hjoin, map_append_inj, declarationsFrom_cons_eq_iff]
    exact scanLine_item_eq_behindJoined_iff hitem hcomment state
  | some code =>
    have hjoin := scanLine_join_of_comment hcomment item.toList state
    rw [← hjoined] at hjoin
    simp only [declarationsFrom_cons_of_ok hfirst, declarationsFrom_cons_of_ok (hjoin.trans hfirst),
      map_append_inj, declarationsFrom_cons_eq_iff]
    exact scanLine_item_eq_self_iff hitem hcomment next

/-- A scan that gets past some lines and one more gets past both. -/
theorem scanLines_concat_eq_ok {state last : ScanState} {first : List String} {line : String}
    {found : List (Option ModuleDecl)} (h : scanLines state (first ++ [line]) = .ok (last, found)) :
    ∃ next decl others, scanLines state first = .ok (next, others) ∧
      scanLine next line.toList = .ok (last, decl) := by
  induction first generalizing state found with
  | nil =>
    obtain ⟨next, decl, others, hline, hothers, -⟩ := scanLines_cons_eq_ok h
    obtain ⟨rfl, -⟩ : next = last ∧ [] = others := by simpa [scanLines] using hothers
    exact ⟨state, decl, [], rfl, hline⟩
  | cons head first ih =>
    obtain ⟨middle, decl, others, hhead, hothers, -⟩ := scanLines_cons_eq_ok h
    obtain ⟨next, decl', others', hfirst, hline⟩ := ih hothers
    exact ⟨next, decl', decl :: others', scanLines_cons_of_ok hhead hfirst, hline⟩

/-- An attribute and the line of code behind it can be joined without any consequence for the
declarations, whatever follows, just in the cases above: as a rule only in an open attribute. No
declaration is found on the joined line if no comment begins in the attribute. -/
theorem declarations_join_iff (before : List String) (hmark : IsAttributeLine mark.toList)
    (hitem : IsCodeLine item.toList) :
    ((∀ rest, declarations (before ++ mark :: item :: rest) =
        declarations (before ++ (mark ++ " " ++ item) :: rest)) ↔
      ∀ state found, scanLines .idle (before ++ [mark]) = .ok (state, found) →
        MayJoin state mark.toList item.toList) ∧
    (beforeComment? mark.toList = none → ∀ state,
      scanLine state (mark ++ " " ++ item).toList =
        .ok (state.behindJoined mark.toList item.toList, none)) := by
  have hjoined : (mark ++ " " ++ item).toList = mark.toList ++ ' ' :: item.toList := by simp
  refine ⟨⟨fun h next found hscan => ?_, fun h rest => ?_⟩, fun hcomment state => ?_⟩
  · obtain ⟨state, decl, others, hbefore, hfirst⟩ := scanLines_concat_eq_ok hscan
    refine (declarationsFrom_join_iff hmark hitem hfirst).mp fun rest => ?_
    have hrest := h rest
    rwa [declarations, declarations, declarationsFrom_append_of_ok hbefore,
      declarationsFrom_append_of_ok hbefore, map_append_inj] at hrest
  · rw [declarations, declarations]
    cases hbefore : scanLines .idle before with
    | error e =>
      rw [declarationsFrom_append_of_error hbefore, declarationsFrom_append_of_error hbefore]
    | ok scan =>
      obtain ⟨state, others⟩ := scan
      rw [declarationsFrom_append_of_ok hbefore, declarationsFrom_append_of_ok hbefore,
        map_append_inj]
      cases hfirst : scanLine state mark.toList with
      | error e =>
        cases hcomment : beforeComment? mark.toList with
        | none => simp [scanLine_mark hmark hcomment] at hfirst
        | some code =>
          have hjoin := scanLine_join_of_comment hcomment item.toList state
          rw [← hjoined] at hjoin
          rw [declarationsFrom_cons_of_error hfirst,
            declarationsFrom_cons_of_error (hjoin.trans hfirst)]
      | ok step =>
        obtain ⟨next, decl⟩ := step
        have hone : scanLines state [mark] = .ok (next, [decl]) :=
          scanLines_cons_of_ok hfirst rfl
        exact (declarationsFrom_join_iff hmark hitem hfirst).mpr
          (h next _ (scanLines_append hbefore hone)) rest
  · rw [hjoined]
    exact scanLine_join hmark hcomment hitem state

end Lines

/-- In an open attribute, an attribute and a declaration may be joined. -/
theorem declarations_join_in_attribute :
    IsAttributeLine "#[inline]".toList ∧ IsCodeLine "mod y;".toList ∧
      ∀ rest, declarations ("#[cfg(" :: "#[inline]" :: "mod y;" :: rest) =
        declarations ("#[cfg(" :: "#[inline] mod y;" :: rest) := by
  have hmark : IsAttributeLine "#[inline]".toList := by decide
  have hitem : IsCodeLine "mod y;".toList := rfl
  obtain ⟨hiff, -⟩ := declarations_join_iff ["#[cfg("] hmark hitem
  refine ⟨hmark, hitem, hiff.mpr fun state found hscan => .inl ⟨?_, by decide⟩⟩
  have hopen : scanLines .idle ["#[cfg(", "#[inline]"] =
      .ok (.inAttribute none, [none, none]) := rfl
  obtain ⟨rfl, -⟩ := Prod.mk.inj (Except.ok.inj (hopen.symm.trans hscan))
  rfl

/-- The path of an attribute goes past the declaration behind it to the next one, and a declaration
behind an item with an attribute is not found. -/
theorem declarations_of_joined_lines :
    declarations ["#[path = \"x.rs\"]", "mod y;", "mod z;"] =
        .ok [⟨.inherited, "y", some "x.rs"⟩, ⟨.inherited, "z", none⟩] ∧
      declarations ["#[path = \"x.rs\"] mod y;", "mod z;"] =
        .ok [⟨.inherited, "z", some "x.rs"⟩] ∧
      declarations ["#[inline]", "fn f() \x7b\x7d", "mod z;"] = .ok [⟨.inherited, "z", none⟩] ∧
      declarations ["#[inline] fn f() \x7b\x7d", "mod z;"] = .ok [] :=
  ⟨rfl, rfl, rfl, rfl⟩

end FlatCrate.Source
