import FlatCrate.Proofs.Source.Header
import FlatCrate.Proofs.Source.Cut

/-!
# Stubs in a spliced module

The block that takes the place of a module declaration opens and closes on lines of their own.
Between functions the pass copies both of them and goes on behind each as at the start of a text, so
it makes no difference whether a module is stubbed before it is spliced or afterwards. The
exception is a module with the name `fn`: its header is read as a function, and the whole block is
its body.
-/

namespace FlatCrate.Source

variable {mode : StubMode} {c : Char} {rest word name : List Char} {decl : ModuleDecl}

/-- The modes outside of signatures and bodies. -/
def StubMode.isOutside : StubMode → Bool
  | .item _ => true
  | .comment => true
  | _ => false

/-! ## The two ends of a block -/

/-- Characters are compared by their numbers. -/
theorem toNat_between (low high : Char) (h : c.val ≥ low.val ∧ c.val ≤ high.val) :
    low.toNat ≤ c.toNat ∧ c.toNat ≤ high.toNat :=
  ⟨UInt32.le_iff_toNat_le.mp h.1, UInt32.le_iff_toNat_le.mp h.2⟩

/-- A character of an identifier is not blank. -/
theorem isBlank_eq_false_of_isIdentifierRest (h : isIdentifierRest c = true) :
    Text.isBlank c = false := by
  have hrange : 48 ≤ c.toNat ∧ c.toNat ≤ 122 := by
    rw [isIdentifierRest, isIdentifierStart, Bool.or_eq_true, Bool.or_eq_true, beq_iff_eq] at h
    rcases h with (hletter | rfl) | hdigit
    · obtain hupper | hlower : c.isUpper = true ∨ c.isLower = true :=
        (Bool.or_eq_true _ _).mp hletter
      · have hbetween : 65 ≤ c.toNat ∧ c.toNat ≤ 90 :=
          toNat_between 'A' 'Z' (of_decide_eq_true hupper)
        omega
      · have hbetween : 97 ≤ c.toNat ∧ c.toNat ≤ 122 :=
          toNat_between 'a' 'z' (of_decide_eq_true ((Bool.decide_and _ _).trans hlower))
        omega
    · decide
    · have hbetween : 48 ≤ c.toNat ∧ c.toNat ≤ 57 := Char.isDigit_iff_toNat.mp hdigit
      omega
  simp [Text.isBlank]
  omega

/-- A character of an identifier starts no comment. -/
theorem notComment_of_isIdentifierRest (h : isIdentifierRest c = true) :
    ¬"//".toList <+: c :: rest := by
  intro hslash
  obtain rfl : '/' = c := (List.cons_prefix_cons.mp hslash).1
  exact absurd h (by decide)

/-- Not behind a blank, the characters of a word are copied. -/
theorem stubFrom_word (h : ∀ c ∈ word, isIdentifierRest c = true) (rest : List Char) :
    stubFrom (.item false) (word ++ rest) = word ++ stubFrom (.item false) rest := by
  induction word with
  | nil => rfl
  | cons c word ih =>
    rw [List.forall_mem_cons] at h
    rw [List.cons_append, stubFrom_plain (by simp) (notComment_of_isIdentifierRest h.1),
      isBlank_eq_false_of_isIdentifierRest h.1, ih h.2, List.cons_append]

/-- A function begins with a name and a blank only if these are its keyword. -/
theorem fn_prefix_iff (hname : isIdentifier name = true) (hc : Text.isBlank c = true) :
    "fn ".toList <+: name ++ c :: rest ↔ name = "fn".toList ∧ c = ' ' := by
  constructor
  · rintro ⟨more, heq⟩
    have heq : "fn".toList ++ ' ' :: more = name ++ c :: rest := heq
    have hspace : ' ' ∉ name := by
      intro hmem
      exact absurd (isIdentifierRest_of_isIdentifier hname _ hmem) (by decide)
    have hblank : c ∉ "fn".toList := by
      intro hmem
      obtain rfl | rfl : c = 'f' ∨ c = 'n' := by simpa using hmem
      all_goals exact absurd hc (by decide)
    have hlength : "fn".toList.length = name.length := by
      apply le_antisymm
      · exact length_le_of_notMem hblank heq.symm
      · exact length_le_of_notMem hspace heq
    obtain ⟨hfn, hrest⟩ := List.append_inj heq hlength
    exact ⟨hfn.symm, (List.cons.inj hrest).1.symm⟩
  · rintro ⟨rfl, rfl⟩
    exact ⟨rest, rfl⟩

/-- A name that a blank ends is copied, unless it is the keyword of a function. -/
theorem stubFrom_name (hname : isIdentifier name = true) (hc : Text.isBlank c = true)
    (hfn : ¬(name = "fn".toList ∧ c = ' ')) (rest : List Char) :
    stubFrom (.item true) (name ++ c :: rest) = name ++ stubFrom (.item false) (c :: rest) := by
  have hfunction : ¬"fn ".toList <+: name ++ c :: rest := (fn_prefix_iff hname hc).not.mpr hfn
  have hword := isIdentifierRest_of_isIdentifier hname
  cases name with
  | nil => exact absurd hname Bool.false_ne_true
  | cons d name =>
    rw [List.forall_mem_cons] at hword
    rw [List.cons_append] at hfunction ⊢
    rw [stubFrom_plain (fun _ => hfunction) (notComment_of_isIdentifierRest hword.1),
      isBlank_eq_false_of_isIdentifierRest hword.1, stubFrom_word hword.2, List.cons_append]

/-- The opening of a visibility is copied. -/
theorem stubFrom_opening (v : Visibility) (cs : List Char) :
    stubFrom (.item true) (v.opening ++ cs) = v.opening ++ stubFrom (.item true) cs := by
  cases v <;> rfl

/-- A header, character by character. -/
theorem toList_header (decl : ModuleDecl) :
    decl.header.toList = decl.visibility.opening ++ (decl.name.toList ++ [' ', '\x7b']) := by
  simp [ModuleDecl.header, Visibility.opening]

/-- Only the header of a module with the name of the keyword is read as a function. -/
theorem stubFrom_header (hname : isModuleName decl.name.toList = true) (hfn : decl.name ≠ "fn")
    (cs : List Char) :
    stubFrom (.item true) (decl.header.toList ++ '\n' :: cs) =
      decl.header.toList ++ '\n' :: stubFrom (.item true) cs := by
  have hopening : stubFrom (.item true) (decl.name.toList ++ [' ', '\x7b', '\n'] ++ cs) =
      decl.name.toList ++ [' ', '\x7b', '\n'] ++ stubFrom (.item true) cs := by
    rw [isModuleName, Bool.or_eq_true, Bool.and_eq_true, beq_iff_eq] at hname
    rcases hname with hname | ⟨hfeed, hname⟩
    · have hkeyword : ¬(decl.name.toList = "fn".toList ∧ ' ' = ' ') := fun h =>
        hfn (String.toList_inj.mp h.1)
      rw [List.append_assoc, List.cons_append, stubFrom_name hname rfl hkeyword, List.append_assoc]
      rfl
    · -- a name that a line feed ends is not the keyword
      have hkeyword : ¬(decl.name.toList.dropLast = "fn".toList ∧ '\n' = ' ') := by simp
      obtain ⟨init, hinit⟩ := List.getLast?_eq_some_iff.mp hfeed
      rw [hinit, List.dropLast_concat] at hname hkeyword
      rw [hinit, List.append_assoc, List.append_assoc, List.singleton_append,
        stubFrom_name hname rfl hkeyword, List.append_assoc, List.append_assoc]
      rfl
  have happend (text : List Char) : decl.header.toList ++ '\n' :: text =
      decl.visibility.opening ++ (decl.name.toList ++ [' ', '\x7b', '\n'] ++ text) := by
    simp [toList_header]
  rw [happend, happend, stubFrom_opening, hopening]

/-- The header of a module that is called `fn` reads like the beginning of a function. -/
theorem toList_header_fn (hfn : decl.name = "fn") :
    decl.header.toList = decl.visibility.opening ++ ("fn ".toList ++ ['\x7b']) := by
  rw [toList_header, hfn]
  rfl

/-- The header of a module with the name of the keyword ends in a stub. -/
theorem stubFrom_header_fn (hfn : decl.name = "fn") (cs : List Char) :
    stubFrom (.item true) (decl.header.toList ++ cs) =
      decl.visibility.opening ++ ("fn ".toList ++ (stubBody ++ stubFrom (.body 0) cs)) := by
  rw [toList_header_fn hfn, List.append_assoc, stubFrom_opening]
  rfl

/-- Behind a line feed a pass outside of signatures and bodies is where it is at the start. -/
theorem next_feed (h : (mode.next '\n' rest).isOutside = true) :
    mode.next '\n' rest = .item true := by
  cases mode with
  | item boundary => cases boundary <;> rfl
  | comment => rfl
  | signature depth =>
    rw [next_signature rfl fun _ => by decide] at h
    exact absurd h Bool.false_ne_true
  | signatureComment depth => exact absurd h Bool.false_ne_true
  | body depth => exact absurd h Bool.false_ne_true

/-- The mode behind two texts is that behind the second, if that stands apart. -/
theorem stubEnd_append (hrest : StandsApart rest) (mode : StubMode) (cs : List Char) :
    stubEnd mode (cs ++ rest) = stubEnd (stubEnd mode cs) rest := by
  induction cs generalizing mode with
  | nil => rfl
  | cons c cs ih => rw [List.cons_append, stubEnd, stubEnd, next_append hrest, ih]

/-- A text of whole lines that is outside of signatures and bodies at its end leaves the pass where
it is at the start. -/
theorem endsAtBoundary_of_isOutside {child : String} (hfeed : ∀ c ∈ child.toList.getLast?, c = '\n')
    (hends : (stubEnd (.item true) child.toList).isOutside = true) : EndsAtBoundary child := by
  rw [EndsAtBoundary]
  obtain hempty | ⟨lines, c, hlines⟩ := List.eq_nil_or_concat child.toList
  · rw [hempty]
    rfl
  · rw [List.concat_eq_append] at hlines
    obtain rfl : c = '\n' := hfeed c (by rw [hlines, List.getLast?_concat]; rfl)
    have hapart : StandsApart ['\n'] := by simp [StandsApart]
    rw [hlines, stubEnd_append hapart] at hends ⊢
    exact next_feed hends

/-! ## Spliced modules -/

/-- Stubbing a spliced module gives what splicing the stubbed module gives, whatever follows, exactly
if the module is not called `fn`. The module is a text of whole lines, and no signature or body is
left open at its end. -/
theorem stubBodies_spliced_iff {code : List Char} {override : Option String} {child : String}
    (hdecl : ModuleDecl.parse code override = .ok (some decl))
    (hfeed : ∀ c ∈ child.toList.getLast?, c = '\n')
    (hends : (stubEnd (.item true) child.toList).isOutside = true) (rest : String) :
    stubBodies (decl.header ++ "\n" ++ child ++ "\x7d\n" ++ rest) =
        decl.header ++ "\n" ++ stubBodies child ++ "\x7d\n" ++ stubBodies rest ↔
      decl.name ≠ "fn" := by
  obtain ⟨-, hname, -⟩ := exists_of_parse hdecl
  have hwhole : (decl.header ++ "\n" ++ child ++ "\x7d\n" ++ rest).toList =
      decl.header.toList ++ '\n' :: (child.toList ++ '\x7d' :: '\n' :: rest.toList) := by
    simp
  have hparts : (decl.header ++ "\n" ++ stubBodies child ++ "\x7d\n" ++ stubBodies rest).toList =
      decl.header.toList ++ '\n' :: ((stubBodies child).toList ++
        '\x7d' :: '\n' :: (stubBodies rest).toList) := by
    simp
  rw [← String.toList_inj, toList_stubBodies, hwhole, hparts]
  constructor
  · intro heq hfn
    rw [stubFrom_header_fn hfn, toList_header_fn hfn, List.append_assoc, List.append_assoc] at heq
    -- behind the brace the stub goes on with a space, the spliced module with a line feed
    have hbrace := List.append_cancel_left (List.append_cancel_left heq)
    have hbehind : ' ' = '\n' := (List.cons.inj (List.cons.inj hbrace).2).1
    exact absurd hbehind (by decide)
  · intro hfn
    have hboundary : stubEnd (.item true) child.toList = .item true :=
      endsAtBoundary_of_isOutside hfeed hends
    have hapart : StandsApart ('\x7d' :: '\n' :: rest.toList) := by simp [StandsApart]
    rw [stubFrom_header hname hfn, stubFrom_append hapart, hboundary, toList_stubBodies,
      toList_stubBodies]
    rfl

/-- A module with the name of another keyword, written as a raw identifier. -/
theorem stubBodies_spliced_raw_name :
    ModuleDecl.parse "pub(crate) mod r#type;".toList none = .ok (some ⟨.inCrate, "type", none⟩) ∧
      (∀ c ∈ "fn f() \x7b g(); \x7d // f\n".toList.getLast?, c = '\n') ∧
      (stubEnd (.item true) "fn f() \x7b g(); \x7d // f\n".toList).isOutside = true ∧
      stubBodies ((ModuleDecl.mk .inCrate "type" none).header ++ "\n" ++
          "fn f() \x7b g(); \x7d // f\n" ++ "\x7d\n" ++ "fn h() \x7b 1 \x7d") =
        (ModuleDecl.mk .inCrate "type" none).header ++ "\n" ++
          stubBodies "fn f() \x7b g(); \x7d // f\n" ++ "\x7d\n" ++
          stubBodies "fn h() \x7b 1 \x7d" := by
  have hdecl : ModuleDecl.parse "pub(crate) mod r#type;".toList none =
      .ok (some ⟨.inCrate, "type", none⟩) := by
    decide +kernel
  have hfeed : ∀ c ∈ "fn f() \x7b g(); \x7d // f\n".toList.getLast?, c = '\n' :=
    fun c hc => (Option.some.inj hc).symm
  have hends : (stubEnd (.item true) "fn f() \x7b g(); \x7d // f\n".toList).isOutside = true := by
    decide +kernel
  exact ⟨hdecl, hfeed, hends,
    (stubBodies_spliced_iff hdecl hfeed hends "fn h() \x7b 1 \x7d").mpr (by decide)⟩

/-- The module `fn` gives way to a stub as a whole. -/
theorem stubBodies_spliced_fn :
    ModuleDecl.parse "mod r#fn;".toList none = .ok (some ⟨.inherited, "fn", none⟩) ∧
      (∀ c ∈ "pub struct S;\n".toList.getLast?, c = '\n') ∧
      (stubEnd (.item true) "pub struct S;\n".toList).isOutside = true ∧
      stubBodies ("mod fn \x7b" ++ "\n" ++ "pub struct S;\n" ++ "\x7d\n" ++ "") =
        "mod fn \x7b loop \x7b\x7d \x7d\n" ∧
      "mod fn \x7b" ++ "\n" ++ stubBodies "pub struct S;\n" ++ "\x7d\n" ++ stubBodies "" =
        "mod fn \x7b\npub struct S;\n\x7d\n" :=
  ⟨by decide +kernel, fun _ hc => (Option.some.inj hc).symm, by decide +kernel, by decide +kernel,
    by decide +kernel⟩

end FlatCrate.Source
