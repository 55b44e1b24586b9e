import FlatCrate.Proofs.Source.Scan

/-!
# Headers of spliced modules

A declaration that was found on a line has an identifier for its name. Its header therefore is a
plain line without a comment, and it is no declaration to the scanner.
-/

namespace FlatCrate.Source

/-- What comes behind a beginning completes it. -/
theorem after?_eq_some {start cs rest : List Char} (h : after? start cs = some rest) :
    start ++ rest = cs := by
  rw [after?] at h
  split at h
  · next hstart =>
    obtain rfl : cs.drop start.length = rest := by simpa using h
    exact (List.prefix_iff_eq_append.mp (List.isPrefixOf_iff_prefix.mp hstart))
  · simp at h

/-- Dropping the mark adds no character. -/
theorem mem_of_mem_dropRawMark {cs : List Char} {c : Char} (h : c ∈ dropRawMark cs) : c ∈ cs := by
  rw [dropRawMark] at h
  cases hraw : after? "r#".toList cs with
  | none => rwa [hraw, Option.getD_none] at h
  | some rest =>
    rw [hraw, Option.getD_some] at h
    rw [← after?_eq_some hraw]
    exact List.mem_append_right _ h

/-- What a declaration is made of. -/
theorem exists_of_parse {code : List Char} {override : Option String} {decl : ModuleDecl}
    (h : ModuleDecl.parse code override = .ok (some decl)) :
    decl.override = override ∧ isModuleName decl.name.toList = true ∧
      ∃ rest, decl.visibility.opening ++ rest = code.dropLast ∧
        decl.name.toList = dropRawMark rest := by
  rw [ModuleDecl.parse] at h
  split at h
  · simp at h
  split at h
  · simp at h
  split at h
  · simp at h
  · next visibility name hfound =>
    split at h
    swap
    · simp at h
    next hname =>
    obtain rfl : ModuleDecl.mk visibility (String.ofList name) override = decl := by simpa using h
    obtain ⟨v, -, hdeclared⟩ := List.exists_of_findSome?_eq_some hfound
    obtain ⟨rest, hrest, heq⟩ := Option.map_eq_some_iff.mp hdeclared
    obtain ⟨rfl, rfl⟩ : v = visibility ∧ dropRawMark rest = name := by simpa using heq
    exact ⟨rfl, by rwa [String.toList_ofList], rest, after?_eq_some hrest, String.toList_ofList⟩

/-- A line on which a declaration is found gives it an identifier for its name. -/
theorem isIdentifier_of_parse {code : List Char} {override : Option String} {decl : ModuleDecl}
    (h : ModuleDecl.parse code override = .ok (some decl)) (hcode : '\n' ∉ code) :
    isIdentifier decl.name.toList = true := by
  obtain ⟨-, hmodule, rest, hbody, hrest⟩ := exists_of_parse h
  have hfeed : '\n' ∉ decl.name.toList := by
    intro hmem
    apply hcode
    rw [hrest] at hmem
    exact List.dropLast_subset _ (hbody ▸ List.mem_append_right _ (mem_of_mem_dropRawMark hmem))
  rw [isModuleName, Bool.or_eq_true, Bool.and_eq_true, beq_iff_eq] at hmodule
  rcases hmodule with hname | ⟨hlast, -⟩
  · exact hname
  · exact absurd (List.mem_of_getLast? hlast) hfeed

/-- The characters of a header. -/
def isHeaderChar (c : Char) : Bool := isIdentifierRest c || "() \x7b".toList.contains c

/-- The characters of an identifier may all come behind its first one. -/
theorem isIdentifierRest_of_isIdentifier {name : List Char} (h : isIdentifier name = true) :
    ∀ c ∈ name, isIdentifierRest c = true := by
  cases name with
  | nil => simp [isIdentifier] at h
  | cons c name =>
    rw [isIdentifier, Bool.and_eq_true, List.all_eq_true] at h
    rw [List.forall_mem_cons, isIdentifierRest, h.1]
    exact ⟨rfl, h.2⟩

/-- The characters of an identifier may stand in a header. -/
theorem isHeaderChar_of_isIdentifier {name : List Char} (h : isIdentifier name = true) :
    ∀ c ∈ name, isHeaderChar c = true := by
  intro c hc
  rw [isHeaderChar, isIdentifierRest_of_isIdentifier h c hc, Bool.true_or]

/-- The characters of a header may stand there. -/
theorem isHeaderChar_of_mem_header {decl : ModuleDecl}
    (h : isIdentifier decl.name.toList = true) :
    ∀ c ∈ decl.header.toList, isHeaderChar c = true := by
  have hvisibility : ∀ v : Visibility, v.text.toList.all isHeaderChar = true := by
    intro v
    cases v <;> decide
  have hkeyword : "mod ".toList.all isHeaderChar = true := by decide
  have hname : decl.name.toList.all isHeaderChar = true :=
    List.all_eq_true.mpr (isHeaderChar_of_isIdentifier h)
  have hbrace : " \x7b".toList.all isHeaderChar = true := by decide
  apply List.all_eq_true.mp
  simp only [ModuleDecl.header, String.toList_append, List.all_append, hvisibility, hkeyword, hname,
    hbrace, Bool.and_self]

/-- A header is a plain line. -/
theorem isPlainLine_header {decl : ModuleDecl} (h : isIdentifier decl.name.toList = true) :
    Text.IsPlainLine decl.header.toList := by
  constructor
  · intro hfeed
    exact absurd (isHeaderChar_of_mem_header h _ hfeed) (by decide)
  · intro hreturn
    exact absurd (isHeaderChar_of_mem_header h _ hreturn) (by decide)

/-- No declaration is found on a header. -/
theorem scanLine_header {decl : ModuleDecl} (h : isIdentifier decl.name.toList = true)
    (state : ScanState) : ∃ next, scanLine state decl.header.toList = .ok (next, none) := by
  have hslash : '/' ∉ decl.header.toList := by
    intro hmem
    exact absurd (isHeaderChar_of_mem_header h _ hmem) (by decide)
  apply scanLine_of_getLast?_ne
  rw [stripComment_of_notMem hslash, ModuleDecl.header, String.toList_append,
    List.getLast?_append_of_ne_nil _ (by decide)]
  decide

end FlatCrate.Source
