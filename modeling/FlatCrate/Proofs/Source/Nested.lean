import FlatCrate.Proofs.Source.Cut

/-!
# Nested brackets

The pass counts brackets without regard to their kinds, it does not count those in comments of
signatures, and a bracket of a signature that closes none is ignored. In a text whose brackets are
nested, each closed by one of its own kind, all this makes no difference to what is dropped: a body
begins with a brace, and the first bracket behind which as many are closed as opened is the one that
closes this brace. So every body that gives way is a nested block, and another nested block takes
its place.
-/

namespace FlatCrate.Source

/-- Whether a bracket closes another one of its kind. -/
def closes (opening c : Char) : Bool :=
  opening == '(' && c == ')' || opening == '[' && c == ']' || opening == '\x7b' && c == '\x7d'

/-- A text whose brackets are nested: each one that is opened is closed by one of its kind, and no
other ones are closed. All characters count, also those in comments. -/
inductive IsNested : List Char → Prop
  | nil : IsNested []
  | plain {c : Char} {rest : List Char} : isOpener c = false → isCloser c = false →
      IsNested rest → IsNested (c :: rest)
  | block {opening c : Char} {inside rest : List Char} : closes opening c = true →
      IsNested inside → IsNested rest → IsNested (opening :: (inside ++ c :: rest))

/-- A block in braces whose brackets are nested. -/
def IsNestedBlock (body : List Char) : Prop :=
  ∃ inside, body = '\x7b' :: (inside ++ ['\x7d']) ∧ IsNested inside

/-- The brackets that are open behind one more character, the last one first, unless it closes none
of them or one of another kind. -/
def openedAfter (opened : List Char) (c : Char) : Option (List Char) :=
  if isOpener c then some (c :: opened)
  else if isCloser c then
    match opened with
    | [] => none
    | opening :: others => if closes opening c then some others else none
  else some opened

/-- The brackets that are open behind a text. -/
def openedBehind : List Char → List Char → Option (List Char)
  | opened, [] => some opened
  | opened, c :: rest => (openedAfter opened c).bind fun next => openedBehind next rest

variable {opening c : Char} {cs inside body rest opened last first others : List Char} {depth : Nat}

/-- The brackets open behind two texts are those behind the second, from those behind the first. -/
theorem openedBehind_append (opened first second : List Char) :
    openedBehind opened (first ++ second) =
      (openedBehind opened first).bind fun last => openedBehind last second := by
  induction first generalizing opened with
  | nil => rfl
  | cons c first ih =>
    rw [List.cons_append, openedBehind, openedBehind]
    cases openedAfter opened c with
    | none => rfl
    | some next => exact ih next

/-! ## One bracket -/

/-- A bracket is closed by a closing one. -/
theorem isOpener_of_closes (h : closes opening c = true) :
    isOpener opening = true ∧ isCloser c = true := by
  obtain (⟨rfl, rfl⟩ | ⟨rfl, rfl⟩) | ⟨rfl, rfl⟩ : (opening = '(' ∧ c = ')' ∨
      opening = '[' ∧ c = ']') ∨ opening = '\x7b' ∧ c = '\x7d' := by
    simpa [closes] using h
  all_goals exact ⟨rfl, rfl⟩

/-- A closing bracket opens nothing. -/
theorem isOpener_eq_false_of_isCloser (h : isCloser c = true) : isOpener c = false := by
  rw [Bool.eq_false_iff]
  intro hopener
  exact absurd h (by simp [isCloser_eq_false_of_isOpener hopener])

/-- An opening bracket is open behind itself. -/
theorem openedAfter_of_isOpener (h : isOpener c = true) (opened : List Char) :
    openedAfter opened c = some (c :: opened) := by
  simp [openedAfter, h]

/-- A character that is no bracket leaves the open ones. -/
theorem openedAfter_of_plain (hopener : isOpener c = false) (hcloser : isCloser c = false)
    (opened : List Char) : openedAfter opened c = some opened := by
  simp [openedAfter, hopener, hcloser]

/-- A bracket closes the one that it matches. -/
theorem openedAfter_of_closes (h : closes opening c = true) (opened : List Char) :
    openedAfter (opening :: opened) c = some opened := by
  have hcloser := (isOpener_of_closes h).2
  simp [openedAfter, isOpener_eq_false_of_isCloser hcloser, hcloser, h]

/-- A bracket closes the one that has been opened last. -/
theorem openedAfter_of_isCloser (hcloser : isCloser c = true)
    (h : openedAfter opened c = some last) :
    ∃ opening, opened = opening :: last ∧ closes opening c = true := by
  cases opened with
  | nil => simp [openedAfter, isOpener_eq_false_of_isCloser hcloser, hcloser] at h
  | cons opening opened =>
    simp only [openedAfter, isOpener_eq_false_of_isCloser hcloser, hcloser, Bool.false_eq_true,
      if_false, if_true] at h
    split_ifs at h with hcloses
    exact ⟨opening, by rw [Option.some.inj h], hcloses⟩

/-! ## Nested texts are those that leave nothing open -/

/-- A nested text leaves the open brackets. -/
theorem IsNested.openedBehind_eq (h : IsNested cs) (opened : List Char) :
    openedBehind opened cs = some opened := by
  induction h generalizing opened with
  | nil => rfl
  | plain hopener hcloser _ ih =>
    rw [openedBehind, openedAfter_of_plain hopener hcloser, Option.bind_some, ih]
  | @block opening c inside rest hcloses _ _ ihInside ihRest =>
    rw [openedBehind, openedAfter_of_isOpener (isOpener_of_closes hcloses).1, Option.bind_some,
      openedBehind_append, ihInside, Option.bind_some, openedBehind,
      openedAfter_of_closes hcloses, Option.bind_some, ihRest]

/-- What is open in front of a text that leaves nothing open is closed in it. -/
theorem exists_of_openedBehind_cons (h : openedBehind (opening :: opened) cs = some []) :
    ∃ inside c rest, cs = inside ++ c :: rest ∧ IsNested inside ∧ closes opening c = true ∧
      openedBehind opened rest = some [] := by
  induction hlength : cs.length using Nat.strong_induction_on generalizing opening opened cs with
  | h length ih =>
    cases cs with
    | nil => simp [openedBehind] at h
    | cons c cs =>
      subst hlength
      rw [openedBehind] at h
      obtain ⟨next, hafter, hnext⟩ := Option.bind_eq_some_iff.mp h
      by_cases hcloser : isCloser c = true
      · obtain ⟨_, hopened, hcloses⟩ := openedAfter_of_isCloser hcloser hafter
        obtain ⟨rfl, rfl⟩ := List.cons.inj hopened
        exact ⟨[], c, cs, rfl, .nil, hcloses, hnext⟩
      rw [Bool.not_eq_true] at hcloser
      by_cases hopener : isOpener c = true
      · -- the bracket is closed first, and the one that has been open before behind it
        obtain rfl : c :: opening :: opened = next :=
          Option.some.inj ((openedAfter_of_isOpener hopener _).symm.trans hafter)
        obtain ⟨inside, d, middle, rfl, hinside, hcloses, hmiddle⟩ :=
          ih cs.length (Nat.lt_succ_self _) hnext rfl
        obtain ⟨behind, e, rest, rfl, hbehind, hcloses', hrest⟩ :=
          ih middle.length (by simp only [List.length_append, List.length_cons]; omega) hmiddle rfl
        exact ⟨c :: (inside ++ d :: behind), e, rest, by simp, .block hcloses hinside hbehind,
          hcloses', hrest⟩
      · rw [Bool.not_eq_true] at hopener
        obtain rfl : opening :: opened = next :=
          Option.some.inj ((openedAfter_of_plain hopener hcloser _).symm.trans hafter)
        obtain ⟨inside, d, rest, rfl, hinside, hcloses, hrest⟩ :=
          ih cs.length (Nat.lt_succ_self _) hnext rfl
        exact ⟨c :: inside, d, rest, rfl, .plain hopener hcloser hinside, hcloses, hrest⟩

/-- Brackets are nested exactly if none of them is open in the end. -/
theorem isNested_iff : IsNested cs ↔ openedBehind [] cs = some [] := by
  refine ⟨fun h => h.openedBehind_eq [], fun h => ?_⟩
  induction hlength : cs.length using Nat.strong_induction_on generalizing cs with
  | h length ih =>
    cases cs with
    | nil => exact .nil
    | cons c cs =>
      subst hlength
      rw [openedBehind] at h
      obtain ⟨next, hafter, hnext⟩ := Option.bind_eq_some_iff.mp h
      by_cases hopener : isOpener c = true
      · obtain rfl : [c] = next :=
          Option.some.inj ((openedAfter_of_isOpener hopener []).symm.trans hafter)
        obtain ⟨inside, d, rest, rfl, hinside, hcloses, hrest⟩ := exists_of_openedBehind_cons hnext
        refine .block hcloses hinside (ih rest.length ?_ hrest rfl)
        simp only [List.length_append, List.length_cons]
        omega
      rw [Bool.not_eq_true] at hopener
      by_cases hcloser : isCloser c = true
      · obtain ⟨_, hopened, -⟩ := openedAfter_of_isCloser hcloser hafter
        exact absurd hopened (List.cons_ne_nil _ _).symm
      · rw [Bool.not_eq_true] at hcloser
        obtain rfl : [] = next :=
          Option.some.inj ((openedAfter_of_plain hopener hcloser []).symm.trans hafter)
        exact .plain hopener hcloser (ih cs.length (Nat.lt_succ_self _) hnext rfl)

instance (cs : List Char) : Decidable (IsNested cs) := decidable_of_iff _ isNested_iff.symm

/-! ## Counting brackets -/

/-- While brackets are counted from some of the open ones on, the others stay open, and as many are
/-- Where the depth is known, a bracket stays within the brackets counted by it. -/
open above them as the count says. -/
theorem exists_of_openAfter (hopened : openedAfter (first ++ opened) c = some last)
    (hdepth : openAfter first.length c = some depth) :
    ∃ next, next.length = depth ∧ last = next ++ opened ∧ openedAfter first c = some next := by
  by_cases hopener : isOpener c = true
  · rw [openedAfter_of_isOpener hopener, Option.some.injEq] at hopened
    rw [openAfter, if_pos hopener, Option.some.injEq] at hdepth
    exact ⟨c :: first, hdepth, hopened.symm, openedAfter_of_isOpener hopener first⟩
  rw [Bool.not_eq_true] at hopener
  by_cases hcloser : isCloser c = true
  · obtain ⟨opening, hfirst, hcloses⟩ := openedAfter_of_isCloser hcloser hopened
    cases first with
    | nil => simp [openAfter, hopener, hcloser] at hdepth
    | cons opening' first =>
      obtain ⟨rfl, rfl⟩ := List.cons.inj hfirst
      simp only [openAfter, hopener, hcloser, Bool.false_eq_true, if_false, if_true,
        List.length_cons, Nat.succ_ne_zero, Nat.add_sub_cancel, Option.some.injEq] at hdepth
      exact ⟨first, hdepth, rfl, openedAfter_of_closes hcloses first⟩
  · rw [Bool.not_eq_true] at hcloser
    rw [openedAfter_of_plain hopener hcloser, Option.some.injEq] at hopened
    rw [openAfter_of_plain hopener hcloser, Option.some.injEq] at hdepth
    exact ⟨first, hdepth, hopened.symm, openedAfter_of_plain hopener hcloser first⟩

/-- Where the depth is known, a text stays within the brackets counted by it. -/
theorem exists_of_openBehind (hopened : openedBehind (first ++ opened) cs = some last)
    (hdepth : openBehind first.length cs = some depth) :
    ∃ next, next.length = depth ∧ last = next ++ opened ∧ openedBehind first cs = some next := by
  induction cs generalizing first with
  | nil => exact ⟨first, Option.some.inj hdepth, (Option.some.inj hopened).symm, rfl⟩
  | cons c cs ih =>
    rw [openedBehind] at hopened
    rw [openBehind] at hdepth
    obtain ⟨middle, hafter, hmiddle⟩ := Option.bind_eq_some_iff.mp hopened
    obtain ⟨count, hcount, hrest⟩ := Option.bind_eq_some_iff.mp hdepth
    obtain ⟨next, rfl, rfl, hnext⟩ := exists_of_openAfter hafter hcount
    obtain ⟨final, hlength, hlast, hfinal⟩ := ih hmiddle hrest
    exact ⟨final, hlength, hlast, by rw [openedBehind, hnext, Option.bind_some, hfinal]⟩

/-- A body in a text that leaves nothing open is a nested block. -/
theorem IsBody.isNestedBlock (h : IsBody body rest)
    (hopened : openedBehind opened (body ++ rest) = some []) : IsNestedBlock body := by
  have hbrace (cs : List Char) :
      openedBehind opened ('\x7b' :: cs) = openedBehind ([] ++ '\x7b' :: opened) cs := rfl
  rcases h with ⟨inside, c, rfl, hinside, hc⟩ | ⟨⟨inside, depth, rfl, hinside⟩, rfl⟩
  · rw [List.cons_append, hbrace, List.append_assoc, openedBehind_append] at hopened
    obtain ⟨middle, hmiddle, hrest⟩ := Option.bind_eq_some_iff.mp hopened
    obtain ⟨next, hlength, rfl, hnext⟩ := exists_of_openBehind hmiddle hinside
    obtain rfl := List.length_eq_zero_iff.mp hlength
    rw [List.singleton_append, List.nil_append, openedBehind] at hrest
    obtain ⟨last, hafter, -⟩ := Option.bind_eq_some_iff.mp hrest
    obtain ⟨_, hopening, hcloses⟩ := openedAfter_of_isCloser hc hafter
    obtain ⟨rfl, rfl⟩ := List.cons.inj hopening
    obtain rfl : c = '\x7d' := by simpa [closes] using hcloses
    exact ⟨inside, rfl, isNested_iff.mpr hnext⟩
  · -- the brace of the body would still be open
    rw [List.append_nil, hbrace] at hopened
    obtain ⟨next, -, hlast, -⟩ := exists_of_openBehind hopened hinside
    simp at hlast

/-- A nested block leaves the open brackets. -/
theorem IsNestedBlock.openedBehind_eq (h : IsNestedBlock body) (opened : List Char) :
    openedBehind opened body = some opened := by
  obtain ⟨inside, rfl, hinside⟩ := h
  have hblock : IsNested ('\x7b' :: (inside ++ ['\x7d'])) := .block rfl hinside .nil
  exact hblock.openedBehind_eq opened

/-- The stub is a nested block. -/
theorem isNestedBlock_stubBody : IsNestedBlock stubBody :=
  ⟨" loop \x7b\x7d ".toList, rfl, by decide⟩

/-! ## Nested texts are cut at nested blocks -/

/-- The body of a function is a body. -/
theorem IsFunctionBody.isBody {front before after : List Char}
    (h : IsFunctionBody front before body after) : IsBody body after := by
  induction h with
  | here h => exact h.isBody
  | there _ _ ih => exact ih

namespace Cut

/-- Everything that gives way is a nested block. -/
def DropsBlocks (cut : Cut) : Prop :=
  ∀ before body after, cut.HasBody before body after → IsNestedBlock body

/-- Nested blocks give way to nested blocks, so the same brackets are open behind the text and
behind its stubs. -/
theorem DropsBlocks.openedBehind_stubbed {cut : Cut} (h : cut.DropsBlocks) (opened : List Char) :
    openedBehind opened cut.stubbed = openedBehind opened cut.text := by
  induction cut generalizing opened with
  | last kept => rfl
  | stub kept body rest ih =>
    have hbody : IsNestedBlock body := h _ _ _ .here
    have hrest : rest.DropsBlocks := fun before other after hother => h _ _ _ (.there hother)
    rw [stubbed, text, openedBehind_append, openedBehind_append]
    refine Option.bind_congr fun last _ => ?_
    rw [openedBehind_append, openedBehind_append, isNestedBlock_stubBody.openedBehind_eq,
      hbody.openedBehind_eq, Option.bind_some, Option.bind_some, ih hrest]

/-- The blocks that are cut out of a nested text are nested. -/
theorem IsCutOf.dropsBlocks {cut : Cut} (hcut : cut.IsCutOf [] cs) (h : IsNested cs) :
    cut.DropsBlocks := by
  intro before body after hbody
  obtain ⟨rfl, hfunction⟩ := (hcut.hasBody_iff before body after).mp hbody
  have hopened := isNested_iff.mp h
  rw [openedBehind_append] at hopened
  obtain ⟨opened, -, hopened⟩ := Option.bind_eq_some_iff.mp hopened
  exact hfunction.isBody.isNestedBlock hopened

end Cut

/-- The brackets of a text are nested exactly if those of the stubbed text are, and all that is
dropped are nested blocks in braces. -/
theorem isNested_stubBodies_iff (source : String) :
    ∃ cut : Cut, cut.IsCutOf [] source.toList ∧ stubBodies source = String.ofList cut.stubbed ∧
      (IsNested source.toList ↔ cut.DropsBlocks ∧ IsNested (stubBodies source).toList) := by
  obtain ⟨cut, hcut, hstubbed⟩ := exists_cut [] source.toList
  have hstubs : (stubBodies source).toList = cut.stubbed := (toList_stubBodies source).trans hstubbed
  refine ⟨cut, hcut, by rw [← hstubs, String.ofList_toList], ?_⟩
  have hsame (h : cut.DropsBlocks) : IsNested (stubBodies source).toList ↔ IsNested source.toList := by
    rw [isNested_iff, isNested_iff, hstubs, h.openedBehind_stubbed, hcut.text]
  constructor
  · intro h
    have hblocks := hcut.dropsBlocks h
    exact ⟨hblocks, (hsame hblocks).mpr h⟩
  · rintro ⟨hblocks, hnested⟩
    exact (hsame hblocks).mp hnested

end FlatCrate.Source
