import FlatCrate.Proofs.Source.Item

/-!
# What stubbing keeps

Every text can be cut into bodies of functions and what stands between them in exactly one way, and
stubbing writes a stub for each of the bodies and copies the rest. The bodies are those of the
functions that are met when the text is read item by item. A `fn` in a comment, in a signature or in
another body is passed over with the item that it stands in, and begins no function.
-/

namespace FlatCrate.Source

/-- A function with a body, between what stands in front of it and the rest of a text. -/
structure IsFunction (front sig body rest : List Char) : Prop where
  boundary : atBoundary front = true
  heading : IsHeading sig
  isBody : IsBody body rest

/-- The body of a function that is met when a text is read on behind `front`, item by item. The text
is `before`, the body and `after`. -/
inductive IsFunctionBody : (front before body after : List Char) → Prop
  | here {front sig body after : List Char} (h : IsFunction front sig body after) :
      IsFunctionBody front ("fn ".toList ++ sig) body after
  | there {front item before body after : List Char}
      (hitem : IsItem front item (before ++ (body ++ after)))
      (h : IsFunctionBody (front ++ item) before body after) :
      IsFunctionBody front (item ++ before) body after

/-- A text in pieces: what is kept, and the bodies that give way to a stub. -/
inductive Cut
  /-- All of the text is kept. -/
  | last (kept : List Char)
  /-- A body gives way behind a text that is kept, and the rest is cut as well. -/
  | stub (kept body : List Char) (rest : Cut)

namespace Cut

/-- The text that is cut. -/
def text : Cut → List Char
  | .last kept => kept
  | .stub kept body rest => kept ++ (body ++ rest.text)

/-- The text with a stub in place of every body. -/
def stubbed : Cut → List Char
  | .last kept => kept
  | .stub kept _ rest => kept ++ (stubBody ++ rest.stubbed)

/-- A body that gives way, with all of the text that stands before and after it. -/
inductive HasBody : Cut → (before body after : List Char) → Prop
  | here {kept body : List Char} {rest : Cut} : HasBody (.stub kept body rest) kept body rest.text
  | there {kept body before other after : List Char} {rest : Cut}
      (h : HasBody rest before other after) :
      HasBody (.stub kept body rest) (kept ++ (body ++ before)) other after

/-- The cut of a text with something more to keep at its start. -/
def keep (item : List Char) : Cut → Cut
  | .last kept => .last (item ++ kept)
  | .stub kept body rest => .stub (item ++ kept) body rest

/-- The bodies of a cut are exactly those of the functions of a text that goes on behind `front`. -/
structure IsCutOf (cut : Cut) (front cs : List Char) : Prop where
  text : cut.text = cs
  hasBody_iff : ∀ before body after, cut.HasBody before body after ↔
    before ++ (body ++ after) = cs ∧ IsFunctionBody front before body after

end Cut

variable {front item rest before sig body after line cs : List Char} {c : Char}

/-- A function has the tail that its body is. -/
theorem IsFunction.isTail (h : IsFunction front sig body rest) : IsTail sig body rest :=
  .body h.heading h.isBody

/-- A function is an item. -/
theorem IsFunction.isItem (h : IsFunction front sig body rest) :
    IsItem front ("fn ".toList ++ (sig ++ body)) rest :=
  .function h.boundary h.isTail

/-! ## What the pass writes for an item -/

/-- A function starts with its keyword and a space. -/
theorem startsFunction_iff : startsFunction c rest = true ↔ "fn ".toList <+: c :: rest := by
  rw [startsFunction, Bool.and_eq_true, beq_iff_eq, List.isPrefixOf_iff_prefix, eq_comm]
  exact List.cons_prefix_cons.symm

/-- A comment starts with two slashes. -/
theorem startsComment_iff : startsComment c rest = true ↔ "//".toList <+: c :: rest := by
  rw [startsComment_eq_isPrefixOf, Bool.and_eq_true, beq_iff_eq, List.isPrefixOf_iff_prefix,
    eq_comm]
  exact List.cons_prefix_cons.symm

/-- Whether a function may begin behind an item does not depend on what stands in front of it. -/
theorem atBoundary_append (front : List Char) (hitem : item ≠ []) :
    atBoundary (front ++ item) = atBoundary item := by
  rw [atBoundary, atBoundary, List.getLast?_append_of_ne_nil front hitem]

/-- Whether a text ends at a boundary is told by its last character. -/
theorem atBoundary_concat (cs : List Char) (c : Char) :
    atBoundary (cs ++ [c]) = Text.isBlank c := by
  rw [atBoundary, List.getLast?_concat, Option.all_some]

/-- The same for a text in three parts. -/
theorem atBoundary_append_concat (front first second : List Char) (c : Char) :
    atBoundary (front ++ (first ++ (second ++ [c]))) = Text.isBlank c := by
  rw [← List.append_assoc, ← List.append_assoc, atBoundary_concat]

/-- A character at which neither a function nor a comment begins is copied. -/
theorem stubFrom_plain {boundary : Bool}
    (hfunction : boundary = true → ¬"fn ".toList <+: c :: rest)
    (hcomment : ¬"//".toList <+: c :: rest) :
    stubFrom (.item boundary) (c :: rest) = c :: stubFrom (.item (Text.isBlank c)) rest := by
  have hnext : (StubMode.item boundary).next c rest = .item (Text.isBlank c) := by
    rw [StubMode.next, if_neg, if_neg (startsComment_iff.not.mpr hcomment)]
    rw [Bool.and_eq_true, startsFunction_iff, not_and]
    exact hfunction
  rw [stubFrom, hnext]
  rfl

/-- The text of a comment is copied. -/
theorem stubFrom_comment {text : List Char} (h : '\n' ∉ text) (rest : List Char) :
    stubFrom .comment (text ++ rest) = text ++ stubFrom .comment rest := by
  induction text with
  | nil => rfl
  | cons c text ih =>
    rw [List.mem_cons, not_or] at h
    have hnext : StubMode.comment.next c (text ++ rest) = .comment := by
      rw [StubMode.next, beq_eq_false_iff_ne.mpr (Ne.symm h.1)]
      rfl
    rw [List.cons_append, stubFrom, hnext, ih h.2]
    rfl

/-- A comment is copied with its line, and a boundary follows. -/
theorem stubFrom_of_isLine (h : IsLine line rest) (boundary : Bool) :
    stubFrom (.item boundary) ("//".toList ++ (line ++ rest)) =
      "//".toList ++ (line ++ stubFrom (.item true) rest) := by
  have hopens : stubFrom (.item boundary) ("//".toList ++ (line ++ rest)) =
      "//".toList ++ stubFrom .comment (line ++ rest) := by
    cases boundary <;> rfl
  rw [hopens]
  rcases h with ⟨text, rfl, htext⟩ | ⟨hline, rfl⟩
  · rw [List.append_assoc, stubFrom_comment htext, List.append_assoc]
    rfl
  · rw [stubFrom_comment hline]
    rfl

/-- A body gives way to the stub. -/
theorem stubFrom_of_isBody (h : IsBody body rest) :
    stubFrom (.signature 0) (body ++ rest) = stubBody ++ stubFrom (.item false) rest := by
  rcases h with ⟨inside, c, rfl, hinside, hc⟩ | ⟨⟨inside, depth, rfl, hinside⟩, rfl⟩
  · have hclose : openAfter 0 c = none := openAfter_eq_none_iff.mpr ⟨rfl, hc⟩
    rw [List.cons_append, stubFrom_of_opensBody ⟨rfl, rfl⟩, List.append_assoc,
      stubFrom_body hinside, List.singleton_append, stubFrom_body_close hclose]
  · rw [List.cons_append, stubFrom_of_opensBody ⟨rfl, rfl⟩, stubFrom_body hinside]
    rfl

/-- A closing bracket is not blank. -/
theorem isBlank_eq_false_of_isCloser (h : isCloser c = true) : Text.isBlank c = false := by
  obtain (rfl | rfl) | rfl : (c = ')' ∨ c = ']') ∨ c = '\x7d' := by simpa [isCloser] using h
  all_goals rfl

/-- No function begins immediately behind a body. -/
theorem IsBody.atBoundary (h : IsBody body rest) : rest = [] ∨ atBoundary body = false := by
  rcases h with ⟨inside, c, rfl, -, hc⟩ | ⟨-, rfl⟩
  · rw [← List.cons_append, atBoundary_concat]
    exact .inr (isBlank_eq_false_of_isCloser hc)
  · exact .inl rfl

/-- The body of a function gives way to the stub, and the pass reads on behind it. -/
theorem stubFrom_of_isFunction (h : IsFunction front sig body rest) :
    stubFrom (.item (atBoundary front)) ("fn ".toList ++ (sig ++ (body ++ rest))) =
      "fn ".toList ++ (sig ++ (stubBody ++
        stubFrom (.item (atBoundary (front ++ ("fn ".toList ++ (sig ++ body))))) rest)) := by
  obtain ⟨inside, hinside⟩ := h.isBody.exists_eq_cons
  have hbody : body ≠ [] := hinside ▸ List.cons_ne_nil _ _
  have hhead : (body ++ rest).head? ≠ some '/' := by simp [hinside]
  have hbehind : stubFrom (.item (atBoundary (front ++ ("fn ".toList ++ (sig ++ body))))) rest =
      stubFrom (.item false) rest := by
    rw [← List.append_assoc, ← List.append_assoc, atBoundary_append _ hbody]
    obtain rfl | hboundary := h.isBody.atBoundary
    · rfl
    · rw [hboundary]
  rw [h.boundary, stubFrom_of_isHeading h.heading hhead, stubFrom_of_isBody h.isBody, hbehind]

/-- Every item that is no function with a body is copied. -/
theorem stubFrom_of_isItem (h : IsItem front item rest)
    (hkept : ∀ sig body, IsFunction front sig body rest → item ≠ "fn ".toList ++ (sig ++ body)) :
    stubFrom (.item (atBoundary front)) (item ++ rest) =
      item ++ stubFrom (.item (atBoundary (front ++ item))) rest := by
  cases h with
  | plain hfunction hcomment =>
    rw [atBoundary_concat]
    exact stubFrom_plain hfunction hcomment
  | comment hline =>
    rw [List.append_assoc, List.append_assoc, stubFrom_of_isLine hline]
    rcases hline with ⟨text, rfl, -⟩ | ⟨-, rfl⟩
    · rw [atBoundary_append_concat]
      rfl
    · rfl
  | @function sig _ _ hboundary htail =>
    cases htail with
    | semicolon hsig =>
      rw [hboundary, atBoundary_append_concat, List.append_assoc, List.append_assoc,
        List.append_assoc, List.append_assoc, stubFrom_of_isHeading hsig (by simp)]
      rfl
    | body hsig hbody => exact absurd rfl (hkept _ _ ⟨hboundary, hsig, hbody⟩)
    | missing hsig =>
      rw [hboundary, List.append_assoc, List.append_assoc]
      exact (stubFrom_of_hasNoEnd hsig (by simp)).trans (List.append_nil _).symm

/-! ## The bodies of a text -/

namespace IsFunctionBody

/-- A body that is met is that of the first item, or it is met behind that item. -/
theorem eq_or_exists (h : IsFunctionBody front before body after) (hitem : IsItem front item rest)
    (heq : before ++ (body ++ after) = item ++ rest) :
    (∃ sig, IsFunction front sig body after ∧ before = "fn ".toList ++ sig ∧
      item = "fn ".toList ++ (sig ++ body) ∧ rest = after) ∨
    ∃ behind, before = item ++ behind ∧ behind ++ (body ++ after) = rest ∧
      IsFunctionBody (front ++ item) behind body after := by
  cases h with
  | @here _ sig _ _ h =>
    have hwhole : item ++ rest = "fn ".toList ++ (sig ++ body) ++ after := by
      rw [← heq]
      simp only [List.append_assoc]
    obtain rfl := hitem.unique h.isItem hwhole
    exact .inl ⟨sig, h, rfl, rfl, List.append_cancel_left hwhole⟩
  | @there _ first behind _ _ hfirst h =>
    rw [List.append_assoc] at heq
    obtain rfl := hitem.unique hfirst heq.symm
    exact .inr ⟨behind, rfl, List.append_cancel_left heq, h⟩

/-- The body of a function is not empty. -/
theorem body_ne_nil (h : IsFunctionBody front before body after) : body ≠ [] := by
  induction h with
  | here h =>
    obtain ⟨inside, hinside⟩ := h.isBody.exists_eq_cons
    exact hinside ▸ List.cons_ne_nil _ _
  | there _ _ ih => exact ih

end IsFunctionBody

/-! ## Cutting a text -/

namespace Cut

variable {cut other : Cut}

/-- An item that is kept comes first in the text. -/
@[simp] theorem text_keep (item : List Char) (cut : Cut) :
    (cut.keep item).text = item ++ cut.text := by
  cases cut with
  | last kept => rfl
  | stub kept body rest => exact List.append_assoc _ _ _

/-- An item that is kept comes first in the text with stubs. -/
@[simp] theorem stubbed_keep (item : List Char) (cut : Cut) :
    (cut.keep item).stubbed = item ++ cut.stubbed := by
  cases cut with
  | last kept => rfl
  | stub kept body rest => exact List.append_assoc _ _ _

/-- A text that is all kept has no bodies. -/
theorem hasBody_last (kept : List Char) : ¬(last kept).HasBody before body after := by
  rintro ⟨⟩

/-- The bodies of a cut are the first one and those of the rest. -/
theorem hasBody_stub {kept first : List Char} {rest : Cut} :
    (stub kept first rest).HasBody before body after ↔
      before = kept ∧ body = first ∧ after = rest.text ∨
        ∃ behind, before = kept ++ (first ++ behind) ∧ rest.HasBody behind body after := by
  constructor
  · rintro (_ | h)
    · exact .inl ⟨rfl, rfl, rfl⟩
    · exact .inr ⟨_, rfl, h⟩
  · rintro (⟨rfl, rfl, rfl⟩ | ⟨behind, rfl, h⟩)
    · exact .here
    · exact .there h

/-- An item in front does not add a body. -/
theorem hasBody_keep : (cut.keep item).HasBody before body after ↔
    ∃ behind, before = item ++ behind ∧ cut.HasBody behind body after := by
  cases cut with
  | last kept => simp [keep, hasBody_last]
  | stub kept first rest =>
    rw [keep, hasBody_stub]
    simp only [hasBody_stub]
    constructor
    · rintro (⟨rfl, hrest⟩ | ⟨behind, rfl, h⟩)
      · exact ⟨kept, rfl, .inl ⟨rfl, hrest⟩⟩
      · exact ⟨_, List.append_assoc _ _ _, .inr ⟨behind, rfl, h⟩⟩
    · rintro ⟨_, rfl, ⟨rfl, hrest⟩ | ⟨behind, rfl, h⟩⟩
      · exact .inl ⟨rfl, hrest⟩
      · exact .inr ⟨behind, (List.append_assoc _ _ _).symm, h⟩

/-- The bodies behind a stub are those of the rest. -/
theorem hasBody_stub_append {kept first behind : List Char} {rest : Cut} (hfirst : first ≠ []) :
    (stub kept first rest).HasBody (kept ++ (first ++ behind)) body after ↔
      rest.HasBody behind body after := by
  rw [hasBody_stub]
  constructor
  · rintro (⟨hkept, -⟩ | ⟨behind', heq, h⟩)
    · simp [hfirst] at hkept
    · rwa [List.append_cancel_left (List.append_cancel_left heq)]
  · exact fun h => .inr ⟨behind, rfl, h⟩

/-- A cut is known from its text and its bodies, if these are not empty. -/
theorem eq_of_hasBody_iff (htext : cut.text = other.text)
    (hne : ∀ before body after, cut.HasBody before body after → body ≠ [])
    (h : ∀ before body after, cut.HasBody before body after ↔ other.HasBody before body after) :
    cut = other := by
  induction cut generalizing other with
  | last kept =>
    cases other with
    | last kept' => exact congrArg last htext
    | stub => exact absurd ((h _ _ _).mpr .here) (hasBody_last kept)
  | stub kept first rest ih =>
    cases other with
    | last kept' => exact absurd ((h _ _ _).mp .here) (hasBody_last kept')
    | stub kept' first' rest' =>
      have hfirst : first ≠ [] := hne _ _ _ .here
      -- each of the two begins with the body that comes first in the other
      obtain ⟨rfl, rfl⟩ : kept = kept' ∧ first = first' := by
        obtain ⟨hkept, hbody, -⟩ | ⟨behind, hkept, -⟩ := hasBody_stub.mp ((h _ _ _).mp .here)
        · exact ⟨hkept, hbody⟩
        · obtain ⟨hkept', hbody, -⟩ | ⟨behind', hkept', -⟩ :=
            hasBody_stub.mp ((h _ _ _).mpr .here)
          · exact ⟨hkept'.symm, hbody.symm⟩
          · have hlength := congrArg List.length hkept
            have hlength' := congrArg List.length hkept'
            have hpos := List.length_pos_of_ne_nil hfirst
            simp only [List.length_append] at hlength hlength'
            omega
      have hrest : rest = rest' := by
        apply ih
        · exact List.append_cancel_left (List.append_cancel_left htext)
        · exact fun before body after hbody => hne _ _ _ (.there hbody)
        · intro before body after
          rw [← hasBody_stub_append hfirst, h, hasBody_stub_append hfirst]
      rw [hrest]

namespace IsCutOf

/-- Nothing is cut in the empty way. -/
theorem nil (front : List Char) : (last []).IsCutOf front [] := by
  refine ⟨rfl, fun before body after => iff_of_false (hasBody_last []) ?_⟩
  rintro ⟨heq, h⟩
  simp [h.body_ne_nil] at heq

/-- An item that is no function with a body is kept. -/
theorem keep (hitem : IsItem front item rest)
    (hkept : ∀ sig body, IsFunction front sig body rest → item ≠ "fn ".toList ++ (sig ++ body))
    (h : cut.IsCutOf (front ++ item) rest) : (cut.keep item).IsCutOf front (item ++ rest) := by
  refine ⟨by rw [text_keep, h.text], fun before body after => ?_⟩
  rw [hasBody_keep]
  constructor
  · rintro ⟨behind, rfl, hbody⟩
    obtain ⟨rfl, hfunction⟩ := (h.hasBody_iff _ _ _).mp hbody
    exact ⟨List.append_assoc _ _ _, .there hitem hfunction⟩
  · rintro ⟨heq, hfunction⟩
    obtain ⟨sig, hfirst, -, hbody, rfl⟩ | ⟨behind, rfl, hrest, hbehind⟩ :=
      hfunction.eq_or_exists hitem heq
    · exact absurd hbody (hkept sig body hfirst)
    · exact ⟨behind, rfl, (h.hasBody_iff _ _ _).mpr ⟨hrest, hbehind⟩⟩

/-- The body of a function gives way. -/
theorem stub (hfirst : IsFunction front sig body rest)
    (h : cut.IsCutOf (front ++ ("fn ".toList ++ (sig ++ body))) rest) :
    (Cut.stub ("fn ".toList ++ sig) body cut).IsCutOf front
      ("fn ".toList ++ (sig ++ (body ++ rest))) := by
  have hassoc (behind : List Char) : "fn ".toList ++ sig ++ (body ++ behind) =
      "fn ".toList ++ (sig ++ body) ++ behind := by
    simp only [List.append_assoc]
  refine ⟨by rw [Cut.text, h.text, List.append_assoc], fun before other after => ?_⟩
  rw [hasBody_stub, h.text]
  constructor
  · rintro (⟨rfl, rfl, rfl⟩ | ⟨behind, rfl, hbody⟩)
    · exact ⟨List.append_assoc _ _ _, .here hfirst⟩
    · obtain ⟨rfl, hfunction⟩ := (h.hasBody_iff _ _ _).mp hbody
      rw [hassoc]
      exact ⟨by simp only [List.append_assoc], .there hfirst.isItem hfunction⟩
  · rintro ⟨heq, hfunction⟩
    have hwhole : before ++ (other ++ after) = "fn ".toList ++ (sig ++ body) ++ rest := by
      rw [heq]
      simp only [List.append_assoc]
    obtain ⟨sig', hfirst', rfl, hbody, rfl⟩ | ⟨behind, rfl, hrest, hbehind⟩ :=
      hfunction.eq_or_exists hfirst.isItem hwhole
    · have hcode := congrArg (· ++ rest) (List.append_cancel_left hbody)
      simp only [List.append_assoc] at hcode
      obtain ⟨rfl, rfl⟩ := hfirst.isTail.unique hfirst'.isTail hcode
      exact .inl ⟨rfl, rfl, rfl⟩
    · exact .inr ⟨behind, (hassoc behind).symm, (h.hasBody_iff _ _ _).mpr ⟨hrest, hbehind⟩⟩

/-- A text is cut in one way only. -/
theorem unique (h : cut.IsCutOf front cs) (h' : other.IsCutOf front cs) : cut = other := by
  apply eq_of_hasBody_iff
  · rw [h.text, h'.text]
  · exact fun before body after hbody => ((h.hasBody_iff _ _ _).mp hbody).2.body_ne_nil
  · intro before body after
    rw [h.hasBody_iff, h'.hasBody_iff]

end IsCutOf

end Cut

/-- Behind any text there is a cut of the rest, and the pass writes its stubs. -/
theorem exists_cut (front cs : List Char) :
    ∃ cut : Cut, cut.IsCutOf front cs ∧ stubFrom (.item (atBoundary front)) cs = cut.stubbed := by
  induction hlength : cs.length using Nat.strong_induction_on generalizing front cs with
  | h length ih =>
    subst hlength
    by_cases hcs : cs = []
    · subst hcs
      exact ⟨.last [], .nil front, rfl⟩
    · obtain ⟨item, rest, rfl, hitem⟩ := exists_item front hcs
      have hless : rest.length < (item ++ rest).length := by
        have hpos := List.length_pos_of_ne_nil hitem.ne_nil
        rw [List.length_append]
        omega
      obtain ⟨cut, hcut, hstubbed⟩ := ih rest.length hless (front ++ item) rest rfl
      by_cases hfunction : ∃ sig body, IsFunction front sig body rest ∧
          item = "fn ".toList ++ (sig ++ body)
      · obtain ⟨sig, body, hfirst, rfl⟩ := hfunction
        refine ⟨.stub ("fn ".toList ++ sig) body cut, ?_, ?_⟩
        · simp only [List.append_assoc]
          exact .stub hfirst hcut
        · simp only [List.append_assoc, Cut.stubbed]
          rw [stubFrom_of_isFunction hfirst, hstubbed]
      · have hkept : ∀ sig body, IsFunction front sig body rest →
            item ≠ "fn ".toList ++ (sig ++ body) := by
          intro sig body hfirst heq
          exact hfunction ⟨sig, body, hfirst, heq⟩
        refine ⟨cut.keep item, .keep hitem hkept hcut, ?_⟩
        rw [stubFrom_of_isItem hitem hkept, hstubbed, Cut.stubbed_keep]

/-- A text is cut at the bodies of its functions in exactly one way, and stubbing writes a stub for
each of these bodies and copies everything else. -/
theorem stubBodies_eq_stubbed (source : String) :
    ∃ cut : Cut, cut.IsCutOf [] source.toList ∧ stubBodies source = String.ofList cut.stubbed ∧
      ∀ other : Cut, other.IsCutOf [] source.toList → other = cut := by
  obtain ⟨cut, hcut, hstubbed⟩ := exists_cut [] source.toList
  refine ⟨cut, hcut, ?_, fun other hother => hother.unique hcut⟩
  rw [← String.toList_inj, toList_stubBodies, String.toList_ofList, ← hstubbed]
  rfl

example : stubBodies "fn f(a: A); fn g() // \x7b\n \x7b h(); \x7d // fn k() \x7b\n mod m;" =
    "fn f(a: A); fn g() // \x7b\n \x7b loop \x7b\x7d \x7d // fn k() \x7b\n mod m;" := by
  decide +kernel

end FlatCrate.Source
