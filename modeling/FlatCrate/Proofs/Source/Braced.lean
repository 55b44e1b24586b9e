import FlatCrate.Proofs.Source.Item

/-!
# Braces in signatures

A braced expression may stand in a signature, as among the generic arguments of a return type or of
a where clause. The brackets that keep its brace apart from the brace of the body are the round, the
square and the curly ones; angle brackets count for nothing. So a signature survives exactly if each
of its braces stands in one of the brackets that count. Otherwise the first brace that does not is
taken for the body: its expression gives way to the stub, and the real body stays in the text.
-/

namespace FlatCrate.Source

variable {sig front inside behind : List Char}

/-- A signature with braces anywhere: its comments are ended, its code is balanced, no semicolon
stands outside of brackets and comments, and the first brace that does begins an expression whose
brackets are balanced. -/
structure IsBracedSignature (sig : List Char) : Prop where
  ended : endsInside false sig = false
  balanced : IsBalanced (dropComments false sig)
  plain : ∀ c ∈ unnested 0 (dropComments false sig), c ≠ ';'
  expression : ∀ front rest, sig = front ++ '\x7b' :: rest → IsSignature front →
    ∃ inside behind, rest = inside ++ '\x7d' :: behind ∧ IsBalanced inside

/-- What stands in front of a brace outside of brackets is a signature, too. -/
theorem IsBracedSignature.isSignature_front {rest : List Char}
    (h : IsBracedSignature (front ++ '\x7b' :: rest)) (hfront : IsHeading front) :
    IsSignature front := by
  refine ⟨hfront.ended, ?_, hfront.noEnd⟩
  have hbalanced := h.balanced
  rw [IsBalanced, hfront.dropComments_append (.inl rfl), openBehind_append,
    Option.bind_eq_some_iff] at hbalanced
  obtain ⟨depth, hdepth, -⟩ := hbalanced
  rw [IsBalanced, hdepth, ← depthBehind_of_openBehind hdepth, hfront.closed]

/-- Either no brace stands outside of brackets, or the first one begins an expression. -/
theorem IsBracedSignature.isSignature_or_exists (h : IsBracedSignature sig) :
    IsSignature sig ∨ ∃ front inside behind,
      sig = front ++ '\x7b' :: (inside ++ '\x7d' :: behind) ∧ IsSignature front ∧
        IsBalanced inside := by
  obtain ⟨front, c, rest, rfl, hc, hended, hclosed, hnoEnd⟩ | hnoEnd := exists_end false 0 sig
  · have hheading : IsHeading front := ⟨hended, hclosed, hnoEnd⟩
    obtain rfl | rfl := hc
    · have hfront := h.isSignature_front hheading
      obtain ⟨inside, behind, rfl, hinside⟩ := h.expression front rest rfl hfront
      exact .inr ⟨front, inside, behind, rfl, hfront, hinside⟩
    · exact absurd rfl (h.plain ';' (hheading.mem_unnested (.inr rfl) rest))
  · exact .inl ⟨h.ended, h.balanced, hnoEnd⟩

/-- There is only one first brace outside of brackets. -/
theorem IsHeading.eq_of_append {front' rest rest' : List Char} (h : IsHeading front)
    (h' : IsHeading front') (heq : front ++ '\x7b' :: rest = front' ++ '\x7b' :: rest') :
    front = front' ∧ rest = rest' := by
  have hlength : front.length = front'.length :=
    le_antisymm (h'.length_le (.inl rfl) h.noEnd heq.symm) (h.length_le (.inl rfl) h'.noEnd heq)
  obtain ⟨hfront, hcons⟩ := List.append_inj heq hlength
  exact ⟨hfront, (List.cons.inj hcons).2⟩

/-- A signature without braces outside of brackets is one of these. -/
theorem IsSignature.isBracedSignature (h : IsSignature sig) : IsBracedSignature sig where
  ended := h.ended
  balanced := h.balanced
  plain := fun c hc => (h.plain c hc).2
  expression := by
    rintro front rest rfl hfront
    exact absurd rfl (h.plain '\x7b' (hfront.isHeading.mem_unnested (.inl rfl) rest)).1

/-! ## Functions with such signatures -/

/-- A signature with an expression in braces in it. -/
def bracedSignature (front inside behind : String) : String :=
  front ++ "\x7b" ++ inside ++ "\x7d" ++ behind

/-- A signature with braces, character by character. -/
theorem toList_bracedSignature (front inside behind : String) :
    (bracedSignature front inside behind).toList =
      front.toList ++ '\x7b' :: (inside.toList ++ '\x7d' :: behind.toList) := by
  simp [bracedSignature]

/-- A signature may hold an expression that is the first one outside of brackets. -/
theorem isBracedSignature_bracedSignature {front inside behind : String}
    (hfront : IsSignature front.toList) (hinside : IsBalanced inside.toList)
    (hended : endsInside false (bracedSignature front inside behind).toList = false)
    (hbalanced : IsBalanced (dropComments false (bracedSignature front inside behind).toList))
    (hplain : ∀ c ∈ unnested 0 (dropComments false (bracedSignature front inside behind).toList),
      c ≠ ';') :
    IsBracedSignature (bracedSignature front inside behind).toList where
  ended := hended
  balanced := hbalanced
  plain := hplain
  expression := by
    intro other rest heq hother
    rw [toList_bracedSignature] at heq
    obtain ⟨-, rfl⟩ := hfront.isHeading.eq_of_append hother.isHeading heq
    exact ⟨_, _, rfl, hinside⟩

/-- The signature of a function is kept, and its body gives way to the stub. -/
def KeepsSignature (before sig body after : String) : Prop :=
  stubBodies (before ++ functionItem sig body ++ after) =
    stubBodies before ++ functionItem sig stubInside ++ stubBehind after

/-- A signature without such braces is kept. -/
theorem keepsSignature_of_isSignature {before sig body : String} (hbefore : EndsAtBoundary before)
    (hsig : IsSignature sig.toList) (hbody : IsBalanced body.toList) (after : String) :
    KeepsSignature before sig body after :=
  (stubBodies_functionItem_eq_iff hbefore hsig body after).mpr
    (stubFrom_body_iff.mpr hbody after.toList)

/-- A function with a brace outside of brackets is read as one whose body is the expression behind
that brace. -/
theorem functionItem_bracedSignature (front inside behind body : String) :
    functionItem (bracedSignature front inside behind) body =
      functionItem front inside ++ (behind ++ "\x7b" ++ body ++ "\x7d") := by
  simp [functionItem, bracedSignature, String.append_assoc]

/-- The first expression in braces outside of brackets gives way to the stub, and what follows it is
read as text behind the function. -/
theorem stubBodies_bracedSignature {before front inside : String} (hbefore : EndsAtBoundary before)
    (hfront : IsSignature front.toList) (hinside : IsBalanced inside.toList)
    (behind body after : String) :
    stubBodies (before ++ functionItem (bracedSignature front inside behind) body ++ after) =
      stubBodies before ++ functionItem front stubInside ++
        stubBehind (behind ++ "\x7b" ++ body ++ "\x7d" ++ after) := by
  have hread : KeepsSignature before front inside (behind ++ "\x7b" ++ body ++ "\x7d" ++ after) :=
    keepsSignature_of_isSignature hbefore hfront hinside _
  rw [functionItem_bracedSignature, ← hread]
  simp only [String.append_assoc]

/-- A balanced text between braces is a block. -/
theorem isBlock_of_isBalanced {inside : List Char} (h : IsBalanced inside) :
    IsBlock ('\x7b' :: (inside ++ ['\x7d'])) :=
  ⟨inside, '\x7d', rfl, h, rfl⟩

/-- Such a signature is not kept, unless the expression is the stub itself. -/
theorem eq_stubInside_of_keepsSignature {before front inside behind body after : String}
    (hbefore : EndsAtBoundary before) (hfront : IsSignature front.toList)
    (hinside : IsBalanced inside.toList)
    (h : KeepsSignature before (bracedSignature front inside behind) body after) :
    inside = stubInside := by
  rw [KeepsSignature, stubBodies_bracedSignature hbefore hfront hinside,
    functionItem_bracedSignature, ← String.toList_inj] at h
  simp only [String.toList_append, toList_functionItem, List.append_assoc,
    List.append_cancel_left_eq] at h
  have hstub : IsBalanced stubInside.toList := by decide
  have hblock := (isBlock_of_isBalanced hstub).unique (isBlock_of_isBalanced hinside)
    (by simpa using h)
  apply String.toList_injective
  simpa using hblock.symm

/-- The signature of a function is kept, and only the body gives way to the stub, if every brace of
the signature stands in round, square or curly brackets. Otherwise it is kept only if the first
expression outside of them is the stub already. In any case such an expression gives way to the
stub, and what follows it, with the body, is read as text behind the function. -/
theorem keepsSignature_of_braced {before sig body : String} (hbefore : EndsAtBoundary before)
    (hsig : IsBracedSignature sig.toList) (hbody : IsBalanced body.toList) (after : String) :
    (IsSignature sig.toList → KeepsSignature before sig body after) ∧
    (KeepsSignature before sig body after → IsSignature sig.toList ∨
      ∃ front behind, sig = bracedSignature front stubInside behind ∧
        IsSignature front.toList) ∧
    ∀ front inside behind, sig = bracedSignature front inside behind → IsSignature front.toList →
      IsBalanced inside.toList →
      stubBodies (before ++ functionItem sig body ++ after) =
        stubBodies before ++ functionItem front stubInside ++
          stubBehind (behind ++ "\x7b" ++ body ++ "\x7d" ++ after) := by
  refine ⟨fun hnested => keepsSignature_of_isSignature hbefore hnested hbody after,
    fun hkeeps => ?_, ?_⟩
  · obtain hnested | ⟨front, inside, behind, heq, hfront, hinside⟩ := hsig.isSignature_or_exists
    · exact .inl hnested
    · have hbraced : sig = bracedSignature (.ofList front) (.ofList inside) (.ofList behind) := by
        apply String.toList_injective
        simp [toList_bracedSignature, heq]
      rw [← String.toList_ofList (l := front)] at hfront
      rw [← String.toList_ofList (l := inside)] at hinside
      rw [hbraced] at hkeeps
      have hstub := eq_stubInside_of_keepsSignature hbefore hfront hinside hkeeps
      exact .inr ⟨_, _, hstub ▸ hbraced, hfront⟩
  · rintro front inside behind rfl hfront hinside
    exact stubBodies_bracedSignature hbefore hfront hinside behind body after

/-- Expressions among generic arguments that stand in square brackets. -/
theorem keepsSignature_of_braced_nested :
    EndsAtBoundary "impl S \x7b\n  pub " ∧
      IsBracedSignature "f() -> [A<\x7b N \x7d>; 2] where B<[(); \x7b M \x7d]>: C ".toList ∧
      IsBalanced " secret() ".toList ∧
      KeepsSignature "impl S \x7b\n  pub "
        "f() -> [A<\x7b N \x7d>; 2] where B<[(); \x7b M \x7d]>: C " " secret() " "\n\x7d" := by
  have hbefore : EndsAtBoundary "impl S \x7b\n  pub " := by decide +kernel
  have hsig : IsSignature
      "f() -> [A<\x7b N \x7d>; 2] where B<[(); \x7b M \x7d]>: C ".toList :=
    ⟨by decide +kernel, by decide +kernel, List.forall_iff_forall_mem.mp (by decide +kernel)⟩
  have hbody : IsBalanced " secret() ".toList := by decide
  exact ⟨hbefore, hsig.isBracedSignature, hbody,
    (keepsSignature_of_braced hbefore hsig.isBracedSignature hbody "\n\x7d").1 hsig⟩

/-- An expression among the generic arguments of a return type is taken for the body, and the body is
left in the output. -/
theorem stubBodies_generic_argument :
    EndsAtBoundary "" ∧ IsBracedSignature (bracedSignature "f() -> A<" " N " "> ").toList ∧
      IsBalanced " secret() ".toList ∧
      stubBodies (functionItem (bracedSignature "f() -> A<" " N " "> ") " secret() ") =
        "fn f() -> A<\x7b loop \x7b\x7d \x7d> \x7b secret() \x7d" ∧
      ¬KeepsSignature "" (bracedSignature "f() -> A<" " N " "> ") " secret() " "" := by
  have hbefore : EndsAtBoundary "" := by decide
  have hfront : IsSignature "f() -> A<".toList :=
    ⟨by decide +kernel, by decide +kernel, List.forall_iff_forall_mem.mp (by decide +kernel)⟩
  have hinside : IsBalanced " N ".toList := by decide
  have hsig : IsBracedSignature (bracedSignature "f() -> A<" " N " "> ").toList :=
    isBracedSignature_bracedSignature hfront hinside (by decide +kernel) (by decide +kernel)
      (List.forall_iff_forall_mem.mp (by decide +kernel))
  refine ⟨hbefore, hsig, by decide, by decide +kernel, fun hkeeps => ?_⟩
  have hstub : " N " = stubInside := eq_stubInside_of_keepsSignature hbefore hfront hinside hkeeps
  exact absurd hstub (by decide)

end FlatCrate.Source
