import FlatCrate.Proofs.Source.Spliced

/-!
# Stubbing text by text

A text of whole lines is stubbed apart from what follows it, if no signature and no body is open at
its end: what the pass meets in it does not depend on the text behind it, and behind it the pass
begins anew. No other texts can be split off. In an open signature a brace behind the text begins a
body, and in an open body what stands behind the text is dropped.
-/

namespace FlatCrate.Source

variable {mode : StubMode} {cs rest : List Char}

/-- Neither a comment nor a function begins with a line feed. -/
theorem next_feed_congr (mode : StubMode) (rest other : List Char) :
    mode.next '\n' rest = mode.next '\n' other := by
  cases mode with
  | item boundary => cases boundary <;> rfl
  | _ => rfl

/-- What stands behind a text of whole lines is read in the mode in which the pass over these lines
ends, whatever it begins with. -/
theorem stubFrom_append_of_feed (hfeed : ∀ c ∈ cs.getLast?, c = '\n') (mode : StubMode)
    (rest : List Char) :
    stubFrom mode (cs ++ rest) = stubFrom mode cs ++ stubFrom (stubEnd mode cs) rest := by
  obtain rfl | ⟨lines, c, hlines⟩ := List.eq_nil_or_concat cs
  · rfl
  · rw [List.concat_eq_append] at hlines
    subst hlines
    obtain rfl : c = '\n' := hfeed c (by rw [List.getLast?_concat]; rfl)
    have hapart (behind : List Char) : StandsApart ('\n' :: behind) := by simp [StandsApart]
    rw [List.append_assoc, List.singleton_append, stubFrom_append (hapart rest),
      stubFrom_append (hapart []), stubEnd_append (hapart []), List.append_assoc]
    congr 1
    rw [stubFrom, stubFrom, stubEnd, next_feed_congr _ rest [], List.append_assoc]
    rfl

/-! ## Modes that are told apart -/

/-- Brackets that close those of a signature, and a brace behind them. -/
def closers (depth : Nat) : List Char := List.replicate depth ')' ++ ['\x7b']

/-- Between functions brackets are copied. -/
theorem stubFrom_closers (boundary : Bool) (depth : Nat) :
    stubFrom (.item boundary) (closers depth) = closers depth := by
  induction depth generalizing boundary with
  | zero => cases boundary <;> rfl
  | succ depth ih =>
    have hnext : (StubMode.item boundary).next ')' (closers depth) = .item false := by
      cases boundary <;> rfl
    rw [closers, List.replicate_succ, List.cons_append, ← closers, stubFrom, hnext, ih]
    rfl

/-- In a signature the brace behind them begins a body. -/
theorem stubFrom_signature_closers (depth : Nat) :
    stubFrom (.signature depth) (closers depth) = List.replicate depth ')' ++ stubBody := by
  induction depth with
  | zero => rfl
  | succ depth ih =>
    have hnext : (StubMode.signature (depth + 1)).next ')' (closers depth) = .signature depth := by
      rw [next_signature rfl (by simp)]
      rfl
    have hemit : (StubMode.signature (depth + 1)).emit ')' = [')'] := by simp [StubMode.emit]
    rw [closers, List.replicate_succ, List.cons_append, ← closers, stubFrom, hnext, hemit, ih]
    rfl

/-- A text that closes brackets reads differently in a signature. -/
theorem stubFrom_signature_closers_ne (depth : Nat) :
    stubFrom (.signature depth) (closers depth) ≠ stubFrom (.item true) (closers depth) := by
  rw [stubFrom_signature_closers, stubFrom_closers, closers]
  exact fun h => absurd (List.append_cancel_left h) (by decide)

/-- In an open signature or body some text is not treated as it is at the start. -/
theorem exists_stubFrom_ne (h : mode.isOutside = false) :
    ∃ cs, stubFrom mode cs ≠ stubFrom (.item true) cs := by
  cases mode with
  | item boundary => exact absurd h.symm Bool.false_ne_true
  | comment => exact absurd h.symm Bool.false_ne_true
  | signature depth => exact ⟨closers depth, stubFrom_signature_closers_ne depth⟩
  | signatureComment depth =>
    refine ⟨'\n' :: closers depth, fun heq => stubFrom_signature_closers_ne depth ?_⟩
    exact (List.cons.inj heq).2
  | body depth => exact ⟨['x'], (List.cons_ne_nil _ _).symm⟩

/-! ## Texts of whole lines -/

/-- A text of whole lines is stubbed apart from every text behind it exactly if no signature and no
body is open at its end. -/
theorem stubBodies_append_iff {first : String} (hfeed : ∀ c ∈ first.toList.getLast?, c = '\n') :
    (∀ second, stubBodies (first ++ second) = stubBodies first ++ stubBodies second) ↔
      (stubEnd (.item true) first.toList).isOutside = true := by
  have hsplit (second : String) :
      stubBodies (first ++ second) = stubBodies first ++ stubBodies second ↔
        stubFrom (stubEnd (.item true) first.toList) second.toList =
          stubFrom (.item true) second.toList := by
    rw [← String.toList_inj, String.toList_append, toList_stubBodies, toList_stubBodies,
      toList_stubBodies, String.toList_append, stubFrom_append_of_feed hfeed,
      List.append_cancel_left_eq]
  simp only [hsplit]
  constructor
  · intro h
    by_contra hopen
    obtain ⟨cs, hne⟩ := exists_stubFrom_ne (Bool.not_eq_true _ ▸ hopen)
    exact hne (by simpa using h (String.ofList cs))
  · intro hends second
    rw [show stubEnd (.item true) first.toList = .item true from
      endsAtBoundary_of_isOutside hfeed hends]

/-- Behind a comment that names a function and a function with a body, another function is stubbed as
it is by itself. -/
theorem stubBodies_append_functions :
    (∀ c ∈ "// fn f(\nfn g() \x7b 1 \x7d\n".toList.getLast?, c = '\n') ∧
      (stubEnd (.item true) "// fn f(\nfn g() \x7b 1 \x7d\n".toList).isOutside = true ∧
      stubBodies ("// fn f(\nfn g() \x7b 1 \x7d\n" ++ "fn h() \x7b 2 \x7d") =
        stubBodies "// fn f(\nfn g() \x7b 1 \x7d\n" ++ stubBodies "fn h() \x7b 2 \x7d" := by
  have hfeed : ∀ c ∈ "// fn f(\nfn g() \x7b 1 \x7d\n".toList.getLast?, c = '\n' :=
    fun c hc => (Option.some.inj hc).symm
  have hends : (stubEnd (.item true) "// fn f(\nfn g() \x7b 1 \x7d\n".toList).isOutside = true := by
    decide +kernel
  exact ⟨hfeed, hends, (stubBodies_append_iff hfeed).mpr hends "fn h() \x7b 2 \x7d"⟩

end FlatCrate.Source
