import FlatCrate.Source.Stub
import Mathlib.Tactic.SplitIfs

/-!
# Stubbing twice

The pass decides at each character and looks at two more of them at most. What it writes begins like
what it reads, except inside of a body, so a pass over its own output meets the same comments,
functions and ends of signatures again. Inside of a body it writes nothing; there the output goes on
behind the stub. Nothing is assumed about the text: brackets may be left open or closed too often,
and the text may end anywhere.
-/

namespace FlatCrate.Source

variable {mode : StubMode} {c : Char} {cs rest other : List Char}

namespace StubMode

/-- Whether the pass is inside of a body. -/
def isBody : StubMode → Bool
  | .body _ => true
  | _ => false

/-- Whether a character begins a body: an opening brace in a signature, outside of brackets. -/
def opensBody (mode : StubMode) (c : Char) : Prop := mode = .signature 0 ∧ c = '\x7b'

/-- The mode in which the output is to be read on while it is written in a given mode. -/
def resume : StubMode → StubMode
  | .body _ => .item false
  | mode => mode

/-- A mode of bodies has a depth. -/
theorem eq_body_of_isBody (h : mode.isBody = true) : ∃ depth, mode = .body depth := by
  cases mode with
  | body depth => exact ⟨depth, rfl⟩
  | _ => exact absurd h Bool.false_ne_true

/-- A mode outside of bodies is resumed as it is. -/
theorem resume_of_isBody_eq_false (h : mode.isBody = false) : mode.resume = mode := by
  cases mode with
  | body depth => exact absurd h.symm Bool.false_ne_true
  | _ => rfl

/-- Only a character that begins a body leads into one. -/
theorem isBody_next (hmode : mode.isBody = false) (hopens : ¬mode.opensBody c)
    (rest : List Char) : (mode.next c rest).isBody = false := by
  cases mode with
  | body depth => exact absurd hmode.symm Bool.false_ne_true
  | signature depth =>
    have hbrace : (depth == 0 && c == '\x7b') = false := by
      rw [Bool.eq_false_iff]
      simpa [opensBody] using hopens
    simp only [next, hbrace]
    split_ifs <;> first | rfl | contradiction
  | _ =>
    simp only [next]
    split_ifs <;> rfl

end StubMode

/-- A body begins with its stub. -/
theorem stubFrom_of_opensBody (h : mode.opensBody c) (rest : List Char) :
    stubFrom mode (c :: rest) = stubBody ++ stubFrom (.body 0) rest := by
  obtain ⟨rfl, rfl⟩ := h
  rfl

/-- Outside of bodies every other character is copied. -/
theorem stubFrom_of_not_opensBody (hmode : mode.isBody = false) (hopens : ¬mode.opensBody c)
    (rest : List Char) :
    stubFrom mode (c :: rest) = c :: stubFrom (mode.next c rest) rest := by
  have hemit : mode.emit c = [c] := by
    cases mode with
    | body depth => exact absurd hmode.symm Bool.false_ne_true
    | signature depth =>
      rw [StubMode.emit, if_neg]
      simpa [StubMode.opensBody] using hopens
    | _ => rfl
  rw [stubFrom, hemit, List.singleton_append]

/-! ## What the output begins with -/

/-- A beginning without a brace is found in the output exactly if it is found in the text. -/
theorem isPrefixOf_stubFrom {start : List Char} (hstart : '\x7b' ∉ start)
    (hmode : mode.isBody = false) (cs : List Char) :
    start.isPrefixOf (stubFrom mode cs) = start.isPrefixOf cs := by
  induction start generalizing mode cs with
  | nil => simp
  | cons a start ih =>
    rw [List.mem_cons, not_or] at hstart
    cases cs with
    | nil => rfl
    | cons c rest =>
      by_cases hopens : mode.opensBody c
      · -- both begin with the brace
        have hbrace (text : List Char) : (a :: start).isPrefixOf ('\x7b' :: text) = false := by
          rw [List.isPrefixOf_cons_cons, beq_eq_false_iff_ne.mpr (Ne.symm hstart.1),
            Bool.false_and]
        rw [stubFrom_of_opensBody hopens, hopens.2, hbrace]
        exact hbrace _
      · rw [stubFrom_of_not_opensBody hmode hopens, List.isPrefixOf_cons_cons,
          List.isPrefixOf_cons_cons, ih hstart.2 (StubMode.isBody_next hmode hopens rest)]

/-- A comment starts with a slash in front of a slash. -/
theorem startsComment_eq_isPrefixOf (c : Char) (rest : List Char) :
    startsComment c rest = (c == '/' && ['/'].isPrefixOf rest) := by
  cases rest with
  | nil => rfl
  | cons d rest =>
    rw [startsComment, List.head?_cons, List.isPrefixOf_cons_cons, List.isPrefixOf_nil_left,
      Bool.and_true, Option.some_beq_some, BEq.comm (a := d)]

/-- The mode behind a character depends on what follows only as far as a comment or a function may
begin there. -/
theorem next_congr (hcomment : ['/'].isPrefixOf rest = ['/'].isPrefixOf other)
    (hfunction : "n ".toList.isPrefixOf rest = "n ".toList.isPrefixOf other) (mode : StubMode)
    (c : Char) : mode.next c rest = mode.next c other := by
  have hc : startsComment c rest = startsComment c other := by
    simp only [startsComment_eq_isPrefixOf, hcomment]
  have hf : startsFunction c rest = startsFunction c other :=
    congrArg (c == 'f' && ·) hfunction
  cases mode <;> simp only [StubMode.next, hc, hf]

/-- In front of what the pass writes, it does what it has done in front of what it has read. -/
theorem next_stubFrom (hmode : mode.isBody = false) (hopens : ¬mode.opensBody c)
    (rest : List Char) :
    mode.next c (stubFrom (mode.next c rest) rest) = mode.next c rest := by
  have hnext := StubMode.isBody_next hmode hopens rest
  exact next_congr (isPrefixOf_stubFrom (by decide) hnext rest)
    (isPrefixOf_stubFrom (by decide) hnext rest) mode c

/-! ## Texts behind each other -/

/-- A text completes no beginning of a comment or a function at the end of a text in front of it. -/
def StandsApart (cs : List Char) : Prop := ∀ c ∈ cs.head?, c ≠ '/' ∧ c ≠ 'n' ∧ c ≠ ' '

/-- A beginning is not longer than the text in which it is found, if the rest stands apart. -/
private theorem isPrefixOf_append {start : List Char} (hrest : ∀ a ∈ start, rest.head? ≠ some a)
    (cs : List Char) : start.isPrefixOf (cs ++ rest) = start.isPrefixOf cs := by
  induction start generalizing cs with
  | nil => simp
  | cons a start ih =>
    rw [List.forall_mem_cons] at hrest
    cases cs with
    | nil =>
      cases rest with
      | nil => rfl
      | cons d rest =>
        have hne : a ≠ d := fun h => hrest.1 (congrArg some h.symm)
        rw [List.nil_append, List.isPrefixOf_cons_cons, beq_eq_false_iff_ne.mpr hne,
          Bool.false_and]
        rfl
    | cons c cs =>
      rw [List.cons_append, List.isPrefixOf_cons_cons, List.isPrefixOf_cons_cons, ih hrest.2]

/-- The next mode does not depend on what stands apart behind the text. -/
theorem next_append (hrest : StandsApart rest) (mode : StubMode) (c : Char) (cs : List Char) :
    mode.next c (cs ++ rest) = mode.next c cs := by
  refine next_congr (isPrefixOf_append ?_ cs) (isPrefixOf_append ?_ cs) mode c
  · intro a ha hhead
    obtain rfl := List.mem_singleton.mp ha
    exact (hrest _ hhead).1 rfl
  · intro a ha hhead
    have hmem : a = 'n' ∨ a = ' ' := by simpa using ha
    rcases hmem with rfl | rfl
    · exact (hrest _ hhead).2.1 rfl
    · exact (hrest _ hhead).2.2 rfl

/-- A text that stands apart is read in the mode in which the pass over the text in front of it
ends. -/
theorem stubFrom_append (hrest : StandsApart rest) (mode : StubMode) (cs : List Char) :
    stubFrom mode (cs ++ rest) = stubFrom mode cs ++ stubFrom (stubEnd mode cs) rest := by
  induction cs generalizing mode with
  | nil => rfl
  | cons c cs ih =>
    rw [List.cons_append, stubFrom, stubFrom, stubEnd, next_append hrest, ih, List.append_assoc]

/-! ## The second pass -/

/-- A stub is replaced by itself, and the pass goes on behind it. -/
theorem stubFrom_stubBody (cs : List Char) :
    stubFrom (.signature 0) (stubBody ++ cs) = stubBody ++ stubFrom (.item false) cs := rfl

/-- A pass over the output, in the mode in which the output is to be read on, leaves it as it is. -/
theorem stubFrom_resume (mode : StubMode) (cs : List Char) :
    stubFrom mode.resume (stubFrom mode cs) = stubFrom mode cs := by
  induction cs generalizing mode with
  | nil => rfl
  | cons c rest ih =>
    by_cases hmode : mode.isBody = true
    · -- nothing is written, and behind the body the pass is where it is behind a stub
      obtain ⟨depth, rfl⟩ := StubMode.eq_body_of_isBody hmode
      have hresume : ((StubMode.body depth).next c rest).resume = .item false := by
        simp only [StubMode.next]
        split_ifs <;> rfl
      have hrest := ih ((StubMode.body depth).next c rest)
      rw [hresume] at hrest
      exact hrest
    · rw [Bool.not_eq_true] at hmode
      rw [StubMode.resume_of_isBody_eq_false hmode]
      by_cases hopens : mode.opensBody c
      · have hrest : stubFrom (.item false) (stubFrom (.body 0) rest) = stubFrom (.body 0) rest :=
          ih (.body 0)
        rw [stubFrom_of_opensBody hopens, hopens.1, stubFrom_stubBody, hrest]
      · have hnext := StubMode.isBody_next hmode hopens rest
        have hrest := ih (mode.next c rest)
        rw [StubMode.resume_of_isBody_eq_false hnext] at hrest
        rw [stubFrom_of_not_opensBody hmode hopens, stubFrom_of_not_opensBody hmode hopens,
          next_stubFrom hmode hopens, hrest]

/-- Stubbing function bodies once more changes nothing, whatever the text is. -/
theorem stubBodies_stubBodies (source : String) :
    stubBodies (stubBodies source) = stubBodies source := by
  have htwice := stubFrom_resume (.item true) source.toList
  rw [← toList_stubBodies] at htwice
  apply String.toList_injective
  rw [toList_stubBodies (stubBodies source)]
  exact htwice

end FlatCrate.Source
