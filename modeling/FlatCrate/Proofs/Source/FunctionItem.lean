import FlatCrate.Proofs.Source.Stub
import Mathlib.Data.List.Basic

/-!
# What a stub takes the place of

The signature of a function is read without its line comments, its body is not: there every bracket
counts. So a body is replaced as a whole, whatever stands behind it, exactly if its brackets are
balanced together with those in its comments. A body whose comments hold no brackets is one of
these; a single bracket in a comment lets the stub end too early or too late.
-/

namespace FlatCrate.Source

variable {mode : StubMode} {c : Char} {cs rest sig body : List Char} {depth last : Nat}
  {inside : Bool}

/-! ## Brackets and comments -/

/-- The text without its line comments and the line feeds that end them; `inside` says whether it
begins inside of one. -/
def dropComments : Bool → List Char → List Char
  | _, [] => []
  | true, c :: rest => dropComments (c != '\n') rest
  | false, c :: rest =>
    if startsComment c rest then dropComments true rest else c :: dropComments false rest

/-- What stands in the line comments of a text. -/
def commentText : Bool → List Char → List Char
  | _, [] => []
  | true, c :: rest => c :: commentText (c != '\n') rest
  | false, c :: rest => commentText (startsComment c rest) rest

/-- Whether a text ends inside of a line comment. -/
def endsInside : Bool → List Char → Bool
  | inside, [] => inside
  | true, c :: rest => endsInside (c != '\n') rest
  | false, c :: rest => endsInside (startsComment c rest) rest

/-- How many brackets are open behind one more character, unless it closes one that is not open. -/
def openAfter (depth : Nat) (c : Char) : Option Nat :=
  if isOpener c then some (depth + 1)
  else if isCloser c then (if depth = 0 then none else some (depth - 1))
  else some depth

/-- How many brackets are open behind a text, unless it closes more of them than are open. -/
def openBehind : Nat → List Char → Option Nat
  | depth, [] => some depth
  | depth, c :: rest => (openAfter depth c).bind fun next => openBehind next rest

/-- A text closes the brackets that it opens, and no others. -/
def IsBalanced (cs : List Char) : Prop := openBehind 0 cs = some 0

instance (cs : List Char) : Decidable (IsBalanced cs) :=
  inferInstanceAs (Decidable (openBehind 0 cs = some 0))

/-- The characters of a text that stand in none of its brackets; a bracket that is opened there is
one of them. -/
def unnested : Nat → List Char → List Char
  | _, [] => []
  | depth, c :: rest =>
    (if depth = 0 then [c] else []) ++ unnested ((openAfter depth c).getD 0) rest

/-- How many brackets are open behind a text, where one that closes no other counts for nothing. -/
def depthBehind : Nat → List Char → Nat
  | depth, [] => depth
  | depth, c :: rest => depthBehind ((openAfter depth c).getD 0) rest

/-- What may stand between the keyword of a function and its body: comments that are ended, and
balanced code with braces and semicolons in brackets only. -/
structure IsSignature (sig : List Char) : Prop where
  ended : endsInside false sig = false
  balanced : IsBalanced (dropComments false sig)
  plain : ∀ c ∈ unnested 0 (dropComments false sig), c ≠ '\x7b' ∧ c ≠ ';'

/-- No brace and no semicolon of a signature stands outside of its brackets and comments. -/
def HasNoEnd (sig : List Char) : Prop :=
  ∀ c ∈ unnested 0 (dropComments false sig), c ≠ '\x7b' ∧ c ≠ ';'

/-- What stands between the keyword of a function and the first brace or semicolon outside of
brackets and comments. -/
structure IsHeading (sig : List Char) : Prop where
  ended : endsInside false sig = false
  closed : depthBehind 0 (dropComments false sig) = 0
  noEnd : HasNoEnd sig

/-- A character that is no bracket leaves the depth. -/
theorem openAfter_of_plain (hopener : isOpener c = false) (hcloser : isCloser c = false)
    (depth : Nat) : openAfter depth c = some depth := by
  simp [openAfter, hopener, hcloser]

/-- As long as some bracket is open, the two depths are the same. -/
theorem depthBehind_of_openBehind (h : openBehind depth cs = some last) :
    depthBehind depth cs = last := by
  induction cs generalizing depth with
  | nil => exact Option.some.inj h
  | cons c cs ih =>
    rw [openBehind] at h
    obtain ⟨next, hafter, hnext⟩ := Option.bind_eq_some_iff.mp h
    rw [depthBehind, hafter, Option.getD_some, ih hnext]

/-- Text that does not begin with a slash begins no comment at the end of a text in front of it. -/
theorem startsComment_append (hrest : rest.head? ≠ some '/') (c : Char) (cs : List Char) :
    startsComment c (cs ++ rest) = startsComment c cs := by
  cases cs with
  | nil =>
    rw [List.nil_append, startsComment, startsComment, beq_eq_false_iff_ne.mpr hrest]
    rfl
  | cons d cs => rfl

/-- A text that closes too many brackets does so at one of its characters. -/
theorem exists_of_openBehind_eq_none (h : openBehind depth cs = none) :
    ∃ first c rest last, cs = first ++ c :: rest ∧ openBehind depth first = some last ∧
      openAfter last c = none := by
  induction cs generalizing depth with
  | nil => simp [openBehind] at h
  | cons c cs ih =>
    rw [openBehind] at h
    cases hafter : openAfter depth c with
    | none => exact ⟨[], c, cs, depth, rfl, rfl, hafter⟩
    | some next =>
      rw [hafter, Option.bind_some] at h
      obtain ⟨first, d, rest, last, rfl, hfirst, hlast⟩ := ih h
      refine ⟨c :: first, d, rest, last, rfl, ?_, hlast⟩
      rw [openBehind, hafter, Option.bind_some, hfirst]

/-- If the comments of a text hold no brackets, it makes no difference whether they count. -/
theorem openBehind_dropComments
    (h : ∀ c ∈ commentText inside cs, isOpener c = false ∧ isCloser c = false) (depth : Nat) :
    openBehind depth (dropComments inside cs) = openBehind depth cs := by
  induction cs generalizing inside depth with
  | nil => cases inside <;> rfl
  | cons c rest ih =>
    cases inside with
    | true =>
      rw [commentText, List.forall_mem_cons] at h
      rw [dropComments, ih h.2, openBehind, openAfter_of_plain h.1.1 h.1.2, Option.bind_some]
    | false =>
      rw [commentText] at h
      by_cases hstarts : startsComment c rest = true
      · -- the slash is no bracket
        rw [hstarts] at h
        obtain ⟨rfl, -⟩ : c = '/' ∧ _ := by simpa [startsComment] using hstarts
        rw [dropComments, if_pos hstarts, ih h]
        rfl
      · rw [Bool.not_eq_true] at hstarts
        rw [hstarts] at h
        rw [dropComments, hstarts, if_neg Bool.false_ne_true, openBehind, openBehind]
        simp only [ih h]

/-! ## The pass over a function -/

/-- A character of a body opens or closes a bracket of it, or ends it. -/
theorem next_body (depth : Nat) (c : Char) (rest : List Char) :
    (StubMode.body depth).next c rest =
      match openAfter depth c with
      | some next => .body next
      | none => .item false := by
  simp only [StubMode.next, openAfter]
  split_ifs <;> simp_all

/-- As long as its brackets are open, a body is passed over. -/
theorem stubFrom_body (h : openBehind depth cs = some last) (rest : List Char) :
    stubFrom (.body depth) (cs ++ rest) = stubFrom (.body last) rest := by
  induction cs generalizing depth with
  | nil =>
    obtain rfl : depth = last := by simpa [openBehind] using h
    rfl
  | cons c cs ih =>
    rw [openBehind] at h
    obtain ⟨next, hafter, hnext⟩ := Option.bind_eq_some_iff.mp h
    rw [List.cons_append, stubFrom, next_body, hafter]
    exact ih hnext

/-- Behind the bracket that closes a body, the pass is between functions again. -/
theorem stubFrom_body_close (h : openAfter depth c = none) (rest : List Char) :
    stubFrom (.body depth) (c :: rest) = stubFrom (.item false) rest := by
  rw [stubFrom, next_body, h]
  rfl

/-- The mode in a signature or in one of its comments. -/
def StubMode.inSignature (inside : Bool) (depth : Nat) : StubMode :=
  if inside then .signatureComment depth else .signature depth

/-- In a signature, a character that is neither a brace nor a semicolon outside of brackets opens or
closes brackets only. -/
theorem next_signature (hcomment : startsComment c rest = false)
    (hplain : depth = 0 → c ≠ '\x7b' ∧ c ≠ ';') :
    (StubMode.signature depth).next c rest = .signature ((openAfter depth c).getD 0) := by
  have hbrace : (depth == 0 && c == '\x7b') = false := by
    rw [Bool.eq_false_iff]
    simpa using fun h => (hplain h).1
  have hsemicolon : (depth == 0 && c == ';') = false := by
    rw [Bool.eq_false_iff]
    simpa using fun h => (hplain h).2
  simp only [StubMode.next, hcomment, hbrace, hsemicolon, Bool.false_eq_true, if_false, openAfter]
  split_ifs <;> simp_all

/-- A signature is copied as long as no brace or semicolon stands outside of its brackets and
comments. -/
theorem stubFrom_inSignature
    (hplain : ∀ c ∈ unnested depth (dropComments inside sig), c ≠ '\x7b' ∧ c ≠ ';')
    (hrest : rest.head? ≠ some '/') :
    stubFrom (.inSignature inside depth) (sig ++ rest) =
      sig ++ stubFrom (.inSignature (endsInside inside sig)
        (depthBehind depth (dropComments inside sig))) rest := by
  induction sig generalizing inside depth with
  | nil => cases inside <;> rfl
  | cons c sig ih =>
    cases inside with
    | true =>
      have hnext : (StubMode.signatureComment depth).next c (sig ++ rest) =
          .inSignature (c != '\n') depth := by
        by_cases hc : c = '\n' <;> simp [StubMode.next, StubMode.inSignature, hc]
      rw [dropComments] at hplain
      rw [StubMode.inSignature, if_pos rfl, List.cons_append, stubFrom, hnext, ih hplain]
      rfl
    | false =>
      have hcomment := startsComment_append hrest c sig
      rw [dropComments] at hplain
      by_cases hstarts : startsComment c sig = true
      · rw [if_pos hstarts] at hplain
        have hnext : (StubMode.signature depth).next c (sig ++ rest) = .inSignature true depth := by
          simp [StubMode.next, StubMode.inSignature, hcomment, hstarts]
        have hemit : (StubMode.signature depth).emit c = [c] := by
          obtain ⟨rfl, -⟩ : c = '/' ∧ _ := by simpa [startsComment] using hstarts
          simp [StubMode.emit]
        rw [StubMode.inSignature, if_neg Bool.false_ne_true, List.cons_append, stubFrom, hnext,
          hemit, ih hplain, endsInside, dropComments, if_pos hstarts, hstarts]
        rfl
      · rw [Bool.not_eq_true] at hstarts
        rw [hstarts, if_neg Bool.false_ne_true, unnested] at hplain
        have hc : depth = 0 → c ≠ '\x7b' ∧ c ≠ ';' := fun h => hplain c (by simp [h])
        have hnext := next_signature (hcomment.trans hstarts) hc
        have hemit : (StubMode.signature depth).emit c = [c] := by
          rw [StubMode.emit, if_neg]
          simpa using fun h => (hc h).1
        have hcopied : stubFrom (.signature ((openAfter depth c).getD 0)) (sig ++ rest) = _ :=
          ih fun d hd => hplain d (List.mem_append_right _ hd)
        rw [StubMode.inSignature, if_neg Bool.false_ne_true, List.cons_append, stubFrom, hnext,
          hemit, List.singleton_append, List.cons_append, hcopied, endsInside, dropComments,
          hstarts, if_neg Bool.false_ne_true, depthBehind]

/-- Up to what ends it, a signature is copied. -/
theorem stubFrom_of_hasNoEnd (hsig : HasNoEnd sig) (hrest : rest.head? ≠ some '/') :
    stubFrom (.item true) ("fn ".toList ++ (sig ++ rest)) =
      "fn ".toList ++ (sig ++ stubFrom (.inSignature (endsInside false sig)
        (depthBehind 0 (dropComments false sig))) rest) := by
  have hcopied : stubFrom (.inSignature false 0) (sig ++ rest) = _ :=
    stubFrom_inSignature hsig hrest
  exact congrArg ("fn ".toList ++ ·) hcopied

/-- A heading is copied, and the signature is at its end then. -/
theorem stubFrom_of_isHeading (hsig : IsHeading sig) (hrest : rest.head? ≠ some '/') :
    stubFrom (.item true) ("fn ".toList ++ (sig ++ rest)) =
      "fn ".toList ++ (sig ++ stubFrom (.signature 0) rest) := by
  rw [stubFrom_of_hasNoEnd hsig.noEnd hrest, hsig.ended, hsig.closed]
  rfl

/-- A signature is a heading. -/
theorem IsSignature.isHeading (h : IsSignature sig) : IsHeading sig :=
  ⟨h.ended, depthBehind_of_openBehind h.balanced, h.plain⟩

/-- The signature of a function is copied, and its body gives way to the stub. -/
theorem stubFrom_function (hsig : IsSignature sig) (rest : List Char) :
    stubFrom (.item true) ("fn ".toList ++ (sig ++ '\x7b' :: rest)) =
      "fn ".toList ++ (sig ++ (stubBody ++ stubFrom (.body 0) rest)) := by
  rw [stubFrom_of_isHeading hsig.isHeading (by simp), stubFrom_of_opensBody ⟨rfl, rfl⟩]

/-- A body is passed over up to the brace behind it, whatever follows, exactly if it is balanced. -/
theorem stubFrom_body_iff :
    (∀ rest, stubFrom (.body 0) (body ++ '\x7d' :: rest) = stubFrom (.item false) rest) ↔
      IsBalanced body := by
  constructor
  · intro h
    rw [IsBalanced]
    cases hopen : openBehind 0 body with
    | none =>
      -- the body ends too early, and something is written behind the stub even at the end
      obtain ⟨first, c, behind, last, rfl, hfirst, hlast⟩ := exists_of_openBehind_eq_none hopen
      have hearly := h []
      rw [List.append_assoc, stubFrom_body hfirst, List.cons_append,
        stubFrom_body_close hlast] at hearly
      cases behind <;> exact absurd hearly (List.cons_ne_nil _ _)
    | some depth =>
      cases depth with
      | zero => rfl
      | succ depth =>
        -- the body does not end, and nothing more is written
        have hlate := h ['x']
        rw [stubFrom_body hopen, stubFrom, next_body] at hlate
        exact absurd hlate (List.cons_ne_nil _ _).symm
  · intro h rest
    rw [stubFrom_body h, stubFrom_body_close rfl]

/-! ## Functions in a source text -/

/-- A function with its body. -/
def functionItem (sig body : String) : String := "fn " ++ sig ++ "\x7b" ++ body ++ "\x7d"

/-- What stands between the braces of a stub. -/
def stubInside : String := " loop \x7b\x7d "

/-- What comes of a text that stands behind a function. -/
def stubBehind (after : String) : String := String.ofList (stubFrom (.item false) after.toList)

/-- Behind a text the pass is between functions, where a function may begin. -/
def EndsAtBoundary (before : String) : Prop :=
  stubEnd (.item true) before.toList = .item true

instance (before : String) : Decidable (EndsAtBoundary before) :=
  inferInstanceAs (Decidable (stubEnd (.item true) before.toList = .item true))

/-- A function, character by character. -/
theorem toList_functionItem (sig body : String) :
    (functionItem sig body).toList =
      "fn ".toList ++ (sig.toList ++ '\x7b' :: (body.toList ++ ['\x7d'])) := by
  simp [functionItem]

/-- A function is stubbed behind any text at whose end it may begin. -/
theorem toList_stubBodies_functionItem {before sig : String} (hbefore : EndsAtBoundary before)
    (hsig : IsSignature sig.toList) (body after : String) :
    (stubBodies (before ++ functionItem sig body ++ after)).toList =
      (stubBodies before).toList ++ ("fn ".toList ++ (sig.toList ++
        (stubBody ++ stubFrom (.body 0) (body.toList ++ '\x7d' :: after.toList)))) := by
  have hapart : StandsApart ("fn ".toList ++ (sig.toList ++ '\x7b' ::
      (body.toList ++ '\x7d' :: after.toList))) := by
    simp [StandsApart]
  have happend := stubFrom_append hapart (.item true) before.toList
  rw [show stubEnd (.item true) before.toList = .item true from hbefore,
    stubFrom_function hsig] at happend
  rw [toList_stubBodies, toList_stubBodies, String.toList_append, String.toList_append,
    toList_functionItem, ← happend]
  simp only [List.append_assoc, List.cons_append, List.nil_append]

/-- A function gives way to its stub in front of a text exactly if its body is passed over up to the
brace behind it. -/
theorem stubBodies_functionItem_eq_iff {before sig : String} (hbefore : EndsAtBoundary before)
    (hsig : IsSignature sig.toList) (body after : String) :
    stubBodies (before ++ functionItem sig body ++ after) =
        stubBodies before ++ functionItem sig stubInside ++ stubBehind after ↔
      stubFrom (.body 0) (body.toList ++ '\x7d' :: after.toList) =
        stubFrom (.item false) after.toList := by
  have hstub : '\x7b' :: (stubInside.toList ++ ['\x7d']) = stubBody := rfl
  rw [← String.toList_inj, toList_stubBodies_functionItem hbefore hsig, String.toList_append,
    String.toList_append, toList_functionItem, hstub]
  simp only [stubBehind, String.toList_ofList, List.append_assoc, List.append_cancel_left_eq]

/-- A function gives way to its stub as a whole, whatever follows, exactly if all brackets of its
body are balanced, those in comments included. If the comments of the body hold no brackets, it is
enough that the code is balanced, and nothing of the body is left in the output. -/
theorem stubBodies_functionItem {before sig body : String} (hbefore : EndsAtBoundary before)
    (hsig : IsSignature sig.toList) :
    ((∀ after, stubBodies (before ++ functionItem sig body ++ after) =
        stubBodies before ++ functionItem sig stubInside ++ stubBehind after) ↔
      IsBalanced body.toList) ∧
    ((∀ c ∈ commentText false body.toList, isOpener c = false ∧ isCloser c = false) →
      IsBalanced (dropComments false body.toList) →
      ∀ after, stubBodies (before ++ functionItem sig body ++ after) =
        stubBodies (before ++ functionItem sig stubInside ++ after)) := by
  have hwhole {body : String} : (∀ after, stubBodies (before ++ functionItem sig body ++ after) =
      stubBodies before ++ functionItem sig stubInside ++ stubBehind after) ↔
        IsBalanced body.toList := by
    simp only [stubBodies_functionItem_eq_iff hbefore hsig, ← stubFrom_body_iff]
    exact ⟨fun h rest => by simpa using h (String.ofList rest), fun h after => h after.toList⟩
  refine ⟨hwhole, fun hplain hcode after => ?_⟩
  have hbody : IsBalanced body.toList := (openBehind_dropComments hplain 0).symm.trans hcode
  have hstub : IsBalanced stubInside.toList := by decide
  rw [hwhole.mpr hbody after, hwhole.mpr hstub after]

/-- A method with a semicolon in a comment of its signature and a comment in its body. -/
theorem stubBodies_functionItem_method :
    EndsAtBoundary "impl S \x7b\n  pub " ∧ IsSignature "f(a: [u8; 2]) // a; b\n".toList ∧
      (∀ c ∈ commentText false " // the first\n a[0] ".toList,
        isOpener c = false ∧ isCloser c = false) ∧
      IsBalanced (dropComments false " // the first\n a[0] ".toList) ∧
      stubBodies ("impl S \x7b\n  pub " ++
          functionItem "f(a: [u8; 2]) // a; b\n" " // the first\n a[0] " ++ "\n\x7d") =
        stubBodies ("impl S \x7b\n  pub " ++
          functionItem "f(a: [u8; 2]) // a; b\n" stubInside ++ "\n\x7d") := by
  have hbefore : EndsAtBoundary "impl S \x7b\n  pub " := by decide +kernel
  have hsig : IsSignature "f(a: [u8; 2]) // a; b\n".toList :=
    ⟨by decide +kernel, by decide +kernel, List.forall_iff_forall_mem.mp (by decide +kernel)⟩
  have hplain : ∀ c ∈ commentText false " // the first\n a[0] ".toList,
      isOpener c = false ∧ isCloser c = false :=
    List.forall_iff_forall_mem.mp (by decide +kernel)
  have hcode : IsBalanced (dropComments false " // the first\n a[0] ".toList) := by
    decide +kernel
  exact ⟨hbefore, hsig, hplain, hcode,
    (stubBodies_functionItem hbefore hsig).2 hplain hcode "\n\x7d"⟩

/-- A brace in a comment ends the body, and what stands behind it is left in the output; the same
body with another comment is replaced. -/
theorem stubBodies_brace_in_comment :
    IsSignature "f() ".toList ∧
      IsBalanced (dropComments false "\n  // \x7d\n  secret();\n".toList) ∧
      stubBodies (functionItem "f() " "\n  // \x7d\n  secret();\n") =
        functionItem "f() " stubInside ++ "\n  secret();\n\x7d" ∧
      stubBodies (functionItem "f() " "\n  // x\n  secret();\n") =
        functionItem "f() " stubInside :=
  ⟨⟨by decide +kernel, by decide +kernel, List.forall_iff_forall_mem.mp (by decide +kernel)⟩,
    by decide +kernel, by decide +kernel, by decide +kernel⟩

end FlatCrate.Source
