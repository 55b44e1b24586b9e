import FlatCrate.Proofs.Source.FunctionItem
import Mathlib.Data.List.TakeWhile

/-!
# The items of a text

Between functions a text is read in items: a line comment, a function with its body or with the
semicolon in place of it, and single characters otherwise. An item is told apart with all of the
text that follows it at hand, so exactly one item can be read at each place. Nothing is asked of the
text: a bracket of a signature that closes no other counts for nothing, and a comment, a signature
or a body that is not finished reaches to the end of the text.
-/

namespace FlatCrate.Source

/-- Whether a function may begin behind a text: at its start and behind a blank. A line comment ends
in a line feed, which is one. -/
def atBoundary (front : List Char) : Bool := front.getLast?.all Text.isBlank

/-- A brace and what follows it, up to the first bracket behind which no bracket is open. -/
def IsBlock (body : List Char) : Prop :=
  ∃ inside c, body = '\x7b' :: (inside ++ [c]) ∧ IsBalanced inside ∧ isCloser c = true

/-- A brace and what follows it, if some bracket is open behind every character. -/
def IsUnclosed (body : List Char) : Prop :=
  ∃ inside depth, body = '\x7b' :: inside ∧ openBehind 0 inside = some depth

/-- The body of a function in front of the rest of a text. Only at the end of the text it may be
left open. -/
def IsBody (body rest : List Char) : Prop := IsBlock body ∨ IsUnclosed body ∧ rest = []

/-- What ends a signature in front of the rest of a text: a semicolon, the body of the function, or
the end of the text. -/
inductive IsTail (sig : List Char) : List Char → List Char → Prop
  | semicolon {rest : List Char} (hsig : IsHeading sig) : IsTail sig [';'] rest
  | body {body rest : List Char} (hsig : IsHeading sig) (hbody : IsBody body rest) :
      IsTail sig body rest
  | missing (hsig : HasNoEnd sig) : IsTail sig [] []

/-- A line in front of the rest of a text: it ends in a line feed or at the end of the text. -/
def IsLine (line rest : List Char) : Prop :=
  (∃ text, line = text ++ ['\n'] ∧ '\n' ∉ text) ∨ '\n' ∉ line ∧ rest = []

/-- One item of a text, between what stands in front of it and the rest. -/
inductive IsItem (front : List Char) : List Char → List Char → Prop
  | plain {c : Char} {rest : List Char}
      (hfunction : atBoundary front = true → ¬"fn ".toList <+: c :: rest)
      (hcomment : ¬"//".toList <+: c :: rest) : IsItem front [c] rest
  | comment {line rest : List Char} (hline : IsLine line rest) :
      IsItem front ("//".toList ++ line) rest
  | function {sig tail rest : List Char} (hboundary : atBoundary front = true)
      (htail : IsTail sig tail rest) : IsItem front ("fn ".toList ++ (sig ++ tail)) rest

variable {front item item' rest rest' sig sig' tail tail' body body' cs : List Char} {c : Char}
  {inside : Bool} {depth : Nat}

/-! ## Some item can be read -/

/-- No bracket both opens and closes. -/
theorem isCloser_eq_false_of_isOpener (h : isOpener c = true) : isCloser c = false := by
  obtain (rfl | rfl) | rfl : (c = '(' ∨ c = '[') ∨ c = '\x7b' := by simpa [isOpener] using h
  all_goals rfl

/-- A bracket ends a block exactly if it closes and no other one is open. -/
theorem openAfter_eq_none_iff : openAfter depth c = none ↔ depth = 0 ∧ isCloser c = true := by
  rw [openAfter]
  split_ifs with hopener hcloser hdepth
  · simp [isCloser_eq_false_of_isOpener hopener]
  · simp [hcloser, hdepth]
  · simp [hdepth]
  · simp [hcloser]

/-- A signature either has an end, or no character of it is one. -/
theorem exists_end (inside : Bool) (depth : Nat) (cs : List Char) :
    (∃ sig c rest, cs = sig ++ c :: rest ∧ (c = '\x7b' ∨ c = ';') ∧
      endsInside inside sig = false ∧ depthBehind depth (dropComments inside sig) = 0 ∧
      ∀ d ∈ unnested depth (dropComments inside sig), d ≠ '\x7b' ∧ d ≠ ';') ∨
    ∀ d ∈ unnested depth (dropComments inside cs), d ≠ '\x7b' ∧ d ≠ ';' := by
  induction cs generalizing inside depth with
  | nil => cases inside <;> exact .inr (by simp [dropComments, unnested])
  | cons c cs ih =>
    -- the end is no slash, so the same comments begin in the signature alone
    have hfirst {sig rest : List Char} {d : Char} (hd : d = '\x7b' ∨ d = ';') :
        startsComment c (sig ++ d :: rest) = startsComment c sig :=
      startsComment_append (by rcases hd with rfl | rfl <;> simp) c sig
    cases inside with
    | true =>
      obtain ⟨sig, d, rest, rfl, hd, hend⟩ | hnone := ih (c != '\n') depth
      · exact .inl ⟨c :: sig, d, rest, rfl, hd, hend⟩
      · exact .inr hnone
    | false =>
      cases hstarts : startsComment c cs with
      | true =>
        obtain ⟨sig, d, rest, rfl, hd, hend⟩ | hnone := ih true depth
        · rw [hfirst hd] at hstarts
          refine .inl ⟨c :: sig, d, rest, rfl, hd, ?_⟩
          rwa [endsInside, dropComments, hstarts, if_pos rfl]
        · refine .inr ?_
          rwa [dropComments, hstarts, if_pos rfl]
      | false =>
        by_cases hend : depth = 0 ∧ (c = '\x7b' ∨ c = ';')
        · obtain ⟨rfl, hc⟩ := hend
          exact .inl ⟨[], c, cs, rfl, hc, rfl, rfl, by simp [dropComments, unnested]⟩
        · have hc : ∀ d ∈ (if depth = 0 then [c] else []), d ≠ '\x7b' ∧ d ≠ ';' := by
            intro d hd
            split_ifs at hd with hdepth
            · obtain rfl := List.mem_singleton.mp hd
              exact not_or.mp fun h => hend ⟨hdepth, h⟩
            · simp at hd
          obtain ⟨sig, d, rest, rfl, hd, hended, hclosed, hplain⟩ | hnone :=
            ih false ((openAfter depth c).getD 0)
          · rw [hfirst hd] at hstarts
            refine .inl ⟨c :: sig, d, rest, rfl, hd, ?_⟩
            rw [endsInside, dropComments, hstarts, if_neg Bool.false_ne_true, depthBehind,
              unnested, List.forall_mem_append]
            exact ⟨hended, hclosed, hc, hplain⟩
          · refine .inr ?_
            rw [dropComments, hstarts, if_neg Bool.false_ne_true, unnested, List.forall_mem_append]
            exact ⟨hc, hnone⟩

/-- A body ends at some bracket, or it reaches to the end of the text. -/
theorem exists_body (cs : List Char) :
    ∃ body rest, '\x7b' :: cs = body ++ rest ∧ IsBody body rest := by
  cases hopen : openBehind 0 cs with
  | none =>
    obtain ⟨first, c, rest, last, rfl, hfirst, hlast⟩ := exists_of_openBehind_eq_none hopen
    obtain ⟨rfl, hcloser⟩ := openAfter_eq_none_iff.mp hlast
    exact ⟨'\x7b' :: (first ++ [c]), rest, by simp, .inl ⟨first, c, rfl, hfirst, hcloser⟩⟩
  | some depth => exact ⟨'\x7b' :: cs, [], by simp, .inr ⟨⟨cs, depth, rfl, hopen⟩, rfl⟩⟩

/-- Every text begins with a line. -/
theorem exists_line (cs : List Char) : ∃ line rest, cs = line ++ rest ∧ IsLine line rest := by
  by_cases hfeed : '\n' ∈ cs
  · obtain ⟨text, rest, rfl, htext⟩ := List.eq_append_cons_of_mem hfeed
    exact ⟨text ++ ['\n'], rest, by simp, .inl ⟨text, rfl, htext⟩⟩
  · exact ⟨cs, [], by simp, .inr ⟨hfeed, rfl⟩⟩

/-- Every text begins with a signature and its tail. -/
theorem exists_tail (cs : List Char) :
    ∃ sig tail rest, cs = sig ++ (tail ++ rest) ∧ IsTail sig tail rest := by
  obtain ⟨sig, c, rest, rfl, rfl | rfl, hended, hclosed, hnoEnd⟩ | hnoEnd := exists_end false 0 cs
  · obtain ⟨body, rest', hrest, hbody⟩ := exists_body rest
    exact ⟨sig, body, rest', by rw [hrest], .body ⟨hended, hclosed, hnoEnd⟩ hbody⟩
  · exact ⟨sig, [';'], rest, rfl, .semicolon ⟨hended, hclosed, hnoEnd⟩⟩
  · exact ⟨cs, [], [], by simp, .missing hnoEnd⟩

/-- An item can be read wherever a text goes on. -/
theorem exists_item (front : List Char) {cs : List Char} (h : cs ≠ []) :
    ∃ item rest, cs = item ++ rest ∧ IsItem front item rest := by
  by_cases hfunction : atBoundary front = true ∧ "fn ".toList <+: cs
  · obtain ⟨hboundary, more, rfl⟩ := hfunction
    obtain ⟨sig, tail, rest, rfl, htail⟩ := exists_tail more
    exact ⟨_, rest, by simp, .function hboundary htail⟩
  · by_cases hcomment : "//".toList <+: cs
    · obtain ⟨more, rfl⟩ := hcomment
      obtain ⟨line, rest, rfl, hline⟩ := exists_line more
      exact ⟨_, rest, by simp, .comment hline⟩
    · obtain ⟨c, rest, rfl⟩ := List.exists_cons_of_ne_nil h
      exact ⟨[c], rest, rfl, .plain (not_and.mp hfunction) hcomment⟩

/-! ## Only one item can be read -/

/-- Of two beginnings of a text, one that goes on with a certain character begins the longer one. -/
theorem prefix_of_length_lt {first second : List Char} (heq : first ++ c :: rest = second ++ rest')
    (hlt : first.length < second.length) : ∃ more, second = first ++ c :: more := by
  have hfirst : first ++ [c] <+: first ++ c :: rest := ⟨rest, by simp⟩
  have hsecond : second <+: first ++ c :: rest := ⟨rest', heq.symm⟩
  have hlength : (first ++ [c]).length ≤ second.length := by
    rw [List.length_append, List.length_singleton]
    exact hlt
  obtain ⟨more, rfl⟩ := List.prefix_of_prefix_length_le hfirst hsecond hlength
  exact ⟨more, by simp⟩

/-- The depth behind two texts is that behind the second, from that behind the first. -/
theorem openBehind_append (depth : Nat) (first second : List Char) :
    openBehind depth (first ++ second) =
      (openBehind depth first).bind fun last => openBehind last second := by
  induction first generalizing depth with
  | nil => rfl
  | cons c first ih =>
    rw [List.cons_append, openBehind, openBehind]
    cases openAfter depth c with
    | none => rfl
    | some next => exact ih next

/-- Comments are dropped from two texts one behind the other, unless the second begins with a slash.
-/
theorem dropComments_append (hrest : rest.head? ≠ some '/') (inside : Bool) (cs : List Char) :
    dropComments inside (cs ++ rest) =
      dropComments inside cs ++ dropComments (endsInside inside cs) rest := by
  induction cs generalizing inside with
  | nil => cases inside <;> rfl
  | cons c cs ih =>
    cases inside with
    | true => exact ih (c != '\n')
    | false =>
      rw [List.cons_append, dropComments, dropComments, endsInside, startsComment_append hrest]
      cases startsComment c cs with
      | true => exact ih true
      | false => exact congrArg (c :: ·) (ih false)

/-- What is outside of brackets in two texts is so in each, from the depth there. -/
theorem unnested_append (depth : Nat) (first second : List Char) :
    unnested depth (first ++ second) =
      unnested depth first ++ unnested (depthBehind depth first) second := by
  induction first generalizing depth with
  | nil => rfl
  | cons c first ih => rw [List.cons_append, unnested, unnested, depthBehind, ih, List.append_assoc]

/-- The code of a heading and of what ends it. -/
theorem IsHeading.dropComments_append (h : IsHeading sig) (hc : c = '\x7b' ∨ c = ';')
    (rest : List Char) : dropComments false (sig ++ c :: rest) =
      dropComments false sig ++ c :: dropComments false rest := by
  have hslash : (c :: rest).head? ≠ some '/' := by rcases hc with rfl | rfl <;> simp
  rw [Source.dropComments_append hslash, h.ended]
  rcases hc with rfl | rfl <;> rfl

/-- What ends a heading stands outside of brackets and comments. -/
theorem IsHeading.mem_unnested (h : IsHeading sig) (hc : c = '\x7b' ∨ c = ';')
    (rest : List Char) : c ∈ unnested 0 (dropComments false (sig ++ c :: rest)) := by
  rw [h.dropComments_append hc, unnested_append, h.closed]
  simp [unnested]

/-- A signature does not go on behind the first character that ends it. -/
theorem IsHeading.length_le (h : IsHeading sig) (hc : c = '\x7b' ∨ c = ';') (h' : HasNoEnd sig')
    (heq : sig ++ c :: rest = sig' ++ rest') : sig'.length ≤ sig.length := by
  by_contra hlt
  obtain ⟨more, rfl⟩ := prefix_of_length_lt heq (not_le.mp hlt)
  obtain ⟨hbrace, hsemicolon⟩ := h' c (h.mem_unnested hc more)
  rcases hc with hc | hc
  · exact hbrace hc
  · exact hsemicolon hc

/-- A body does not go on behind the first bracket that closes it. -/
theorem length_le_of_isBalanced {first second : List Char} (h : IsBalanced first)
    (hc : isCloser c = true) (h' : openBehind 0 second = some depth)
    (heq : first ++ c :: rest = second ++ rest') : second.length ≤ first.length := by
  by_contra hlt
  obtain ⟨more, rfl⟩ := prefix_of_length_lt heq (not_le.mp hlt)
  have hfirst : openBehind 0 first = some 0 := h
  have hnone : openAfter 0 c = none := openAfter_eq_none_iff.mpr ⟨rfl, hc⟩
  rw [openBehind_append, hfirst, Option.bind_some, openBehind, hnone] at h'
  exact Option.some_ne_none _ h'.symm

/-- A block is ended by one bracket only. -/
theorem IsBlock.unique (h : IsBlock body) (h' : IsBlock body')
    (heq : body ++ rest = body' ++ rest') : body = body' := by
  obtain ⟨first, c, rfl, hfirst, hc⟩ := h
  obtain ⟨second, d, rfl, hsecond, hd⟩ := h'
  have hinside : first ++ c :: rest = second ++ d :: rest' := by simpa using heq
  have hlength : first.length = second.length := by
    apply le_antisymm
    · exact length_le_of_isBalanced hsecond hd hfirst hinside.symm
    · exact length_le_of_isBalanced hfirst hc hsecond hinside
  obtain ⟨rfl, hcons⟩ := List.append_inj hinside hlength
  rw [(List.cons.inj hcons).1]

/-- A block is not left open. -/
theorem IsBlock.not_isUnclosed (h : IsBlock body) (rest : List Char) :
    ¬IsUnclosed (body ++ rest) := by
  obtain ⟨first, c, rfl, hfirst, hc⟩ := h
  rintro ⟨inside, depth, heq, hopen⟩
  have hinside : first ++ c :: rest = inside ++ [] := by simpa using heq
  have hlength := length_le_of_isBalanced hfirst hc hopen hinside
  have hwhole := congrArg List.length hinside
  simp only [List.length_append, List.length_cons, List.length_nil] at hwhole
  omega

/-- A text has one body at most at its beginning. -/
theorem IsBody.unique (h : IsBody body rest) (h' : IsBody body' rest')
    (heq : body ++ rest = body' ++ rest') : body = body' := by
  rcases h with hblock | ⟨hunclosed, rfl⟩
  · rcases h' with hblock' | ⟨hunclosed', rfl⟩
    · exact hblock.unique hblock' heq
    · rw [List.append_nil] at heq
      exact absurd (heq ▸ hunclosed') (hblock.not_isUnclosed rest)
  · rw [List.append_nil] at heq
    rcases h' with hblock' | ⟨-, rfl⟩
    · exact absurd (heq ▸ hunclosed) (hblock'.not_isUnclosed rest')
    · rwa [List.append_nil] at heq

/-- A body begins with a brace. -/
theorem IsBody.exists_eq_cons (h : IsBody body rest) : ∃ inside, body = '\x7b' :: inside := by
  rcases h with ⟨inside, c, rfl, -⟩ | ⟨⟨inside, depth, rfl, -⟩, -⟩
  · exact ⟨inside ++ [c], rfl⟩
  · exact ⟨inside, rfl⟩

/-- A signature in front of its tail has no end in it. -/
theorem IsTail.hasNoEnd (h : IsTail sig tail rest) : HasNoEnd sig := by
  cases h with
  | semicolon hsig => exact hsig.noEnd
  | body hsig => exact hsig.noEnd
  | missing hsig => exact hsig

/-- A text without an end in it is no longer than the signature in front of a tail. -/
theorem IsTail.length_le (h : IsTail sig tail rest) (h' : HasNoEnd sig')
    (heq : sig ++ (tail ++ rest) = sig' ++ rest') : sig'.length ≤ sig.length := by
  cases h with
  | semicolon hsig => exact hsig.length_le (.inr rfl) h' heq
  | body hsig hbody =>
    obtain ⟨inside, rfl⟩ := hbody.exists_eq_cons
    exact hsig.length_le (.inl rfl) h' heq
  | missing =>
    have hwhole := congrArg List.length heq
    simp only [List.append_nil, List.length_append] at hwhole
    omega

/-- A text has one signature and tail at most at its beginning. -/
theorem IsTail.unique (h : IsTail sig tail rest) (h' : IsTail sig' tail' rest')
    (heq : sig ++ (tail ++ rest) = sig' ++ (tail' ++ rest')) : sig = sig' ∧ tail = tail' := by
  have hlength : sig.length = sig'.length :=
    le_antisymm (h'.length_le h.hasNoEnd heq.symm) (h.length_le h'.hasNoEnd heq)
  obtain ⟨rfl, htail⟩ := List.append_inj heq hlength
  refine ⟨rfl, ?_⟩
  cases h with
  | semicolon =>
    cases h' with
    | semicolon => rfl
    | body _ hbody =>
      obtain ⟨inside, rfl⟩ := hbody.exists_eq_cons
      simp at htail
    | missing => simp at htail
  | body _ hbody =>
    cases h' with
    | semicolon =>
      obtain ⟨inside, rfl⟩ := hbody.exists_eq_cons
      simp at htail
    | body _ hbody' => exact hbody.unique hbody' htail
    | missing =>
      obtain ⟨inside, rfl⟩ := hbody.exists_eq_cons
      simp at htail
  | missing =>
    cases h' with
    | semicolon => simp at htail
    | body _ hbody =>
      obtain ⟨inside, rfl⟩ := hbody.exists_eq_cons
      simp at htail
    | missing => rfl

/-- A text without a certain character does not go on behind it. -/
theorem length_le_of_notMem {first second : List Char} (h : c ∉ second)
    (heq : first ++ c :: rest = second ++ rest') : second.length ≤ first.length := by
  by_contra hlt
  obtain ⟨more, rfl⟩ := prefix_of_length_lt heq (not_le.mp hlt)
  simp at h

/-- A text has one line at most at its beginning. -/
theorem IsLine.unique {line line' : List Char} (h : IsLine line rest) (h' : IsLine line' rest')
    (heq : line ++ rest = line' ++ rest') : line = line' := by
  rcases h with ⟨text, rfl, htext⟩ | ⟨hline, rfl⟩
  · rcases h' with ⟨text', rfl, htext'⟩ | ⟨hline', rfl⟩
    · rw [List.append_assoc, List.append_assoc] at heq
      have hlength : text.length = text'.length :=
        le_antisymm (length_le_of_notMem htext heq.symm) (length_le_of_notMem htext' heq)
      rw [(List.append_inj heq hlength).1]
    · rw [List.append_nil] at heq
      exact absurd (by simp) (heq ▸ hline')
  · rw [List.append_nil] at heq
    rcases h' with ⟨text', rfl, -⟩ | ⟨-, rfl⟩
    · exact absurd (by simp) (heq ▸ hline)
    · rwa [List.append_nil] at heq

/-- An item is not empty. -/
theorem IsItem.ne_nil (h : IsItem front item rest) : item ≠ [] := by
  cases h <;> exact List.cons_ne_nil _ _

/-- Two items that can be read at the same place are the same. -/
theorem IsItem.unique (h : IsItem front item rest) (h' : IsItem front item' rest')
    (heq : item ++ rest = item' ++ rest') : item = item' := by
  cases h with
  | plain hfunction hcomment =>
    cases h' with
    | plain => rw [(List.cons.inj heq).1]
    | comment =>
      exact absurd ⟨_, (List.append_assoc _ _ _).symm.trans heq.symm⟩ hcomment
    | function hboundary =>
      exact absurd ⟨_, (List.append_assoc _ _ _).symm.trans heq.symm⟩ (hfunction hboundary)
  | comment hline =>
    cases h' with
    | plain _ hcomment => exact absurd ⟨_, (List.append_assoc _ _ _).symm.trans heq⟩ hcomment
    | comment hline' =>
      rw [List.append_assoc, List.append_assoc] at heq
      rw [hline.unique hline' (List.append_cancel_left heq)]
    | function => simp at heq
  | function hboundary htail =>
    cases h' with
    | plain hfunction =>
      exact absurd ⟨_, (List.append_assoc _ _ _).symm.trans heq⟩ (hfunction hboundary)
    | comment => simp at heq
    | function _ htail' =>
      simp only [List.append_assoc] at heq
      obtain ⟨rfl, rfl⟩ := htail.unique htail' (List.append_cancel_left heq)
      rfl

end FlatCrate.Source
