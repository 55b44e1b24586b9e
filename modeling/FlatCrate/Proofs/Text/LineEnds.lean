import FlatCrate.Proofs.Text.Lines

/-!
# Line ends

When a file is read, every line end becomes a single line feed, also a carriage return on its own.
When a text is split into lines, only line feeds count, and one carriage return in front of each of
them is dropped. The lines are the same both ways as long as no carriage return is left inside of
one of them.
-/

namespace FlatCrate.Text

variable {line front : List Char}

/-! ## Lines of a text -/

/-- A line in front of others is not the last one. -/
theorem dropLastEmpty_cons {lines : List (List Char)} (h : lines ≠ []) (line : List Char) :
    dropLastEmpty (line :: lines) = line :: dropLastEmpty lines := by
  rw [dropLastEmpty, dropLastEmpty, List.getLast?_cons_of_ne_nil h, List.dropLast_cons_of_ne_nil h]
  split_ifs <;> rfl

/-- The first line goes up to the first line feed. -/
theorem splitLines_append_feed (h : '\n' ∉ line) (rest : List Char) :
    splitLines (line ++ '\n' :: rest) = dropReturn line :: splitLines rest := by
  rw [splitLines, splitAt_eq_splitOn, List.splitOn_append_cons_self_of_not_mem h,
    ← splitAt_eq_splitOn, dropLastEmpty_cons (splitAt_ne_nil '\n' rest), List.map_cons]
  rfl

/-- The last line need not be ended. -/
theorem splitLines_of_notMem (hne : line ≠ []) (h : '\n' ∉ line) :
    splitLines line = [dropReturn line] := by
  have hsplit : splitAt '\n' line = [line] := by
    rw [splitAt_eq_splitOn, List.splitOn_eq_singleton h]
  rw [splitLines, hsplit, dropLastEmpty, if_neg (by simpa using hne), List.map_singleton]

/-- A line has at most one carriage return more than what is left of it. -/
theorem eq_dropReturn_or_eq_concat (line : List Char) :
    line = dropReturn line ∨ line = dropReturn line ++ ['\r'] := by
  rw [dropReturn]
  split_ifs with hlast
  · exact .inr (List.dropLast_append_getLast? _ hlast).symm
  · exact .inl rfl

/-- Dropping the return adds no character. -/
theorem notMem_dropReturn {c : Char} (h : c ∉ line) : c ∉ dropReturn line :=
  fun hc => h (mem_of_mem_dropReturn hc)

/-! ## Line ends of a file -/

/-- What has been unified stays in front. -/
theorem unifyOnto_append (out more cs : List Char) :
    unifyOnto (out ++ more) cs = unifyOnto out cs ++ more := by
  fun_induction unifyOnto out cs with
  | case1 out => rfl
  | case2 out rest ih => exact ih
  | case3 out rest hfeed ih => rw [unifyOnto.eq_3 _ _ hfeed]; exact ih
  | case4 out c rest hpair hreturn ih => rw [unifyOnto.eq_4 _ _ _ hpair hreturn]; exact ih

/-- A beginning without returns is copied. -/
theorem unifyOnto_append_of_notMem (h : '\r' ∉ front) (out cs : List Char) :
    unifyOnto out (front ++ cs) = unifyOnto (front.reverse ++ out) cs := by
  induction front generalizing out with
  | nil => rfl
  | cons c front ih =>
    rw [List.mem_cons, not_or] at h
    have hreturn : c ≠ '\r' := Ne.symm h.1
    rw [List.cons_append, unifyOnto.eq_4 _ _ _ (fun _ hc _ => hreturn hc) hreturn, ih h.2]
    simp

/-- What holds no carriage return stays as it is. -/
theorem unifyLineEnds_append (h : '\r' ∉ front) (cs : List Char) :
    unifyLineEnds (front ++ cs) = front ++ unifyLineEnds cs := by
  have happend := unifyOnto_append [] front.reverse cs
  rw [List.nil_append] at happend
  rw [unifyLineEnds, unifyOnto_append_of_notMem h, List.append_nil, happend, List.reverse_append,
    List.reverse_reverse]
  rfl

/-- A carriage return in front of a line feed is part of the line end. -/
theorem unifyLineEnds_return (cs : List Char) :
    unifyLineEnds ('\r' :: '\n' :: cs) = '\n' :: unifyLineEnds cs := by
  have happend := unifyOnto_append [] ['\n'] cs
  rw [List.nil_append] at happend
  rw [unifyLineEnds, unifyOnto, happend, List.reverse_append]
  rfl

/-- A line without a carriage return inside of it is ended by a single line feed. -/
theorem unifyLineEnds_line (h : '\r' ∉ dropReturn line) (rest : List Char) :
    unifyLineEnds (line ++ '\n' :: rest) = dropReturn line ++ '\n' :: unifyLineEnds rest := by
  obtain hline | hline := eq_dropReturn_or_eq_concat line
  · have hfeed : unifyLineEnds (['\n'] ++ rest) = ['\n'] ++ unifyLineEnds rest :=
      unifyLineEnds_append (by decide) rest
    rw [← hline] at h ⊢
    rw [unifyLineEnds_append h]
    exact congrArg (line ++ ·) hfeed
  · conv_lhs => rw [hline]
    rw [List.append_assoc, unifyLineEnds_append h, List.singleton_append, unifyLineEnds_return]

/-- The last line is given a line end if it ends in a carriage return. -/
theorem splitLines_unifyLineEnds_of_notMem (hne : line ≠ []) (hfeed : '\n' ∉ line)
    (h : '\r' ∉ dropReturn line) : splitLines (unifyLineEnds line) = [dropReturn line] := by
  obtain hline | hline := eq_dropReturn_or_eq_concat line
  · rw [← hline] at h
    rw [unifyLineEnds, unifyOnto_of_notMem h, List.append_nil, List.reverse_reverse,
      splitLines_of_notMem hne hfeed]
  · conv_lhs => rw [hline]
    rw [unifyLineEnds_append h, show unifyLineEnds ['\r'] = ['\n'] from rfl,
      splitLines_append_feed (notMem_dropReturn hfeed), dropReturn_of_notMem h]
    rfl

/-- If no carriage return is left inside of the lines of a text, these are the lines of the text
with unified line ends. -/
theorem splitLines_unifyLineEnds {cs : List Char} (h : ∀ line ∈ splitLines cs, '\r' ∉ line) :
    splitLines (unifyLineEnds cs) = splitLines cs := by
  by_cases hfeed : '\n' ∈ cs
  · obtain ⟨line, rest, hcs, hline⟩ := List.eq_append_cons_of_mem hfeed
    have hshorter : rest.length < cs.length := by
      rw [hcs, List.length_append, List.length_cons]
      omega
    rw [hcs, splitLines_append_feed hline, List.forall_mem_cons] at h
    have ih := splitLines_unifyLineEnds h.2
    rw [hcs, unifyLineEnds_line h.1, splitLines_append_feed (notMem_dropReturn hline),
      splitLines_append_feed hline, dropReturn_of_notMem h.1, ih]
  · by_cases hne : cs = []
    · rw [hne]
      rfl
    · rw [splitLines_of_notMem hne hfeed] at h ⊢
      exact splitLines_unifyLineEnds_of_notMem hne hfeed (h _ List.mem_cons_self)
termination_by cs.length
decreasing_by exact hshorter

/-- A text with one line feed for every line end. -/
def unified (text : String) : String := String.ofList (unifyLineEnds text.toList)

/-- If no return is left in a line, unifying line ends leaves the lines of a text. -/
theorem sourceLines_unified {text : String} (h : ∀ line ∈ sourceLines text, '\r' ∉ line.toList) :
    sourceLines (unified text) = sourceLines text := by
  have hlines : ∀ line ∈ splitLines text.toList, '\r' ∉ line := by
    simpa [sourceLines] using h
  rw [sourceLines, sourceLines, unified, String.toList_ofList, splitLines_unifyLineEnds hlines]

/-- What stands in a line stands in the text made of the lines. -/
theorem mem_unlines {lines : List String} {line : String} {c : Char} (hline : line ∈ lines)
    (hc : c ∈ line.toList) : c ∈ (unlines lines).toList := by
  obtain ⟨first, rest, rfl⟩ := List.append_of_mem hline
  simp [hc]

end FlatCrate.Text
