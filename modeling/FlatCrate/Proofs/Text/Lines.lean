import FlatCrate.Text.Lines
import Mathlib.Data.List.Basic

/-!
# Lines are found again

A text made of lines has these lines. A text that was read holds no carriage return, and a text
without one is read back as it was written.
-/

namespace FlatCrate.Text

/-- Splitting is that of the core library. -/
theorem splitAt_eq_splitOn (sep : Char) (cs : List Char) : splitAt sep cs = cs.splitOn sep := by
  induction cs with
  | nil => rfl
  | cons c cs ih =>
    rw [splitAt_cons, List.splitOn_cons_eq_if_modifyHead, ih]
    by_cases hc : c = sep
    · rw [if_pos hc, if_pos (beq_iff_eq.mpr hc)]
    · rw [if_neg hc, if_neg (mt beq_iff_eq.mp hc)]
      cases hsplit : cs.splitOn sep with
      | nil => exact absurd hsplit (List.splitOn_ne_nil sep cs)
      | cons piece others => rfl

/-- The pieces are made of the text. -/
theorem mem_of_mem_splitAt {sep c : Char} {cs piece : List Char} (hpiece : piece ∈ splitAt sep cs)
    (hc : c ∈ piece) : c ∈ cs := by
  induction cs generalizing piece with
  | nil => simp_all
  | cons d cs ih =>
    rw [splitAt_cons] at hpiece
    by_cases hd : d = sep
    · rw [if_pos hd, List.mem_cons] at hpiece
      rcases hpiece with rfl | hpiece
      · simp at hc
      · exact List.mem_cons_of_mem _ (ih hpiece hc)
    · rw [if_neg hd] at hpiece
      cases hsplit : splitAt sep cs with
      | nil => exact absurd hsplit (splitAt_ne_nil sep cs)
      | cons first others =>
        rw [hsplit] at hpiece ih
        rcases List.mem_cons.mp hpiece with rfl | hpiece
        · rcases List.mem_cons.mp hc with rfl | hc
          · exact List.mem_cons_self
          · exact List.mem_cons_of_mem _ (ih List.mem_cons_self hc)
        · exact List.mem_cons_of_mem _ (ih (List.mem_cons_of_mem _ hpiece) hc)

/-- Texts with a separator between them are the pieces of the whole. -/
theorem pieces_intercalate {sep : Char} {text : String} (htext : text.toList = [sep])
    {parts : List String} (hne : parts ≠ []) (h : ∀ part ∈ parts, sep ∉ part.toList) :
    pieces sep (String.intercalate text parts) = parts := by
  have hpieces : ∀ cs ∈ parts.map String.toList, sep ∉ cs := by
    simpa using h
  rw [pieces, String.toList_intercalate, htext, splitAt_eq_splitOn,
    List.splitOn_intercalate sep hpieces (by simpa using hne), List.map_map]
  simp [Function.comp_def]

/-! ## Source lines -/

/-- No lines make the empty text. -/
@[simp] theorem unlines_nil : unlines [] = "" := by simp [unlines]

/-- The first line comes first, with its line feed. -/
@[simp] theorem unlines_cons (line : String) (lines : List String) :
    unlines (line :: lines) = line ++ "\n" ++ unlines lines := by
  simp [unlines]

/-- The texts of two lists of lines come one behind the other. -/
@[simp] theorem unlines_append (first rest : List String) :
    unlines (first ++ rest) = unlines first ++ unlines rest := by
  simp [unlines]

/-- What a line that was read cannot hold. -/
def IsPlainLine (line : List Char) : Prop := '\n' ∉ line ∧ '\r' ∉ line

/-- A line without a return loses nothing. -/
theorem dropReturn_of_notMem {line : List Char} (h : '\r' ∉ line) : dropReturn line = line := by
  rw [dropReturn, if_neg fun hlast => h (List.mem_of_getLast? hlast)]

/-- Lines that end in line feeds are split again, with an empty piece at the end. -/
theorem splitAt_flatMap {lines : List (List Char)} (h : ∀ line ∈ lines, IsPlainLine line) :
    splitAt '\n' (lines.flatMap (· ++ ['\n'])) = lines ++ [[]] := by
  induction lines with
  | nil => rfl
  | cons line lines ih =>
    rw [List.flatMap_cons, List.append_assoc, List.singleton_append, splitAt_eq_splitOn,
      List.splitOn_append_cons_self_of_not_mem (h line List.mem_cons_self).1, ← splitAt_eq_splitOn,
      ih fun l hl => h l (List.mem_cons_of_mem _ hl), List.cons_append]

/-- A text made of lines has these lines. -/
theorem sourceLines_unlines {lines : List String} (h : ∀ line ∈ lines, IsPlainLine line.toList) :
    sourceLines (unlines lines) = lines := by
  have hplain : ∀ line ∈ lines.map String.toList, IsPlainLine line := by
    simpa using h
  have htext : (unlines lines).toList = (lines.map String.toList).flatMap (· ++ ['\n']) := by
    simp [unlines, List.flatMap_map]
  have hreturn : (lines.map String.toList).map dropReturn = lines.map String.toList := by
    conv_rhs => rw [← List.map_id (lines.map String.toList)]
    exact List.map_congr_left fun line hline => dropReturn_of_notMem (hplain line hline).2
  rw [sourceLines, splitLines, htext, splitAt_flatMap hplain, dropLastEmpty,
    if_pos List.getLast?_concat, List.dropLast_concat, hreturn, List.map_map]
  simp [Function.comp_def]

/-- Dropping the return leaves characters of the line. -/
theorem mem_of_mem_dropReturn {line : List Char} {c : Char} (h : c ∈ dropReturn line) :
    c ∈ line := by
  rw [dropReturn] at h
  split at h
  · exact List.dropLast_subset _ h
  · exact h

/-- Dropping the last empty line leaves lines of the text. -/
theorem mem_of_mem_dropLastEmpty {lines : List (List Char)} {line : List Char}
    (h : line ∈ dropLastEmpty lines) : line ∈ lines := by
  rw [dropLastEmpty] at h
  split at h
  · exact List.dropLast_subset _ h
  · exact h

/-- The lines of a text without carriage returns are plain. -/
theorem isPlainLine_of_mem_sourceLines {source line : String} (h : '\r' ∉ source.toList)
    (hline : line ∈ sourceLines source) : IsPlainLine line.toList := by
  obtain ⟨cs, hcs, rfl⟩ := List.mem_map.mp hline
  obtain ⟨piece, hpiece, rfl⟩ := List.mem_map.mp hcs
  have hsplit := mem_of_mem_dropLastEmpty hpiece
  rw [String.toList_ofList]
  constructor
  · intro hfeed
    exact not_mem_of_mem_splitAt hsplit (mem_of_mem_dropReturn hfeed)
  · intro hreturn
    exact h (mem_of_mem_splitAt hsplit (mem_of_mem_dropReturn hreturn))

/-! ## Reading a text file -/

/-- A text without returns is unified already. -/
theorem unifyOnto_of_notMem {cs : List Char} (h : '\r' ∉ cs) (out : List Char) :
    unifyOnto out cs = cs.reverse ++ out := by
  fun_induction unifyOnto out cs with
  | case1 out => rfl
  | case2 out rest ih => simp at h
  | case3 out rest _ ih => simp at h
  | case4 out c rest _ _ ih =>
    rw [List.mem_cons, not_or] at h
    rw [ih h.2, List.reverse_cons, List.append_assoc, List.singleton_append]

/-- No return is left when line ends have been unified. -/
theorem notMem_unifyOnto {cs out : List Char} (h : '\r' ∉ out) : '\r' ∉ unifyOnto out cs := by
  fun_induction unifyOnto out cs with
  | case1 out => exact h
  | case2 out rest ih => exact ih (by simp [h])
  | case3 out rest _ ih => exact ih (by simp [h])
  | case4 out c rest _ hreturn ih =>
    apply ih
    rw [List.mem_cons, not_or]
    exact ⟨fun hc => hreturn hc.symm, h⟩

/-- A text that was read holds no carriage return. -/
theorem notMem_of_ofBytes? {bytes : ByteArray} {text : String} (h : ofBytes? bytes = some text) :
    '\r' ∉ text.toList := by
  obtain ⟨s, -, rfl⟩ := Option.map_eq_some_iff.mp h
  rw [String.toList_ofList, unifyLineEnds, List.mem_reverse]
  exact notMem_unifyOnto (by simp)

/-- A text is decoded from its bytes. -/
theorem fromUTF8?_toUTF8 (text : String) : String.fromUTF8? text.toUTF8 = some text := by
  rw [String.toUTF8_eq_toByteArray, String.fromUTF8?, dif_pos text.isValidUTF8]
  rfl

/-- A text without carriage returns is read back as it was written. -/
theorem ofBytes?_toUTF8 {text : String} (h : '\r' ∉ text.toList) :
    ofBytes? text.toUTF8 = some text := by
  rw [ofBytes?, fromUTF8?_toUTF8, Option.map_some, unifyLineEnds, unifyOnto_of_notMem h, List.append_nil,
    List.reverse_reverse, String.ofList_toList]

end FlatCrate.Text
