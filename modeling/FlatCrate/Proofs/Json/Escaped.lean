import FlatCrate.Json.Read
import FlatCrate.Json.Render
import Mathlib.Algebra.Order.Group.Nat

/-!
# Strings are read back

A string is written in printable ASCII and is read back whatever its characters are: an escape gives
the number of a character in four hexadecimal digits, and the two escapes of a character beyond the
basic plane are put together again.
-/

namespace FlatCrate

/-! ## Hexadecimal digits -/

namespace Text

/-- The digit of a number below sixteen is read as that number. -/
theorem hexDigit?_digitChar {n : Nat} (h : n < 16) : hexDigit? (Nat.digitChar n) = some n := by
  revert n
  decide

/-- A number that fits is written with exactly so many digits. -/
theorem length_hex {width n : Nat} (hwidth : 0 < width) (hn : n < 16 ^ width) :
    (hex width n).length = width := by
  have hle := (Nat.length_toDigits_le_iff (by decide) hwidth).mpr hn
  rw [hex, List.length_append, List.length_replicate, Nat.sub_add_cancel hle]

/-- The last digit of a number that is written over some width. -/
theorem hex_succ {width : Nat} (hwidth : 0 < width) (n : Nat) :
    hex (width + 1) n = hex width (n / 16) ++ [Nat.digitChar (n % 16)] := by
  simp only [hex]
  by_cases hsmall : n < 16
  · obtain ⟨width, rfl⟩ := Nat.exists_eq_succ_of_ne_zero (Nat.ne_of_gt hwidth)
    rw [Nat.toDigits_of_lt_base hsmall, Nat.div_eq_of_lt hsmall, Nat.mod_eq_of_lt hsmall,
      Nat.toDigits_zero]
    simp [List.replicate_succ']
  · rw [Nat.toDigits_of_base_le (by decide) (Nat.le_of_not_lt hsmall), List.length_append,
      List.length_singleton, Nat.add_sub_add_right, List.append_assoc]

/-- The digits of a number have values that make it up. -/
theorem exists_mapM_hexDigit?_hex {width n : Nat} (hwidth : 0 < width) (hn : n < 16 ^ width) :
    ∃ digits, (hex width n).mapM hexDigit? = some digits ∧ ofDigits 16 digits = n := by
  induction width, hwidth using Nat.le_induction generalizing n with
  | base =>
    rw [Nat.pow_one] at hn
    refine ⟨[n], ?_, by simp [ofDigits]⟩
    rw [hex, Nat.toDigits_of_lt_base hn]
    simp [hexDigit?_digitChar hn]
  | succ width hwidth ih =>
    have hfront : n / 16 < 16 ^ width := by
      rw [Nat.pow_succ] at hn
      omega
    obtain ⟨digits, hdigits, hvalue⟩ := ih hfront
    refine ⟨digits ++ [n % 16], ?_, ?_⟩
    · rw [hex_succ hwidth, List.mapM_append, hdigits]
      simp [hexDigit?_digitChar (Nat.mod_lt n (by decide))]
    · rw [ofDigits, List.foldl_append, ← ofDigits, hvalue]
      simp only [List.foldl_cons, List.foldl_nil]
      omega

/-- A number is read back from its digits, whatever follows them. -/
theorem hexNumber?_hex {width n : Nat} (hwidth : 0 < width) (hn : n < 16 ^ width)
    (rest : List Char) : hexNumber? width (hex width n ++ rest) = some (n, rest) := by
  obtain ⟨digits, hdigits, hvalue⟩ := exists_mapM_hexDigit?_hex hwidth hn
  have hlength := length_hex hwidth hn
  simp only [hexNumber?]
  rw [List.take_left' hlength, List.drop_left' hlength, if_pos hlength, hdigits, Option.map_some,
    hvalue]

end Text

/-! ## Characters -/

namespace Json

variable {c : Char} {n high low fuel : Nat} {cs rest : List Char} {found : List Char × List Char}

/-- A number that is no half of a pair stands for itself, whatever follows it. -/
theorem unitChar?_of_single (h : n < 0xd800 ∨ 0xdfff < n) (rest : List Char) :
    unitChar? n rest = some (Char.ofNat n, rest) := by
  have hsingle : (0xd800 ≤ n && n ≤ 0xdfff) = false := by grind
  have hhigh (low : Nat) :
      (0xd800 ≤ n && n ≤ 0xdbff && 0xdc00 ≤ low && low ≤ 0xdfff) = false := by grind
  simp only [unitChar?, hsingle, hhigh]
  split
  · split <;> rfl
  · rfl

/-- Two halves of a pair stand for one character. -/
theorem unitChar?_of_pair (hhigh : 0xd800 ≤ high ∧ high ≤ 0xdbff)
    (hlow : 0xdc00 ≤ low ∧ low ≤ 0xdfff) (rest : List Char) :
    unitChar? high (unitEscape low ++ rest) =
      some (Char.ofNat (0x10000 + (high - 0xd800) * 0x400 + (low - 0xdc00)), rest) := by
  have hread := Text.hexNumber?_hex (show 0 < 4 by decide) (show low < 16 ^ 4 by omega) rest
  simp only [unitChar?, unitEscape, List.cons_append, hread]
  simp [hhigh, hlow]

/-- A character that has been read stands in front of those behind it. -/
def prepend (c : Char) (found : List Char × List Char) : List Char × List Char :=
  (c :: found.1, found.2)

/-- An escape by number gives the character of its unit, which may take the next escape with it. -/
theorem readChars_unitEscape {behind : List Char} (hn : n ≤ 0xffff)
    (hunit : unitChar? n rest = some (c, behind)) (fuel : Nat) :
    readChars (fuel + 1) (unitEscape n ++ rest) = (readChars fuel behind).map (prepend c) := by
  have hread := Text.hexNumber?_hex (show 0 < 4 by decide) (show n < 16 ^ 4 by omega) rest
  rw [unitEscape, List.cons_append, List.cons_append, readChars, hread]
  simp only [hunit]
  rfl

/-- A letter behind a backslash gives the character that it stands for. -/
theorem readChars_shortEscape {letter : Char} (h : shortEscape? letter = some c) (fuel : Nat)
    (rest : List Char) :
    readChars (fuel + 1) ('\\' :: letter :: rest) = (readChars fuel rest).map (prepend c) := by
  have hunit : letter ≠ 'u' := by
    rintro rfl
    simp [shortEscape?] at h
  rw [readChars, h]
  · rfl
  · exact hunit

/-- A character that needs no escape gives itself. -/
theorem readChars_plain (hquote : c ≠ '"') (hbackslash : c ≠ '\\') (hcontrol : 0x20 ≤ c.toNat)
    (fuel : Nat) (rest : List Char) :
    readChars (fuel + 1) (c :: rest) = (readChars fuel rest).map (prepend c) := by
  have hplain : ¬(c.toNat < 0x20 || c == '\\') = true := by grind
  rw [readChars, if_neg hplain]
  · rfl
  all_goals simp_all

/-- No character has the number of a half of a pair. -/
theorem toNat_single_or_pair (c : Char) :
    (c.toNat < 0xd800 ∨ 0xdfff < c.toNat) ∧ c.toNat < 0x110000 := by
  have hvalid : c.toNat.isValidChar := c.valid
  rw [Nat.isValidChar] at hvalid
  omega

/-- A character beyond the basic plane is put together from its two halves. -/
theorem readChars_pairEscape (h : 0xffff < c.toNat) (fuel : Nat) (rest : List Char) :
    readChars (fuel + 1) (unitEscape (0xd800 + (c.toNat - 0x10000) / 0x400) ++
        (unitEscape (0xdc00 + (c.toNat - 0x10000) % 0x400) ++ rest)) =
      (readChars fuel rest).map (prepend c) := by
  have hlt := (toNat_single_or_pair c).2
  refine readChars_unitEscape (by omega) ?_ fuel
  have hvalue : 0x10000 + (0xd800 + (c.toNat - 0x10000) / 0x400 - 0xd800) * 0x400 +
      (0xdc00 + (c.toNat - 0x10000) % 0x400 - 0xdc00) = c.toNat := by
    omega
  rw [unitChar?_of_pair (by omega) (by omega), hvalue, Char.ofNat_toNat]

/-- Every character is read back from what is written for it. -/
theorem readChars_escapeChar (c : Char) (fuel : Nat) (rest : List Char) :
    readChars (fuel + 1) (escapeChar c ++ rest) = (readChars fuel rest).map (prepend c) := by
  rw [escapeChar]
  split_ifs with hquote hbackslash hfeed hreturn htab hform hback hplain hunit
  · exact readChars_shortEscape (by rw [beq_iff_eq.mp hquote]; rfl) fuel rest
  · exact readChars_shortEscape (by rw [beq_iff_eq.mp hbackslash]; rfl) fuel rest
  · exact readChars_shortEscape (by rw [beq_iff_eq.mp hfeed]; rfl) fuel rest
  · exact readChars_shortEscape (by rw [beq_iff_eq.mp hreturn]; rfl) fuel rest
  · exact readChars_shortEscape (by rw [beq_iff_eq.mp htab]; rfl) fuel rest
  · exact readChars_shortEscape (by rw [beq_iff_eq.mp hform]; rfl) fuel rest
  · exact readChars_shortEscape (by rw [beq_iff_eq.mp hback]; rfl) fuel rest
  · simp only [Bool.and_eq_true, decide_eq_true_eq] at hplain
    exact readChars_plain (by simpa using hquote) (by simpa using hbackslash) hplain.1 fuel rest
  · refine readChars_unitEscape hunit ?_ fuel
    rw [unitChar?_of_single (toNat_single_or_pair c).1, Char.ofNat_toNat]
  · rw [List.append_assoc]
    exact readChars_pairEscape (Nat.lt_of_not_le hunit) fuel rest

/-- Written characters are read back up to the closing quote. -/
theorem readChars_flatMap (hfuel : cs.length < fuel) (rest : List Char) :
    readChars fuel (cs.flatMap escapeChar ++ '"' :: rest) = .ok (cs, rest) := by
  induction cs generalizing fuel with
  | nil =>
    obtain ⟨fuel, rfl⟩ := Nat.exists_eq_succ_of_ne_zero (Nat.ne_of_gt hfuel)
    rfl
  | cons c cs ih =>
    obtain ⟨fuel, rfl⟩ := Nat.exists_eq_succ_of_ne_zero (Nat.ne_zero_of_lt hfuel)
    rw [List.flatMap_cons, List.append_assoc, readChars_escapeChar,
      ih (Nat.lt_of_succ_lt_succ hfuel), Except.map, prepend]

/-- Every character is written with at least one. -/
theorem escapeChar_ne_nil (c : Char) : escapeChar c ≠ [] := by
  intro hnil
  have hread := readChars_escapeChar c 0 ['"']
  rw [hnil] at hread
  simp [readChars, Except.map] at hread

/-- A string has no more characters than are written for it. -/
theorem length_le_flatMap (cs : List Char) : cs.length ≤ (cs.flatMap escapeChar).length := by
  induction cs with
  | nil => exact Nat.le_refl 0
  | cons c cs ih =>
    have hpos := List.length_pos_iff.mpr (escapeChar_ne_nil c)
    rw [List.flatMap_cons, List.length_append, List.length_cons]
    omega

/-- A string with its quotes in front of another text. -/
theorem renderString_append (s : String) (rest : List Char) :
    renderString s ++ rest = '"' :: (s.toList.flatMap escapeChar ++ '"' :: rest) := by
  simp [renderString]

/-- A string is read back from what is written behind its opening quote. -/
theorem readString_renderString (s : String) (rest : List Char) :
    readString (s.toList.flatMap escapeChar ++ '"' :: rest) = .ok (s, rest) := by
  have hlength := length_le_flatMap s.toList
  rw [readString, readChars_flatMap (by rw [List.length_append]; omega)]
  simp only [Except.map, String.ofList_toList]

end Json

end FlatCrate
