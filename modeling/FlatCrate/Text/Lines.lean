import FlatCrate.Text.Blank

/-!
# Lines

Only a line feed separates lines. A carriage return in front of it belongs to the separator, and
a text that ends in a line feed has no further, empty line after it. A text file is read with
every line end turned into a single line feed first.
-/

namespace FlatCrate.Text

/-- The pieces between the occurrences of a separator; there is always at least one. -/
def splitAt (sep : Char) (cs : List Char) : List (List Char) :=
  cs.foldr
    (fun c pieces =>
      if c = sep then [] :: pieces
      else match pieces with
        | [] => [[c]]
        | piece :: others => (c :: piece) :: others)
    [[]]

/-- The pieces of a string between the occurrences of a separator. -/
def pieces (sep : Char) (s : String) : List String := (splitAt sep s.toList).map String.ofList

/-- A line without the carriage return that ends it. -/
def dropReturn (line : List Char) : List Char :=
  if line.getLast? = some '\r' then line.dropLast else line

/-- The list without a last empty line. -/
def dropLastEmpty (lines : List (List Char)) : List (List Char) :=
  if lines.getLast? = some [] then lines.dropLast else lines

/-- The lines of a source text. -/
def splitLines (source : List Char) : List (List Char) :=
  (dropLastEmpty (splitAt '\n' source)).map dropReturn

/-- The lines of a source text as strings. -/
def sourceLines (source : String) : List String := (splitLines source.toList).map String.ofList

/-- The text made of lines, each ended by a line feed. -/
def unlines (lines : List String) : String := String.join (lines.map (· ++ "\n"))

/-- One line feed for every line end, onto a reversed text: a pair of carriage return and line
feed is one line end, and so is a carriage return alone. -/
def unifyOnto (out : List Char) : List Char → List Char
  | [] => out
  | '\r' :: '\n' :: rest => unifyOnto ('\n' :: out) rest
  | '\r' :: rest => unifyOnto ('\n' :: out) rest
  | c :: rest => unifyOnto (c :: out) rest

/-- The text with one line feed for every line end. -/
def unifyLineEnds (cs : List Char) : List Char := (unifyOnto [] cs).reverse

/-- The text of a file, if its bytes are valid UTF-8. A byte order mark stays in the text. -/
def ofBytes? (bytes : ByteArray) : Option String :=
  (String.fromUTF8? bytes).map fun s => String.ofList (unifyLineEnds s.toList)

/-- The empty text is one empty piece. -/
@[simp] theorem splitAt_nil (sep : Char) : splitAt sep [] = [[]] := rfl

/-- A separator ends a piece, and any other character begins the next one. -/
theorem splitAt_cons (sep c : Char) (cs : List Char) :
    splitAt sep (c :: cs) =
      if c = sep then [] :: splitAt sep cs
      else match splitAt sep cs with
        | [] => [[c]]
        | piece :: others => (c :: piece) :: others := rfl

/-- Splitting never gives an empty list. -/
theorem splitAt_ne_nil (sep : Char) (cs : List Char) : splitAt sep cs ≠ [] := by
  cases cs with
  | nil => simp
  | cons c cs =>
    rw [splitAt_cons]
    split
    · simp
    · split <;> simp

/-- No piece holds the separator. -/
theorem not_mem_of_mem_splitAt {sep : Char} {cs piece : List Char} (h : piece ∈ splitAt sep cs) :
    sep ∉ piece := by
  induction cs generalizing piece with
  | nil => simp_all
  | cons c cs ih =>
    rw [splitAt_cons] at h
    by_cases hc : c = sep
    · rw [if_pos hc, List.mem_cons] at h
      rcases h with rfl | h
      · simp
      · exact ih h
    · rw [if_neg hc] at h
      split at h
      · simp only [List.mem_singleton] at h
        subst h
        simpa using fun hs => hc hs.symm
      · next first others hsplit =>
        rcases List.mem_cons.mp h with rfl | h
        · have := ih (hsplit ▸ List.mem_cons_self)
          simp only [List.mem_cons, not_or]
          exact ⟨fun hs => hc hs.symm, this⟩
        · exact ih (hsplit ▸ List.mem_cons_of_mem _ h)

end FlatCrate.Text
