import FlatCrate.Text.Digit

/-!
# Texts of a TOML document

A text stands between double quotes, and a backslash in it begins an escape, or between single
quotes, and then it is taken as it is. Three quotes enclose a text of several lines: a line end
right behind them is dropped, and one or two quotes right before the closing three belong to the
text. Every reader here gives the characters that it read and what follows them.
-/

namespace FlatCrate.Toml

/-- The blanks inside a line. -/
def isSpace (c : Char) : Bool := c == ' ' || c == '\t'

/-- The blanks inside a line and the line end. -/
def isSpaceOrEnd (c : Char) : Bool := isSpace c || c == '\n'

/-- The control characters, which no text and no comment may hold. -/
def isControl (c : Char) : Bool := (c.toNat < 0x20 && c != '\t') || c.toNat == 0x7f

/-- The text behind its blanks. -/
def skipSpace (cs : List Char) : List Char := cs.dropWhile isSpace

/-- The character that a letter behind a backslash stands for. -/
def shortEscape? : Char → Option Char
  | '"' => some '"'
  | '\\' => some '\\'
  | 'b' => some '\x08'
  | 'f' => some '\x0c'
  | 'n' => some '\n'
  | 'r' => some '\r'
  | 't' => some '\t'
  | _ => none

/-- The character that as many hexadecimal digits stand for. -/
def readNumbered (count : Nat) (cs : List Char) : Option (List Char × List Char) := do
  let (n, rest) ← Text.hexNumber? count cs
  if n.isValidChar then some ([Char.ofNat n], rest) else none

/-- An escape from behind its backslash. In a text of several lines a backslash at the end of a line
skips the blanks and line ends up to the next character. -/
def readEscape (multiline : Bool) : List Char → Option (List Char × List Char)
  | [] => none
  | 'u' :: rest => readNumbered 4 rest
  | 'U' :: rest => readNumbered 8 rest
  | c :: rest =>
    if multiline && isSpaceOrEnd c then
      match skipSpace (c :: rest) with
      | '\n' :: behind => some ([], behind.dropWhile isSpaceOrEnd)
      | _ => none
    else (shortEscape? c).map fun escaped => ([escaped], rest)

/-- The rest of a text between double quotes, read up to the closing ones. -/
def readBasic (multiline : Bool) : Nat → List Char → Option (List Char × List Char)
  | 0, _ => none
  | _, [] => none
  | fuel + 1, c :: rest =>
    if c == '\\' then do
      let (escaped, behind) ← readEscape multiline rest
      let (cs, behind) ← readBasic multiline fuel behind
      return (escaped ++ cs, behind)
    else if c == '"' && !multiline then some ([], rest)
    else if c == '"' && ['"', '"'].isPrefixOf rest then some ([], rest.drop 2)
    else if isControl c && !(multiline && c == '\n') then none
    else do
      let (cs, behind) ← readBasic multiline fuel rest
      return (c :: cs, behind)

/-- The rest of a text between single quotes. -/
def readLiteral : List Char → Option (List Char × List Char)
  | [] => none
  | '\'' :: rest => some ([], rest)
  | c :: rest =>
    if isControl c then none
    else (readLiteral rest).map fun (cs, behind) => (c :: cs, behind)

/-- The rest of a text between three single quotes on each side. -/
def readLiteralLines : List Char → Option (List Char × List Char)
  | [] => none
  | '\'' :: '\'' :: '\'' :: rest => some ([], rest)
  | c :: rest =>
    if isControl c && c != '\n' then none
    else (readLiteralLines rest).map fun (cs, behind) => (c :: cs, behind)

/-- The text without a line end at its beginning. -/
def dropLineEnd : List Char → List Char
  | '\n' :: rest => rest
  | cs => cs

/-- The one or two quotes behind three closing ones join the text. -/
def withExtraQuotes (quote : Char) (cs rest : List Char) : List Char × List Char :=
  let extra := (rest.take 2).takeWhile (· == quote)
  (cs ++ extra, rest.drop extra.length)

/-- A text between quotes on one line. -/
def readLine? : List Char → Option (List Char × List Char)
  | '"' :: rest => readBasic false rest.length rest
  | '\'' :: rest => readLiteral rest
  | _ => none

/-- A text between quotes. -/
def readText? : List Char → Option (List Char × List Char)
  | '"' :: '"' :: '"' :: rest =>
    (readBasic true rest.length (dropLineEnd rest)).map fun (cs, behind) =>
      withExtraQuotes '"' cs behind
  | '\'' :: '\'' :: '\'' :: rest =>
    (readLiteralLines (dropLineEnd rest)).map fun (cs, behind) =>
      withExtraQuotes '\'' cs behind
  | cs => readLine? cs

/-- A text without single quotes and control characters is read back from between single quotes. -/
theorem readLiteral_append {cs : List Char} (h : ∀ c ∈ cs, c ≠ '\'' ∧ isControl c = false)
    (rest : List Char) : readLiteral (cs ++ '\'' :: rest) = some (cs, rest) := by
  induction cs with
  | nil => rfl
  | cons c cs ih =>
    have hc := h c List.mem_cons_self
    have ih := ih fun d hd => h d (List.mem_cons_of_mem c hd)
    rw [List.cons_append, readLiteral]
    · simp [hc.2, ih]
    · exact fun hquote => hc.1 hquote

end FlatCrate.Toml
