/-!
# Places in a YAML text

A cursor is a place in a text: what lies ahead, and how far the place is from the beginning, from
the first line and from the beginning of its line. A byte order mark has no width.
-/

namespace FlatCrate.Yaml

/-- The characters that end a line. -/
def isBreak (c : Char) : Bool :=
  c == '\n' || c == '\r' || c == '\x85' || c == '\u2028' || c == '\u2029'

/-- The blanks inside a line. -/
def isSpace (c : Char) : Bool := c == ' ' || c == '\t'

/-- The characters that separate words. -/
def isGap (c : Char) : Bool := isSpace c || isBreak c

/-- Whether a text is over or begins with a character of a class. -/
def endsOr (p : Char → Bool) : List Char → Bool
  | [] => true
  | c :: _ => p c

/-- The characters that a document may hold. -/
def isAllowed (c : Char) : Bool :=
  let n := c.toNat
  n == 0x09 || n == 0x0a || n == 0x0d || (0x20 ≤ n && n ≤ 0x7e) || n == 0x85 ||
    (0xa0 ≤ n && n ≤ 0xfffd) || 0x10000 ≤ n

/-- A place in a text. -/
structure Cursor where
  /-- What lies ahead. -/
  rest : List Char
  /-- How many characters lie behind. -/
  index : Nat := 0
  line : Nat := 0
  column : Nat := 0

namespace Cursor

/-- The place behind the next character. -/
def next (cursor : Cursor) : Cursor :=
  match cursor.rest with
  | [] => cursor
  | '\r' :: '\n' :: rest => ⟨'\n' :: rest, cursor.index + 1, cursor.line, cursor.column + 1⟩
  | c :: rest =>
    if isBreak c then ⟨rest, cursor.index + 1, cursor.line + 1, 0⟩
    else if c == '\ufeff' then ⟨rest, cursor.index + 1, cursor.line, cursor.column⟩
    else ⟨rest, cursor.index + 1, cursor.line, cursor.column + 1⟩

/-- The place behind as many characters. -/
def skip (cursor : Cursor) : Nat → Cursor
  | 0 => cursor
  | n + 1 => cursor.next.skip n

/-- The characters of a class that lie ahead. -/
def ahead (cursor : Cursor) (p : Char → Bool) : List Char := cursor.rest.takeWhile p

/-- The place behind the characters of a class. -/
def skipWhile (cursor : Cursor) (p : Char → Bool) : Cursor := cursor.skip (cursor.ahead p).length

/-- The line end at a place, if there is one, and the place behind it. Only the line and paragraph
separators are kept apart from the others. -/
def lineBreak (cursor : Cursor) : List Char × Cursor :=
  match cursor.rest with
  | '\r' :: '\n' :: _ => (['\n'], cursor.skip 2)
  | c :: _ =>
    if c == '\u2028' || c == '\u2029' then ([c], cursor.next)
    else if isBreak c then (['\n'], cursor.next)
    else ([], cursor)
  | [] => ([], cursor)

/-- Whether a line begins here that separates documents. -/
def atSeparator (cursor : Cursor) : Bool :=
  match cursor.rest with
  | '-' :: '-' :: '-' :: rest => endsOr isGap rest
  | '.' :: '.' :: '.' :: rest => endsOr isGap rest
  | _ => false

/-- The place behind a comment, if one begins here. -/
def skipComment (cursor : Cursor) : Cursor :=
  match cursor.rest with
  | '#' :: _ => cursor.skipWhile fun c => !isBreak c
  | _ => cursor

end Cursor

end FlatCrate.Yaml
