import FlatCrate.Value.Fault
import FlatCrate.Yaml.Cursor

/-!
# Block scalars

A block scalar is a run of lines indented alike, behind a line that says how its line ends are kept:
as they are, or folded into spaces between lines that begin with no blank; and whether the last of
them stay. Its indentation is given in that line or found from its first line that is not empty.
-/

namespace FlatCrate.Yaml

/-- What becomes of the line ends behind the last line. -/
inductive Chomping
  | strip
  | clip
  | keep
  deriving DecidableEq, Repr

/-- The first line of a block scalar. -/
structure BlockHeader where
  chomping : Chomping := .clip
  /-- How much deeper than its surroundings the text is, if the header says so. -/
  increment : Option Nat := none

/-- The chomping that a sign names. -/
def chomping? : Char → Option Chomping
  | '+' => some .keep
  | '-' => some .strip
  | _ => none

/-- The increment that a digit names. -/
def increment? (c : Char) : Option Nat :=
  if c.isDigit && c != '0' then some (c.toNat - 48) else none

/-- The signs of a header, in any order. -/
def readHeader (cursor : Cursor) : BlockHeader × Cursor :=
  match cursor.rest with
  | c :: rest =>
    match chomping? c, increment? c with
    | some chomping, _ =>
      match rest.head?.bind increment? with
      | some n => (⟨chomping, some n⟩, cursor.skip 2)
      | none => (⟨chomping, none⟩, cursor.next)
    | none, some n =>
      match rest.head?.bind chomping? with
      | some chomping => (⟨chomping, some n⟩, cursor.skip 2)
      | none => (⟨.clip, some n⟩, cursor.next)
    | none, none => ({}, cursor)
  | [] => ({}, cursor)

/-- The place behind the blanks, the comment and the end of a line that holds nothing else. -/
def skipRestOfLine (cursor : Cursor) : Except DocumentFault Cursor :=
  let cursor := (cursor.skipWhile (· == ' ')).skipComment
  if endsOr isBreak cursor.rest then .ok cursor.lineBreak.2 else .error .malformed

/-- The empty lines ahead, the deepest column that spaces reach in them, and the place behind. -/
def findIndent : Nat → Cursor → List Char × Nat × Cursor
  | 0, cursor => ([], 0, cursor)
  | fuel + 1, cursor =>
    let cursor := cursor.skipWhile (· == ' ')
    match cursor.lineBreak with
    | ([], _) => ([], cursor.column, cursor)
    | (ending, behind) =>
      let (breaks, column, behind) := findIndent fuel behind
      (ending ++ breaks, max cursor.column column, behind)

/-- The place behind the spaces up to a column. -/
def skipIndent (indent : Nat) (cursor : Cursor) : Cursor :=
  cursor.skip (((cursor.ahead (· == ' ')).take (indent - cursor.column)).length)

/-- The empty lines ahead and the place behind the indentation of the next one. -/
def skipEmptyLines (indent : Nat) : Nat → Cursor → List Char × Cursor
  | 0, cursor => ([], cursor)
  | fuel + 1, cursor =>
    let cursor := skipIndent indent cursor
    match cursor.lineBreak with
    | ([], _) => ([], cursor)
    | (ending, behind) =>
      let (breaks, behind) := skipEmptyLines indent fuel behind
      (ending ++ breaks, behind)

/-- What the line ends between two lines become. -/
def betweenLines (folded : Bool) (line ending breaks next : List Char) : List Char :=
  if folded && ending == ['\n'] && !endsOr isSpace line && !endsOr isSpace next then
    if breaks.isEmpty then [' '] else breaks
  else ending ++ breaks

/-- The lines of a block scalar with the line ends between them, the line end of the last line, the
empty lines behind it, and the place behind those. -/
def readLines (folded : Bool) (indent : Nat) : Nat → Cursor →
    List Char × List Char × List Char × Cursor
  | 0, cursor => ([], [], [], cursor)
  | fuel + 1, cursor =>
    let line := cursor.ahead fun c => !isBreak c
    let (ending, behind) := (cursor.skip line.length).lineBreak
    let (breaks, behind) := skipEmptyLines indent (behind.rest.length + 1) behind
    if behind.column = indent ∧ !behind.rest.isEmpty then
      let between := betweenLines folded line ending breaks behind.rest
      let (more, last, trailing, behind) := readLines folded indent fuel behind
      (line ++ between ++ more, last, trailing, behind)
    else (line, ending, breaks, behind)

/-- A block scalar from behind its sign. It is indented deeper than its surroundings, and by one
column at least. -/
def readBlock (folded : Bool) (surroundings : Int) (cursor : Cursor) :
    Except DocumentFault (List Char × Cursor) :=
  let (header, cursor) := readHeader cursor
  if !endsOr (fun c => c == ' ' || isBreak c) cursor.rest then .error .malformed
  else
    match skipRestOfLine cursor with
    | .error fault => .error fault
    | .ok cursor =>
      let least := max 1 (surroundings + 1).toNat
      let (indent, breaks, behind) := match header.increment with
        | some n =>
          let indent := least + n - 1
          let (breaks, behind) := skipEmptyLines indent (cursor.rest.length + 1) cursor
          (indent, breaks, behind)
        | none =>
          let (breaks, column, behind) := findIndent (cursor.rest.length + 1) cursor
          (max least column, breaks, behind)
      let (body, last, trailing, behind) :=
        if behind.column = indent ∧ !behind.rest.isEmpty then
          let (body, last, trailing, behind) := readLines folded indent behind.rest.length behind
          (breaks ++ body, last, trailing, behind)
        else ([], [], breaks, behind)
      .ok (match header.chomping with
        | .strip => (body, behind)
        | .clip => (body ++ last, behind)
        | .keep => (body ++ last ++ trailing, behind))

end FlatCrate.Yaml
