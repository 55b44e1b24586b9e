import FlatCrate.Text.Digit
import FlatCrate.Value.Fault
import FlatCrate.Yaml.Cursor

/-!
# Quoted scalars

Between single quotes only the quote itself is special, and it is written twice. Between double
quotes a backslash begins an escape. In both, the blanks around line ends are dropped; a single line
end becomes a space, and of several the first is dropped.
-/

namespace FlatCrate.Yaml

/-- The character that a letter behind a backslash stands for. -/
def shortEscape? : Char → Option Char
  | '0' => some '\x00'
  | 'a' => some '\x07'
  | 'b' => some '\x08'
  | 't' => some '\t'
  | '\t' => some '\t'
  | 'n' => some '\n'
  | 'v' => some '\x0b'
  | 'f' => some '\x0c'
  | 'r' => some '\r'
  | 'e' => some '\x1b'
  | ' ' => some ' '
  | '"' => some '"'
  | '\\' => some '\\'
  | '/' => some '/'
  | 'N' => some '\x85'
  | '_' => some '\xa0'
  | 'L' => some '\u2028'
  | 'P' => some '\u2029'
  | _ => none

/-- How many hexadecimal digits follow a letter behind a backslash. -/
def escapeSize? : Char → Option Nat
  | 'x' => some 2
  | 'u' => some 4
  | 'U' => some 8
  | _ => none

/-- The character with a number. The numbers of surrogates are those of no character here. -/
def numbered (n : Nat) : Except DocumentFault Char :=
  if n < 0x110000 then if n.isValidChar then .ok (Char.ofNat n) else .error .unpaired
  else if n < 0x80000000 then .error (.broken .impossibleValue)
  else .error (.broken .tooLarge)

/-- The line ends ahead and the place behind them and the blanks between them. -/
def skipBreaks : Nat → Cursor → Except DocumentFault (List Char × Cursor)
  | 0, _ => .error .malformed
  | fuel + 1, cursor =>
    if cursor.atSeparator then .error .malformed
    else
      let cursor := cursor.skipWhile isSpace
      match cursor.lineBreak with
      | ([], _) => .ok ([], cursor)
      | (ending, behind) =>
        (skipBreaks fuel behind).map fun (breaks, behind) => (ending ++ breaks, behind)

/-- What a line end and the line ends behind it become when lines are joined. -/
def joined (ending breaks : List Char) : List Char :=
  if ending ≠ ['\n'] then ending ++ breaks
  else if breaks.isEmpty then [' ']
  else breaks

/-- The blanks and line ends ahead as they are read. -/
def readGap (cursor : Cursor) : Except DocumentFault (List Char × Cursor) :=
  let blanks := cursor.ahead isSpace
  let behind := cursor.skipWhile isSpace
  match behind.rest, behind.lineBreak with
  | [], _ => .error .malformed
  | _, ([], _) => .ok (blanks, behind)
  | _, (ending, behind) =>
    (skipBreaks (behind.rest.length + 1) behind).map fun (breaks, behind) =>
      (joined ending breaks, behind)

/-- An escape from behind its backslash. A line end is skipped. -/
def readEscape (cursor : Cursor) : Except DocumentFault (List Char × Cursor) :=
  match cursor.rest with
  | [] => .error .malformed
  | letter :: rest =>
    match shortEscape? letter, escapeSize? letter, cursor.lineBreak with
    | some c, _, _ => .ok ([c], cursor.next)
    | none, some size, _ =>
      match Text.hexNumber? size rest with
      | none => .error .malformed
      | some (n, _) => (numbered n).map fun c => ([c], cursor.skip (size + 1))
    | none, none, ([], _) => .error .malformed
    | none, none, (_, behind) => skipBreaks (behind.rest.length + 1) behind

/-- The rest of a quoted scalar up to its closing quote. -/
def readQuoted (double : Bool) : Nat → Cursor → Except DocumentFault (List Char × Cursor)
  | 0, _ => .error .malformed
  | fuel + 1, cursor =>
    let goOn (found : Except DocumentFault (List Char × Cursor)) :=
      match found with
      | .error fault => .error fault
      | .ok (cs, behind) =>
        (readQuoted double fuel behind).map fun (more, behind) => (cs ++ more, behind)
    match double, cursor.rest with
    | _, [] => .error .malformed
    | false, '\'' :: '\'' :: _ => goOn (.ok (['\''], cursor.skip 2))
    | false, '\'' :: _ => .ok ([], cursor.next)
    | true, '"' :: _ => .ok ([], cursor.next)
    | true, '\\' :: _ => goOn (readEscape cursor.next)
    | _, c :: _ => if isGap c then goOn (readGap cursor) else goOn (.ok ([c], cursor.next))

end FlatCrate.Yaml
