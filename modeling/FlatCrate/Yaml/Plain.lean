import FlatCrate.Yaml.Quoted

/-!
# Plain scalars

A scalar without quotes ends before a colon or a comment sign that stands apart, inside brackets
also before the signs of collections, and where a line is not indented enough. Lines are joined as
in quoted scalars. Tabs are not part of it.
-/

namespace FlatCrate.Yaml

/-- The characters that separate the items of collections between brackets. -/
def isFlowSign (c : Char) : Bool :=
  c == ',' || c == '?' || c == '[' || c == ']' || c == '\x7b' || c == '\x7d'

/-- Whether a colon stands apart before a text. -/
def standsApart (inFlow : Bool) (rest : List Char) : Bool :=
  endsOr (fun c => isGap c || (inFlow && c != '?' && isFlowSign c)) rest

/-- The characters ahead up to a gap or a sign. -/
def plainWord (inFlow : Bool) : List Char → List Char
  | [] => []
  | c :: rest =>
    if isGap c then []
    else if c == ':' && standsApart inFlow rest then []
    else if inFlow && isFlowSign c then []
    else c :: plainWord inFlow rest

/-- The line ends and spaces ahead of a further line; nothing if a document ends there. -/
def skipLines : Nat → Cursor → Option (List Char) × Cursor
  | 0, cursor => (some [], cursor)
  | fuel + 1, cursor =>
    if cursor.atSeparator && cursor.column == 0 then (none, cursor)
    else
      let cursor := cursor.skipWhile (· == ' ')
      match cursor.lineBreak with
      | ([], _) => (some [], cursor)
      | (ending, behind) =>
        let (breaks, behind) := skipLines fuel behind
        (breaks.map (ending ++ ·), behind)

/-- What stands between two words of a scalar. -/
structure Space where
  /-- The characters that it gives; none if no word may follow. -/
  text : List Char
  /-- The place behind it. -/
  behind : Cursor
  /-- Whether a line ends in it. -/
  crossesLine : Bool

/-- The space behind a word. -/
def plainSpace (cursor : Cursor) : Space :=
  let blanks := cursor.ahead (· == ' ')
  let behind := cursor.skipWhile (· == ' ')
  match behind.lineBreak with
  | ([], _) => ⟨blanks, behind, false⟩
  | (ending, behind) =>
    match skipLines (behind.rest.length + 1) behind with
    | (none, behind) => ⟨[], behind, true⟩
    | (some breaks, behind) => ⟨joined ending breaks, behind, true⟩

/-- Whether a word may follow at a place. -/
def goesOn (inFlow : Bool) (indent : Int) (space : Space) : Bool :=
  !space.text.isEmpty && space.behind.rest.head? != some '#' &&
    (inFlow || indent < space.behind.column)

/-- A plain scalar: its characters, the place behind it and the space after it, and whether a line
ends in that space. The lines that follow its first one have to be indented deeper than given. -/
def readPlain (inFlow : Bool) (indent : Int) : Nat → Cursor → List Char × Cursor × Bool
  | 0, cursor => ([], cursor, false)
  | fuel + 1, cursor =>
    let word := plainWord inFlow cursor.rest
    let space := plainSpace (cursor.skip word.length)
    if goesOn inFlow indent space && !(plainWord inFlow space.behind.rest).isEmpty then
      let (more, behind, crossesLine) := readPlain inFlow indent fuel space.behind
      (word ++ space.text ++ more, behind, crossesLine)
    else (word, space.behind, space.crossesLine)

end FlatCrate.Yaml
