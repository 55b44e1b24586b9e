import FlatCrate.Yaml.Block
import FlatCrate.Yaml.Plain
import FlatCrate.Yaml.Token

/-!
# The outline of a YAML text

Indentation makes collections: a sign that stands deeper than its surroundings opens one, and a line
that stands less deep closes it. A key of a mapping is known only by the colon behind it. Whatever
may be a key is therefore kept in mind, one for every level of brackets, and the token that
announces a key is put in front of it when the colon is met. A key fits on one line and is at most
1024 characters long.
-/

namespace FlatCrate.Yaml

/-- Where something began that may turn out to be a key. -/
structure PossibleKey where
  /-- How many tokens stand before it. -/
  number : Nat
  /-- Whether only a key may stand there. -/
  required : Bool
  index : Nat
  line : Nat
  column : Nat

/-- Whether a possible key began too far from a place. -/
def PossibleKey.isStale (key : PossibleKey) (cursor : Cursor) : Bool :=
  key.line != cursor.line || 1024 < cursor.index - key.index

/-- A text as far as its tokens are known. -/
structure Outline where
  cursor : Cursor
  /-- The tokens, the latest first. -/
  tokens : List Token := []
  count : Nat := 0
  /-- The column of the innermost collection that indentation makes. -/
  indent : Int := -1
  /-- The columns of the collections around it. -/
  indents : List Int := []
  /-- Whether a key may begin here. -/
  allowsKey : Bool := true
  /-- What may be a key inside the innermost brackets. -/
  possibleKey : Option PossibleKey := none
  /-- What may be keys around each of the brackets. -/
  outerKeys : List (Option PossibleKey) := []

namespace Outline

/-- The outline or why there is none. -/
abbrev Result := Except DocumentFault Outline

/-- Whether the place is between brackets. -/
def inFlow (o : Outline) : Bool := !o.outerKeys.isEmpty

/-- The outline with one more token. -/
def push (token : Token) (o : Outline) : Outline :=
  { o with tokens := token :: o.tokens, count := o.count + 1 }

/-- The outline with one more token behind as many others. -/
def insert (number : Nat) (token : Token) (o : Outline) : Outline :=
  { o with tokens := o.tokens.insertIdx (o.count - number) token, count := o.count + 1 }

/-- The outline with the cursor behind as many characters. -/
def skip (n : Nat) (o : Outline) : Outline := { o with cursor := o.cursor.skip n }

/-- The outline without a possible key on this level. -/
def dropKey (o : Outline) : Result :=
  if o.possibleKey.any (·.required) then .error .malformed else .ok { o with possibleKey := none }

/-- The outline in which whatever begins here may be a key. -/
def saveKey (o : Outline) : Result :=
  if o.allowsKey then
    o.dropKey.map fun o =>
      { o with possibleKey := some {
          number := o.count
          required := !o.inFlow && o.indent == (o.cursor.column : Int)
          index := o.cursor.index
          line := o.cursor.line
          column := o.cursor.column } }
  else .ok o

/-- The outline without possible keys that began too far away. -/
def dropStaleKeys (o : Outline) : Result :=
  let stale (key : PossibleKey) := key.isStale o.cursor
  if (o.possibleKey :: o.outerKeys).any fun key => key.any fun key => stale key && key.required then
    .error .malformed
  else
    .ok { o with
      possibleKey := o.possibleKey.filter fun key => !stale key
      outerKeys := o.outerKeys.map fun key => key.filter fun key => !stale key }

/-- Closes the collections that stand deeper than a column, of those around the innermost one. -/
def closeTo (column : Int) : List Int → Outline → Outline
  | [], o => o
  | outer :: rest, o =>
    if column < o.indent then
      closeTo column rest ({ o with indent := outer, indents := rest }.push .blockEnd)
    else o

/-- Closes the collections that stand deeper than a column, unless brackets are open. -/
def unwind (column : Int) (o : Outline) : Outline :=
  if o.inFlow then o else closeTo column o.indents o

/-- Opens a collection at a column, unless the innermost one stands as deep. -/
def opens (column : Nat) (o : Outline) : Option Outline :=
  if o.indent < column then some { o with indent := column, indents := o.indent :: o.indents }
  else none

/-- The outline behind spaces, comments and line ends. -/
def skipToToken : Nat → Outline → Outline
  | 0, o => o
  | fuel + 1, o =>
    let cursor := (o.cursor.skipWhile (· == ' ')).skipComment
    match cursor.lineBreak with
    | ([], _) => { o with cursor }
    | (_, cursor) => skipToToken fuel { o with cursor, allowsKey := o.allowsKey || !o.inFlow }

/-- The outline behind a byte order mark at the beginning of the text. -/
def skipMark (o : Outline) : Outline :=
  if o.cursor.index == 0 && o.cursor.rest.head? == some '\ufeff' then o.skip 1 else o

/-- A sign between documents. -/
def documentSign (token : Token) (o : Outline) : Result :=
  (o.unwind (-1)).dropKey.map fun o => ({ o with allowsKey := false }.skip 3).push token

/-- A directive. -/
def directive (o : Outline) : Result := do
  let o ← (o.unwind (-1)).dropKey
  let (directive, cursor) ← readDirective o.cursor.next
  return { o with allowsKey := false, cursor }.push (.directive directive)

/-- An opening bracket. -/
def openFlow (token : Token) (o : Outline) : Result :=
  o.saveKey.map fun o =>
    ({ o with
        allowsKey := true
        possibleKey := none
        outerKeys := o.possibleKey :: o.outerKeys }.skip 1).push token

/-- A closing bracket. -/
def closeFlow (token : Token) (o : Outline) : Result := do
  let o ← o.dropKey
  match o.outerKeys with
  | [] => throw .malformed
  | outer :: rest =>
    let o := { o with allowsKey := false, possibleKey := outer, outerKeys := rest }
    return (o.skip 1).push token

/-- A comma. -/
def flowEntry (o : Outline) : Result :=
  o.dropKey.map fun o => ({ o with allowsKey := true }.skip 1).push .flowEntry

/-- A sign that opens a collection by its indentation: a dash or a question mark. -/
def blockSign (start sign : Token) (allowsKey : Bool) (o : Outline) : Result :=
  if !o.inFlow && !o.allowsKey then .error .malformed
  else
    let opened := if o.inFlow then o
      else ((o.opens o.cursor.column).map (·.push start)).getD o
    opened.dropKey.map fun o => ({ o with allowsKey }.skip 1).push sign

/-- A colon behind something that may be a key, which thereby is one. -/
def valueOfKey (key : PossibleKey) (o : Outline) : Outline :=
  let o := o.insert key.number .key
  let opened := if o.inFlow then o
    else ((o.opens key.column).map (·.insert key.number .blockMappingStart)).getD o
  ({ opened with allowsKey := false, possibleKey := none }.skip 1).push .value

/-- A colon. -/
def valueSign (o : Outline) : Result :=
  match o.possibleKey with
  | some key => .ok (o.valueOfKey key)
  | none => o.blockSign .blockMappingStart .value (!o.inFlow)

/-- An anchor, an alias, a tag or a quoted scalar, which may be a key. -/
def word (read : Cursor → Except DocumentFault (Token × Cursor)) (o : Outline) : Result := do
  let o ← o.saveKey
  let (token, cursor) ← read o.cursor
  return { o with allowsKey := false, cursor }.push token

/-- A block scalar. -/
def block (folded : Bool) (o : Outline) : Result := do
  let o ← o.dropKey
  let (text, cursor) ← readBlock folded o.indent o.cursor.next
  return { o with allowsKey := true, cursor }.push (.scalar (String.ofList text) false)

/-- A plain scalar. -/
def plain (o : Outline) : Result :=
  o.saveKey.map fun o =>
    let (text, cursor, crossesLine) :=
      readPlain o.inFlow o.indent (o.cursor.rest.length + 1) o.cursor
    { o with allowsKey := crossesLine, cursor }.push (.scalar (String.ofList text) true)

/-- Reads an anchor or alias from its sign on. -/
def readNamed (make : String → Token) (cursor : Cursor) : Except DocumentFault (Token × Cursor) :=
  (readName cursor.next).map fun (name, behind) => (make name, behind)

/-- Reads a quoted scalar from its quote on. -/
def readText (double : Bool) (cursor : Cursor) : Except DocumentFault (Token × Cursor) :=
  (readQuoted double (cursor.rest.length + 1) cursor.next).map fun (text, behind) =>
    (.scalar (String.ofList text) false, behind)

/-- The characters that begin no plain scalar. -/
def isSign (c : Char) : Bool :=
  isGap c || "-?:,[]#&*!|>'\"%@".toList.contains c || c == '\x7b' || c == '\x7d' || c == '\x60'

/-- Whether a plain scalar begins with a character and what follows it. -/
def beginsPlain (inFlow : Bool) (c : Char) (rest : List Char) : Bool :=
  !isSign c || (!endsOr isGap rest && (c == '-' || (!inFlow && (c == '?' || c == ':'))))

/-- The outline with the token that begins with a character and what follows it. -/
def fetch (c : Char) (rest : List Char) (o : Outline) : Result :=
  let apart := endsOr isGap rest
  let separates := o.cursor.column == 0 && o.cursor.atSeparator
  if c == '%' && o.cursor.column == 0 then o.directive
  else if c == '-' && separates then o.documentSign .documentStart
  else if c == '.' && separates then o.documentSign .documentEnd
  else if c == '[' then o.openFlow .flowSequenceStart
  else if c == '\x7b' then o.openFlow .flowMappingStart
  else if c == ']' then o.closeFlow .flowSequenceEnd
  else if c == '\x7d' then o.closeFlow .flowMappingEnd
  else if c == ',' then o.flowEntry
  else if c == '-' && apart then o.blockSign .blockSequenceStart .blockEntry true
  else if c == '?' && (o.inFlow || apart) then o.blockSign .blockMappingStart .key (!o.inFlow)
  else if c == ':' && (o.inFlow || apart) then o.valueSign
  else if c == '*' then o.word (readNamed .alias)
  else if c == '&' then o.word (readNamed .anchor)
  else if c == '!' then
    o.word fun cursor => (readTagName cursor).map fun (name, behind) => (.tag name, behind)
  else if c == '|' && !o.inFlow then o.block false
  else if c == '>' && !o.inFlow then o.block true
  else if c == '\'' then o.word (readText false)
  else if c == '"' then o.word (readText true)
  else if beginsPlain o.inFlow c rest then o.plain
  else .error .malformed

/-- How many tokens are final: those in front of whatever may still turn out to be a key. -/
def finalCount (o : Outline) : Nat :=
  (o.possibleKey :: o.outerKeys).foldl (fun count key =>
    match key with
    | some key => if key.isStale o.cursor then count else min count key.number
    | none => count) o.count

/-- The tokens of a text behind those of its outline. Where no further token can be read, only the
final ones are kept. -/
def finish : Nat → Outline → List Token
  | 0, o => o.tokens.reverse
  | fuel + 1, o =>
    let outcome : Except DocumentFault (Outline × Bool) := do
      let o ← (o.skipMark.skipToToken (o.cursor.rest.length + 1)).dropStaleKeys
      let o := o.unwind o.cursor.column
      match o.cursor.rest with
      | [] => return (← (o.unwind (-1)).dropKey, true)
      | c :: rest => return (← o.fetch c rest, false)
    match outcome with
    | .error fault => o.tokens.reverse.take o.finalCount ++ [.broken fault]
    | .ok (o, true) => o.tokens.reverse
    | .ok (o, false) => finish fuel o

end Outline

/-- The tokens of a text. -/
def Token.ofText (cs : List Char) : List Token :=
  if cs.all isAllowed then Outline.finish (cs.length + 1) { cursor := { rest := cs } }
  else [.broken .malformed]

end FlatCrate.Yaml
