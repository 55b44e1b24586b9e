import FlatCrate.Text.Digit
import FlatCrate.Value.Fault
import FlatCrate.Yaml.Cursor

/-!
# Tokens of a YAML text

The tokens of a text are its signs, its scalars, and the beginnings and ends of the collections that
indentation makes. This module holds the tokens and the reading of those that name something:
anchors, aliases, tags and directives.
-/

namespace FlatCrate.Yaml

/-- A tag as it is written: the handle that abbreviates its beginning, if there is one, and the
rest. -/
structure TagName where
  handle : Option String
  suffix : String
  deriving DecidableEq, Repr

/-- An instruction before a document. -/
inductive Directive
  /-- The version of the language, of which only the first number counts. -/
  | version (major : Nat)
  /-- A handle and what it stands for. -/
  | handle (name meaning : String)
  | other

/-- A token. -/
inductive Token
  | directive (directive : Directive)
  | documentStart
  | documentEnd
  | blockSequenceStart
  | blockMappingStart
  | blockEnd
  | flowSequenceStart
  | flowSequenceEnd
  | flowMappingStart
  | flowMappingEnd
  | blockEntry
  | flowEntry
  | key
  | value
  | alias (name : String)
  | anchor (name : String)
  | tag (name : TagName)
  | scalar (text : String) (plain : Bool)
  /-- No token can be read from here on. -/
  | broken (fault : DocumentFault)

/-- The characters of a name. -/
def isNameChar (c : Char) : Bool := c.isAlphanum || c == '-' || c == '_'

/-- The characters that may follow a name. -/
def endsName (c : Char) : Bool :=
  isGap c || c == '?' || c == ':' || c == ',' || c == ']' || c == '\x7d' || c == '%' || c == '@' ||
    c == '\x60'

/-- The name of an anchor or alias from behind its sign. -/
def readName (cursor : Cursor) : Except DocumentFault (String × Cursor) :=
  let name := cursor.ahead isNameChar
  let behind := cursor.skipWhile isNameChar
  if name.isEmpty || !endsOr endsName behind.rest then .error .malformed
  else .ok (String.ofList name, behind)

/-- The characters of a tag; a percent sign begins an escaped byte. -/
def isTagChar (c : Char) : Bool :=
  c.isAlphanum || "-;/?:@&=+$,_.!~*'()[]%".toList.contains c

/-- The bytes that percent signs write, as many as there are, and how many there are. -/
def escapedBytes : List Char → Option (List UInt8)
  | '%' :: rest =>
    match Text.hexNumber? 2 rest, rest with
    | some (n, _), _ :: _ :: behind => (escapedBytes behind).map (UInt8.ofNat n :: ·)
    | _, _ => none
  | _ => some []

/-- The rest of a tag. -/
def readSuffix : Nat → Cursor → Except DocumentFault (List Char × Cursor)
  | 0, _ => .error .malformed
  | fuel + 1, cursor =>
    match cursor.ahead isTagChar with
    | [] => .ok ([], cursor)
    | '%' :: _ =>
      match escapedBytes cursor.rest with
      | none => .error .malformed
      | some bytes => match String.fromUTF8? ⟨bytes.toArray⟩ with
        | none => .error .malformed
        | some text =>
          (readSuffix fuel (cursor.skip (3 * bytes.length))).map fun (more, behind) =>
            (text.toList ++ more, behind)
    | c :: _ => (readSuffix fuel cursor.next).map fun (more, behind) => (c :: more, behind)

/-- The rest of a tag, which holds at least one character. -/
def readSuffix1 (cursor : Cursor) : Except DocumentFault (String × Cursor) :=
  if (cursor.ahead isTagChar).isEmpty then .error .malformed
  else (readSuffix (cursor.rest.length + 1) cursor).map fun (cs, behind) =>
    (String.ofList cs, behind)

/-- The handle of a tag: an exclamation mark alone, or a name between two of them. -/
def readHandle (cursor : Cursor) : Except DocumentFault (String × Cursor) :=
  match cursor.rest with
  | '!' :: ' ' :: _ => .ok ("!", cursor.next)
  | '!' :: _ =>
    let name := cursor.next.ahead isNameChar
    let behind := cursor.next.skipWhile isNameChar
    match behind.rest with
    | '!' :: _ => .ok (String.ofList ('!' :: name ++ ['!']), behind.next)
    | _ => .error .malformed
  | _ => .error .malformed

/-- Whether a character ends a word that is no name. -/
def endsWord (c : Char) : Bool := c == ' ' || isBreak c

/-- The name of a tag from its exclamation mark on. -/
def readTagName (cursor : Cursor) : Except DocumentFault (TagName × Cursor) := do
  let (name, behind) ←
    match cursor.rest with
    | _ :: '<' :: _ => do
      let (suffix, behind) ← readSuffix1 (cursor.skip 2)
      if behind.rest.head? = some '>' then pure (TagName.mk none suffix, behind.next)
      else throw .malformed
    | _ :: rest => do
      if endsOr isGap rest then pure (TagName.mk none "!", cursor.next)
      else
        let word := rest.takeWhile fun c => !endsWord c
        let (handle, behind) ←
          if word.contains '!' then readHandle cursor else pure ("!", cursor.next)
        let (suffix, behind) ← readSuffix1 behind
        pure (TagName.mk (some handle) suffix, behind)
    | [] => throw .malformed
  if endsOr endsWord behind.rest then pure (name, behind) else throw .malformed

/-- A number of a version. -/
def readVersionNumber (cursor : Cursor) : Except DocumentFault (Nat × Cursor) :=
  let digits := cursor.ahead Char.isDigit
  if digits.isEmpty then .error .malformed
  else if Text.maxDecimalDigits < digits.length then .error (.broken .impossibleValue)
  else .ok (Text.digitsValue digits, cursor.skipWhile Char.isDigit)

/-- The version that a directive gives. -/
def readVersion (cursor : Cursor) : Except DocumentFault (Directive × Cursor) := do
  let (major, behind) ← readVersionNumber (cursor.skipWhile (· == ' '))
  if behind.rest.head? = some '.' then
    let (_, behind) ← readVersionNumber behind.next
    if endsOr endsWord behind.rest then pure (.version major, behind) else throw .malformed
  else throw .malformed

/-- The handle that a directive gives a meaning. -/
def readHandleMeaning (cursor : Cursor) : Except DocumentFault (Directive × Cursor) := do
  let (name, behind) ← readHandle (cursor.skipWhile (· == ' '))
  if behind.rest.head? = some ' ' then
    let (meaning, behind) ← readSuffix1 (behind.skipWhile (· == ' '))
    if endsOr endsWord behind.rest then pure (.handle name meaning, behind) else throw .malformed
  else throw .malformed

/-- A directive from behind its percent sign, with its line. -/
def readDirective (cursor : Cursor) : Except DocumentFault (Directive × Cursor) := do
  let name := cursor.ahead isNameChar
  let behind := cursor.skipWhile isNameChar
  if name.isEmpty || !endsOr endsWord behind.rest then throw .malformed
  else
    let (directive, behind) ←
      if name = "YAML".toList then readVersion behind
      else if name = "TAG".toList then readHandleMeaning behind
      else pure (.other, behind.skipWhile fun c => !isBreak c)
    let behind := (behind.skipWhile (· == ' ')).skipComment
    if endsOr isBreak behind.rest then pure (directive, behind.lineBreak.2) else throw .malformed

end FlatCrate.Yaml
