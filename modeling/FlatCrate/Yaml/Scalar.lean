import FlatCrate.Decimal.Float
import FlatCrate.Text.Base64
import FlatCrate.Yaml.Tag

/-!
# Values of scalars

A scalar with a tag has a value if its text can be read as the tag demands. Numbers may be written
in groups below sixty between colons, and the signs between digits do not count. A text that its tag
does not fit may break the reading off instead of making the document malformed.
-/

namespace FlatCrate.Yaml

/-- The text without the signs between groups of digits. -/
def dropDigitSigns (cs : List Char) : List Char := cs.filter (· != '_')

/-- The number that groups in base sixty make, the first being the most significant. -/
def ofSixtieths (groups : List Int) : Int := groups.foldl (fun n group => n * 60 + group) 0

/-- The whole number that a text without a minus sign is. -/
def natural (cs : List Char) : Except DocumentFault Int :=
  let found := match cs with
    | ['0'] => some 0
    | '0' :: 'b' :: rest => Text.integer? 2 rest
    | '0' :: 'x' :: rest => Text.integer? 16 rest
    | '0' :: _ => Text.integer? 8 cs
    | _ =>
      if cs.contains ':' then ((colonParts cs).mapM (Text.integer? 10)).map ofSixtieths
      else Text.integer? 10 cs
  match found with
  | some n => .ok n
  | none => .error (.broken .impossibleValue)

/-- A text behind its first character, if that is a sign. The text has to have a first character. -/
def unsigned (cs : List Char) : Except DocumentFault (Bool × List Char) :=
  match cs with
  | [] => .error (.broken .outOfRange)
  | '-' :: rest => .ok (true, rest)
  | '+' :: rest => .ok (false, rest)
  | _ => .ok (false, cs)

/-- The whole number that a text is. -/
def integer (cs : List Char) : Except DocumentFault Int := do
  let (negative, cs) ← unsigned (dropDigitSigns cs)
  if cs.isEmpty then throw (.broken .outOfRange)
  else
    let n ← natural cs
    return if negative then -n else n

/-- The number that groups in base sixty make, the last being the least significant. A power of
sixty that double precision cannot hold breaks the reading off. -/
def ofFloatSixtieths (groups : List Float) : Except DocumentFault Float :=
  groups.reverse.zipIdx.foldlM (fun sum (group, place) =>
    let power := Decimal.nearestFloat (Nat.pow 60 place) 0
    if power.isInf then .error (.broken .tooLarge) else .ok (sum + group * power)) 0.0

/-- Whether a text is the word for no number. -/
def isNanWord (cs : List Char) : Bool :=
  match unsigned ((dropDigitSigns cs).map Char.toLower) with
  | .ok (_, word) => word == ".nan".toList
  | .error _ => false

/-- The number with a fraction that a text without its sign is. -/
def positive (cs : List Char) : Except DocumentFault Float :=
  if cs == ".nan".toList then .ok (0.0 / 0.0)
  else if cs == ".inf".toList then .ok (1.0 / 0.0)
  else match (colonParts cs).mapM Decimal.float? with
    | none => .error (.broken .impossibleValue)
    | some [x] => .ok x
    | some groups => ofFloatSixtieths groups

/-- The number with a fraction that a text is. -/
def float (cs : List Char) : Except DocumentFault Float := do
  let (negative, cs) ← unsigned ((dropDigitSigns cs).map Char.toLower)
  let x ← positive cs
  return if negative then -x else x

/-- The truth value that a text is. -/
def truth (cs : List Char) : Except DocumentFault Bool :=
  match truthWords.lookup (String.ofList (cs.map Char.toLower)) with
  | some b => .ok b
  | none => .error (.broken .unknownWord)

/-- The bytes that a text is. -/
def binary (cs : List Char) : Except DocumentFault (List UInt8) :=
  if cs.all fun c => c.toNat < 0x80 then
    match Text.base64? cs with
    | some bytes => .ok bytes
    | none => .error .malformed
  else .error .malformed

/-- The day or moment that a text is. -/
def stamp (cs : List Char) : Except DocumentFault Value :=
  match Stamp.ofText? (dropLastBreak cs) with
  | none => .error (.broken .missingProperty)
  | some stamp => match stamp.value? with
    | some value => .ok value
    | none => .error (.broken .impossibleValue)

/-- The value of a text with a tag that is not one of collections. -/
def scalarValue (tag : Tag) (text : String) : Except DocumentFault Value :=
  match tag with
  | .null => .ok .null
  | .bool => (truth text.toList).map .bool
  | .integer => (integer text.toList).map .integer
  | .float => (float text.toList).map .float
  | .binary => (binary text.toList).map .bytes
  | .stamp => stamp text.toList
  | .string => .ok (.string text)
  | _ => .error .malformed

end FlatCrate.Yaml
