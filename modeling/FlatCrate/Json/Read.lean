import FlatCrate.Decimal.Numeral
import FlatCrate.Json.Basic

/-!
# Reading JSON

The reader takes JSON with three more numbers: `NaN`, `Infinity` and `-Infinity`. Of the members of
an object with one name the last value counts, in the place of the first. Control characters inside
a string are refused. A string that escapes one half of a surrogate pair alone is not read either,
since no text here has such a character.
-/

namespace FlatCrate.Json

/-- Why a text is not read. -/
inductive ReadFault
  /-- The text is not JSON. -/
  | malformed
  /-- A whole number has too many digits. -/
  | hugeInteger
  /-- A string has one half of a surrogate pair without the other. -/
  | unpaired
  deriving DecidableEq, Repr

/-- The blanks of JSON. -/
def isSpace (c : Char) : Bool := c == ' ' || c == '\t' || c == '\n' || c == '\r'

/-- The text behind its leading blanks. -/
def skipSpace (cs : List Char) : List Char := cs.dropWhile isSpace

/-- The character of a sixteen bit unit or, if it is the first of a pair, of that pair. A half of a
pair alone has none. -/
def unitChar? (n : Nat) (rest : List Char) : Option (Char × List Char) :=
  let single := if 0xd800 ≤ n && n ≤ 0xdfff then none else some (Char.ofNat n, rest)
  match rest with
  | '\\' :: 'u' :: more =>
    match Text.hexNumber? 4 more with
    | some (low, behind) =>
      if 0xd800 ≤ n && n ≤ 0xdbff && 0xdc00 ≤ low && low ≤ 0xdfff then
        some (Char.ofNat (0x10000 + (n - 0xd800) * 0x400 + (low - 0xdc00)), behind)
      else single
    | none => single
  | _ => single

/-- The character that a letter behind a backslash stands for. -/
def shortEscape? : Char → Option Char
  | '"' => some '"'
  | '\\' => some '\\'
  | '/' => some '/'
  | 'b' => some '\x08'
  | 'f' => some '\x0c'
  | 'n' => some '\n'
  | 'r' => some '\r'
  | 't' => some '\t'
  | _ => none

/-- The characters of a string up to its closing quote, and the text behind it. -/
def readChars : Nat → List Char → Except ReadFault (List Char × List Char)
  | 0, _ => .error .malformed
  | _, [] => .error .malformed
  | _, '"' :: rest => .ok ([], rest)
  | fuel + 1, '\\' :: 'u' :: rest =>
    match Text.hexNumber? 4 rest with
    | none => .error .malformed
    | some (n, rest) =>
      match unitChar? n rest with
      | none => .error .unpaired
      | some (c, rest) => (readChars fuel rest).map fun (cs, rest) => (c :: cs, rest)
  | fuel + 1, '\\' :: letter :: rest =>
    match shortEscape? letter with
    | none => .error .malformed
    | some c => (readChars fuel rest).map fun (cs, rest) => (c :: cs, rest)
  | fuel + 1, c :: rest =>
    if c.toNat < 0x20 || c == '\\' then .error .malformed
    else (readChars fuel rest).map fun (cs, rest) => (c :: cs, rest)

/-- A string from behind its opening quote. -/
def readString (cs : List Char) : Except ReadFault (String × List Char) :=
  (readChars (cs.length + 1) cs).map fun (s, rest) => (String.ofList s, rest)

/-- The ASCII digits at the beginning of a text, and what follows them. -/
def spanDigits (cs : List Char) : List Char × List Char := cs.span Char.isDigit

/-- The digits behind a point, if there are any. -/
def readFraction : List Char → Option (List Char × List Char)
  | '.' :: rest =>
    match spanDigits rest with
    | ([], _) => none
    | found => some found
  | _ => none

/-- The exponent behind its letter, if there is one. -/
def readExponent : List Char → Option (Int × List Char)
  | letter :: rest =>
    if letter == 'e' || letter == 'E' then
      let (negative, digits) := match rest with
        | '-' :: more => (true, more)
        | '+' :: more => (false, more)
        | _ => (false, rest)
      match spanDigits digits with
      | ([], _) => none
      | (found, more) =>
        let n : Int := Text.digitsValue found
        some (if negative then -n else n, more)
    else none
  | [] => none

/-- A number from behind its sign. -/
def readNumber (negative : Bool) (cs : List Char) : Except ReadFault (Json × List Char) :=
  let (whole, rest) := match cs with
    | '0' :: more => (['0'], more)
    | _ => spanDigits cs
  if whole.isEmpty then .error .malformed
  else
    let (fraction, afterFraction) := (readFraction rest).getD ([], rest)
    let (exponent, afterExponent) := (readExponent afterFraction).getD (0, afterFraction)
    if fraction.isEmpty && (readExponent afterFraction).isNone then
      if Text.maxDecimalDigits < whole.length then .error .hugeInteger
      else
        let n : Int := Text.digitsValue whole
        .ok (.integer (if negative then -n else n), rest)
    else
      .ok (.float (Decimal.Numeral.mk negative whole fraction exponent).toFloat, afterExponent)

/-- The words that stand for values. -/
def words : List (List Char × Json) :=
  [("null".toList, .null), ("true".toList, .bool true), ("false".toList, .bool false),
   ("NaN".toList, .float (0.0 / 0.0)), ("Infinity".toList, .float (1.0 / 0.0)),
   ("-Infinity".toList, .float (-1.0 / 0.0))]

/-- A word or a number. -/
def readScalar (cs : List Char) : Except ReadFault (Json × List Char) :=
  match words.find? fun word => word.1.isPrefixOf cs with
  | some (word, value) => .ok (value, cs.drop word.length)
  | none =>
    match cs with
    | '-' :: rest => readNumber true rest
    | _ => readNumber false cs

mutual

/-- The value at the beginning of a text, and the text behind it. -/
def readValue : Nat → List Char → Except ReadFault (Json × List Char)
  | 0, _ => .error .malformed
  | fuel + 1, cs =>
    match cs with
    | '"' :: rest => (readString rest).map fun (s, rest) => (.string s, rest)
    | '[' :: rest =>
      match skipSpace rest with
      | ']' :: rest => .ok (.array [], rest)
      | rest => (readItems fuel rest).map fun (items, rest) => (.array items, rest)
    | '\x7b' :: rest =>
      match skipSpace rest with
      | '\x7d' :: rest => .ok (.object [], rest)
      | rest => (readMembers fuel [] rest).map fun (members, rest) => (.object members, rest)
    | _ => readScalar cs

/-- The items of an array up to its closing bracket. -/
def readItems : Nat → List Char → Except ReadFault (List Json × List Char)
  | 0, _ => .error .malformed
  | fuel + 1, cs =>
    match readValue fuel cs with
    | .error e => .error e
    | .ok (item, rest) =>
      match skipSpace rest with
      | ',' :: rest =>
        (readItems fuel (skipSpace rest)).map fun (items, rest) => (item :: items, rest)
      | ']' :: rest => .ok ([item], rest)
      | _ => .error .malformed

/-- The members of an object up to its closing bracket, behind those read already. -/
def readMembers : Nat → List (String × Json) → List Char →
    Except ReadFault (List (String × Json) × List Char)
  | 0, _, _ => .error .malformed
  | fuel + 1, found, cs =>
    match cs with
    | '"' :: rest =>
      match readString rest with
      | .error e => .error e
      | .ok (name, rest) =>
        match skipSpace rest with
        | ':' :: rest =>
          match readValue fuel (skipSpace rest) with
          | .error e => .error e
          | .ok (value, rest) =>
            match skipSpace rest with
            | ',' :: rest => readMembers fuel (setMember name value found) (skipSpace rest)
            | '\x7d' :: rest => .ok (setMember name value found, rest)
            | _ => .error .malformed
        | _ => .error .malformed
    | _ => .error .malformed

end

/-- The document that a text is. -/
def read (text : String) : Except ReadFault Json :=
  let cs := text.toList
  match readValue (2 * cs.length + 2) (skipSpace cs) with
  | .error e => .error e
  | .ok (value, rest) => if (skipSpace rest).isEmpty then .ok value else .error .malformed

end FlatCrate.Json
