import FlatCrate.Yaml.Stamp

/-!
# Tags

A tag says what kind of value a node is. A plain scalar without one has the tag of the first form
that it fits: truth value, number with a fraction, whole number, merge sign, null, time stamp, value
sign. Anything else is a string.
-/

namespace FlatCrate.Yaml

/-- The tags whose nodes have a value, and those of the signs of mappings. -/
inductive Tag
  | null
  | bool
  | integer
  | float
  | binary
  | stamp
  | orderedMap
  | pairs
  | set
  | string
  | sequence
  | mapping
  | merge
  | value
  | other
  deriving DecidableEq, Repr

/-- What the names of the tags of the language begin with. -/
def standardTags : String := "tag:yaml.org,2002:"

/-- The tags of the language and the ends of their names. -/
def tagNames : List (String × Tag) :=
  [("null", .null), ("bool", .bool), ("int", .integer), ("float", .float), ("binary", .binary),
   ("timestamp", .stamp), ("omap", .orderedMap), ("pairs", .pairs), ("set", .set),
   ("str", .string), ("seq", .sequence), ("map", .mapping), ("merge", .merge), ("value", .value)]

/-- The tag with a name. -/
def Tag.ofName (name : String) : Tag :=
  ((tagNames.find? fun (ending, _) => standardTags ++ ending == name).map (·.2)).getD .other

/-- The words for truth values, in lower case. -/
def truthWords : List (String × Bool) :=
  [("yes", true), ("true", true), ("on", true), ("no", false), ("false", false), ("off", false)]

/-- A word with a capital letter at its beginning. -/
def titled (word : List Char) : List Char :=
  match word with
  | [] => []
  | c :: rest => c.toUpper :: rest

/-- Whether a text is a word in lower case, in upper case or with a capital letter. -/
def isSpelling (cs : List Char) (word : String) : Bool :=
  let word := word.toList
  cs == word || cs == word.map Char.toUpper || cs == titled word

/-- Whether a character is a digit or the sign between groups of digits. -/
def isDigitOrSign (c : Char) : Bool := c.isDigit || c == '_'

/-- The text behind its sign, and whether it has one. -/
def dropSign : List Char → Bool × List Char
  | '-' :: rest => (true, rest)
  | '+' :: rest => (true, rest)
  | cs => (false, cs)

/-- The parts of a text between colons. -/
def colonParts (cs : List Char) : List (List Char) :=
  cs.foldr (fun c parts =>
    if c == ':' then [] :: parts
    else match parts with
      | [] => [[c]]
      | part :: rest => (c :: part) :: rest) [[]]

/-- Whether a text is a number below sixty of one or two digits. -/
def isSixtieth : List Char → Bool
  | [a] => a.isDigit
  | [a, b] => '0' ≤ a && a ≤ '5' && b.isDigit
  | _ => false

/-- Whether a text is a sequence of numbers below sixty, each behind a colon. -/
def areSixtieths : List Char → Bool
  | ':' :: rest => (colonParts rest).all isSixtieth
  | _ => false

/-- Whether a text has the form of a whole number. -/
def isIntegerForm (cs : List Char) : Bool :=
  match (dropSign cs).2 with
  | '0' :: 'b' :: rest => !rest.isEmpty && rest.all fun c => c == '0' || c == '1' || c == '_'
  | '0' :: 'x' :: rest => !rest.isEmpty && rest.all fun c => (Text.hexDigit? c).isSome || c == '_'
  | '0' :: rest => rest.all fun c => ('0' ≤ c && c ≤ '7') || c == '_'
  | c :: rest =>
    let behind := rest.dropWhile isDigitOrSign
    c.isDigit && (behind.isEmpty || areSixtieths behind)
  | [] => false

/-- Whether a text is an exponent with its sign. -/
def isExponent : List Char → Bool
  | letter :: sign :: digits =>
    (letter == 'e' || letter == 'E') && (sign == '+' || sign == '-') && !digits.isEmpty &&
      digits.all Char.isDigit
  | _ => false

/-- Whether a text is what may follow the point of a number and its digits. -/
def isFractionEnd (cs : List Char) : Bool :=
  let behind := cs.dropWhile isDigitOrSign
  behind.isEmpty || isExponent behind

/-- Whether a text has the form of a number with a fraction. -/
def isFloatForm (cs : List Char) : Bool :=
  let (signed, unsigned) := dropSign cs
  match unsigned with
  | '.' :: rest =>
    isSpelling rest "inf" ||
      (!signed && (rest == "nan".toList || rest == "NaN".toList || rest == "NAN".toList ||
        (rest.head?.any Char.isDigit && isFractionEnd rest)))
  | c :: rest =>
    let behind := rest.dropWhile isDigitOrSign
    c.isDigit && match behind with
      | '.' :: fraction => isFractionEnd fraction
      | _ =>
        let (groups, fraction) := behind.span (· != '.')
        areSixtieths groups && !fraction.isEmpty && (fraction.drop 1).all isDigitOrSign
  | [] => false

/-- Whether a text that is not empty has the form of null. -/
def isNullForm (cs : List Char) : Bool := cs == ['~'] || isSpelling cs "null"

/-- The text without a line end at its end. -/
def dropLastBreak (cs : List Char) : List Char :=
  if cs.getLast? = some '\n' then cs.dropLast else cs

/-- The tag of a plain scalar. -/
def Tag.ofPlain (text : String) : Tag :=
  let cs := dropLastBreak text.toList
  if text.isEmpty then .null
  else if truthWords.any fun (word, _) => isSpelling cs word then .bool
  else if isFloatForm cs then .float
  else if isIntegerForm cs then .integer
  else if cs == ['<', '<'] then .merge
  else if isNullForm cs then .null
  else if (Stamp.ofText? cs).any Stamp.isRecognised then .stamp
  else if cs == ['='] then .value
  else if cs == ['!'] || cs == ['&'] || cs == ['*'] then .other
  else .string

end FlatCrate.Yaml
