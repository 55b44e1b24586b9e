import FlatCrate.Decimal.Numeral
import FlatCrate.Value.Basic
import FlatCrate.Value.Fault

/-!
# Numbers and times of a TOML document

A whole number is decimal, with an optional sign, or hexadecimal, octal or binary behind the mark of
its base; single underscores may stand between digits. A number with a point or an exponent has
double precision. Days and times are written with all their digits.
-/

namespace FlatCrate.Toml

/-- The digits that follow a digit; a single underscore may stand before each of them. -/
def moreDigits (isDigit : Char → Bool) : List Char → List Char × List Char
  | '_' :: c :: rest =>
    if isDigit c then
      let (digits, behind) := moreDigits isDigit rest
      (c :: digits, behind)
    else ([], '_' :: c :: rest)
  | c :: rest =>
    if isDigit c then
      let (digits, behind) := moreDigits isDigit rest
      (c :: digits, behind)
    else ([], c :: rest)
  | [] => ([], [])

/-- The digits at the beginning of a text, and what follows them. -/
def spanDigits (isDigit : Char → Bool) (cs : List Char) : List Char × List Char :=
  match cs with
  | '_' :: _ => ([], cs)
  | _ => moreDigits isDigit cs

/-- The base that a letter behind a zero marks. -/
def markedBase? : Char → Option Nat
  | 'x' => some 16
  | 'o' => some 8
  | 'b' => some 2
  | _ => none

/-- Whether a character is a digit of a base. -/
def isDigitOf (base : Nat) (c : Char) : Bool := (Text.hexDigit? c).any (· < base)

/-- A whole number behind the mark of its base. -/
def readMarked? : List Char → Option (Nat × List Char)
  | '0' :: mark :: rest => do
    let base ← markedBase? mark
    match spanDigits (isDigitOf base) rest with
    | ([], _) => none
    | (digits, behind) => some (Text.ofDigits base (digits.filterMap Text.hexDigit?), behind)
  | _ => none

/-- Whether a text begins with a minus sign, and the text behind its sign. -/
def readSign : List Char → Bool × List Char
  | '-' :: rest => (true, rest)
  | '+' :: rest => (false, rest)
  | cs => (false, cs)

/-- The digits behind a point, if there are any. -/
def readFraction? : List Char → Option (List Char × List Char)
  | '.' :: rest =>
    match spanDigits Char.isDigit rest with
    | ([], _) => none
    | found => some found
  | _ => none

/-- The exponent behind its letter, if there is one. -/
def readExponent? : List Char → Option (Int × List Char)
  | letter :: rest =>
    let (negative, digits) := readSign rest
    match letter == 'e' || letter == 'E', spanDigits Char.isDigit digits with
    | false, _ => none
    | true, ([], _) => none
    | true, (found, behind) =>
      let n : Int := Text.digitsValue found
      some (if negative then -n else n, behind)
  | [] => none

/-- The words for numbers that have no digits. -/
def numberWords : List (List Char × Float) :=
  [("inf".toList, 1.0 / 0.0), ("nan".toList, 0.0 / 0.0)]

/-- A decimal number, or a word for one. -/
def readDecimal (cs : List Char) : Except DocumentFault (Value × List Char) :=
  let (negative, unsigned) := readSign cs
  let (whole, rest) := match unsigned with
    | '0' :: more => (['0'], more)
    | _ => spanDigits Char.isDigit unsigned
  if whole.isEmpty then
    match numberWords.find? fun word => word.1.isPrefixOf unsigned with
    | some (word, x) => .ok (.float (if negative then -x else x), unsigned.drop word.length)
    | none => .error .malformed
  else
    match readFraction? rest, readExponent? rest with
    | none, none =>
      if Text.maxDecimalDigits < whole.length then .error (.broken .impossibleValue)
      else
        let n : Int := Text.digitsValue whole
        .ok (.integer (if negative then -n else n), rest)
    | none, some (exponent, behind) =>
      .ok (.float (Decimal.Numeral.mk negative whole [] exponent).toFloat, behind)
    | some (fraction, behind), _ =>
      let (exponent, behind) := (readExponent? behind).getD (0, behind)
      .ok (.float (Decimal.Numeral.mk negative whole fraction exponent).toFloat, behind)

/-- A number. -/
def readNumber (cs : List Char) : Except DocumentFault (Value × List Char) :=
  match readMarked? cs with
  | some (n, rest) => .ok (.integer n, rest)
  | none => readDecimal cs

/-- The number that exactly as many digits denote. -/
def readFixed? (count : Nat) (cs : List Char) : Option (Nat × List Char) :=
  let front := cs.take count
  if front.length = count ∧ front.all Char.isDigit then
    some (Text.digitsValue front, cs.drop count)
  else none

/-- The microseconds behind a point; digits beyond the sixth do not count. -/
def readMicrosecond : List Char → Nat × List Char
  | '.' :: rest =>
    let (digits, behind) := rest.span Char.isDigit
    if digits.isEmpty then (0, '.' :: rest)
    else (Text.digitsValue ((digits.take 6) ++ List.replicate (6 - digits.length) '0'), behind)
  | cs => (0, cs)

/-- A time of the day. -/
def readClock? (cs : List Char) : Option (Clock × List Char) := do
  let (hour, rest) ← readFixed? 2 cs
  let ':' :: rest := rest | none
  let (minute, rest) ← readFixed? 2 rest
  let ':' :: rest := rest | none
  let (second, rest) ← readFixed? 2 rest
  let (microsecond, rest) := readMicrosecond rest
  let clock ← Clock.of? hour minute second microsecond
  return (clock, rest)

/-- A day. -/
def readDate? (cs : List Char) : Option (Date × List Char) := do
  let (year, rest) ← readFixed? 4 cs
  let '-' :: rest := rest | none
  let (month, rest) ← readFixed? 2 rest
  let '-' :: rest := rest | none
  let (day, rest) ← readFixed? 2 rest
  let date ← Date.of? year month day
  return (date, rest)

/-- An offset from universal time in hours and minutes, as seconds. -/
def readOffset? : List Char → Option (Int × List Char)
  | c :: rest =>
    if c == 'Z' || c == 'z' then some (0, rest)
    else if c == '+' || c == '-' then do
      let (hour, rest) ← readFixed? 2 rest
      let ':' :: rest := rest | none
      let (minute, rest) ← readFixed? 2 rest
      if hour < 24 ∧ minute < 60 then
        let seconds : Int := (hour * 60 + minute) * 60
        some (if c == '-' then -seconds else seconds, rest)
      else none
    else none
  | [] => none

/-- The time of the day that follows a day, behind a letter or a blank. -/
def readClockOfDay? : List Char → Option (Clock × List Char)
  | c :: rest => if c == 'T' || c == 't' || c == ' ' then readClock? rest else none
  | [] => none

/-- A day, a time of the day, or both. -/
def readTime? (cs : List Char) : Option (Value × List Char) :=
  match readDate? cs with
  | none => (readClock? cs).map fun (clock, rest) => (.time clock, rest)
  | some (date, rest) =>
    match readClockOfDay? rest with
    | none => some (.date date, rest)
    | some (clock, rest) =>
      match readOffset? rest with
      | none => some (.moment ⟨date, clock, none⟩, rest)
      | some (offset, rest) => some (.moment ⟨date, clock, some offset⟩, rest)

end FlatCrate.Toml
