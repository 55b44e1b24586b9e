import FlatCrate.Decimal.Numeral

/-!
# Numbers of double precision as text

A number may be surrounded by blanks and carry a sign. It has digits of any script, a point before,
among or behind them, and an exponent; or it is one of the words for infinity and for no number.
-/

namespace FlatCrate.Decimal

/-- The text behind its sign, and whether the sign is a minus. -/
def readSign : List Char → Bool × List Char
  | '-' :: rest => (true, rest)
  | '+' :: rest => (false, rest)
  | cs => (false, cs)

/-- The exponent that a text is; the empty text is the exponent zero. -/
def exponent? : List Char → Option Int
  | [] => some 0
  | letter :: rest =>
    let (negative, digits) := readSign rest
    match letter == 'e' || letter == 'E', digits.span Char.isDigit with
    | true, (digit :: more, []) =>
      let n : Int := Text.digitsValue (digit :: more)
      some (if negative then -n else n)
    | _, _ => none

/-- The numeral that a text without blanks and sign is. -/
def numeral? (negative : Bool) (cs : List Char) : Option Numeral :=
  let (whole, behind) := cs.span Char.isDigit
  let (fraction, behind) := match behind with
    | '.' :: rest => rest.span Char.isDigit
    | _ => ([], behind)
  if whole.isEmpty && fraction.isEmpty then none
  else (exponent? behind).map fun exponent => ⟨negative, whole, fraction, exponent⟩

/-- The number that a word stands for. -/
def wordValue? (word : String) : Option Float :=
  if word = "inf" ∨ word = "infinity" then some (1.0 / 0.0)
  else if word = "nan" then some (0.0 / 0.0)
  else none

/-- The number that a text is. -/
def float? (cs : List Char) : Option Float :=
  let (negative, unsigned) := readSign (Text.numberText cs)
  match wordValue? (String.ofList (unsigned.map Char.toLower)) with
  | some x => some (if negative then -x else x)
  | none => (numeral? negative unsigned).map Numeral.toFloat

end FlatCrate.Decimal
