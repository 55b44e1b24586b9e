import FlatCrate.Decimal.Shortest
import FlatCrate.Text.Digit

/-!
# Decimal numerals

A numeral is a number as it is written: a sign, the digits before the point and behind it, and an
exponent of ten. It stands for the number of double precision nearest to it.
-/

namespace FlatCrate.Decimal

/-- A number as it is written. -/
structure Numeral where
  negative : Bool
  whole : List Char
  fraction : List Char
  exponent : Int

/-- The number of double precision nearest to a numeral. -/
def Numeral.toFloat (n : Numeral) : Float :=
  let x := nearestFloat (Text.digitsValue (n.whole ++ n.fraction)) (n.exponent - n.fraction.length)
  if n.negative then -x else x

end FlatCrate.Decimal
