/-!
# Shortest decimals

A finite number in binary has many decimals that read back as it. The shortest of them is the one
with the fewest digits; of two with equally few digits it is the nearer one. Everything is computed
with whole numbers: the number is `m · 2 ^ q`, and a decimal reads back as it if it lies between the
midpoints to its two neighbours.
-/

namespace FlatCrate.Decimal

/-- A positive decimal: its digits stand behind the point, which is then moved to the right. -/
structure Digits where
  digits : List Nat
  point : Int
  deriving DecidableEq, Repr

/-- A positive binary number `m · 2 ^ q`; `isPower` says that the gap below it is the smaller one.
-/
structure Binary where
  m : Nat
  q : Int
  isPower : Bool
  deriving DecidableEq, Repr

/-- Four times the number and the ends of its interval, over a common denominator. -/
structure Interval where
  low : Nat
  value : Nat
  high : Nat
  denominator : Nat
  closed : Bool

/-- The decimals that read back as a number. -/
def Binary.interval (b : Binary) : Interval :=
  let scale := Nat.pow 2 (b.q - 2).toNat
  { low := (4 * b.m - if b.isPower then 1 else 2) * scale
    value := 4 * b.m * scale
    high := (4 * b.m + 2) * scale
    denominator := Nat.pow 2 (2 - b.q).toNat
    closed := b.m % 2 == 0 }

/-- The power of ten just above a number. -/
def Interval.magnitude (i : Interval) : Int :=
  ((Nat.toDigits 10 (i.value * Nat.pow 10 400 / i.denominator)).length : Int) - 400

/-- Whether `c · 10 ^ k` reads back as the number. -/
def Interval.holds (i : Interval) (k : Int) (c : Nat) : Bool :=
  let point := c * Nat.pow 10 k.toNat * i.denominator
  let unit := Nat.pow 10 (-k).toNat
  if i.closed then i.low * unit ≤ point && point ≤ i.high * unit
  else i.low * unit < point && point < i.high * unit

/-- The multiple of `10 ^ k` that reads back as the number and is nearest to it, if there is one. -/
def Interval.nearest? (i : Interval) (k : Int) : Option Nat :=
  let step := Nat.pow 10 k.toNat * i.denominator
  let below := i.value * Nat.pow 10 (-k).toNat / step
  let rest := i.value * Nat.pow 10 (-k).toNat % step
  match i.holds k below, i.holds k (below + 1) with
  | true, true =>
    if 2 * rest < step || (2 * rest == step && below % 2 == 0) then some below
    else some (below + 1)
  | true, false => some below
  | false, true => some (below + 1)
  | false, false => none

/-- The digits of a number without the zeros at its end. -/
def significant (n : Nat) : List Nat :=
  let digits := (Nat.toDigits 10 n).map fun c => c.toNat - '0'.toNat
  (digits.reverse.dropWhile (· == 0)).reverse

/-- The shortest decimal of a number, tried with more and more digits. -/
def Interval.shortest (i : Interval) : Nat → Int → Digits
  | 0, k => ⟨[], k⟩
  | more + 1, k =>
    match i.nearest? k with
    | some n => ⟨significant n, k + (Nat.toDigits 10 n).length⟩
    | none => i.shortest more (k - 1)

/-- The shortest decimal of a positive number. Seventeen digits always suffice. -/
def Binary.shortest (b : Binary) : Digits :=
  b.interval.shortest 17 (b.interval.magnitude - 1)

/-- The absolute value of a finite number of double precision, unless it is zero. -/
def Binary.ofFloat? (x : Float) : Option Binary :=
  let bits := x.toBits.toNat
  let fraction : Nat := bits % Nat.pow 2 52
  let exponent : Nat := bits / Nat.pow 2 52 % Nat.pow 2 11
  if exponent == 0 then
    if fraction == 0 then none else some ⟨fraction, -1074, false⟩
  else some ⟨Nat.pow 2 52 + fraction, (exponent : Int) - 1075, fraction == 0 && 1 < exponent⟩

/-- The number of double precision nearest to `n · 10 ^ k`. -/
def nearestFloat (n : Nat) (k : Int) : Float :=
  let size := ((Nat.toDigits 10 n).length : Int) + k
  if n == 0 || size < -400 then 0.0
  else if 400 < size then 1.0 / 0.0
  else if k < 0 then Float.ofScientific n true (-k).toNat
  else Float.ofScientific n false k.toNat

example : (Binary.mk (2 ^ 52) (-52) true).shortest = ⟨[1], 1⟩ := by decide +kernel
example : (Binary.mk 1 (-1074) false).shortest = ⟨[5], -323⟩ := by decide +kernel
example : (Binary.mk 7205759403792794 (-56) false).shortest = ⟨[1], 0⟩ := by decide +kernel

end FlatCrate.Decimal
