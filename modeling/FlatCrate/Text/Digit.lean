import FlatCrate.Text.Blank

/-!
# Decimal digits and integers

Every script that Unicode 14 knows writes its ten decimal digits at consecutive code points; the
table lists where each of these rows begins. Before a number is read, its digits become ASCII digits
and its blanks beyond ASCII become spaces. An integer may be surrounded by spaces and line ends and
carry a sign; single underscores may stand between its digits. Written in a base with a mark of its
own, it may begin with that mark. A decimal integer of more than 4300 digits is refused.
-/

namespace FlatCrate.Text

/-- The code points of the digits zero. -/
def zeroDigits : List Nat := [
  0x30, 0x660, 0x6f0, 0x7c0, 0x966, 0x9e6, 0xa66, 0xae6, 0xb66, 0xbe6, 0xc66, 0xce6, 0xd66,
  0xde6, 0xe50, 0xed0, 0xf20, 0x1040, 0x1090, 0x17e0, 0x1810, 0x1946, 0x19d0, 0x1a80, 0x1a90,
  0x1b50, 0x1bb0, 0x1c40, 0x1c50, 0xa620, 0xa8d0, 0xa900, 0xa9d0, 0xa9f0, 0xaa50, 0xabf0, 0xff10,
  0x104a0, 0x10d30, 0x11066, 0x110f0, 0x11136, 0x111d0, 0x112f0, 0x11450, 0x114d0, 0x11650,
  0x116c0, 0x11730, 0x118e0, 0x11950, 0x11c50, 0x11d50, 0x11da0, 0x16a60, 0x16ac0, 0x16b50,
  0x1d7ce, 0x1d7d8, 0x1d7e2, 0x1d7ec, 0x1d7f6, 0x1e140, 0x1e2f0, 0x1e950, 0x1fbf0]

/-- The value of a decimal digit of any script. -/
def decimalDigit? (c : Char) : Option Nat :=
  (zeroDigits.find? fun first => first ≤ c.toNat && c.toNat < first + 10).map (c.toNat - ·)

/-- A character as it is read in a number: a digit of any script is an ASCII digit, and a blank
beyond ASCII is a space. -/
def numberChar (c : Char) : Char :=
  if c.toNat < 0x80 then c
  else match decimalDigit? c with
    | some n => Nat.digitChar n
    | none => if isBlank c then ' ' else c

/-- The blanks that may surround a number once its characters are those of ASCII. -/
def isNumberSpace (c : Char) : Bool := c == ' ' || ('\t' ≤ c && c ≤ '\r')

/-- The characters of a number without the blanks around it. -/
def numberText (cs : List Char) : List Char :=
  (((cs.map numberChar).dropWhile isNumberSpace).reverse.dropWhile isNumberSpace).reverse

/-- The value of a digit in a base of at most 36; digits from ten on are Latin letters. -/
def digit? (base : Nat) (c : Char) : Option Nat :=
  let value? :=
    if 'a' ≤ c ∧ c ≤ 'z' then some (c.toNat - 87)
    else if 'A' ≤ c ∧ c ≤ 'Z' then some (c.toNat - 55)
    else if c.isDigit then some (c.toNat - 48)
    else none
  value?.filter (· < base)

/-- The values of the digits of a text, in which single underscores may stand between digits. -/
def digits? (base : Nat) : List Char → Option (List Nat)
  | [] => none
  | [c] => (digit? base c).map ([·])
  | c :: '_' :: rest => do return (← digit? base c) :: (← digits? base rest)
  | c :: rest => do return (← digit? base c) :: (← digits? base rest)

/-- The number that digits denote in a base, the first digit being the most significant. -/
def ofDigits (base : Nat) (digits : List Nat) : Nat :=
  digits.foldl (fun n digit => n * base + digit) 0

/-- The number that ASCII digits denote. -/
def digitsValue (cs : List Char) : Nat := ofDigits 10 (cs.map fun c => c.toNat - 48)

/-- The value of an ASCII hexadecimal digit. -/
def hexDigit? (c : Char) : Option Nat :=
  if c.isDigit then some (c.toNat - 48)
  else if 'a' ≤ c ∧ c ≤ 'f' then some (c.toNat - 87)
  else if 'A' ≤ c ∧ c ≤ 'F' then some (c.toNat - 55)
  else none

/-- The number that as many hexadecimal digits denote, and the text behind them. -/
def hexNumber? (count : Nat) (cs : List Char) : Option (Nat × List Char) :=
  let front := cs.take count
  if front.length = count then
    (front.mapM hexDigit?).map fun digits => (ofDigits 16 digits, cs.drop count)
  else none

/-- The letter that marks a base after a zero. -/
def baseMark? : Nat → Option Char
  | 2 => some 'b'
  | 8 => some 'o'
  | 16 => some 'x'
  | _ => none

/-- The digits without the mark of their base; one underscore may follow the mark. -/
def dropBaseMark (base : Nat) (cs : List Char) : List Char :=
  match cs, baseMark? base with
  | '0' :: letter :: rest, some mark =>
    if letter.toLower = mark then (match rest with | '_' :: more => more | _ => rest) else cs
  | _, _ => cs

/-- The most digits that a decimal integer may have. -/
def maxDecimalDigits : Nat := 4300

/-- The number that a text without sign denotes. -/
def natural? (base : Nat) (cs : List Char) : Option Nat := do
  let digits ← digits? base (dropBaseMark base cs)
  if base = 10 ∧ maxDecimalDigits < digits.length then none else some (ofDigits base digits)

/-- The integer that a text denotes in a base. -/
def integer? (base : Nat) (cs : List Char) : Option Int :=
  match numberText cs with
  | '-' :: rest => (natural? base rest).map fun n => -(n : Int)
  | '+' :: rest => (natural? base rest).map Int.ofNat
  | rest => (natural? base rest).map Int.ofNat

end FlatCrate.Text
