import FlatCrate.Text.Printable

/-!
# Quoted text

A quoted text stands between single quotes, or between double quotes if it holds single quotes and
no double ones. The quote itself and the backslash are escaped, line feed, carriage return and tab
have short escapes, and every other character that is not printable is written by its number.
-/

namespace FlatCrate.Text

/-- A number in lower case hexadecimal, padded with zeros to a width. -/
def hex (width n : Nat) : List Char :=
  let digits := Nat.toDigits 16 n
  List.replicate (width - digits.length) '0' ++ digits

/-- The quote that encloses a text. -/
def quoteFor (cs : List Char) : Char := if cs.contains '\'' && !cs.contains '"' then '"' else '\''

/-- The escape that writes a character by its number. -/
def numberEscape (n : Nat) : List Char :=
  if n ≤ 0xff then '\\' :: 'x' :: hex 2 n
  else if n ≤ 0xffff then '\\' :: 'u' :: hex 4 n
  else '\\' :: 'U' :: hex 8 n

/-- A character between quotes of a given kind. -/
def quoteChar (quote c : Char) : List Char :=
  if c == quote || c == '\\' then ['\\', c]
  else if c == '\n' then ['\\', 'n']
  else if c == '\r' then ['\\', 'r']
  else if c == '\t' then ['\\', 't']
  else if isPrintable c then [c]
  else numberEscape c.toNat

/-- A text between quotes. -/
def quoted (text : String) : String :=
  let quote := quoteFor text.toList
  String.ofList (quote :: text.toList.flatMap (quoteChar quote) ++ [quote])

/-- A byte between quotes of a given kind; the bytes beyond ASCII are written by number. -/
def quoteByte (quote : Char) (byte : UInt8) : List Char :=
  if byte < 0x80 then quoteChar quote (Char.ofNat byte.toNat) else numberEscape byte.toNat

/-- Bytes between quotes, with a `b` in front. -/
def quotedBytes (bytes : List UInt8) : String :=
  let quote := quoteFor (bytes.map fun byte => Char.ofNat byte.toNat)
  String.ofList ('b' :: quote :: bytes.flatMap (quoteByte quote) ++ [quote])

end FlatCrate.Text
