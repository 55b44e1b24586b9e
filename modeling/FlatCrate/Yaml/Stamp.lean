import FlatCrate.Text.Digit
import FlatCrate.Value.Basic
import FlatCrate.Value.Fault

/-!
# Time stamps

A time stamp is a day, or a day and a time behind the letter T or blanks. A fraction of a second and
an offset from universal time may follow. Month, day, hour and the hours of an offset may have one
digit.
-/

namespace FlatCrate.Yaml

/-- A time and its offset as they are written. -/
structure StampTime where
  hour : Nat
  minute : Nat
  second : Nat
  fraction : List Char
  offset : Option Int

/-- A time stamp as it is written. -/
structure Stamp where
  year : Nat
  month : Nat
  day : Nat
  /-- Whether month and day have two digits each. -/
  fullDay : Bool
  time : Option StampTime

/-- The number that exactly two digits denote. -/
def twoDigits? : List Char → Option (Nat × List Char)
  | a :: b :: rest =>
    if a.isDigit && b.isDigit then some (Text.digitsValue [a, b], rest) else none
  | _ => none

/-- The number that one or two digits denote, and whether they are two. -/
def upToTwoDigits? (cs : List Char) : Option (Nat × Bool × List Char) :=
  match twoDigits? cs, cs with
  | some (n, rest), _ => some (n, true, rest)
  | none, a :: rest => if a.isDigit then some (Text.digitsValue [a], false, rest) else none
  | none, [] => none

/-- The text behind a character, if it begins with it. -/
def behind? (c : Char) : List Char → Option (List Char)
  | d :: rest => if c = d then some rest else none
  | [] => none

/-- The digits behind a point; no point and no digits are the same. -/
def stampFraction : List Char → List Char × List Char
  | '.' :: rest => rest.span Char.isDigit
  | cs => ([], cs)

/-- The offset that ends a time stamp, in seconds. -/
def stampOffset? (cs : List Char) : Option (Option Int) :=
  if cs.isEmpty then some none
  else match cs.dropWhile fun c => c == ' ' || c == '\t' with
    | ['Z'] => some (some 0)
    | sign :: rest =>
      if sign == '+' || sign == '-' then do
        let (hours, _, rest) ← upToTwoDigits? rest
        let minutes ← match rest with
          | [] => some 0
          | _ => match (behind? ':' rest).bind twoDigits? with
            | some (minutes, []) => some minutes
            | _ => none
        let seconds : Int := (hours * 60 + minutes) * 60
        some (some (if sign == '-' then -seconds else seconds))
      else none
    | [] => none

/-- The time of a stamp, which ends it. -/
def stampTime? (cs : List Char) : Option StampTime := do
  let rest ← match cs with
    | 'T' :: rest => some rest
    | 't' :: rest => some rest
    | _ =>
      let rest := cs.dropWhile fun c => c == ' ' || c == '\t'
      if rest.length < cs.length then some rest else none
  let (hour, _, rest) ← upToTwoDigits? rest
  let (minute, rest) ← (behind? ':' rest).bind twoDigits?
  let (second, rest) ← (behind? ':' rest).bind twoDigits?
  let (fraction, rest) := stampFraction rest
  let offset ← stampOffset? rest
  return ⟨hour, minute, second, fraction, offset⟩

/-- The time stamp that a text is. -/
def Stamp.ofText? (cs : List Char) : Option Stamp := do
  let (century, rest) ← twoDigits? cs
  let (year, rest) ← twoDigits? rest
  let (month, fullMonth, rest) ← (behind? '-' rest).bind upToTwoDigits?
  let (day, fullDay, rest) ← (behind? '-' rest).bind upToTwoDigits?
  let time ← if rest.isEmpty then some none else (stampTime? rest).map some
  return ⟨century * 100 + year, month, day, fullMonth && fullDay, time⟩

/-- Whether a stamp is recognised without a tag: a day alone has to be written in full. -/
def Stamp.isRecognised (stamp : Stamp) : Bool := stamp.time.isSome || stamp.fullDay

/-- The millionths of a second that the digits of a fraction are; digits beyond the sixth do not
count. -/
def microseconds (fraction : List Char) : Nat :=
  Text.digitsValue (fraction.take 6 ++ List.replicate (6 - fraction.length) '0')

/-- The day or moment that a stamp is; offsets are less than a day. -/
def Stamp.value? (stamp : Stamp) : Option Value := do
  let date ← Date.of? stamp.year stamp.month stamp.day
  match stamp.time with
  | none => return .date date
  | some time =>
    let clock ← Clock.of? time.hour time.minute time.second (microseconds time.fraction)
    if time.offset.any fun offset => 86400 ≤ offset.natAbs then none
    else return .moment ⟨date, clock, time.offset⟩

end FlatCrate.Yaml
