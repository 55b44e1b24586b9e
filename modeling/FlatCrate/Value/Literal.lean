import FlatCrate.Decimal.Shortest
import FlatCrate.Text.Quoted
import FlatCrate.Value.Basic

/-!
# Values as literals

A message shows a value as a literal from which it could be read again: strings are quoted,
collections show their items between their brackets, and numbers have the fewest digits that read
back. A collection that holds itself shows dots in its own place. A whole number of more than 4300
digits cannot be shown, and neither can a collection that holds one.
-/

namespace FlatCrate.Value

/-- Digits with the point among them or, far from it, with an exponent. -/
def floatDigits (d : Decimal.Digits) : String :=
  let digits := d.digits.map fun n => Nat.digitChar n
  let text :=
    if -4 < d.point && d.point ≤ 16 then
      if d.point ≤ 0 then "0.".toList ++ List.replicate (-d.point).toNat '0' ++ digits
      else if digits.length ≤ d.point then
        digits ++ List.replicate (d.point.toNat - digits.length) '0' ++ ".0".toList
      else digits.take d.point.toNat ++ '.' :: digits.drop d.point.toNat
    else
      let exponent := d.point - 1
      let size := (toString exponent.natAbs).toList
      let mantissa := match digits with
        | [] => []
        | [digit] => [digit]
        | digit :: rest => digit :: '.' :: rest
      mantissa ++ 'e' :: (if exponent < 0 then '-' else '+') ::
        (List.replicate (2 - size.length) '0' ++ size)
  String.ofList text

/-- A number with a fraction. -/
def floatLiteral (x : Float) : String :=
  if x.isNaN then "nan"
  else
    let sign := if x.toBits.toNat < Nat.pow 2 63 then "" else "-"
    if x.isInf then sign ++ "inf"
    else match Decimal.Binary.ofFloat? x with
      | none => sign ++ "0.0"
      | some b => sign ++ floatDigits b.shortest

/-- Arguments between parentheses, behind a name. -/
def call (name : String) (arguments : List String) : String :=
  name ++ "(" ++ String.intercalate ", " arguments ++ ")"

/-- The numbers of a day. -/
def dateArguments (date : Date) : List String :=
  [toString date.year, toString date.month, toString date.day]

/-- The numbers of a time; zeros at its end are left out. -/
def clockArguments (clock : Clock) : List String :=
  toString clock.hour :: toString clock.minute ::
    if clock.microsecond != 0 then [toString clock.second, toString clock.microsecond]
    else if clock.second != 0 then [toString clock.second]
    else []

/-- An offset from universal time in seconds. -/
def offsetLiteral (offset : Int) : String :=
  if offset == 0 then "datetime.timezone.utc"
  else
    let days := Int.fdiv offset 86400
    let seconds := Int.fmod offset 86400
    let parts := (if days != 0 then ["days=" ++ toString days] else []) ++
      if seconds != 0 then ["seconds=" ++ toString seconds] else []
    call "datetime.timezone" [call "datetime.timedelta" parts]

/-- The arguments of a moment. -/
def momentArguments (moment : Moment) : List String :=
  dateArguments moment.date ++ clockArguments moment.clock ++
    match moment.offset with
    | none => []
    | some offset => ["tzinfo=" ++ offsetLiteral offset]

/-- Whether a whole number has few enough digits to be shown. -/
def isShowable (n : Int) : Bool := n.natAbs < Nat.pow 10 4300

/-- A whole number, if it can be shown. -/
def integerLiteral? (n : Int) : Option String := if isShowable n then some (toString n) else none

/-- Texts between brackets. -/
def enclosed (opening closing : String) (items : List String) : String :=
  opening ++ String.intercalate ", " items ++ closing

/-- The items of a tuple between parentheses; a single one is followed by a comma. -/
def tupleLiteral : List String → String
  | [item] => "(" ++ item ++ ",)"
  | items => enclosed "(" ")" items

/-- A member of a mapping. -/
def memberLiteral (key value : String) : String := key ++ ": " ++ value

/-- A strand of a knot in which the values without a part in the knot are literals. -/
inductive Thread
  | loose (text : Option String)
  | list (items : List Nat)
  | tuple (items : List Nat)
  | dict (members : List (Option String × Nat))

/-- What stands for a collection where it comes again inside of itself. -/
def Thread.again : Thread → String
  | loose _ => ""
  | list _ => "[...]"
  | tuple _ => "(...)"
  | dict _ => "\x7b...\x7d"

/-- A strand of a knot as a literal, inside of other strands. The fuel bounds how many strands lie
inside of each other, which are no more than there are. -/
def knotLiteral? (threads : List Thread) : Nat → List Nat → Nat → Option String
  | 0, _, _ => none
  | fuel + 1, inside, number => do
    let thread ← threads[number]?
    if inside.contains number then return thread.again
    else
      let within := knotLiteral? threads fuel (number :: inside)
      match thread with
      | .loose text => text
      | .list items => return enclosed "[" "]" (← items.mapM within)
      | .tuple items => return tupleLiteral (← items.mapM within)
      | .dict members =>
        let shown ← members.mapM fun (key, item) => do
          return memberLiteral (← key) (← within item)
        return enclosed "\x7b" "\x7d" shown

mutual

/-- A value as a literal, if it can be shown. -/
def literal? : Value → Option String
  | .null => some "None"
  | .bool true => some "True"
  | .bool false => some "False"
  | .integer n => integerLiteral? n
  | .float x => some (floatLiteral x)
  | .string s => some (Text.quoted s)
  | .bytes content => some (Text.quotedBytes content)
  | .list items => (literals? items).map (enclosed "[" "]")
  | .tuple items => (literals? items).map tupleLiteral
  | .set [] => some "set()"
  | .set items => (literals? items).map (enclosed "\x7b" "\x7d")
  | .dict members => (memberLiterals? members).map (enclosed "\x7b" "\x7d")
  | .date day => some (call "datetime.date" (dateArguments day))
  | .time clock => some (call "datetime.time" (clockArguments clock))
  | .moment instant => some (call "datetime.datetime" (momentArguments instant))
  | .knot strands number => knotLiteral? (threads strands) (strands.length + 1) [] number

/-- Values as literals. -/
def literals? : List Value → Option (List String)
  | [] => some []
  | item :: rest => do return (← literal? item) :: (← literals? rest)

/-- The members of a mapping as literals. -/
def memberLiterals? : List (Value × Value) → Option (List String)
  | [] => some []
  | (key, value) :: rest => do
    return memberLiteral (← literal? key) (← literal? value) :: (← memberLiterals? rest)

/-- The strands of a knot with literals in the place of values. -/
def threads : List Strand → List Thread
  | [] => []
  | strand :: rest => thread strand :: threads rest

/-- A strand of a knot with literals in the place of values. -/
def thread : Strand → Thread
  | .loose value => .loose (literal? value)
  | .list items => .list items
  | .tuple items => .tuple items
  | .dict members => .dict (keyLiterals members)

/-- The members of a strand with literals in the place of keys. -/
def keyLiterals : List (Value × Nat) → List (Option String × Nat)
  | [] => []
  | (key, item) :: rest => (literal? key, item) :: keyLiterals rest

end

/-- A number padded with zeros to a width. -/
def padded (width n : Nat) : String :=
  let digits := toString n
  String.ofList (List.replicate (width - digits.length) '0') ++ digits

/-- A day as it is shown to a reader. -/
def dateText (date : Date) : String :=
  padded 4 date.year ++ "-" ++ padded 2 date.month ++ "-" ++ padded 2 date.day

/-- A time as it is shown to a reader. -/
def clockText (clock : Clock) : String :=
  padded 2 clock.hour ++ ":" ++ padded 2 clock.minute ++ ":" ++ padded 2 clock.second ++
    if clock.microsecond != 0 then "." ++ padded 6 clock.microsecond else ""

/-- An offset from universal time as it is shown to a reader. -/
def offsetText (offset : Int) : String :=
  let minutes := offset.natAbs / 60
  (if offset < 0 then "-" else "+") ++ padded 2 (minutes / 60) ++ ":" ++ padded 2 (minutes % 60)

/-- A value as it is shown to a reader, if it can be: a string is shown without quotes. -/
def text? : Value → Option String
  | .string s => some s
  | .date day => some (dateText day)
  | .time clock => some (clockText clock)
  | .moment instant =>
    some (dateText instant.date ++ " " ++ clockText instant.clock ++
      (instant.offset.map offsetText).getD "")
  | value => value.literal?

end FlatCrate.Value
