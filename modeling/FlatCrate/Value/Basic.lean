import FlatCrate.Decimal.Shortest

/-!
# Values of settings files

The formats of settings files share one kind of value: scalars, dates and times, and collections of
values. The members of a mapping keep the order in which their keys appeared, and any value may be a
key. Whole numbers, numbers with a fraction and truth values that are equal as numbers are the same
key, and so are two moments with known offsets that are the same point in time.

A collection may hold itself. Such collections are given together as the strands of a knot, and
each of them is the knot together with the number of its strand.
-/

namespace FlatCrate

/-- A day of the calendar. -/
structure Date where
  year : Nat
  month : Nat
  day : Nat
  deriving DecidableEq, Repr, Inhabited

/-- A time of the day. -/
structure Clock where
  hour : Nat
  minute : Nat
  second : Nat := 0
  microsecond : Nat := 0
  deriving DecidableEq, Repr, Inhabited

/-- A day and a time of it, with the offset from universal time in seconds, if it is known. -/
structure Moment where
  date : Date
  clock : Clock
  offset : Option Int := none
  deriving DecidableEq, Repr, Inhabited

/-- Whether a year is a leap year. -/
def isLeapYear (year : Nat) : Bool := year % 4 == 0 && (year % 100 != 0 || year % 400 == 0)

/-- How many days a month has. -/
def daysInMonth (year month : Nat) : Nat :=
  if month = 2 then (if isLeapYear year then 29 else 28)
  else if month ∈ [4, 6, 9, 11] then 30
  else 31

/-- How many days of the calendar stand before a day, from the first year on. -/
def Date.daysBefore (date : Date) : Nat :=
  let years := date.year - 1
  365 * years + years / 4 - years / 100 + years / 400 +
    ((List.range' 1 (date.month - 1)).map (daysInMonth date.year)).foldl (· + ·) 0 + (date.day - 1)

/-- How many microseconds of the day stand before a time. -/
def Clock.microseconds (clock : Clock) : Nat :=
  ((clock.hour * 60 + clock.minute) * 60 + clock.second) * 1000000 + clock.microsecond

/-- The point in time that a moment is, if its offset is known, in microseconds. -/
def Moment.instant? (moment : Moment) : Option Int :=
  moment.offset.map fun offset =>
    (moment.date.daysBefore * 86400000000 + moment.clock.microseconds : Nat) - offset * 1000000

/-- Whether two moments are the same point in time; those without an offset are compared as they
are. -/
def Moment.isSame (a b : Moment) : Bool :=
  match a.instant?, b.instant? with
  | some m, some n => m == n
  | _, _ => a == b

/-- The day with given numbers, if the calendar has it. -/
def Date.of? (year month day : Nat) : Option Date :=
  if 1 ≤ year ∧ year ≤ 9999 ∧ 1 ≤ month ∧ month ≤ 12 ∧ 1 ≤ day ∧ day ≤ daysInMonth year month then
    some ⟨year, month, day⟩
  else none

/-- The time with given numbers, if the day has it. -/
def Clock.of? (hour minute second microsecond : Nat) : Option Clock :=
  if hour < 24 ∧ minute < 60 ∧ second < 60 ∧ microsecond < 1000000 then
    some ⟨hour, minute, second, microsecond⟩
  else none

mutual

/-- A value of a settings file. -/
inductive Value
  | null
  | bool (b : Bool)
  | integer (n : Int)
  | float (x : Float)
  | string (s : String)
  | bytes (content : List UInt8)
  | list (items : List Value)
  | tuple (items : List Value)
  | set (items : List Value)
  | dict (members : List (Value × Value))
  | date (day : Date)
  | time (clock : Clock)
  | moment (instant : Moment)
  /-- A collection that holds itself, or one that does: a strand of a knot. -/
  | knot (strands : List Strand) (number : Nat)

/-- A part of a knot. A collection gives what it holds by the numbers of strands. -/
inductive Strand
  /-- A value without a part in the knot. -/
  | loose (value : Value)
  | list (items : List Nat)
  | tuple (items : List Nat)
  | dict (members : List (Value × Nat))

end

instance : Inhabited Value := ⟨.null⟩

namespace Value

/-- The whole number that a number is, if it is one. -/
def wholeOf? (x : Float) : Option Int :=
  if x.isNaN || x.isInf then none
  else match Decimal.Binary.ofFloat? x with
    | none => some 0
    | some b =>
      let unit := Nat.pow 2 (-b.q).toNat
      if b.m % unit != 0 then none
      else
        let n : Int := (b.m * Nat.pow 2 b.q.toNat / unit : Nat)
        some (if x < 0.0 then -n else n)

/-- The whole number that a value is as a key. -/
def asInteger? : Value → Option Int
  | .bool b => some (if b then 1 else 0)
  | .integer n => some n
  | .float x => wholeOf? x
  | _ => none

/-- Whether two values are the same number. No number is the same as none. -/
def sameNumber (a b : Value) : Bool :=
  match a.asInteger?, b.asInteger? with
  | some m, some n => m == n
  | none, none => match a, b with
    | .float x, .float y => x == y
    | _, _ => false
  | _, _ => false

mutual

/-- Whether two values are the same key. -/
def sameKey : Value → Value → Bool
  | .null, .null => true
  | .string s, .string t => s == t
  | .bytes a, .bytes b => a == b
  | .date a, .date b => a == b
  | .time a, .time b => a == b
  | .moment a, .moment b => a.isSame b
  | .tuple a, .tuple b => sameKeys a b
  | a, b => sameNumber a b

/-- Whether two lists hold the same keys in the same order. -/
def sameKeys : List Value → List Value → Bool
  | [], [] => true
  | a :: as, b :: bs => sameKey a b && sameKeys as bs
  | _, _ => false

end

/-- The value of a strand of a knot. -/
def ofStrand (strands : List Strand) (number : Nat) : Value :=
  match strands[number]? with
  | some (.loose value) => value
  | _ => .knot strands number

/-- The members of a value, if it is a mapping. -/
def members? : Value → Option (List (Value × Value))
  | .dict members => some members
  | .knot strands number =>
    match strands[number]? with
    | some (.dict members) => some (members.map fun (key, item) => (key, ofStrand strands item))
    | _ => none
  | _ => none

/-- The values that a collection gives one by one; a mapping gives its keys. -/
def elements? : Value → Option (List Value)
  | .string s => some (s.toList.map fun c => .string c.toString)
  | .bytes content => some (content.map fun byte => .integer byte.toNat)
  | .list items => some items
  | .tuple items => some items
  | .set items => some items
  | .dict members => some (members.map (·.1))
  | .knot strands number =>
    match strands[number]? with
    | some (.list items) => some (items.map (ofStrand strands))
    | some (.tuple items) => some (items.map (ofStrand strands))
    | some (.dict members) => some (members.map (·.1))
    | _ => none
  | _ => none

/-- Whether a value counts as true: zero, nothing and empty collections do not. -/
def isTruthy : Value → Bool
  | .null => false
  | .bool b => b
  | .integer n => n != 0
  | .float x => !(x == 0.0)
  | .date _ | .time _ | .moment _ => true
  | value => !(value.elements?.getD []).isEmpty

/-- The name of the kind of a value. -/
def kind : Value → String
  | .null => "NoneType"
  | .bool _ => "bool"
  | .integer _ => "int"
  | .float _ => "float"
  | .string _ => "str"
  | .bytes _ => "bytes"
  | .list _ => "list"
  | .tuple _ => "tuple"
  | .set _ => "set"
  | .dict _ => "dict"
  | .knot strands number =>
    match strands[number]? with
    | some (.tuple _) => "tuple"
    | some (.dict _) => "dict"
    | _ => "list"
  | .date _ => "date"
  | .time _ => "time"
  | .moment _ => "datetime"

/-- The name of the kind of a value together with the family it belongs to. -/
def qualifiedKind (value : Value) : String :=
  match value with
  | .date _ | .time _ | .moment _ => "datetime." ++ value.kind
  | _ => value.kind

end Value

end FlatCrate
