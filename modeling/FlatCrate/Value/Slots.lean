import FlatCrate.Value.Basic

/-!
# The order of the elements of a set

A set shows its elements in the order of a table of slots, and the mark of an element decides where
in the table it goes. Equal numbers have equal marks, whole or not, and so have moments that are the
same point in time. Sets that hold an element without a mark show their elements as they came.

An element goes to the slot that its mark names, or else to the first free one of those that are
tried next. The table has more slots than elements, and the slots that are tried are all of them in
the end.
-/

namespace FlatCrate

/-- The modulus of the marks of numbers. It is odd, so numbers with a fraction have marks, too: two
to the power of sixty-one leaves one, and halving is doubling sixty times. -/
def markModulus : Nat := Nat.pow 2 61 - 1

/-- The mark of a given size with a sign. Minus one is no mark; minus two takes its place. -/
def signedMark (negative : Bool) (size : Nat) : UInt64 :=
  if negative then 0 - .ofNat (if size = 1 then 2 else size) else .ofNat size

/-- The mark of a whole number. -/
def integerMark (n : Int) : UInt64 := signedMark (n < 0) (n.natAbs % markModulus)

/-- The mark of a number with a fraction, if it is one. -/
def floatMark? (x : Float) : Option UInt64 :=
  if x.isNaN then none
  else if x.isInf then some (signedMark (x < 0.0) 314159)
  else match Decimal.Binary.ofFloat? x with
    | none => some 0
    | some b => some (signedMark (x < 0.0) (b.m * Nat.pow 2 (b.q % 61).toNat % markModulus))

/-- The mark of a row of things, made of theirs. -/
def rowMark (marks : List UInt64) : UInt64 :=
  let start : UInt64 := 2870177450012600261
  let mixed := marks.foldl
    (fun (mixed mark : UInt64) =>
      let sum := mixed + mark * 14029467366897019727
      (sum <<< 31 ||| sum >>> 33) * 11400714785074694791)
    start
  let mark := mixed + (.ofNat marks.length ^^^ (start ^^^ 3527539))
  if mark = 0 - 1 then 1546275796 else mark

/-- The mark of a point in time, given in microseconds: that of its days, seconds and microseconds.
-/
def instantMark (instant : Int) : UInt64 :=
  let behind := instant % 86400000000
  rowMark [integerMark (instant / 86400000000 + 1), integerMark (behind / 1000000),
    integerMark (behind % 1000000)]

namespace Value

/-- The mark of a value, if it has one. -/
def mark? : Value → Option UInt64
  | .bool b => some (integerMark (if b then 1 else 0))
  | .integer n => some (integerMark n)
  | .float x => floatMark? x
  | .moment instant => instant.instant?.map instantMark
  | _ => none

end Value

/-- The slots of a table; a free one holds nothing. -/
abbrev Slots := Array (Option Value)

namespace Slots

/-- How many slots a table for a number of elements has: a power of two. -/
def sizeFor (count : Nat) : Nat := if count < 5 then 8 else Nat.pow 2 ((2 * count).log2 + 1)

/-- The slots that are tried together: nine more behind the first one, if there are so many. -/
def together (size first : Nat) : List Nat :=
  if first + 9 < size then List.range' first 10 else [first]

/-- The first free slot from a given one on. What is left of the mark is used to leap on. -/
def free? (slots : Slots) : Nat → Nat → Nat → Option Nat
  | 0, _, _ => none
  | fuel + 1, mark, slot =>
    match (together slots.size slot).find? fun slot => slots[slot]?.join.isNone with
    | some slot => some slot
    | none => free? slots fuel (mark / 32) ((slot * 5 + 1 + mark / 32) % slots.size)

/-- The table with one more element. The mark is used up after thirteen leaps, and from then on
leaping leads through all slots. -/
def put (slots : Slots) (mark : Nat) (value : Value) : Slots :=
  match slots.free? (slots.size + 14) mark (mark % slots.size) with
  | some slot => slots.setIfInBounds slot (some value)
  | none => slots.push (some value)

/-- The elements of a table, slot by slot. -/
def elements (slots : Slots) : List Value := slots.toList.filterMap id

end Slots

/-- The set of some elements, all different. -/
def Value.ofElements (items : List Value) : Value :=
  match items.mapM Value.mark? with
  | none => .set items
  | some marks =>
    let free : Slots := Array.replicate (Slots.sizeFor items.length) none
    let filled := (items.zip marks).foldl
      (fun (slots : Slots) (item, mark) => slots.put mark.toNat item) free
    .set filled.elements

/-- A table has more slots than elements. -/
theorem Slots.lt_sizeFor (count : Nat) : count < sizeFor count := by
  unfold sizeFor
  split
  · omega
  · have := Nat.lt_log2_self (n := 2 * count)
    rw [Nat.pow_eq]
    omega

end FlatCrate
