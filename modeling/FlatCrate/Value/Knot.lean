import FlatCrate.Value.Basic

/-!
# Untying knots

The strands of a document give each collection by the numbers of what it holds. Strands that hold
only values are untied: they become values themselves, until nothing but collections that hold
themselves, and those that hold such, is left. What is left is a knot.
-/

namespace FlatCrate

/-- Values by the numbers of their strands, as far as they are known. -/
abbrev Untied := Array (Option Value)

namespace Untied

/-- The value with a number, if it is known. -/
def value? (untied : Untied) (number : Nat) : Option Value := untied[number]?.join

/-- The value of a strand, if it holds only values that are known. -/
def ofStrand? (untied : Untied) : Strand → Option Value
  | .loose value => some value
  | .list items => (items.mapM untied.value?).map .list
  | .tuple items => (items.mapM untied.value?).map .tuple
  | .dict members =>
    (members.mapM fun member => (untied.value? member.2).map (member.1, ·)).map .dict

/-- The values after each strand has been looked at once, the last one first. -/
def sweep (strands : Array Strand) (untied : Untied) : Untied :=
  (List.range strands.size).foldr (fun number (untied : Untied) =>
    if (untied.value? number).isSome then untied
    else untied.setIfInBounds number (strands[number]?.bind untied.ofStrand?)) untied

/-- How many values are known. -/
def count (untied : Untied) : Nat := untied.countP Option.isSome

/-- The values after as many sweeps, or fewer if one of them changes nothing. -/
def sweepAll (strands : Array Strand) : Nat → Untied → Untied
  | 0, untied => untied
  | fuel + 1, untied =>
    let swept := untied.sweep strands
    if swept.count = untied.count then untied else sweepAll strands fuel swept

/-- The values of all strands that can be untied: each sweep but the last one unties one at least.
-/
def ofStrands (strands : Array Strand) : Untied :=
  sweepAll strands (strands.size + 1) (Array.replicate strands.size none)

end Untied

/-- The value of the strand with a number. -/
def Value.ofStrands (strands : Array Strand) (number : Nat) : Value :=
  let untied := Untied.ofStrands strands
  let tied := strands.toList.zipIdx.map fun (strand, number) =>
    match untied.value? number with
    | some value => Strand.loose value
    | none => strand
  Value.ofStrand tied number

end FlatCrate
