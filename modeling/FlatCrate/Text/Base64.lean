/-!
# Base 64

Four letters stand for three bytes. Other characters are skipped, and reading ends at a padding sign
that fills up a group of letters.
-/

namespace FlatCrate.Text

/-- The six bits that a letter stands for. -/
def sixBits? (c : Char) : Option Nat :=
  if 'A' ≤ c ∧ c ≤ 'Z' then some (c.toNat - 65)
  else if 'a' ≤ c ∧ c ≤ 'z' then some (c.toNat - 71)
  else if '0' ≤ c ∧ c ≤ '9' then some (c.toNat + 4)
  else if c = '+' then some 62
  else if c = '/' then some 63
  else none

/-- A group of letters as far as it is read: how many letters, the bits left over from the last of
them, and how many padding signs stand behind it. -/
structure Group where
  letters : Nat := 0
  left : Nat := 0
  pads : Nat := 0

/-- The byte that one more letter completes, and the group with it. -/
def Group.add (group : Group) (bits : Nat) : List UInt8 × Group :=
  match group.letters with
  | 0 => ([], ⟨1, bits, 0⟩)
  | 1 => ([UInt8.ofNat (group.left * 4 + bits / 16)], ⟨2, bits % 16, 0⟩)
  | 2 => ([UInt8.ofNat (group.left * 16 + bits / 4)], ⟨3, bits % 4, 0⟩)
  | _ => ([UInt8.ofNat (group.left * 64 + bits)], {})

/-- The bytes that the rest of a text stands for. -/
def base64From? (group : Group) : List Char → Option (List UInt8)
  | [] => if group.letters = 0 then some [] else none
  | c :: rest =>
    if c = '=' then
      if group.letters < 2 then base64From? group rest
      else if 4 ≤ group.letters + (group.pads + 1) then some []
      else base64From? { group with pads := group.pads + 1 } rest
    else match sixBits? c with
      | none => base64From? group rest
      | some bits =>
        let (bytes, group) := group.add bits
        (base64From? group rest).map (bytes ++ ·)

/-- The bytes that a text stands for. -/
def base64? (cs : List Char) : Option (List UInt8) := base64From? {} cs

example : base64? "TWFu".toList = some [77, 97, 110] := by decide
example : base64? "TWE=".toList = some [77, 97] := by decide
example : base64? "TWE".toList = none := by decide

end FlatCrate.Text
