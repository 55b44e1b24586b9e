import FlatCrate.Value.Knot
import FlatCrate.Value.Slots
import FlatCrate.Yaml.Merge
import FlatCrate.Yaml.Scalar

/-!
# Reading YAML

A text gives the value of the root of its document. The whole text has to be a document before any
of its values is made. Then the collections are opened one after another, those further out first,
and the scalars in them are read; so of two faults the one further out is found. At last the nodes
become the strands from which the value is untied.

The reader is given by the documented rules of the language. What is proved about all settings files
rests on no more than that a text has a value or a fault. Only runs on fixed files depend on which
value that is.
-/

namespace FlatCrate.Yaml

/-- A document whose values are being made. -/
structure Making where
  nodes : Nodes
  /-- The values of scalars, by the numbers of their nodes. -/
  scalars : Array (Option Value)
  /-- The collections that have been met. -/
  met : List Nat := []
  /-- The collections that are still to be opened. -/
  waiting : List Nat := []

namespace Making

/-- The outcome of a step. -/
abbrev Result := Except DocumentFault Making

/-- The text of a node: a scalar's own, or that of the value sign in a mapping. -/
def textOf? (nodes : Nodes) : Nat → Nat → Option String
  | 0, _ => none
  | fuel + 1, number =>
    match nodes[number]? with
    | some ⟨_, .scalar text⟩ => some text
    | some ⟨_, .mapping members⟩ =>
      (members.find? fun (key, _) => nodes.hasTag .value key).bind fun (_, value) =>
        textOf? nodes fuel value
    | _ => none

/-- Whether a node is a scalar. -/
def isScalar (nodes : Nodes) (number : Nat) : Bool :=
  match nodes[number]? with
  | some ⟨_, .scalar _⟩ => true
  | _ => false

/-- Whether a tag is one of collections. -/
def makesCollection : Tag → Bool
  | .orderedMap | .pairs | .set | .sequence | .mapping => true
  | _ => false

/-- The value of a node that is no collection. -/
def scalarOf (nodes : Nodes) (tag : Tag) (number : Nat) : Except DocumentFault Value :=
  match textOf? nodes (nodes.size + 1) number with
  | none => .error .malformed
  | some text =>
    if tag = .stamp ∧ !isScalar nodes number then .error (.broken .wrongKind)
    else scalarValue tag text

/-- Meets a node: a scalar is read, and a collection has to wait. -/
def meet (number : Nat) (making : Making) : Result :=
  match making.nodes[number]? with
  | none => .error .malformed
  | some node =>
    if makesCollection node.tag then
      if making.met.contains number then .ok making
      else .ok { making with met := number :: making.met, waiting := making.waiting ++ [number] }
    else if making.scalars[number]?.join.isSome then .ok making
    else (scalarOf making.nodes node.tag number).map fun value =>
      { making with scalars := making.scalars.setIfInBounds number (some value) }

/-- Meets nodes in order. -/
def meetAll (numbers : List Nat) (making : Making) : Result :=
  numbers.foldlM (fun making number => making.meet number) making

/-- Opens a sequence. -/
def openSequence (number : Nat) (making : Making) : Result :=
  match making.nodes.items? number with
  | none => .error .malformed
  | some items => making.meetAll items

/-- Opens a mapping after merging it. Its keys have to be scalars. -/
def openMapping (number : Nat) (making : Making) : Result :=
  match making.nodes.merge number with
  | none => .error .malformed
  | some nodes =>
    ((nodes.members? number).getD []).foldlM (fun making (key, value) => do
      let making ← making.meet key
      if making.nodes[key]?.any fun node => makesCollection node.tag then throw .malformed
      else making.meet value) { making with nodes }

/-- Opens a sequence of mappings with one member each. -/
def openPairs (number : Nat) (making : Making) : Result :=
  match making.nodes.items? number with
  | none => .error .malformed
  | some items =>
    items.foldlM (fun making item =>
      match making.nodes.members? item with
      | some [(key, value)] => making.meetAll [key, value]
      | _ => .error .malformed) making

/-- Opens a collection. -/
def openNode (number : Nat) (making : Making) : Result :=
  match making.nodes[number]? with
  | none => .error .malformed
  | some node =>
    match node.tag with
    | .sequence => making.openSequence number
    | .mapping | .set => making.openMapping number
    | _ => making.openPairs number

/-- Opens all collections that wait. The fuel is as much as there are nodes. -/
def openAll : Nat → Making → Result
  | 0, making => .ok making
  | fuel + 1, making =>
    match making.waiting with
    | [] => .ok making
    | number :: waiting => do openAll fuel (← { making with waiting }.openNode number)

/-- The value of a key. -/
def keyOf (making : Making) (number : Nat) : Value := (making.scalars[number]?.join).getD .null

/-- Whether a node is the word for no number. -/
def isNan (making : Making) (number : Nat) : Bool :=
  making.nodes.hasTag .float number &&
    (textOf? making.nodes (making.nodes.size + 1) number).any fun text => isNanWord text.toList

/-- Whether two nodes are the same key. A node that is no number is the same as itself only, but the
word for it is the same wherever it stands. -/
def sameKey (making : Making) (a b : Nat) : Bool :=
  a == b || (making.isNan a && making.isNan b) || (making.keyOf a).sameKey (making.keyOf b)

/-- The members with one more; a key that is there already keeps its place. -/
def setMember (making : Making) (key value : Nat) : List (Nat × Nat) → List (Nat × Nat)
  | [] => [(key, value)]
  | (here, old) :: rest =>
    if making.sameKey here key then (here, value) :: rest
    else (here, old) :: making.setMember key value rest

/-- The members of a mapping, each key once. -/
def membersOf (making : Making) (number : Nat) : List (Nat × Nat) :=
  ((making.nodes.members? number).getD []).foldl (fun found (key, value) =>
    making.setMember key value found) []

/-- The pairs of a sequence of mappings with one member each. -/
def pairsOf (making : Making) (number : Nat) : List (Nat × Nat) :=
  ((making.nodes.items? number).getD []).filterMap fun item =>
    match making.nodes.members? item with
    | some [pair] => some pair
    | _ => none

/-- The strands of the nodes, and behind them those of pairs. -/
structure Strands where
  nodes : Array Strand := #[]
  pairs : Array Strand := #[]

/-- The strands with that of one more node. -/
def addStrand (making : Making) (strands : Strands) (number : Nat) : Strands :=
  let add (strand : Strand) : Strands := { strands with nodes := strands.nodes.push strand }
  match (making.nodes[number]?.map Node.tag).getD .null with
  | .mapping =>
    add (.dict ((making.membersOf number).map fun (key, value) => (making.keyOf key, value)))
  | .set =>
    add (.loose (.ofElements ((making.membersOf number).map fun (key, _) => making.keyOf key)))
  | .sequence => add (.list ((making.nodes.items? number).getD []))
  | .orderedMap | .pairs =>
    let pairs := making.pairsOf number
    { nodes := strands.nodes.push
        (.list (List.range' (making.nodes.size + strands.pairs.size) pairs.length))
      pairs := strands.pairs ++ pairs.map fun (key, value) => Strand.tuple [key, value] }
  | _ => add (.loose (making.keyOf number))

/-- The strands of all nodes. -/
def strands (making : Making) : Array Strand :=
  let strands := (List.range making.nodes.size).foldl making.addStrand {}
  strands.nodes ++ strands.pairs

end Making

/-- The value that a document is. -/
def Document.value (document : Document) : Except DocumentFault Value := do
  let making : Making :=
    { nodes := document.nodes, scalars := Array.replicate document.nodes.size none }
  let making ← (← making.meet document.root).openAll (document.nodes.size + 1)
  return .ofStrands making.strands document.root

/-- The value that a text is; a text without a document is null. -/
def read (text : String) : Except DocumentFault Value := do
  match ← Document.ofTokens (Token.ofText text.toList) with
  | none => return .null
  | some document => document.value

end FlatCrate.Yaml
