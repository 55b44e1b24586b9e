import FlatCrate.Yaml.Node

/-!
# Merged mappings

The member of a mapping whose key is the merge sign brings in the members of another mapping, or of
several. They come before the members of the mapping itself, and those of several come in reverse
order, so that the mapping's own members count first, and then those of the mappings named first. A
mapping is merged once: then its merge signs are gone, also for its aliases.
-/

namespace FlatCrate.Yaml

/-- The nodes of a document. -/
abbrev Nodes := Array Node

namespace Nodes

/-- The members of a node, if it is a mapping. -/
def members? (nodes : Nodes) (number : Nat) : Option (List (Nat × Nat)) :=
  match nodes[number]? with
  | some ⟨_, .mapping members⟩ => some members
  | _ => none

/-- The items of a node, if it is a sequence. -/
def items? (nodes : Nodes) (number : Nat) : Option (List Nat) :=
  match nodes[number]? with
  | some ⟨_, .sequence items⟩ => some items
  | _ => none

/-- Whether a node has a tag. -/
def hasTag (nodes : Nodes) (tag : Tag) (number : Nat) : Bool :=
  nodes[number]?.any fun node => node.tag == tag

/-- The nodes with other members of a mapping. -/
def setMembers (nodes : Nodes) (number : Nat) (members : List (Nat × Nat)) : Nodes :=
  nodes.modify number fun node => { node with content := .mapping members }

/-- The nodes in which value signs that are keys are strings. -/
def spellKeys (nodes : Nodes) (members : List (Nat × Nat)) : Nodes :=
  members.foldl (fun nodes (key, _) =>
    nodes.modify key fun node => if node.tag = .value then { node with tag := .string } else node)
    nodes

/-- How many merge signs are keys. -/
def mergeCount (nodes : Nodes) : Nat :=
  nodes.foldl (fun count node =>
    match node.content with
    | .mapping members => count + members.countP fun (key, _) => nodes.hasTag .merge key
    | _ => count) 0

/-- The nodes after a mapping is merged, with the members that came in so far before its own. The
fuel is as much as there are merge signs; nothing comes out if one of them names no mapping. -/
def mergeFrom : Nat → List (Nat × Nat) → Nodes → Nat → Option Nodes
  | fuel, merged, nodes, number => do
    let members ← nodes.members? number
    match members.find? fun (key, _) => nodes.hasTag .merge key, fuel with
    | none, _ =>
      return (nodes.spellKeys members).setMembers number (merged ++ members)
    | some _, 0 => none
    | some (_, source), fuel + 1 =>
      let nodes := nodes.setMembers number
        (members.eraseP fun (key, _) => nodes.hasTag .merge key)
      let (nodes, more) ←
        match nodes.items? source with
        | none => do
          let nodes ← mergeFrom fuel [] nodes source
          pure (nodes, (← nodes.members? source))
        | some items =>
          items.foldlM (fun (nodes, more) item => do
            let nodes ← mergeFrom fuel [] nodes item
            let found ← nodes.members? item
            pure (nodes, found ++ more)) (nodes, [])
      mergeFrom fuel (merged ++ more) nodes number

/-- The nodes after a mapping is merged. -/
def merge (nodes : Nodes) (number : Nat) : Option Nodes :=
  mergeFrom nodes.mergeCount [] nodes number

end Nodes

end FlatCrate.Yaml
