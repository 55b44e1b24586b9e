import FlatCrate.Yaml.Outline
import FlatCrate.Yaml.Tag

/-!
# Nodes of a YAML document

A document is a graph of nodes: an alias is the node that its anchor marks, and a collection may
hold itself. Nodes are numbered in the order in which they begin. They are read from the tokens of a
text as the grammar of the language prescribes; where it allows a node to be missing, it is null.
-/

namespace FlatCrate.Yaml

/-- What a node holds; other nodes are given by number. -/
inductive Content
  | scalar (text : String)
  | sequence (items : List Nat)
  | mapping (members : List (Nat × Nat))

/-- A node. -/
structure Node where
  tag : Tag
  content : Content

/-- A document while it is read. -/
structure Draft where
  tokens : List Token
  nodes : Array Node := #[]
  /-- The nodes that anchors mark. -/
  anchors : List (String × Nat) := []
  /-- What the handles of tags stand for. -/
  handles : List (String × String) := []

/-- A step in reading a document. -/
abbrev Composing := StateT Draft (Except DocumentFault)

namespace Composing

/-- The next token, if there is one. Where no token can be read, nothing else is. -/
def peek : Composing (Option Token) := do
  match (← get).tokens.head? with
  | some (.broken fault) => throw fault
  | token => return token

/-- Goes past a token. -/
def advance : Composing Unit := modify fun draft => { draft with tokens := draft.tokens.drop 1 }

/-- Adds a node. -/
def add (node : Node) : Composing Nat :=
  modifyGet fun draft => (draft.nodes.size, { draft with nodes := draft.nodes.push node })

/-- Adds the node that stands where none is written. -/
def addNull : Composing Nat := add ⟨.null, .scalar ""⟩

/-- Fills a node that has been added. -/
def fill (number : Nat) (node : Node) : Composing Unit :=
  modify fun draft => { draft with nodes := draft.nodes.setIfInBounds number node }

/-- Marks a node with an anchor; an anchor marks one node only. -/
def mark (anchor : Option String) (number : Nat) : Composing Unit :=
  match anchor with
  | none => pure ()
  | some name => modify fun draft => { draft with anchors := (name, number) :: draft.anchors }

/-- The anchor that follows, if there is one. -/
def readAnchor : Composing (Option String) := do
  match ← peek with
  | some (.anchor name) =>
    advance
    return some name
  | _ => return none

/-- The tag that follows, if there is one. -/
def readTag : Composing (Option TagName) := do
  match ← peek with
  | some (.tag name) =>
    advance
    return some name
  | _ => return none

/-- The full name of a tag. The exclamation mark alone leaves the tag open. -/
def fullName (tag : Option TagName) : Composing (Option String) := do
  match tag with
  | none => return none
  | some ⟨none, suffix⟩ => return some suffix
  | some ⟨some handle, suffix⟩ =>
    match (← get).handles.lookup handle with
    | some meaning => return some (meaning ++ suffix)
    | none => throw .malformed

/-- The properties that stand before a node: an anchor and a tag, in any order. -/
def readProperties : Composing (Option String × Option String) := do
  match ← readAnchor with
  | some anchor =>
    let name ← fullName (← readTag)
    return (some anchor, name)
  | none =>
    let tag ← readTag
    let anchor ← readAnchor
    let name ← fullName tag
    return (anchor, name)

/-- The tag of a collection. -/
def collectionTag (name : Option String) (standard : Tag) : Tag :=
  match name with
  | none => standard
  | some name => if name = "!" then standard else .ofName name

/-- The tag of a scalar. -/
def scalarTag (name : Option String) (text : String) (plain : Bool) : Tag :=
  match name with
  | none => if plain then .ofPlain text else .string
  | some name => if name = "!" then .ofPlain text else .ofName name

/-- A node that holds others. Its anchor marks it already inside of it. -/
def collection (anchor : Option String) (tag : Tag) (content : Composing Content) :
    Composing Nat := do
  advance
  let number ← add ⟨tag, .sequence []⟩
  mark anchor number
  fill number ⟨tag, ← content⟩
  return number

/-- A scalar. -/
def scalar (anchor : Option String) (tag : Tag) (text : String) : Composing Nat := do
  let number ← add ⟨tag, .scalar text⟩
  mark anchor number
  return number

/-- The node that an alias stands for. -/
def aliased (name : String) : Composing Nat := do
  match (← get).anchors.lookup name with
  | some number => return number
  | none => throw .malformed

/-- Refuses an anchor that marks a node already. -/
def requireNew (anchor : Option String) : Composing Unit := do
  let draft ← get
  if anchor.any fun name => (draft.anchors.lookup name).isSome then throw .malformed

/-- Whether a node is missing where a sign may follow. -/
def isMissing (signs : Token → Bool) : Composing Bool := do return (← peek).any signs

/-- The sign of an entry. -/
def isEntry : Token → Bool
  | .blockEntry => true
  | _ => false

/-- The signs behind which the next entry of a sequence or its end is missing its node. -/
def endsEntry : Token → Bool
  | .blockEntry | .blockEnd => true
  | _ => false

/-- The signs behind which an entry that is not indented is missing its node. -/
def endsPlainEntry : Token → Bool
  | .blockEntry | .key | .value | .blockEnd => true
  | _ => false

/-- The signs behind which a key or value of a mapping is missing. -/
def endsMember : Token → Bool
  | .key | .value | .blockEnd => true
  | _ => false

/-- The signs behind which the key of a pair between brackets is missing. -/
def endsFlowKey (closing : Token → Bool) : Token → Bool
  | .value | .flowEntry => true
  | token => closing token

/-- The signs behind which the value of a pair between brackets is missing. -/
def endsFlowValue (closing : Token → Bool) : Token → Bool
  | .flowEntry => true
  | token => closing token

/-- The closing bracket of a sequence. -/
def closesSequence : Token → Bool
  | .flowSequenceEnd => true
  | _ => false

/-- The closing brace of a mapping. -/
def closesMapping : Token → Bool
  | .flowMappingEnd => true
  | _ => false

/-- The comma between two items. -/
def comma : Composing Unit := do
  match ← peek with
  | some .flowEntry => advance
  | _ => throw .malformed

mutual

/-- A node. Collections that indentation makes may stand only in blocks, and an indented sequence
need not be indented where a mapping allows it. -/
def node (fuel : Nat) (block unindented : Bool) : Composing Nat := do
  match fuel with
  | 0 => throw .malformed
  | fuel + 1 =>
    match ← peek with
    | some (.alias name) =>
      advance
      aliased name
    | _ =>
      let (anchor, name) ← readProperties
      let token ← peek
      match token, block with
      | some (.scalar text plain), _ =>
        advance
        requireNew anchor
        scalar anchor (scalarTag name text plain) text
      | some .flowSequenceStart, _ =>
        requireNew anchor
        collection anchor (collectionTag name .sequence) (.sequence <$> flowItems fuel true)
      | some .flowMappingStart, _ =>
        requireNew anchor
        collection anchor (collectionTag name .mapping) (.mapping <$> flowMembers fuel true)
      | some .blockSequenceStart, true =>
        requireNew anchor
        collection anchor (collectionTag name .sequence) (.sequence <$> blockItems fuel)
      | some .blockMappingStart, true =>
        requireNew anchor
        collection anchor (collectionTag name .mapping) (.mapping <$> blockMembers fuel)
      | _, _ =>
        if unindented && token.any isEntry then
          requireNew anchor
          let tag := collectionTag name .sequence
          let number ← add ⟨tag, .sequence []⟩
          mark anchor number
          fill number ⟨tag, .sequence (← plainItems fuel)⟩
          return number
        else if anchor.isNone && name.isNone then throw .malformed
        else
          requireNew anchor
          scalar anchor (scalarTag name "" true) ""

/-- A node, or null before certain signs. -/
def nodeOrNull (fuel : Nat) (block unindented : Bool) (signs : Token → Bool) : Composing Nat := do
  match fuel with
  | 0 => throw .malformed
  | fuel + 1 => if ← isMissing signs then addNull else node fuel block unindented

/-- The items of an indented sequence. -/
def blockItems (fuel : Nat) : Composing (List Nat) := do
  match fuel with
  | 0 => throw .malformed
  | fuel + 1 =>
    match ← peek with
    | some .blockEntry =>
      advance
      let item ← nodeOrNull fuel true false endsEntry
      return item :: (← blockItems fuel)
    | some .blockEnd =>
      advance
      return []
    | _ => throw .malformed

/-- The items of a sequence that is not indented. -/
def plainItems (fuel : Nat) : Composing (List Nat) := do
  match fuel with
  | 0 => throw .malformed
  | fuel + 1 =>
    match ← peek with
    | some .blockEntry =>
      advance
      let item ← nodeOrNull fuel true false endsPlainEntry
      return item :: (← plainItems fuel)
    | _ => return []

/-- The members of an indented mapping. -/
def blockMembers (fuel : Nat) : Composing (List (Nat × Nat)) := do
  match fuel with
  | 0 => throw .malformed
  | fuel + 1 =>
    match ← peek with
    | some .key =>
      advance
      let key ← nodeOrNull fuel true true endsMember
      let value ← memberValue fuel
      return (key, value) :: (← blockMembers fuel)
    | some .blockEnd =>
      advance
      return []
    | _ => throw .malformed

/-- The value of a member of an indented mapping. -/
def memberValue (fuel : Nat) : Composing Nat := do
  match fuel with
  | 0 => throw .malformed
  | fuel + 1 =>
    match ← peek with
    | some .value =>
      advance
      nodeOrNull fuel true true endsMember
    | _ => addNull

/-- The items of a sequence between brackets. -/
def flowItems (fuel : Nat) (first : Bool) : Composing (List Nat) := do
  match fuel with
  | 0 => throw .malformed
  | fuel + 1 =>
    if ← isMissing closesSequence then
      advance
      return []
    else
      if !first then comma
      match ← peek with
      | some .flowSequenceEnd =>
        advance
        return []
      | some .key =>
        let number ← add ⟨.mapping, .sequence []⟩
        advance
        let key ← nodeOrNull fuel false false (endsFlowKey closesSequence)
        let value ← flowValue fuel closesSequence
        fill number ⟨.mapping, .mapping [(key, value)]⟩
        return number :: (← flowItems fuel false)
      | _ =>
        let item ← node fuel false false
        return item :: (← flowItems fuel false)

/-- The members of a mapping between braces. -/
def flowMembers (fuel : Nat) (first : Bool) : Composing (List (Nat × Nat)) := do
  match fuel with
  | 0 => throw .malformed
  | fuel + 1 =>
    if ← isMissing closesMapping then
      advance
      return []
    else
      if !first then comma
      match ← peek with
      | some .flowMappingEnd =>
        advance
        return []
      | some .key =>
        advance
        let key ← nodeOrNull fuel false false (endsFlowKey closesMapping)
        let value ← flowValue fuel closesMapping
        return (key, value) :: (← flowMembers fuel false)
      | _ =>
        let key ← node fuel false false
        let value ← addNull
        return (key, value) :: (← flowMembers fuel false)

/-- The value of a pair between brackets. -/
def flowValue (fuel : Nat) (closing : Token → Bool) : Composing Nat := do
  match fuel with
  | 0 => throw .malformed
  | fuel + 1 =>
    match ← peek with
    | some .value =>
      advance
      nodeOrNull fuel false false (endsFlowValue closing)
    | _ => addNull

end

end Composing

/-- A document: its nodes and the one that holds the others. -/
structure Document where
  nodes : Array Node
  root : Nat

namespace Document

/-- The handles of tags that need no directive. -/
def standardHandles : List (String × String) := [("!", "!"), ("!!", standardTags)]

/-- What the directives before a document say of handles, and the tokens behind them. There may be
one version, which must begin with one, and no handle has two meanings. -/
def readDirectives (versioned : Bool) (handles : List (String × String)) :
    List Token → Except DocumentFault (List (String × String) × List Token)
  | .directive (.version major) :: rest =>
    if versioned || major != 1 then .error .malformed else readDirectives true handles rest
  | .directive (.handle name meaning) :: rest =>
    if (handles.lookup name).isSome then .error .malformed
    else readDirectives versioned ((name, meaning) :: handles) rest
  | .directive .other :: rest => readDirectives versioned handles rest
  | rest => .ok (handles ++ standardHandles, rest)

/-- Whether a token stands between documents. -/
def isBetween : Token → Bool
  | .directive _ | .documentStart | .documentEnd => true
  | _ => false

/-- Whether a token stands before a document. -/
def begins : Token → Bool
  | .directive _ | .documentStart => true
  | _ => false

/-- The tokens without the signs that end a document. -/
def dropEnds : List Token → List Token
  | .documentEnd :: rest => dropEnds rest
  | rest => rest

/-- The root of a document, which may be missing behind a sign that begins the document. -/
def readRoot (started : Bool) : Composing Nat := do
  if started && (← Composing.peek).all isBetween then Composing.addNull
  else Composing.node (4 * (← get).tokens.length + 8) true false

/-- Refuses whatever stands behind a document, except signs that end it. The directives of a further
document are still read. -/
def requireEnd (tokens : List Token) : Except DocumentFault Unit :=
  match dropEnds tokens with
  | [] => .ok ()
  | rest =>
    match readDirectives false [] rest with
    | .error fault => .error fault
    | .ok (_, .broken fault :: _) => .error fault
    | .ok _ => .error .malformed

/-- The document whose nodes some tokens are; no other may follow. -/
def ofNodes (started : Bool) (handles : List (String × String)) (tokens : List Token) :
    Except DocumentFault Document := do
  let (root, draft) ← (readRoot started).run { tokens, handles }
  requireEnd draft.tokens
  return ⟨draft.nodes, root⟩

/-- The document that some tokens are, if there is one. -/
def ofTokens : List Token → Except DocumentFault (Option Document)
  | [] => .ok none
  | first :: rest =>
    if begins first then
      match readDirectives false [] (first :: rest) with
      | .error fault => .error fault
      | .ok (handles, .documentStart :: rest) => (ofNodes true handles rest).map some
      | .ok (_, .broken fault :: _) => .error fault
      | .ok _ => .error .malformed
    else (ofNodes false standardHandles (first :: rest)).map some

end Document

end FlatCrate.Yaml
