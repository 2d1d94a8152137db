import AlgorithmPortfolio.Dict
import AlgorithmPortfolio.Document.Yaml.Token

/-!
# Nodes of YAML documents

- `Yaml.Node`: scalars, sequences and mappings as they are written, and aliases of other nodes.
- `Node.all`, `Node.weight`: the nodes in a node, and how much they count together.
- `Yaml.NodeReader`: a computation that takes a node off the front of tokens, or fails.
- `Yaml.document?`: the node of a text's only document; a text without tokens has none.
-/

namespace AlgorithmPortfolio.Document.Yaml

/-- What may stand in front of a node. -/
structure Properties where
  /-- The label by which aliases refer to the node. -/
  label : Option Nat
  tag : Option Octets

/-- A node. -/
inductive Node
  | alias (label : Nat)
  /-- A text and whether it is written without quotes and outside of a block. -/
  | scalar (properties : Properties) (text : String) (plain : Bool)
  | sequence (properties : Properties) (items : List Node)
  | mapping (properties : Properties) (pairs : List (Node × Node))

namespace Node

/-- The scalar that stands where nothing is written. -/
def empty : Node := .scalar ⟨none, none⟩ "" true

instance : Inhabited Node := ⟨empty⟩

mutual

/-- The node and all nodes in it, in the order of the document. -/
def all : Node → List Node
  | .alias label => [.alias label]
  | .scalar properties text plain => [.scalar properties text plain]
  | .sequence properties items => .sequence properties items :: allOfItems items
  | .mapping properties pairs => .mapping properties pairs :: allOfPairs pairs

/-- The nodes in items. -/
def allOfItems : List Node → List Node
  | [] => []
  | item :: rest => all item ++ allOfItems rest

/-- The nodes in pairs. -/
def allOfPairs : List (Node × Node) → List Node
  | [] => []
  | (key, value) :: rest => all key ++ all value ++ allOfPairs rest

end

/-- The label of a node. -/
def label? : Node → Option Nat
  | .alias _ => none
  | .scalar properties .. | .sequence properties _ | .mapping properties _ => properties.label

/-- How much a node counts without those in it: a collection counts twice, as it starts and
ends. -/
def ownWeight : Node → Nat
  | .alias _ | .scalar .. => 1
  | .sequence .. | .mapping .. => 2

/-- How much a node counts together with those in it. -/
def weight (node : Node) : Nat := (node.all.map ownWeight).foldr (· + ·) 0

end Node

/-! ## Taking nodes off tokens -/

/-- Tokens that are left, what the document's handles stand for, and the labels of its
anchors. -/
structure NodeInput where
  tokens : List Token
  handles : Handles
  labels : Dict Nat

/-- A computation that takes a node off the front of tokens, or fails. -/
abbrev NodeReader := StateT NodeInput Option

namespace NodeReader

/-- The next token. -/
def peek : NodeReader (Option Token) := return (← get).tokens.head?

/-- Pass over the next token. -/
def advance : NodeReader Unit := modify fun input => { input with tokens := input.tokens.tail }

/-- Take a token if it comes next, and tell whether it did. -/
def eat (token : Token) : NodeReader Bool := do
  if (← peek) = some token then
    advance
    return true
  else return false

/-- Take a node, or the empty scalar if one of some tokens comes next. -/
def orEmpty (ends : List Token) (node : NodeReader Node) : NodeReader Node := do
  if (← peek).any ends.contains then return .empty else node

/-! ### Properties -/

/-- Take an anchor, if one comes next. -/
def anchor : NodeReader (Option String) := do
  match ← peek with
  | some (.anchor name) => do
    advance
    return some name
  | _ => return none

/-- Take a tag, if one comes next. -/
def tag : NodeReader (Option Octets) := do
  match ← peek with
  | some (.tag tag) => do
    advance
    return some (← tag.resolve? (← get).handles)
  | _ => return none

/-- Take an anchor and a tag in either order; there may be none of them. -/
def anchorAndTag : NodeReader (Option String × Option Octets) := do
  match ← anchor with
  | some name => return (some name, ← tag)
  | none => do
    let tag ← tag
    return (← anchor, tag)

/-- The label of an anchor: how many names were in use before it. Where a name is used again,
labels of different anchors may coincide. -/
def label (anchor : Option String) : NodeReader (Option Nat) := do
  match anchor with
  | none => return none
  | some name => do
    let label := (← get).labels.size
    modify fun input => { input with labels := input.labels.insert name label }
    return some label

/-! ### Nodes -/

mutual

/-- Take a node. Dashes that are no further to the right than a mapping's keys are a sequence
only if `dashes` says so. -/
def node : Nat → Bool → NodeReader Node
  | 0, _ => failure
  | fuel + 1, dashes => do
    if let some (.alias name) ← peek then
      advance
      return .alias (← (← get).labels.get? name)
    let (anchor, tag) ← anchorAndTag
    let start ← peek
    let label ← label anchor
    match start with
    | some (.scalar text plain) => do
      advance
      -- on a scalar, an exclamation mark alone says nothing
      return .scalar ⟨label, tag.filter (· != octetsOf "!")⟩ text plain
    | some .flowSequence => do
      advance
      return .sequence ⟨label, tag⟩ (← flowItems fuel true)
    | some .flowMapping => do
      advance
      return .mapping ⟨label, tag⟩ (← flowPairs fuel true)
    | some .blockSequence => do
      advance
      return .sequence ⟨label, tag⟩ (← blockItems fuel)
    | some .blockMapping => do
      advance
      return .mapping ⟨label, tag⟩ (← blockPairs fuel)
    | start => do
      if dashes && start == some .dash then return .sequence ⟨label, tag⟩ (← dashItems fuel)
      guard (anchor.isSome || tag.isSome)
      return .scalar ⟨label, tag⟩ "" true

/-- The items of a block sequence and its end. -/
def blockItems : Nat → NodeReader (List Node)
  | 0 => failure
  | fuel + 1 => do
    if ← eat .blockEnd then return []
    guard (← eat .dash)
    let item ← orEmpty [.dash, .blockEnd] (node fuel false)
    return item :: (← blockItems fuel)

/-- The items of a sequence that has no end of its own. -/
def dashItems : Nat → NodeReader (List Node)
  | 0 => failure
  | fuel + 1 => do
    if ← eat .dash then
      let item ← orEmpty [.dash, .key, .value, .blockEnd] (node fuel false)
      return item :: (← dashItems fuel)
    else return []

/-- The pairs of a block mapping and its end. -/
def blockPairs : Nat → NodeReader (List (Node × Node))
  | 0 => failure
  | fuel + 1 => do
    if ← eat .blockEnd then return []
    guard (← eat .key)
    let part := orEmpty [.key, .value, .blockEnd] (node fuel true)
    let key ← part
    let value ← if ← eat .value then part else pure .empty
    return (key, value) :: (← blockPairs fuel)

/-- The items of a sequence between brackets and its closing bracket, which may follow a comma.
An item with a key is a mapping of one pair. -/
def flowItems : Nat → Bool → NodeReader (List Node)
  | 0, _ => failure
  | fuel + 1, first => do
    if ← eat .flowSequenceEnd then return []
    unless first do
      guard (← eat .comma)
    if ← eat .flowSequenceEnd then return []
    let item ← if ← eat .key then flowPair fuel else node fuel false
    return item :: (← flowItems fuel false)

/-- The mapping of one pair after its question mark. A mark right after that stands for the
empty key. -/
def flowPair : Nat → NodeReader Node
  | 0 => failure
  | fuel + 1 => do
    let key ← if (← peek).any [.value, .comma, .flowSequenceEnd].contains then do
        advance
        pure .empty
      else node fuel false
    let value ← if ← eat .value then
        orEmpty [.comma, .flowSequenceEnd] (node fuel false)
      else pure .empty
    return .mapping ⟨none, none⟩ [(key, value)]

/-- The pairs of a mapping between braces and its closing brace, which may follow a comma.
Without a key's mark, a node is a key without a value. -/
def flowPairs : Nat → Bool → NodeReader (List (Node × Node))
  | 0, _ => failure
  | fuel + 1, first => do
    if ← eat .flowMappingEnd then return []
    unless first do
      guard (← eat .comma)
    if ← eat .flowMappingEnd then return []
    if ← eat .key then
      let key ← orEmpty [.value, .comma, .flowMappingEnd] (node fuel false)
      let value ← if ← eat .value then
          orEmpty [.comma, .flowMappingEnd] (node fuel false)
        else pure .empty
      return (key, value) :: (← flowPairs fuel false)
    else
      let key ← node fuel false
      return (key, .empty) :: (← flowPairs fuel false)

end

/-! ### Documents -/

/-- Take the directives in front of a document. The version and the meaning of a handle may be
given once. -/
def directives : Nat → Bool → NodeReader Unit
  | 0, _ => failure
  | fuel + 1, versioned => do
    match ← peek with
    | some (.directive .version) => do
      guard !versioned
      advance
      directives fuel true
    | some (.directive (.handle name meaning)) => do
      let input ← get
      guard (input.handles.lookup name).isNone
      set { input with tokens := input.tokens.tail, handles := (name, meaning) :: input.handles }
      directives fuel versioned
    | _ => pure ()

/-- Pass over marks at the end of a document. -/
def skipDocumentEnds : NodeReader Unit :=
  modify fun input => { input with tokens := input.tokens.dropWhile (· == .documentEnd) }

/-- Take the only document. -/
def document : NodeReader Node := do
  let count := (← get).tokens.length
  let node := node (2 * count + 2) false
  let root ← match ← peek with
    | some (.directive _) | some .documentStart => do
      directives (count + 1) false
      guard (← eat .documentStart)
      match ← peek with
      | none | some .documentEnd => pure .empty
      | _ => node
    | _ => node
  skipDocumentEnds
  guard (← peek).isNone
  return root

end NodeReader

/-- The node of a text's only document. -/
def document? (text : String) : Option (Option Node) := do
  match ← tokens? text with
  | [] => return none
  | tokens => some <$> NodeReader.document.run' ⟨tokens, [], .empty⟩

end AlgorithmPortfolio.Document.Yaml
