import AlgorithmPortfolio.Document.Yaml.Node
import AlgorithmPortfolio.Document.Yaml.Scalar

/-!
# YAML documents

- `Yaml.Expand`: a computation that may follow a number of aliases, or fails.
- `Node.value`: the value of a node, with the nodes that aliases refer to in their place.
- `Yaml.read`: the entries of the mapping of a text's only document; an empty document has none.
-/

namespace AlgorithmPortfolio.Document.Yaml

/-- How deep sequences and mappings may be nested, aliases followed. -/
def depthLimit : Nat := 128

/-- How often aliases may be followed for each node of a document. -/
def aliasLimit : Nat := 100

/-- A computation that may follow a number of aliases, or fails. -/
abbrev Expand := StateT Nat Option

/-- The nodes that aliases refer to, by label. -/
abbrev Anchors := List (Nat × Node)

namespace Node

/-- The nodes with a label in a node. Of two with the same label the later one counts. -/
def anchors (node : Node) : Anchors :=
  (node.all.filterMap fun node => node.label?.map (·, node)).reverse

/-- The node that an alias refers to, and any other node itself. -/
def target (anchors : Anchors) : Node → Expand Node
  | .alias label => do
    let left ← get
    guard (0 < left)
    set (left - 1)
    anchors.lookup label
  | node => return node

/-- The text of a key, which has to be a scalar; its tag does not count. -/
def keyText (anchors : Anchors) (node : Node) : Expand String := do
  match ← node.target anchors with
  | .scalar _ text _ => return text
  | _ => failure

/-- The value of a node with at most so many collections in each other. -/
def value (anchors : Anchors) : Nat → Node → Expand Value
  | 0, node => do
    match ← node.target anchors with
    | .scalar properties text plain => scalarValue? properties.tag text plain
    | _ => failure
  | depth + 1, node => do
    match ← node.target anchors with
    | .alias _ => failure
    | .scalar properties text plain => scalarValue? properties.tag text plain
    | .sequence properties items =>
      return underTag properties.tag (.list (← items.mapM (value anchors depth)))
    | .mapping properties pairs => do
      let entries ← pairs.mapM fun pair =>
        return (← pair.1.keyText anchors, ← value anchors depth pair.2)
      return underTag properties.tag (.table entries)

/-- The entries of a document's node. Its own tag does not count, and nothing written stands for
no entries. -/
def entries? : Node → Option (List (String × Value))
  | .mapping properties pairs => do
    let root := Node.mapping ⟨properties.label, none⟩ pairs
    match ← (root.value root.anchors depthLimit).run' (aliasLimit * root.weight) with
    | .table entries => return entries
    | _ => none
  | .scalar _ "" true => some []
  | _ => none

end Node

/-- The entries of the mapping of a text's only document. -/
def read (text : String) : Option (List (String × Value)) := do
  match ← document? text with
  | none => return []
  | some node => node.entries?

end AlgorithmPortfolio.Document.Yaml
