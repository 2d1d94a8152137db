import AlgorithmPortfolio.Document.Toml.Scalar
import AlgorithmPortfolio.Document.Toml.Table

/-!
# TOML documents

- `Toml.value`: a value: a scalar, an array or an inline table.
- `Toml.Line`: what a line of a document says.
- `Toml.read`: the table of a document, entries in key order.
-/

namespace AlgorithmPortfolio.Document.Toml

open Reader

/-! ## Values -/

/-- How deep arrays and inline tables may be nested. -/
def depthLimit : Nat := 79

/-- Blanks, comments and line ends between the items of an array. -/
def gap : Nat → Reader Unit
  | 0 => pure ()
  | fuel + 1 => do
    skipWhile isBlank
    match ← peek with
    | some '#' => do
      comment
      newline
      gap fuel
    | some '\n' | some '\r' => do
      newline
      gap fuel
    | _ => pure ()

/-- All blanks, comments and line ends that follow. -/
def anyGap : Reader Unit := do
  gap ((← remaining).length + 1)

/-- The entries of an inline table from its pairs of a path and a value. -/
def inlineEntries (pairs : List (List String × Value)) : Option Entries :=
  pairs.foldlM (fun entries pair => addValue pair.1 pair.2 .defined entries) []

mutual

/-- A value. -/
def value : Nat → Nat → Reader Value
  | 0, _ => failure
  | fuel + 1, depth => do
    match ← peek with
    | some '"' | some '\'' => return .text (← string)
    | some '[' => do
      guard (0 < depth)
      let _ ← next
      return .list (← items fuel (depth - 1))
    | some '\x7b' => do
      guard (0 < depth)
      let _ ← next
      skipWhile isBlank
      if ← eat '\x7d' then return .table []
      let entries ← inlineEntries (← pairs fuel (depth - 1))
      return .table (entriesToValue entries)
    | some 't' => do
      guard (← eatText "true")
      return .bool true
    | some 'f' => do
      guard (← eatText "false")
      return .bool false
    | _ => number

/-- The items of an array and its closing bracket; a comma may follow the last item. -/
def items : Nat → Nat → Reader (List Value)
  | 0, _ => failure
  | fuel + 1, depth => do
    anyGap
    if ← eat ']' then return []
    let item ← value fuel depth
    anyGap
    if ← eat ']' then return [item]
    expect ','
    return item :: (← items fuel depth)

/-- The pairs of an inline table and its closing brace. -/
def pairs : Nat → Nat → Reader (List (List String × Value))
  | 0, _ => failure
  | fuel + 1, depth => do
    let path ← keyPath
    expect '='
    skipWhile isBlank
    let v ← value fuel depth
    skipWhile isBlank
    if ← eat '\x7d' then return [(path, v)]
    expect ','
    return (path, v) :: (← pairs fuel depth)

end

/-! ## Lines -/

/-- What a line of a document says. -/
inductive Line
  | blank
  | table (path : List String)
  | item (path : List String)
  | pair (path : List String) (value : Value)

/-- The end of a line or of the document, after blanks and a comment. -/
def lineEnd : Reader Unit := do
  skipWhile isBlank
  if (← peek) == some '#' then comment
  unless ← atEnd do newline

/-- A line of a document. -/
def line : Reader Line := do
  skipWhile isBlank
  match ← peek with
  | none | some '#' | some '\n' | some '\r' => do
    lineEnd
    return .blank
  | some '[' => do
    let _ ← next
    if ← eat '[' then
      let path ← keyPath
      guard (← eatText "]]")
      lineEnd
      return .item path
    else
      let path ← keyPath
      expect ']'
      lineEnd
      return .table path
  | _ => do
    let path ← keyPath
    expect '='
    skipWhile isBlank
    let v ← value (2 * (← remaining).length + 2) depthLimit
    lineEnd
    return .pair path v

/-! ## Documents -/

/-- A document while it is read: its entries and the header that holds for the next lines. -/
structure Draft where
  entries : Entries
  header : List String

/-- The document with what one more line says. -/
def Draft.add (draft : Draft) : Line → Option Draft
  | .blank => some draft
  | .table path => do return ⟨← openTable path draft.entries, path⟩
  | .item path => do return ⟨← openItem path draft.entries, path⟩
  | .pair path v => do
    let entries ← update false (addValue path v) draft.header .defined draft.entries
    return { draft with entries }

/-- The document with the remaining lines. -/
def lines : Nat → Draft → Reader Draft
  | 0, _ => failure
  | fuel + 1, draft => do
    if ← atEnd then return draft
    lines fuel (← draft.add (← line))

/-- The entries of the table of a document. -/
def read (text : String) : Option (List (String × Value)) := do
  let cs := match text.toList with
    | '\ufeff' :: rest => rest
    | cs => cs
  let draft ← all (lines (cs.length + 1) ⟨[], []⟩) cs
  return entriesToValue draft.entries

end AlgorithmPortfolio.Document.Toml
