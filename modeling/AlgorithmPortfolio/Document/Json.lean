import AlgorithmPortfolio.Document.Json.Skip

/-!
# JSON documents

- `Json.Wanted`: which parts of a text are read.
- `Json.readPart`: the value of a JSON text without the members that are not wanted. Objects
  keep repeated keys; lists and objects may be nested to a fixed depth, passed over ones to any
  depth.
- `Json.read`: the value of all of a JSON text.
-/

namespace AlgorithmPortfolio.Document.Json

open Reader

/-- How deep lists and objects may be nested. -/
def depthLimit : Nat := 127

/-- Which parts of a text are read. -/
inductive Wanted
  /-- All of the value. -/
  | whole
  /-- Parts of each item of a list. -/
  | each (item : Wanted)
  /-- Some members of an object, or the items of a list in their place. -/
  | members (known : List (String × Wanted))

namespace Wanted

/-- What is wanted of a member. -/
def member? (wanted : Wanted) (key : String) : Option Wanted :=
  match wanted with
  | .members known => known.lookup key
  | .each _ | .whole => some .whole

/-- What is wanted of the first item of a list, and of the items after it. -/
def item : Wanted → Wanted × Wanted
  | .whole => (.whole, .whole)
  | .each item => (item, .each item)
  | .members [] => (.whole, .whole)
  | .members ((_, first) :: rest) => (first, .members rest)

end Wanted

mutual

/-- A value after blanks. -/
def value : Nat → Nat → Wanted → Reader Value
  | 0, _, _ => failure
  | fuel + 1, depth, wanted => do
    skipWhile isBlank
    match ← peek with
    | some '"' => do
      let _ ← next
      return .text (← string)
    | some '[' => do
      guard (0 < depth)
      let _ ← next
      skipWhile isBlank
      if ← eat ']' then return .list []
      return .list (← items fuel (depth - 1) wanted)
    | some '\x7b' => do
      guard (0 < depth)
      let _ ← next
      skipWhile isBlank
      if ← eat '\x7d' then return .table []
      return .table (← members fuel (depth - 1) wanted)
    | some 'n' => do
      guard (← eatText "null")
      return .null
    | some 't' => do
      guard (← eatText "true")
      return .bool true
    | some 'f' => do
      guard (← eatText "false")
      return .bool false
    | _ => number

/-- The items of a list and its closing bracket. -/
def items : Nat → Nat → Wanted → Reader (List Value)
  | 0, _, _ => failure
  | fuel + 1, depth, wanted => do
    let (first, others) := wanted.item
    let item ← value fuel depth first
    skipWhile isBlank
    if ← eat ']' then return [item]
    expect ','
    return item :: (← items fuel depth others)

/-- The members of an object and its closing brace. -/
def members : Nat → Nat → Wanted → Reader (List (String × Value))
  | 0, _, _ => failure
  | fuel + 1, depth, wanted => do
    skipWhile isBlank
    expect '"'
    let key ← string
    skipWhile isBlank
    expect ':'
    let taken ← match wanted.member? key with
      | some part => do pure [(key, ← value fuel depth part)]
      | none => do
        skip
        pure []
    skipWhile isBlank
    if ← eat '\x7d' then return taken
    expect ','
    return taken ++ (← members fuel depth wanted)

end

/-- The value of the wanted parts of a JSON text. -/
def readPart (wanted : Wanted) (text : String) : Option Value :=
  let cs := text.toList
  all (do
    let result ← value (2 * cs.length + 2) depthLimit wanted
    skipWhile isBlank
    return result) cs

/-- The value of a JSON text. -/
def read : String → Option Value := readPart .whole

end AlgorithmPortfolio.Document.Json
