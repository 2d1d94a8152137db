import AlgorithmPortfolio.Dict

/-!
# Document values

The values that settings and option files hold, whatever their format.

- `Value`: null, truth values, numbers, texts, characters, moments, lists and tables. A table
  read from a document keeps its entries as the document has them; `Value.normalize` puts them
  in key order, with the last value of a repeated key.
- `Value.overlay`: tables are merged key by key, everything else is replaced.
-/

namespace AlgorithmPortfolio.Document

/-- A value of a document. -/
inductive Value
  | null
  | bool (b : Bool)
  | integer (i : Int)
  | float (x : Float)
  | text (s : String)
  /-- A text of one character, in a notation that tells the two apart. -/
  | character (c : Char)
  /-- A date or a time, in its written form. -/
  | moment (s : String)
  | list (items : List Value)
  | table (entries : List (String × Value))
  deriving Inhabited

namespace Value

/-- Entries put in key order; of a repeated key the last value stays. -/
def inKeyOrder (entries : List (String × Value)) : List (String × Value) :=
  entries.foldl (fun sorted entry => insertEntry entry.1 entry.2 sorted) []

mutual

/-- The value with all its tables in key order. -/
def normalize : Value → Value
  | .list items => .list (normalizeItems items)
  | .table entries => .table (inKeyOrder (normalizeEntries entries))
  | .null => .null
  | .bool b => .bool b
  | .integer i => .integer i
  | .float x => .float x
  | .text s => .text s
  | .character c => .character c
  | .moment s => .moment s

/-- All items with their tables in key order. -/
def normalizeItems : List Value → List Value
  | [] => []
  | item :: rest => normalize item :: normalizeItems rest

/-- All entries' values with their tables in key order. -/
def normalizeEntries : List (String × Value) → List (String × Value)
  | [] => []
  | (key, value) :: rest => (key, normalize value) :: normalizeEntries rest

end

mutual

/-- The first value with the second laid over it: tables are merged key by key, everything else
is replaced. -/
def overlay (base : Value) : Value → Value
  | .table top =>
    match base with
    | .table entries => .table (overlayEntries entries top)
    | _ => .table top
  | .null => .null
  | .bool b => .bool b
  | .integer i => .integer i
  | .float x => .float x
  | .text s => .text s
  | .character c => .character c
  | .moment s => .moment s
  | .list items => .list items

/-- Entries in key order with others laid over them. -/
def overlayEntries (base : List (String × Value)) : List (String × Value) → List (String × Value)
  | [] => base
  | (key, value) :: rest =>
    let merged := match lookup key base with
      | some old => overlay old value
      | none => value
    overlayEntries (insertEntry key merged base) rest

end

/-- The value under a key of a table. -/
def get? (key : String) : Value → Option Value
  | .table entries => lookup key entries
  | _ => none

/-- The table of one key. -/
def single (key : String) (value : Value) : Value := .table [(key, value)]

end Value

end AlgorithmPortfolio.Document
