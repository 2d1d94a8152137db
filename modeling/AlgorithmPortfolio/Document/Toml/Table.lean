import AlgorithmPortfolio.Document.Value

/-!
# Building the tables of a TOML document

A document names tables in headers and along dotted keys, and every table may be defined only
once.

- `Origin`: how a table came to be, which decides what may still be added to it.
- `Node`: values and tables while a document is read.
- `update`: a change at the end of a path of keys.
- `addValue`, `openTable`, `openItem`: what a line of a document does.
- `Node.toValue`: the tables when all is read.
-/

namespace AlgorithmPortfolio.Document.Toml

/-- How a table came to be. -/
inductive Origin
  /-- It has a header of its own, or is the whole document. -/
  | defined
  /-- It is only on the way of other headers. -/
  | implied
  /-- It is on the way of a dotted key. -/
  | dotted
  deriving DecidableEq, Repr

/-- What stands under a key while a document is read. -/
inductive Node
  | value (v : Value)
  | table (origin : Origin) (entries : List (String × Node))
  | tables (items : List (List (String × Node)))
  deriving Inhabited

/-- Entries of a table. -/
abbrev Entries := List (String × Node)

/-- Change the table at the end of a path. Tables on the way that are not there are made; of a
list of tables the last one is meant. A dotted key may not lead through a table that has a
header. -/
def update (viaDots : Bool) (change : Origin → Entries → Option Entries) :
    List String → Origin → Entries → Option Entries
  | [], origin, entries => change origin entries
  | key :: path, _, entries =>
    match lookup key entries with
    | none => do
      let origin := if viaDots then Origin.dotted else Origin.implied
      return insertEntry key (.table origin (← update viaDots change path origin [])) entries
    | some (.value _) => none
    | some (.tables items) => do
      -- the tables before the last one are closed
      let last ← items.getLast?
      let changed ← update viaDots change path .defined last
      return insertEntry key (.tables (items.dropLast ++ [changed])) entries
    | some (.table origin inner) =>
      if viaDots ∧ origin = .defined then none
      else do
        return insertEntry key (.table origin (← update viaDots change path origin inner)) entries

/-- Put a value under a dotted key of a table. The key has to be new, and what a dotted key
leads to has to be a table made by dotted keys. -/
def addValue (path : List String) (value : Value) (origin : Origin) (entries : Entries) :
    Option Entries :=
  match path.getLast? with
  | none => none
  | some key =>
    let way := path.dropLast
    update true (fun origin entries =>
      -- a key without dots belongs to a table with a header, a key with dots to one made by
      -- dots
      if decide (origin = .dotted) == way.isEmpty then none
      else if (lookup key entries).isSome then none
      else some (insertEntry key (.value value) entries)) way origin entries

/-- Open the table of a header: it is new, or was only implied before. -/
def openTable (path : List String) (entries : Entries) : Option Entries :=
  match path.getLast? with
  | none => none
  | some key =>
    update false (fun _ entries =>
      match lookup key entries with
      | none => some (insertEntry key (.table .defined []) entries)
      | some (.table .implied inner) => some (insertEntry key (.table .defined inner) entries)
      | some _ => none) path.dropLast .defined entries

/-- Open one more table of the list of tables of a header. -/
def openItem (path : List String) (entries : Entries) : Option Entries :=
  match path.getLast? with
  | none => none
  | some key =>
    update false (fun _ entries =>
      match lookup key entries with
      | none => some (insertEntry key (.tables [[]]) entries)
      | some (.tables items) => some (insertEntry key (.tables (items ++ [[]])) entries)
      | some _ => none) path.dropLast .defined entries

mutual

/-- The value of a node. -/
def Node.toValue : Node → Value
  | .value v => v
  | .table _ entries => .table (entriesToValue entries)
  | .tables items => .list (tablesToValue items)

/-- The values of entries. -/
def entriesToValue : List (String × Node) → List (String × Value)
  | [] => []
  | (key, node) :: rest => (key, node.toValue) :: entriesToValue rest

/-- The values of tables. -/
def tablesToValue : List (List (String × Node)) → List Value
  | [] => []
  | entries :: rest => .table (entriesToValue entries) :: tablesToValue rest

end

end AlgorithmPortfolio.Document.Toml
