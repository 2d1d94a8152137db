import AlgorithmPortfolio.Document.Toml
import AlgorithmPortfolio.Document.Toml.Text
import AlgorithmPortfolio.Error

/-!
# Engine options

Options are texts under dotted keys. A slot's engine gets options of its own: the global ones
without those that only concern the scheduler, and the slot's file laid over them.

- `Options`: the options by key.
- `leaves`: the entries of a document's tables, each under the path of its keys.
- `Options.ofToml`, `Options.load`: the options of a document and of a file.
- `Options.isolated`: a slot's options.
- `Options.get?_isolate`: where the value of each of a slot's options comes from.
-/

namespace AlgorithmPortfolio

open Document (Value)

/-- Options by their dotted keys. -/
abbrev Options := Dict String

/-! ## Documents as options -/

/-- The path of a key below another path. -/
def joinKey (path key : String) : String := if path = "" then key else path ++ "." ++ key

/-- The text of a value that is no table; strings are taken as they are. -/
def scalarText : Value → String
  | .text s => s
  | v => Document.Toml.elementText v

mutual

/-- The entries below a path: one for each value that is no table, a list counting as one. -/
def leaves (path : String) : Value → List (String × String)
  | .table entries => entryLeaves path entries
  | .list items => [(path, ",".intercalate (items.map scalarText))]
  | .null => [(path, scalarText .null)]
  | .bool b => [(path, scalarText (.bool b))]
  | .integer i => [(path, scalarText (.integer i))]
  | .float x => [(path, scalarText (.float x))]
  | .text s => [(path, s)]
  | .character c => [(path, scalarText (.character c))]
  | .moment s => [(path, scalarText (.moment s))]

/-- The entries of a table below a path. -/
def entryLeaves (path : String) : List (String × Value) → List (String × String)
  | [] => []
  | (key, value) :: rest => leaves (joinKey path key) value ++ entryLeaves path rest

end

namespace Options

/-- The options of a document's table. Where two values have the same path, the later one
counts. -/
def ofTable (entries : List (String × Value)) : Options := Dict.ofList (entryLeaves "" entries)

/-- The options of a TOML document. -/
def ofToml (text : String) : Option Options := ofTable <$> Document.Toml.read text

/-- The options of a file. -/
def load (tree : Storage.Tree) (path : String) : Except PortfolioError Options :=
  match tree.read path with
  | .error fault => .error (.slotFile path fault)
  | .ok text =>
    match ofToml text with
    | none => .error (.slotSyntax path)
    | some options => .ok options

/-! ## Options of one slot -/

/-- Options without the given keys. -/
def without (options : Options) (keys : List String) : Options := keys.foldl Dict.erase options

/-- Global options without the scheduler's keys, with a slot's own options laid over them. -/
def isolate (globals : Options) (schedulerKeys : List String) (own : Options) : Options :=
  (without globals schedulerKeys).overlay own

/-- The options of the slot of a file. -/
def isolated (tree : Storage.Tree) (globals : Options) (schedulerKeys : List String)
    (path : String) : Except PortfolioError Options :=
  (load tree path).map (isolate globals schedulerKeys)

theorem get?_without (options : Options) (keys : List String) (key : String) :
    Dict.get? (without options keys) key = if key ∈ keys then none else options.get? key := by
  induction keys generalizing options with
  | nil => simp [without]
  | cons k rest ih =>
    have := ih (options.erase k)
    simp only [without, List.foldl_cons] at this ⊢
    rw [this, Dict.get?_erase]
    by_cases h : key ∈ rest <;> by_cases hk : key = k <;> simp [h, hk]

theorem get?_isolate (globals : Options) (schedulerKeys : List String) (own : Options)
    (key : String) :
    (isolate globals schedulerKeys own).get? key =
      (own.get? key).or (if key ∈ schedulerKeys then none else globals.get? key) := by
  rw [isolate, Dict.get?_overlay, get?_without]

end Options

end AlgorithmPortfolio
