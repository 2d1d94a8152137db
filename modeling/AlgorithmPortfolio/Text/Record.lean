/-!
# Descriptions of values

- `record`, `list`, `bool`, `option`: the descriptions of composite values from those of their
  parts.
-/

namespace AlgorithmPortfolio.Text

/-- The description of a record with the descriptions of its fields. -/
def record (name : String) (fields : List (String × String)) : String :=
  name ++ " \x7b " ++ ", ".intercalate (fields.map fun field => field.1 ++ ": " ++ field.2) ++
    " \x7d"

/-- The description of a list of descriptions. -/
def list (items : List String) : String := "[" ++ ", ".intercalate items ++ "]"

/-- The description of a truth value. -/
def bool (b : Bool) : String := if b then "true" else "false"

/-- The description of a value that may be absent. -/
def option {β : Type} (text : β → String) : Option β → String
  | some x => "Some(" ++ text x ++ ")"
  | none => "None"

end AlgorithmPortfolio.Text
