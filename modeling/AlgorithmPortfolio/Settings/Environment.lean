import AlgorithmPortfolio.Bits
import AlgorithmPortfolio.Document.Toml.Scalar
import AlgorithmPortfolio.Text.Blank
import AlgorithmPortfolio.Text.Split

/-!
# Settings from environment variables

A variable whose name starts with a given word and an underscore is a setting. The rest of its
name is the key, where two underscores or a dot lead into a table; its text is a value in a
short notation of lists, tables, quoted texts, numbers and truth values.

- `Environment.value`: the value of a variable's text. A text that is not in the notation stands
  for itself.
- `Environment.keyPath?`: the keys of a variable's name.
- `Environment.layer`: the settings of all variables; of two with the same keys the one with the
  later name counts.
-/

namespace AlgorithmPortfolio.Settings.Environment

open Document Reader

/-! ## Values -/

/-- Characters that may stand around values. -/
def isBlank (c : Char) : Bool := c == ' ' || c == '\t' || c == '\n' || c == '\r' || c == '\x0c'

/-- Characters that end a text without quotes. -/
def isSeparator (c : Char) : Bool :=
  c == ',' || c == '\x7b' || c == '\x7d' || c == '[' || c == ']'

/-- Characters of keys without quotes. -/
def isKeyChar (c : Char) : Bool := c.isAlphanum || c == '_' || c == '-'

/-- A sign and digits, within the range of 64 bits. -/
def integer? (cs : List Char) : Option Int :=
  let (negative, digits) := match cs with
    | '-' :: rest => (true, rest)
    | '+' :: rest => (false, rest)
    | _ => (false, cs)
  if digits = [] ∨ !digits.all Char.isDigit then none
  else
    let magnitude := digitsValue 10 digits
    if negative then if magnitude ≤ maxOfBits 63 + 1 then some (-magnitude) else none
    else if magnitude ≤ maxOfBits 64 then some magnitude else none

/-- An exponent of ten, or nothing at all. -/
def exponent? : List Char → Option Int
  | [] => some 0
  | mark :: rest => do
    guard (mark = 'e' ∨ mark = 'E')
    match rest with
    | '-' :: digits => do
      guard (digits ≠ [] ∧ digits.all Char.isDigit)
      return -(digitsValue 10 digits : Int)
    | '+' :: digits | digits => do
      guard (digits ≠ [] ∧ digits.all Char.isDigit)
      return digitsValue 10 digits

/-- A number with a decimal point and digits on at least one side of it. -/
def decimal? (cs : List Char) : Option Float := do
  let (negative, cs) := match cs with
    | '-' :: rest => (true, rest)
    | '+' :: rest => (false, rest)
    | _ => (false, cs)
  let whole := cs.takeWhile Char.isDigit
  match cs.dropWhile Char.isDigit with
  | '.' :: rest => do
    let fraction := rest.takeWhile Char.isDigit
    guard (whole ≠ [] ∨ fraction ≠ [])
    let x := decimalFloat whole fraction (← exponent? (rest.dropWhile Char.isDigit))
    return if negative then -x else x
  | _ => none

/-- The value of a text without quotes. -/
def bareValue (cs : List Char) : Value :=
  match decimal? cs, integer? cs with
  | some x, _ => .float x
  | none, some i => .integer i
  | none, none => .text (String.ofList cs)

/-- A truth value, if one of the two words comes next, whatever follows it. -/
def truth : Reader (Option Bool) := do
  if ← eatText "true" then return some true
  else if ← eatText "false" then return some false
  else return none

/-- The key of an entry of a table. -/
def key : Reader String := do
  match ← peek with
  | some '"' => Toml.quotedString
  | _ => do
    let taken ← takeWhile isKeyChar
    guard (!taken.isEmpty)
    return String.ofList taken

mutual

/-- A value with blanks around it. A text without quotes may not start with one of the two words
for truth values: the word is taken as such, and the rest of the text is left over. -/
def element : Nat → Reader Value
  | 0 => failure
  | fuel + 1 => do
    skipWhile isBlank
    let result ← match ← truth with
      | some b => pure (.bool b)
      | none =>
        match ← peek with
        | some '\x7b' => do
          let _ ← next
          Value.table <$> entries fuel
        | some '[' => do
          let _ ← next
          Value.list <$> items fuel
        | some '"' => Value.text <$> Toml.quotedString
        | some '\'' => do
          let _ ← next
          let c ← next
          expect '\''
          pure (.character c)
        | _ => do pure (bareValue (Text.trim (← takeWhile fun c => !isSeparator c)))
    skipWhile isBlank
    return result

/-- The items of a list up to its closing bracket, which may follow a comma. -/
def items : Nat → Reader (List Value)
  | 0 => failure
  | fuel + 1 => do
    if ← eat ']' then return []
    let item ← element fuel
    if ← eat ',' then return item :: (← items fuel)
    expect ']'
    return [item]

/-- The entries of a table up to its closing brace, which may follow a comma. -/
def entries : Nat → Reader (List (String × Value))
  | 0 => failure
  | fuel + 1 => do
    if ← eat '\x7d' then return []
    skipWhile isBlank
    let name ← key
    skipWhile isBlank
    expect '='
    let content ← element fuel
    if ← eat ',' then return (name, content) :: (← entries fuel)
    expect '\x7d'
    return [(name, content)]

end

/-- The value of a variable's text. Blanks alone stand for themselves. -/
def value (text : String) : Value :=
  let cs := text.toList
  if (Text.trim cs).isEmpty then .text text
  else match all (element (2 * cs.length + 2)) cs with
  | some v => v
  | none => .text text

/-! ## Names -/

/-- The text with a dot for every two underscores. -/
def dotted : List Char → List Char
  | '_' :: '_' :: rest => '.' :: dotted rest
  | c :: rest => c :: dotted rest
  | [] => []

/-- The keys of a variable's name, if it starts with the word, in upper or lower case, and an
underscore. Blanks around the name and around its keys are left out, and a name with an empty
key is no setting. -/
def keyPath? (word name : String) : Option (List String) :=
  let start := (word.toList ++ ['_']).map Char.toLower
  let lowered := (Text.trim name.toList).map Char.toLower
  if start.isPrefixOf lowered then
    let keys := Text.splitAll '.' (Text.trim (dotted (lowered.drop start.length)))
    -- as in a name that ends in two underscores
    if keys.contains [] then none else some (keys.map String.ofList)
  else none

/-- A value below keys. -/
def nest (value : Value) : List String → Value
  | [] => value
  | key :: rest => .single key (nest value rest)

/-- The settings of variables whose names start with a word. Variables are taken in the order of
their names, so of several with the same keys, say in upper and in lower case, the last one by
name counts. -/
def layer (word : String) (values : Dict String) : Value :=
  values.entries.foldl (fun settings entry =>
    match keyPath? word entry.1 with
    | some keys => settings.overlay (nest (value entry.2).normalize keys)
    | none => settings) (.table [])

end AlgorithmPortfolio.Settings.Environment
