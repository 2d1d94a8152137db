import AlgorithmPortfolio.Bits
import AlgorithmPortfolio.Document.Reader
import AlgorithmPortfolio.Document.Value
import AlgorithmPortfolio.Document.Yaml.Tag

/-!
# Values of YAML scalars

- `Yaml.bool?`, `Yaml.integer?`, `Yaml.float?`: the readings of a text.
- `Yaml.plainValue`: the value of a scalar without quotes and without a tag.
- `Yaml.underTag`: a value and a tag that says nothing about it but a name.
- `Yaml.scalarValue?`: the value of a scalar. A tag may ask for one reading.
-/

namespace AlgorithmPortfolio.Document.Yaml

/-! ## Readings -/

/-- Whether a text stands for null. -/
def isNull (text : String) : Bool := ["~", "null", "Null", "NULL"].contains text

/-- A truth value. -/
def bool? (text : String) : Option Bool :=
  if ["true", "True", "TRUE"].contains text then some true
  else if ["false", "False", "FALSE"].contains text then some false
  else none

/-- A text without a sign in front, and whether that was a minus. -/
def unsigned : List Char → Bool × List Char
  | '+' :: rest => (false, rest)
  | '-' :: rest => (true, rest)
  | cs => (false, cs)

/-- Digits of a base after a mark that names it. -/
def afterMark (mark : List Char) (base : Nat) (cs : List Char) : Option Nat :=
  let digits := cs.drop mark.length
  let isDigit (c : Char) := match hexValue? c with
    | some d => d < base
    | none => false
  if mark.isPrefixOf cs ∧ digits ≠ [] ∧ digits.all isDigit then some (digitsValue base digits)
  else none

/-- Whether digits start with a zero before others. -/
def isPadded (digits : List Char) : Bool :=
  digits.head? == some '0' && 1 < digits.length && digits.all Char.isDigit

/-- The magnitude of an integer. Decimal digits may not start with a zero before others. -/
def magnitude? (cs : List Char) : Option Nat :=
  (afterMark ['0', 'x'] 16 cs <|> afterMark ['0', 'o'] 8 cs) <|> afterMark ['0', 'b'] 2 cs <|>
  if isPadded cs then none else afterMark [] 10 cs

/-- An integer within the range of 128 bits. -/
def integer? (text : String) : Option Int := do
  let (negative, digits) := unsigned text.toList
  let magnitude ← magnitude? digits
  if negative then
    guard (magnitude ≤ maxOfBits 127 + 1)
    return -magnitude
  else
    guard (magnitude ≤ maxOfBits 128)
    return magnitude

/-- The exponent of a decimal number, if there is one. -/
def exponent? : List Char → Option Int
  | [] => some 0
  | mark :: rest => do
    guard (mark = 'e' ∨ mark = 'E')
    let (negative, digits) := unsigned rest
    let power ← afterMark [] 10 digits
    return if negative then -power else power

/-- A finite decimal number with an optional fraction and an optional exponent; digits have to
stand on at least one side of the point. -/
def decimal? (negative : Bool) (cs : List Char) : Option Float := do
  let whole := cs.takeWhile Char.isDigit
  let cs := cs.dropWhile Char.isDigit
  let (fraction, cs) := match cs with
    | '.' :: rest => (rest.takeWhile Char.isDigit, rest.dropWhile Char.isDigit)
    | _ => ([], cs)
  guard (whole ≠ [] ∨ fraction ≠ [])
  let x := decimalFloat whole fraction (← exponent? cs)
  guard x.isFinite
  return if negative then -x else x

/-- A floating-point number. There is a sign for infinity, but none for what is no number. -/
def float? (text : String) : Option Float :=
  let (negative, digits) := unsigned text.toList
  if [".inf", ".Inf", ".INF"].contains (String.ofList digits) then
    some (if negative then -1.0 / 0.0 else 1.0 / 0.0)
  else if [".nan", ".NaN", ".NAN"].contains text then some (0.0 / 0.0)
  else decimal? negative digits

/-! ## Values -/

/-- The value of a scalar without quotes and without a tag. -/
def plainValue (text : String) : Value :=
  if text = "" || isNull text then .null
  else
    let float := if isPadded (unsigned text.toList).2 then none else float? text
    match bool? text, integer? text, float with
    | some b, _, _ => .bool b
    | none, some i, _ => .integer i
    | none, none, some x => .float x
    | none, none, none => .text text

/-- The value of a scalar without a tag. -/
def untaggedValue (text : String) (plain : Bool) : Value :=
  if plain then plainValue text else .text text

/-- A value under a tag: the name in a tag of a document's own is the only key of a table. Any
other tag says nothing new. -/
def underTag (tag : Option Octets) (value : Value) : Value :=
  match tag.bind ownName? with
  | some name => .single name value
  | none => value

/-- The value of a scalar. A tag for truth values, numbers or null asks for a text of that kind,
and any other tag that is not of the document's own stands for texts. -/
def scalarValue? (tag : Option Octets) (text : String) (plain : Bool) : Option Value :=
  match tag with
  | none => some (untaggedValue text plain)
  | some tag =>
    if isOwn tag then some (underTag (some tag) (untaggedValue text plain))
    else if tag = commonTag "bool" then .bool <$> bool? text
    else if tag = commonTag "int" then .integer <$> integer? text
    else if tag = commonTag "float" then .float <$> float? text
    else if tag = commonTag "null" then if isNull text then some .null else none
    else some (.text text)

end AlgorithmPortfolio.Document.Yaml
