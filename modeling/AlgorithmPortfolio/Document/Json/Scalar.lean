import AlgorithmPortfolio.Bits
import AlgorithmPortfolio.Document.Reader
import AlgorithmPortfolio.Document.Value

/-!
# Strings and numbers of JSON documents

- `Json.string`: a string. An escape of four digits may be no lone half of a character beyond 16
  bits.
- `Json.Numeral`: the parts of a number as it is written.
- `Json.number`: the value of a number. Integers of 64 bits are exact and all others are
  floating point.
-/

namespace AlgorithmPortfolio.Document.Json

open Reader

/-- The characters that may stand between tokens. -/
def isBlank (c : Char) : Bool := c == ' ' || c == '\t' || c == '\n' || c == '\r'

/-- Whether a character may stand in a string as it is. -/
def isTextChar (c : Char) : Bool := 0x20 ≤ c.toNat && c != '"' && c != '\\'

/-! ## Strings -/

/-- The escapes of one character. -/
def escapes : List (Char × Char) :=
  [('"', '"'), ('\\', '\\'), ('/', '/'), ('b', '\x08'), ('f', '\x0c'), ('n', '\n'), ('r', '\r'),
    ('t', '\t')]

/-- Four hexadecimal digits. -/
def hexUnit : Reader Nat := return digitsValue 16 (← takeExactly 4 isHexDigit)

/-- The character of an escape that starts with `u`; characters beyond 16 bits take two of
them. -/
def unicodeEscape : Reader Char := do
  let unit ← hexUnit
  if 0xd800 ≤ unit ∧ unit < 0xdc00 then
    expect '\\'
    expect 'u'
    let low ← hexUnit
    guard (0xdc00 ≤ low ∧ low < 0xe000)
    charOf? (0x10000 + (unit - 0xd800) * 0x400 + (low - 0xdc00))
  else charOf? unit

/-- The character after a backslash. -/
def escape : Reader Char := do
  if ← eat 'u' then unicodeEscape
  else escapes.lookup (← next)

/-- The rest of a string, up to its closing quote; `taken` holds what was read, last character
first. -/
def stringRest : Nat → List Char → Reader String
  | 0, _ => failure
  | fuel + 1, taken => do
    match ← next with
    | '"' => return String.ofList taken.reverse
    | '\\' => stringRest fuel ((← escape) :: taken)
    | c => do
      guard (isTextChar c)
      stringRest fuel (c :: taken)

/-- A string after its opening quote. -/
def string : Reader String := do
  stringRest ((← remaining).length + 1) []

/-! ## Numbers -/

/-- A number as it is written. -/
structure Numeral where
  negative : Bool
  whole : List Char
  /-- The digits after the point, if there is one. -/
  fraction : Option (List Char)
  exponent : Option Int

/-- A run of at least one digit. -/
def digits : Reader (List Char) := do
  let taken ← takeWhile Char.isDigit
  guard (!taken.isEmpty)
  return taken

/-- The exponent of a number, if there is one. -/
def exponent : Reader (Option Int) := do
  if ← eatIf (fun c => c == 'e' || c == 'E') then
    if ← eat '-' then return some (-(digitsValue 10 (← digits) : Int))
    else
      let _ ← eat '+'
      return some (digitsValue 10 (← digits))
  else return none

/-- The parts of a number. There is no zero in front of other digits. -/
def numeral : Reader Numeral := do
  let negative ← eat '-'
  let whole ← digits
  guard (whole.length = 1 ∨ whole.head? ≠ some '0')
  let fraction ← if ← eat '.' then some <$> digits else pure none
  return ⟨negative, whole, fraction, ← exponent⟩

/-- A floating-point number, which has to be finite. -/
def finiteFloat (negative : Bool) (x : Float) : Option Value := do
  guard x.isFinite
  return .float (if negative then -x else x)

/-- The value of a number without a fraction and an exponent. -/
def wholeNumber (negative : Bool) (magnitude : Nat) : Option Value :=
  if negative ∧ 0 < magnitude ∧ magnitude ≤ maxOfBits 63 + 1 then some (.integer (-magnitude))
  else if ¬negative ∧ magnitude ≤ maxOfBits 64 then some (.integer magnitude)
  else finiteFloat negative (Binary64.ofDecimal magnitude 0)

/-- The value of a number. -/
def Numeral.value (n : Numeral) : Option Value :=
  match n.fraction, n.exponent with
  | none, none => wholeNumber n.negative (digitsValue 10 n.whole)
  | fraction, power =>
    finiteFloat n.negative (decimalFloat n.whole (fraction.getD []) (power.getD 0))

/-- A number. -/
def number : Reader Value := do (← numeral).value

end AlgorithmPortfolio.Document.Json
