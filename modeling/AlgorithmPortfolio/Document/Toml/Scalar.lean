import AlgorithmPortfolio.Bits
import AlgorithmPortfolio.Document.Toml.Moment
import AlgorithmPortfolio.Document.Value

/-!
# Strings, keys and numbers of TOML documents

- `quotedString`, `literalString` and their forms of several lines.
- `simpleKey`, `dottedKey`: keys, bare or quoted, alone or as a path.
- `number`: integers in four bases and floating-point numbers.
-/

namespace AlgorithmPortfolio.Document.Toml

open Reader

/-! ## Characters -/

/-- Blanks within a line. -/
def isBlank (c : Char) : Bool := c == ' ' || c == '\t'

/-- Characters of comments and strings: all but controls, a tab excepted. -/
def isTextChar (c : Char) : Bool := c == '\t' || (0x20 ≤ c.toNat && c.toNat != 0x7f)

/-- The end of a line. -/
def newline : Reader Unit := do
  let _ ← eat '\r'
  expect '\n'

/-- A comment up to the end of its line. -/
def comment : Reader Unit := do
  expect '#'
  skipWhile isTextChar

/-! ## Strings -/

/-- The character of a given number of hexadecimal digits. -/
def codeEscape (count : Nat) : Reader Char := do
  charOf? (digitsValue 16 (← takeExactly count isHexDigit))

/-- The character after a backslash. -/
def escape : Reader Char := do
  match ← next with
  | 'b' => return '\x08'
  | 't' => return '\t'
  | 'n' => return '\n'
  | 'f' => return '\x0c'
  | 'r' => return '\r'
  | '"' => return '"'
  | '\\' => return '\\'
  | 'u' => codeEscape 4
  | 'U' => codeEscape 8
  | _ => failure

/-- The rest of a string of one line between double quotes. -/
def quotedRest : Nat → List Char → Reader String
  | 0, _ => failure
  | fuel + 1, taken => do
    match ← next with
    | '"' => return String.ofList taken.reverse
    | '\\' => quotedRest fuel ((← escape) :: taken)
    | c => do
      guard (isTextChar c)
      quotedRest fuel (c :: taken)

/-- A string of one line between double quotes. -/
def quotedString : Reader String := do
  expect '"'
  quotedRest ((← remaining).length + 1) []

/-- A string of one line between single quotes, without escapes. -/
def literalString : Reader String := do
  expect '\''
  let taken ← takeWhile fun c => isTextChar c && c != '\''
  expect '\''
  return String.ofList taken

/-- Blanks and line ends, as many as follow. -/
def blankLines : Nat → Reader Unit
  | 0 => pure ()
  | fuel + 1 => do
    skipWhile isBlank
    (do
      newline
      blankLines fuel) <|> pure ()

/-- Blanks and line ends after a backslash at the end of a line. -/
def lineContinuation : Reader Unit := do
  skipWhile isBlank
  newline
  blankLines ((← remaining).length + 1)

/-- How many of the next characters, up to five, are the given quote. -/
def quoteRun (quote : Char) : Reader Nat := do
  return ((← remaining).take 5).takeWhile (· == quote) |>.length

/-- The rest of a string of several lines. Three quotes close it, and up to two quotes right
before them belong to it. Escapes are read if `escapes` says so. -/
def multilineRest (quote : Char) (escapes : Bool) : Nat → List Char → Reader String
  | 0, _ => failure
  | fuel + 1, taken => do
    let run ← quoteRun quote
    if 3 ≤ run then
      -- of four or five quotes the last three close the string
      let _ ← takeExactly run (· == quote)
      return String.ofList (taken.reverse ++ List.replicate (run - 3) quote)
    match ← next with
    | '\n' => multilineRest quote escapes fuel ('\n' :: taken)
    | '\r' => do
      expect '\n'
      multilineRest quote escapes fuel ('\n' :: taken)
    | c => do
      if escapes ∧ c = '\\' then
        (do
          lineContinuation
          multilineRest quote escapes fuel taken) <|>
        (do
          multilineRest quote escapes fuel ((← escape) :: taken))
      else
        guard (isTextChar c)
        multilineRest quote escapes fuel (c :: taken)

/-- A string of several lines; a line end right after its opening quotes does not belong to
it. -/
def multilineString (quote : Char) (escapes : Bool) : Reader String := do
  let _ ← takeExactly 3 (· == quote)
  newline <|> pure ()
  multilineRest quote escapes ((← remaining).length + 1) []

/-- A string of any form. -/
def string : Reader String :=
  multilineString '"' true <|> quotedString <|> multilineString '\'' false <|> literalString

/-! ## Keys -/

/-- Characters of keys without quotes. -/
def isBareKeyChar (c : Char) : Bool :=
  c.isAlphanum || c == '_' || c == '-'

/-- One key. -/
def simpleKey : Reader String := do
  match ← peek with
  | some '"' => quotedString
  | some '\'' => literalString
  | _ => do
    let taken ← takeWhile isBareKeyChar
    guard (!taken.isEmpty)
    return String.ofList taken

/-- How many keys a path may have. -/
def keyLimit : Nat := 79

/-- Keys separated by dots, with blanks around them. -/
def dottedKey : Nat → Reader (List String)
  | 0 => failure
  | fuel + 1 => do
    skipWhile isBlank
    let key ← simpleKey
    skipWhile isBlank
    if ← eat '.' then return key :: (← dottedKey fuel)
    else return [key]

/-- A path of keys. -/
def keyPath : Reader (List String) := dottedKey keyLimit

/-! ## Numbers -/

/-- Digits of a class, single underscores between them; the underscores are left out. -/
def groupedDigits (isDigit : Char → Bool) : Nat → Reader (List Char)
  | 0 => failure
  | fuel + 1 => do
    let c ← next
    guard (isDigit c)
    match ← peek with
    | some '_' => do
      let _ ← next
      return c :: (← groupedDigits isDigit fuel)
    | some d => if isDigit d then return c :: (← groupedDigits isDigit fuel) else return [c]
    | none => return [c]

/-- Digits of a class up to the end of their run. -/
def digitRun (isDigit : Char → Bool) : Reader (List Char) := do
  groupedDigits isDigit (← remaining).length

/-- A sign, and whether it is negative. -/
def sign : Reader Bool := do
  if ← eat '-' then return true
  let _ ← eat '+'
  return false

/-- Decimal digits without a zero in front of others. -/
def decimalDigits : Reader (List Char) := do
  if ← eat '0' then return ['0']
  else digitRun Char.isDigit

/-- An integer that fits into 64 bits. -/
def boundedInteger (negative : Bool) (magnitude : Nat) : Reader Value := do
  guard (magnitude ≤ maxOfBits 63 ∨ negative ∧ magnitude = maxOfBits 63 + 1)
  return .integer (if negative then -magnitude else magnitude)

/-- An integer in a base that its first two characters name. -/
def basedInteger (mark : String) (base : Nat) (isDigit : Char → Bool) : Reader Value := do
  guard (← eatText mark)
  boundedInteger false (digitsValue base (← digitRun isDigit))

/-- An integer. -/
def integer : Reader Value :=
  basedInteger "0x" 16 isHexDigit <|>
  basedInteger "0o" 8 (fun c => '0' ≤ c && c ≤ '7') <|>
  basedInteger "0b" 2 (fun c => c == '0' || c == '1') <|>
  (do
    let negative ← sign
    boundedInteger negative (digitsValue 10 (← decimalDigits)))

/-- An exponent of ten. -/
def exponent : Reader Int := do
  guard (← eatIf fun c => c == 'e' || c == 'E')
  let negative ← sign
  let power := digitsValue 10 (← digitRun Char.isDigit)
  return if negative then -power else power

/-- A floating-point number with a fraction or an exponent. One that is too great is refused. -/
def decimalNumber : Reader Value := do
  let negative ← sign
  let whole ← decimalDigits
  let fraction ← if ← eat '.' then some <$> digitRun Char.isDigit else pure none
  let power ← match fraction with
    | none => some <$> exponent
    | some _ => some <$> exponent <|> pure none
  let x := decimalFloat whole (fraction.getD []) (power.getD 0)
  guard (x.isFinite ∨ negative)
  return .float (if negative then -x else x)

/-- Infinity, or the number that is none. -/
def specialNumber : Reader Value := do
  let negative ← sign
  if ← eatText "inf" then return .float (if negative then -1.0 / 0.0 else 1.0 / 0.0)
  guard (← eatText "nan")
  return .float (0.0 / 0.0)

/-- A moment or a number. -/
def number : Reader Value :=
  (return .moment (← moment)) <|> decimalNumber <|> specialNumber <|> integer

end AlgorithmPortfolio.Document.Toml
