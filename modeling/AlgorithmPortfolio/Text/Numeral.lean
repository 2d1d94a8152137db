/-!
# Unsigned decimal numerals

A numeral is an optional plus sign and at least one digit; leading zeros are allowed.

- `NumeralFault`: why a text is not a numeral within a bound.
- `readDigits`: digits from left to right, so the first faulty character decides the fault.
- `readNumeral`: a whole numeral. A sign that stands alone is a faulty digit.
-/

namespace AlgorithmPortfolio.Text

/-- Why a text is not a numeral within a bound. -/
inductive NumeralFault
  | empty
  | notADigit
  | tooLarge
  deriving DecidableEq, Repr

/-- The wording of a fault. -/
def NumeralFault.message : NumeralFault → String
  | .empty => "cannot parse integer from empty string"
  | .notADigit => "invalid digit found in string"
  | .tooLarge => "number too large to fit in target type"

/-- The value of a decimal digit. -/
def digitValue? (c : Char) : Option Nat :=
  if c.isDigit then some (c.toNat - '0'.toNat) else none

/-- Append digits to `acc`; every value on the way has to be at most `bound`. -/
def readDigits (bound acc : Nat) : List Char → Except NumeralFault Nat
  | [] => .ok acc
  | c :: rest =>
    match digitValue? c with
    | none => .error .notADigit
    | some d =>
      if 10 * acc + d ≤ bound then readDigits bound (10 * acc + d) rest else .error .tooLarge

/-- The value of a numeral that is at most `bound`. -/
def readNumeral (bound : Nat) : List Char → Except NumeralFault Nat
  | [] => .error .empty
  | ['+'] => .error .notADigit
  | '+' :: rest => readDigits bound 0 rest
  | cs => readDigits bound 0 cs

end AlgorithmPortfolio.Text
