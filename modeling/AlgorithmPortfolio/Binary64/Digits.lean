/-!
# Decimal digits of exact ratios

Decimal expansions of ratios of natural numbers, in exact arithmetic.

- `roundDiv`: a quotient rounded to the nearest integer, a half to the even one.
- `decimalExponent`: the power of ten of the leading digit.
- `Decimal`: a digit string and the power of ten of its leading digit.
- `Decimal.ofRatio`: a given number of leading digits, correctly rounded.
- `Decimal.shortest`: the fewest digits that fall into an interval around the ratio, and the
  nearest of those.
-/

namespace AlgorithmPortfolio.Binary64

/-! ## Rounded quotients -/

/-- The ratio `num / den` rounded to the nearest integer; a half goes to the even neighbour. -/
def roundDiv (num den : Nat) : Nat :=
  let floor := num / den
  let twice := 2 * (num % den)
  if twice < den then floor
  else if den < twice then floor + 1
  else if floor % 2 = 0 then floor else floor + 1

/-! ## Powers of ten -/

/-- A power of ten. -/
def powerOfTen (exponent : Nat) : Nat := Nat.pow 10 exponent

/-- The number of decimal digits of a number; one for zero. -/
def digitCount (n : Nat) : Nat := (Nat.toDigits 10 n).length

/-- The greatest `e` with `10 ^ e ≤ num / den`, for a positive ratio. -/
def decimalExponent (num den : Nat) : Int :=
  if den ≤ num then (digitCount (num / den) : Int) - 1
  else
    -- below one the inverse has the digits, and is off by one unless it is a power of ten
    let d := digitCount (den / num)
    if den ≤ num * powerOfTen (d - 1) then 1 - (d : Int) else -(d : Int)

/-- The ratio divided by a power of ten, as a ratio. -/
def scaleDown (num den : Nat) (e : Int) : Nat × Nat :=
  if 0 ≤ e then (num, den * powerOfTen e.toNat) else (num * powerOfTen (-e).toNat, den)

/-! ## Digit strings -/

/-- Decimal digits, the leading one first, and the power of ten of the leading digit. -/
structure Decimal where
  digits : List Char
  exponent : Int
  deriving Repr

/-- The first `count` digits of a positive ratio, correctly rounded. A carry out of the leading
digit raises the exponent. -/
def Decimal.ofRatio (count num den : Nat) : Decimal :=
  let e := decimalExponent num den
  let scaled := scaleDown num den (e - (count - 1 : Nat))
  let digits := roundDiv scaled.1 scaled.2
  if digits = powerOfTen count then ⟨Nat.toDigits 10 (powerOfTen (count - 1)), e + 1⟩
  else ⟨Nat.toDigits 10 digits, e⟩

/-- The digits without zeros at their end. -/
def trimZeros (digits : List Char) : List Char :=
  (digits.reverse.dropWhile (· == '0')).reverse

/-- Of the two multiples of `10 ^ e` next to the ratio `num / den`, the nearer one that
`accepts` holds of; at equal distance the greater one. -/
def nearestMultiple (accepts : Nat → Int → Bool) (num den : Nat) (e : Int) : Option Nat :=
  let scaled := scaleDown num den e
  let below := scaled.1 / scaled.2
  let above := below + 1
  let lowFits := 0 < below && accepts below e
  let highFits := accepts above e
  if lowFits && highFits then
    if 2 * (scaled.1 % scaled.2) < scaled.2 then some below else some above
  else if lowFits then some below
  else if highFits then some above
  else none

/-- The fewest digits of a decimal that `accepts` holds of (a multiple and its power of ten),
looking at one digit first and at most at as many as there are counts. -/
def Decimal.shortestOf (accepts : Nat → Int → Bool) (num den : Nat) (e : Int) :
    List Nat → Option Decimal
  | [] => none
  | count :: more =>
    match nearestMultiple accepts num den (e - (count - 1 : Nat)) with
    | some multiple =>
      let digits := Nat.toDigits 10 multiple
      some ⟨trimZeros digits, e - (count - 1 : Nat) + (digits.length - 1 : Nat)⟩
    | none => shortestOf accepts num den e more

/-- The shortest decimal next to a positive ratio that `accepts` holds of, with at most
seventeen digits; seventeen rounded digits if there is none. -/
def Decimal.shortest (accepts : Nat → Int → Bool) (num den : Nat) : Decimal :=
  (shortestOf accepts num den (decimalExponent num den) (List.range' 1 17)).getD
    (ofRatio 17 num den)

end AlgorithmPortfolio.Binary64
