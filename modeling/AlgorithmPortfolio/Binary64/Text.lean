import AlgorithmPortfolio.Binary64.Digits

/-!
# Texts of binary floating-point numbers

A finite 64-bit number is a signed mantissa times a power of two; its texts are computed from
that exact value.

- `View`, `view`: the parts of a number, from its bits.
- `rounded`: scientific notation with a fixed number of digits, correctly rounded.
- `fixed`: a fixed number of decimal places.
- `positional`, `compact`: the fewest digits that read back as the same number, with a decimal
  point, or with an exponent where the number is very small or very large.
- `ofDecimal`: the nearest number of a decimal.
-/

namespace AlgorithmPortfolio.Binary64

/-! ## Parts -/

/-- A number as its bits show it; a finite one has the magnitude `mantissa * 2 ^ exponent`. -/
inductive View
  | nan
  | infinite (negative : Bool)
  | finite (negative : Bool) (mantissa : Nat) (exponent : Int)
  deriving Repr

/-- The value of the sign's bit. -/
def signPlace : Nat := 0x8000000000000000

/-- The number of fractions, and the least mantissa of a normal number. -/
def fractionCount : Nat := 0x10000000000000

/-- Read a bit pattern. -/
def viewBits (bits : UInt64) : View :=
  let n := bits.toNat
  let negative := decide (n / signPlace = 1)
  let field : Nat := n / fractionCount % 2048
  let fraction : Nat := n % fractionCount
  if field = 2047 then (if fraction = 0 then .infinite negative else .nan)
  else if field = 0 then .finite negative fraction (-1074)
  else .finite negative (fraction + fractionCount) ((field : Int) - 1075)

/-- The parts of a number. -/
def view (x : Float) : View := viewBits x.toBits

/-- The magnitude `mantissa * 2 ^ exponent` as a ratio. -/
def magnitude (mantissa : Nat) (exponent : Int) : Nat × Nat :=
  if 0 ≤ exponent then (mantissa <<< exponent.toNat, 1) else (mantissa, 1 <<< (-exponent).toNat)

/-- Whether `multiple * 10 ^ e` reads back as `mantissa * 2 ^ exponent`: it lies at most half a
step away, and at exactly half a step only from an even mantissa. The step below a power of two
is half as wide. -/
def readsBack (mantissa : Nat) (exponent : Int) (multiple : Nat) (e : Int) : Bool :=
  let unit := magnitude 1 exponent
  let value := if 0 ≤ e then (multiple * powerOfTen e.toNat, 1)
    else (multiple, powerOfTen (-e).toNat)
  -- four times the value in steps, as a ratio
  let num := 4 * value.1 * unit.2
  let den := value.2 * unit.1
  let belowWidth := if mantissa = fractionCount ∧ -1074 < exponent then 1 else 2
  let low := (4 * mantissa - belowWidth) * den
  let high := (4 * mantissa + 2) * den
  if mantissa % 2 = 0 then low ≤ num && num ≤ high else low < num && num < high

/-- The shortest decimal of a positive magnitude. -/
def shortestOf (mantissa : Nat) (exponent : Int) : Decimal :=
  let ratio := magnitude mantissa exponent
  Decimal.shortest (readsBack mantissa exponent) ratio.1 ratio.2

/-! ## Layouts -/

/-- The sign of a text. -/
def signText (negative : Bool) : List Char := if negative then ['-'] else []

/-- Digits with a point after the first one and a power of ten. -/
def scientificLayout (d : Decimal) : List Char :=
  match d.digits with
  | [] => []
  | lead :: rest =>
    (if rest.isEmpty then [lead] else lead :: '.' :: rest) ++ ['e'] ++ (toString d.exponent).toList

/-- Digits with a point and at least one digit on each side of it. -/
def pointLayout (d : Decimal) : List Char :=
  let count : Int := d.digits.length
  if d.exponent < 0 then
    ['0', '.'] ++ List.replicate (-d.exponent - 1).toNat '0' ++ d.digits
  else if count ≤ d.exponent + 1 then
    d.digits ++ List.replicate (d.exponent + 1 - count).toNat '0' ++ ['.', '0']
  else
    let whole := (d.exponent + 1).toNat
    d.digits.take whole ++ ['.'] ++ d.digits.drop whole

/-! ## Texts -/

/-- The text of a number, with `layout` for the digits of a finite magnitude. -/
def textWith (nan : String) (layout : Nat → Int → List Char) (x : Float) : String :=
  match view x with
  | .nan => nan
  | .infinite negative => if negative then "-inf" else "inf"
  | .finite negative mantissa exponent =>
    String.ofList (signText negative ++ layout mantissa exponent)

/-- The shortest decimal of a magnitude; zero has one digit. -/
def shortestDecimal (mantissa : Nat) (exponent : Int) : Decimal :=
  if mantissa = 0 then ⟨['0'], 0⟩ else shortestOf mantissa exponent

/-- Scientific notation with `count` significant digits; zero has the exponent 0. -/
def rounded (count : Nat) : Float → String :=
  textWith "NaN" fun mantissa exponent =>
    if mantissa = 0 then scientificLayout ⟨List.replicate count '0', 0⟩
    else
      let ratio := magnitude mantissa exponent
      scientificLayout (Decimal.ofRatio count ratio.1 ratio.2)

/-- Decimal places, correctly rounded. -/
def fixed (places : Nat) : Float → String :=
  textWith "NaN" fun mantissa exponent =>
    let ratio := magnitude mantissa exponent
    let digits := Nat.toDigits 10 (roundDiv (ratio.1 * powerOfTen places) ratio.2)
    let padded := List.replicate (places + 1 - digits.length) '0' ++ digits
    let whole := padded.length - places
    padded.take whole ++ ['.'] ++ padded.drop whole

/-- The shortest digits around a decimal point, whatever the magnitude. -/
def positional : Float → String :=
  textWith "nan" fun mantissa exponent => pointLayout (shortestDecimal mantissa exponent)

/-- The shortest digits, around a decimal point from `10 ^ -4` to below `10 ^ 16` and with an
exponent elsewhere. -/
def compact : Float → String :=
  textWith "NaN" fun mantissa exponent =>
    let decimal := shortestDecimal mantissa exponent
    if -4 ≤ decimal.exponent ∧ decimal.exponent < 16 then pointLayout decimal
    else scientificLayout decimal

/-! ## Reading -/

/-- The number nearest to `mantissa * 10 ^ exponent`. Exponents beyond the range of all numbers
are decided by the position of the leading digit. -/
def ofDecimal (mantissa : Nat) (exponent : Int) : Float :=
  if mantissa = 0 then 0
  else
    let lead := exponent + digitCount mantissa
    if 310 < lead then 1.0 / 0.0
    else if lead < -330 then 0
    else Float.ofScientific mantissa (decide (exponent < 0)) exponent.natAbs

end AlgorithmPortfolio.Binary64
