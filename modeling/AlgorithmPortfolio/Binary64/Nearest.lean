import AlgorithmPortfolio.Binary64.Text
import AlgorithmPortfolio.Bits

/-!
# Integers nearest to binary floating-point numbers

- `nearestOfRatio`: the nearest integer of a ratio; a half goes up.
- `nearest`: the nearest integer of a number, computed from its exact value.
-/

namespace AlgorithmPortfolio.Binary64

/-- The ratio `num / den` rounded to the nearest integer; a half goes up. -/
def nearestOfRatio (num den : Nat) : Nat := (2 * num + den) / (2 * den)

/-- The greatest and the least signed integer of 64 bits. -/
def greatestWord : Int := maxOfBits 63

@[inherit_doc greatestWord]
def leastWord : Int := -greatestWord - 1

/-- The nearest integer; a half goes away from zero. Integers are cut to 64 bits, and an
undefined number counts as 0. -/
def nearest (x : Float) : Int :=
  match view x with
  | .nan => 0
  | .infinite negative => if negative then leastWord else greatestWord
  | .finite negative mantissa exponent =>
    let ratio := magnitude mantissa exponent
    let n : Int := nearestOfRatio ratio.1 ratio.2
    max leastWord (min (if negative then -n else n) greatestWord)

end AlgorithmPortfolio.Binary64
