/-!
# Numbers of so many bits

- `maxOfBits`: the greatest number that a number of bits can hold.
-/

namespace AlgorithmPortfolio

/-- The greatest number of `count` bits. -/
def maxOfBits (count : Nat) : Nat := Nat.pow 2 count - 1

end AlgorithmPortfolio
