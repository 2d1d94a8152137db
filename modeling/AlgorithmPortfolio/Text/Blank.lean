/-!
# Blanks

- `isBlank`: the characters that stand for white space.
- `trim`: a text without blanks at its ends.
-/

namespace AlgorithmPortfolio.Text

/-- The characters with the White_Space property, as ranges of code points. -/
def blankRanges : List (Nat × Nat) :=
  [(0x09, 0x0d), (0x20, 0x20), (0x85, 0x85), (0xa0, 0xa0), (0x1680, 0x1680), (0x2000, 0x200a),
    (0x2028, 0x2029), (0x202f, 0x202f), (0x205f, 0x205f), (0x3000, 0x3000)]

/-- Whether a character is a blank. -/
def isBlank (c : Char) : Bool := blankRanges.any fun range => range.1 ≤ c.toNat && c.toNat ≤ range.2

/-- A text without blanks at its ends. -/
def trim (cs : List Char) : List Char := ((cs.dropWhile isBlank).reverse.dropWhile isBlank).reverse

example : (List.range 128).filter (fun n => isBlank (Char.ofNat n)) = [9, 10, 11, 12, 13, 32] := by
  decide

end AlgorithmPortfolio.Text
