import AlgorithmPortfolio.Binary64.Nearest

/-!
# Numbers that schedules are computed with

Progress, priors and votes are computed over any type of numbers with the operations below:
64-bit floating point when a schedule runs, another type when a law of exact arithmetic is
stated.

- `Arith α`: the operations.
- `Arith Float`: 64-bit floating point.
- `Arith.sum`, `Arith.uniform`: sums from left to right and equal shares.
-/

namespace AlgorithmPortfolio

/-- The operations on numbers that schedules use. -/
class Arith (α : Type) extends Add α, Sub α, Mul α, LT α, LE α where
  /-- The quotient of two numbers. -/
  divide : α → α → α
  /-- The number of an integer. -/
  ofInt : Int → α
  /-- The exponential function. -/
  exp : α → α
  /-- The natural logarithm. -/
  ln : α → α
  /-- Whether a number is neither infinite nor undefined. -/
  isFinite : α → Bool
  /-- The greatest lower bound of all numbers, where there is one. -/
  lowest : α
  /-- The nearest integer; a half goes away from zero. Floating point has a limit in 64 bits,
  and an undefined number counts as 0. -/
  nearest : α → Int
  decLt : DecidableLT α
  decLe : DecidableLE α

namespace Arith

variable {α : Type} [Arith α]

-- a division that a type has in another way comes first
instance (priority := low) : Div α := ⟨divide⟩

instance : DecidableLT α := decLt
instance : DecidableLE α := decLe

/-- The number 0. -/
def zero : α := ofInt 0

/-- The number 1. -/
def one : α := ofInt 1

/-- The sum of a list, added from left to right. -/
def sum (xs : List α) : α := xs.foldl (· + ·) zero

/-- `count` equal shares of 1. -/
def uniform (count : Nat) : List α := List.replicate count (one / ofInt (max count 1))

@[simp] theorem length_uniform (count : Nat) : (uniform count : List α).length = count := by
  simp [uniform]

end Arith

instance : Arith Float where
  divide := Float.div
  ofInt := Float.ofInt
  exp := Float.exp
  ln := Float.log
  isFinite := Float.isFinite
  lowest := -1.0 / 0.0
  nearest := Binary64.nearest
  decLt := inferInstance
  decLe := inferInstance

end AlgorithmPortfolio
