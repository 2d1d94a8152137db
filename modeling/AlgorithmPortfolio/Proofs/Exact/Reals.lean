import AlgorithmPortfolio.Arith
import Mathlib.Analysis.SpecialFunctions.Log.Basic

/-!
# Exact arithmetic

Schedules compute with any type of numbers that has the operations of `Arith`. Here that type is
`ℝ`, so that what a schedule computes can be compared with the fractions it stands for.

- `Arith ℝ`: exact operations. Every number is finite, and a half is rounded away from zero.
- `Exact.sum_eq`: the sum from left to right is the sum.
- `Exact.nearest_mono`, `Exact.nearest_intCast`: rounding keeps the order and every integer.
- `Exact.roundingError`: what rounding adds. Of numbers that are not negative it is more than
  `-1/2` and at most `1/2`.
-/

namespace AlgorithmPortfolio

namespace Exact

/-- The nearest integer; a half goes away from zero. -/
noncomputable def nearest (x : ℝ) : ℤ := if 0 ≤ x then ⌊x + 1 / 2⌋ else ⌈x - 1 / 2⌉

end Exact

noncomputable instance : Arith ℝ where
  divide x y := x / y
  ofInt n := (n : ℝ)
  exp := Real.exp
  ln := Real.log
  isFinite _ := true
  lowest := 0
  nearest := Exact.nearest
  decLt := inferInstance
  decLe := inferInstance

namespace Exact

/-! ## Operations -/

@[simp] theorem ofInt_eq (n : ℤ) : (Arith.ofInt n : ℝ) = n := rfl

@[simp] theorem exp_eq (x : ℝ) : Arith.exp x = Real.exp x := rfl

@[simp] theorem ln_eq (x : ℝ) : Arith.ln x = Real.log x := rfl

@[simp] theorem isFinite_eq (x : ℝ) : Arith.isFinite x = true := rfl

@[simp] theorem nearest_eq (x : ℝ) : Arith.nearest x = nearest x := rfl

@[simp] theorem zero_eq : (Arith.zero : ℝ) = 0 := Int.cast_zero

@[simp] theorem one_eq : (Arith.one : ℝ) = 1 := Int.cast_one

/-- The sum from left to right is the sum. -/
@[simp] theorem sum_eq (xs : List ℝ) : Arith.sum xs = xs.sum := by
  rw [List.sum_eq_foldl]
  show xs.foldl (· + ·) (Arith.zero : ℝ) = xs.foldl (· + ·) 0
  rw [zero_eq]

/-! ## Rounding -/

/-- Of numbers that are not negative, a half is rounded up. -/
theorem nearest_of_nonneg {x : ℝ} (h : 0 ≤ x) : nearest x = ⌊x + 1 / 2⌋ := if_pos h

/-- An integer is its own nearest integer. -/
theorem nearest_intCast (n : ℤ) : nearest (n : ℝ) = n := by
  unfold nearest
  split
  · exact Int.floor_eq_iff.mpr ⟨by linarith, by linarith⟩
  · exact Int.ceil_eq_iff.mpr ⟨by linarith, by linarith⟩

@[simp] theorem nearest_zero : nearest 0 = 0 := by
  simpa using nearest_intCast 0

/-- Rounding keeps the order of numbers that are not negative. -/
theorem nearest_mono {x y : ℝ} (hx : 0 ≤ x) (hxy : x ≤ y) : nearest x ≤ nearest y := by
  rw [nearest_of_nonneg hx, nearest_of_nonneg (hx.trans hxy)]
  exact Int.floor_le_floor (by linarith)

/-- What rounding adds to a number. -/
noncomputable def roundingError (x : ℝ) : ℝ := nearest x - x

theorem nearest_eq_add_roundingError (x : ℝ) : (nearest x : ℝ) = x + roundingError x := by
  unfold roundingError
  ring

@[simp] theorem roundingError_zero : roundingError 0 = 0 := by
  simp [roundingError]

/-- Rounding an integer adds nothing. -/
theorem roundingError_intCast (n : ℤ) : roundingError (n : ℝ) = 0 := by
  rw [roundingError, nearest_intCast, sub_self]

/-- Rounding down takes less than a half. -/
theorem neg_half_lt_roundingError {x : ℝ} (h : 0 ≤ x) : -(1 / 2) < roundingError x := by
  have := Int.lt_floor_add_one (x + 1 / 2)
  rw [roundingError, nearest_of_nonneg h]
  linarith

/-- Rounding up adds at most a half. -/
theorem roundingError_le_half {x : ℝ} (h : 0 ≤ x) : roundingError x ≤ 1 / 2 := by
  have := Int.floor_le (x + 1 / 2)
  rw [roundingError, nearest_of_nonneg h]
  linarith

end Exact

end AlgorithmPortfolio
